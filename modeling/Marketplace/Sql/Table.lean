import Mathlib.Data.List.Nodup
import Mathlib.Algebra.BigOperators.Group.List.Basic
import Mathlib.Tactic

/-!
# Keyed tables

A table of a relational store, as far as a program sees it: rows in insertion
order, each under its primary key, no key twice. The key constraint is a field of
`Table`, so that no operation has to re-establish it and every
aggregate below may use it.

The operations are the ones a service performs on a row it knows the key
of: `Table.get?` (`SELECT … WHERE id = k`), `Table.insert`
(`INSERT`, which leaves the table alone when the key is taken),
`Table.modify` (`UPDATE … WHERE id = k`) and `Table.erase` (`DELETE … WHERE id = k`). The aggregate `Table.sum` is
`SELECT SUM(f)`; what an insertion and an update do to it is
`Table.sum_insert` and `Table.sum_modify`, and these are the only facts about sums the
modules above ever use.
-/

namespace Sql

/-- Rows under pairwise distinct keys, in insertion order. -/
@[ext] structure Table (K V : Type) where
  /-- The rows, oldest first. -/
  rows : List (K × V)
  /-- The primary key constraint. -/
  nodup : (rows.map Prod.fst).Nodup

namespace Table

variable {K V : Type} [DecidableEq K]

/-- The table without rows. -/
def empty : Table K V := ⟨[], List.nodup_nil⟩

instance : Inhabited (Table K V) := ⟨empty⟩

/-- The row under key `k`. -/
def get? (t : Table K V) (k : K) : Option V := t.rows.lookup k

/-- Add a row; a taken key leaves the table as it is. -/
def insert (t : Table K V) (k : K) (v : V) : Table K V :=
  if h : k ∈ t.rows.map Prod.fst then t
  else ⟨t.rows ++ [(k, v)], by
    rw [List.map_append, List.nodup_append]
    refine ⟨t.nodup, by simp, fun a ha b hb hab => ?_⟩
    have hbk : b = k := by simpa using hb
    exact h (hbk ▸ hab ▸ ha)⟩

/-- Rewrite the row under key `k`, if there is one. -/
def modify (t : Table K V) (k : K) (f : V → V) : Table K V :=
  ⟨t.rows.map fun r => if r.1 = k then (r.1, f r.2) else r, by
    have h : (t.rows.map fun r => if r.1 = k then (r.1, f r.2) else r).map Prod.fst =
        t.rows.map Prod.fst := by
      rw [List.map_map]
      refine List.map_congr_left fun r _ => ?_
      by_cases hk : r.1 = k <;> simp [hk]
    rw [h]
    exact t.nodup⟩

/-- Rewrite the rows under the keys `ks`. -/
def modifyAll (t : Table K V) (ks : List K) (f : V → V) : Table K V :=
  ⟨t.rows.map fun r => if r.1 ∈ ks then (r.1, f r.2) else r, by
    have h : (t.rows.map fun r => if r.1 ∈ ks then (r.1, f r.2) else r).map Prod.fst = t.rows.map Prod.fst := by
      rw [List.map_map]
      refine List.map_congr_left fun r _ => ?_
      by_cases hk : r.1 ∈ ks <;> simp [hk]
    rw [h]
    exact t.nodup⟩

/-- Remove the row under key `k`, if there is one. -/
def erase (t : Table K V) (k : K) : Table K V :=
  ⟨t.rows.filter fun r => r.1 ≠ k, t.nodup.sublist (List.filter_sublist.map Prod.fst)⟩

/-- The sum of `f` over the rows. -/
def sum {M : Type} [AddMonoid M] (t : Table K V) (f : K → V → M) : M :=
  (t.rows.map fun r => f r.1 r.2).sum

/-! ### Looking a row up -/

omit [DecidableEq K] in
@[simp] theorem rows_empty : (empty : Table K V).rows = [] := rfl

@[simp] theorem get?_empty (k : K) : (empty : Table K V).get? k = none := rfl

/-- A list with distinct keys holds a pair exactly when looking its key up finds it. -/
theorem lookup_eq_some_iff {l : List (K × V)} (hl : (l.map Prod.fst).Nodup) {k : K} {v : V} :
    l.lookup k = some v ↔ (k, v) ∈ l := by
  induction l with
  | nil => simp
  | cons r l ih =>
    obtain ⟨k', v'⟩ := r
    rw [List.map_cons, List.nodup_cons] at hl
    rw [List.lookup_cons, List.mem_cons]
    by_cases hk : k = k'
    · subst hk
      have hnot : (k, v) ∉ l := fun h => hl.1 (List.mem_map.mpr ⟨_, h, rfl⟩)
      simp [hnot, eq_comm]
    · have hb : (k == k') = false := by simpa using hk
      simp [hb, ih hl.2, hk]

theorem get?_eq_some_iff {t : Table K V} {k : K} {v : V} :
    t.get? k = some v ↔ (k, v) ∈ t.rows := lookup_eq_some_iff t.nodup

theorem get?_eq_none_iff {t : Table K V} {k : K} :
    t.get? k = none ↔ k ∉ t.rows.map Prod.fst := by
  constructor
  · intro h hk
    obtain ⟨⟨k', v⟩, hr, rfl⟩ := List.mem_map.mp hk
    rw [get?_eq_some_iff.mpr hr] at h
    exact absurd h (by simp)
  · intro h
    rcases hg : t.get? k with _ | v
    · rfl
    · exact absurd (List.mem_map.mpr ⟨_, get?_eq_some_iff.mp hg, rfl⟩) h

/-! ### What the operations do to a look-up -/

theorem get?_modify (t : Table K V) (k k' : K) (f : V → V) :
    (t.modify k f).get? k' = if k' = k then (t.get? k').map f else t.get? k' := by
  obtain ⟨rows, hnd⟩ := t
  simp only [get?, modify]
  clear hnd
  induction rows with
  | nil => simp
  | cons r l ih =>
    obtain ⟨a, v⟩ := r
    rw [List.map_cons]
    by_cases ha : a = k
    · subst ha
      rw [if_pos rfl, List.lookup_cons, List.lookup_cons]
      by_cases hk : k' = a
      · simp [hk]
      · have hb : (k' == a) = false := by simpa using hk
        simp only [hb, ih, hk, if_false]
    · rw [if_neg ha, List.lookup_cons, List.lookup_cons]
      by_cases hk : k' = a
      · subst hk
        simp [ha]
      · have hb : (k' == a) = false := by simpa using hk
        simp only [hb, ih]

@[simp] theorem get?_modify_self (t : Table K V) (k : K) (f : V → V) :
    (t.modify k f).get? k = (t.get? k).map f := by rw [get?_modify, if_pos rfl]

theorem get?_modify_of_ne (t : Table K V) {k k' : K} (h : k' ≠ k) (f : V → V) :
    (t.modify k f).get? k' = t.get? k' := by rw [get?_modify, if_neg h]

theorem get?_modifyAll (t : Table K V) (ks : List K) (k : K) (f : V → V) :
    (t.modifyAll ks f).get? k = if k ∈ ks then (t.get? k).map f else t.get? k := by
  refine Option.ext fun v => ?_
  have hrows : (t.modifyAll ks f).get? k = some v ↔ ∃ r ∈ t.rows, (if r.1 ∈ ks then (r.1, f r.2) else r) = (k, v) :=
    get?_eq_some_iff.trans List.mem_map
  rw [hrows]
  split_ifs with hk
  · rw [Option.map_eq_some_iff]
    constructor
    · rintro ⟨⟨k', v'⟩, hr, h⟩
      dsimp only at h
      split_ifs at h with hk'
      · obtain ⟨rfl, rfl⟩ := Prod.mk.inj h
        exact ⟨v', get?_eq_some_iff.mpr hr, rfl⟩
      · exact absurd ((Prod.mk.inj h).1 ▸ hk) hk'
    · rintro ⟨v', hv', rfl⟩
      exact ⟨(k, v'), get?_eq_some_iff.mp hv', if_pos hk⟩
  · rw [get?_eq_some_iff]
    constructor
    · rintro ⟨⟨k', v'⟩, hr, h⟩
      dsimp only at h
      split_ifs at h with hk'
      · exact absurd ((Prod.mk.inj h).1 ▸ hk') hk
      · exact h ▸ hr
    · exact fun hr => ⟨(k, v), hr, if_neg hk⟩

/-- An update of a row that is not there does nothing. -/
theorem modify_of_none {t : Table K V} {k : K} (h : t.get? k = none) (f : V → V) : t.modify k f = t := by
  refine Table.ext ?_
  rw [get?_eq_none_iff] at h
  refine (List.map_congr_left fun r hr => if_neg fun hk => h ?_).trans t.rows.map_id
  exact List.mem_map.mpr ⟨r, hr, hk⟩

/-- An update that leaves the row as it is does nothing. -/
theorem modify_eq_self {t : Table K V} {k : K} {f : V → V} (h : ∀ v, t.get? k = some v → f v = v) :
    t.modify k f = t := by
  refine Table.ext ((List.map_congr_left fun r hr => ?_).trans t.rows.map_id)
  obtain ⟨k', v⟩ := r
  by_cases hk : k' = k
  · subst hk
    rw [if_pos rfl, h v (get?_eq_some_iff.mpr hr), id]
  · exact if_neg hk

theorem get?_erase (t : Table K V) (k k' : K) :
    (t.erase k).get? k' = if k' = k then none else t.get? k' := by
  by_cases hk : k' = k
  · rw [if_pos hk, get?_eq_none_iff, erase]
    rintro hmem
    obtain ⟨r, hr, rfl⟩ := List.mem_map.mp hmem
    exact absurd hk (by simpa using (List.mem_filter.mp hr).2)
  · rw [if_neg hk]
    rcases hg : t.get? k' with _ | v
    · rw [get?_eq_none_iff, erase]
      rw [get?_eq_none_iff] at hg
      exact fun hmem => hg ((List.filter_sublist.map Prod.fst).subset hmem)
    · rw [get?_eq_some_iff] at hg ⊢
      exact List.mem_filter.mpr ⟨hg, by simpa using hk⟩

theorem rows_insert {t : Table K V} {k : K} (h : t.get? k = none) (v : V) :
    (t.insert k v).rows = t.rows ++ [(k, v)] := by
  rw [insert, dif_neg (get?_eq_none_iff.mp h)]

/-- An update of the row just added. -/
theorem modify_insert {t : Table K V} {k : K} (h : t.get? k = none) (v : V) (f : V → V) :
    (t.insert k v).modify k f = t.insert k (f v) := by
  have hrows : (t.modify k f).rows = t.rows := by rw [modify_of_none h]
  refine Table.ext ?_
  change (t.insert k v).rows.map (fun r => if r.1 = k then (r.1, f r.2) else r) = _
  rw [rows_insert h, rows_insert h, List.map_append]
  exact congrArg₂ (· ++ ·) hrows (by simp)

theorem get?_insert {t : Table K V} {k : K} (h : t.get? k = none) (v : V) (k' : K) :
    (t.insert k v).get? k' = if k' = k then some v else t.get? k' := by
  have hr := rows_insert h v
  by_cases hk : k' = k
  · subst hk
    rw [if_pos rfl, get?_eq_some_iff, hr]
    simp
  · rw [if_neg hk]
    rcases hg : t.get? k' with _ | u
    · rw [get?_eq_none_iff, hr]
      rw [get?_eq_none_iff] at hg
      rw [List.map_append, List.mem_append]
      rintro (h' | h')
      · exact hg h'
      · exact hk (by simpa using h')
    · rw [get?_eq_some_iff, hr]
      rw [get?_eq_some_iff] at hg
      exact List.mem_append_left _ hg

/-- What an insertion does to a row depends on that row only. -/
theorem get?_insert_eq (t : Table K V) (k : K) (v : V) (k' : K) :
    (t.insert k v).get? k' = if k' = k then some ((t.get? k).getD v) else t.get? k' := by
  rcases hg : t.get? k with _ | u
  · rw [get?_insert hg, Option.getD_none]
  · have hmem : k ∈ t.rows.map Prod.fst :=
      List.mem_map.mpr ⟨_, get?_eq_some_iff.mp hg, rfl⟩
    rw [insert, dif_pos hmem, Option.getD_some]
    by_cases hk : k' = k
    · rw [if_pos hk, hk, hg]
    · rw [if_neg hk]

@[simp] theorem get?_insert_self {t : Table K V} {k : K} (h : t.get? k = none) (v : V) :
    (t.insert k v).get? k = some v := by rw [get?_insert h, if_pos rfl]

theorem get?_insert_of_ne {t : Table K V} {k k' : K} (hk : k' ≠ k) (v : V) :
    (t.insert k v).get? k' = t.get? k' := by rw [get?_insert_eq, if_neg hk]

/-- A row that has been erased is not there, and the others were. -/
theorem get?_of_erase {t : Table K V} {k l : K} {w : V} (hl : (t.erase k).get? l = some w) :
    l ≠ k ∧ t.get? l = some w := by
  rw [get?_erase] at hl
  split_ifs at hl with he
  exact ⟨he, hl⟩

/-- A row is the one that was added, or was there. -/
theorem get?_of_insert {t : Table K V} {k l : K} {v w : V} (h : t.get? k = none)
    (hl : (t.insert k v).get? l = some w) : l = k ∧ w = v ∨ t.get? l = some w := by
  rw [get?_insert h] at hl
  split_ifs at hl with he
  · exact .inl ⟨he, (Option.some.inj hl).symm⟩
  · exact .inr hl

/-- The rows that were there stay. -/
theorem stay_insert {t : Table K V} {k l : K} {w : V} (h : t.get? k = none) (v : V) (hl : t.get? l = some w) :
    (t.insert k v).get? l = some w := by
  rw [get?_insert h, if_neg, hl]
  rintro rfl
  rw [h] at hl
  cases hl

/-! ### Sums -/

section Sums

variable {M : Type} [AddCommMonoid M]

omit [DecidableEq K] in
@[simp] theorem sum_empty (f : K → V → M) : (empty : Table K V).sum f = 0 := rfl

/-- **An update moves a sum by what it does to its own row.** Stated without subtraction, so
that it serves counts as well as amounts. -/
theorem sum_modify {t : Table K V} {k : K} {v : V} (h : t.get? k = some v) (g : V → V)
    (f : K → V → M) : (t.modify k g).sum f + f k v = t.sum f + f k (g v) := by
  obtain ⟨rows, hnd⟩ := t
  simp only [get?, modify, sum] at h ⊢
  induction rows with
  | nil => simp at h
  | cons r l ih =>
    obtain ⟨a, u⟩ := r
    rw [List.map_cons, List.nodup_cons] at hnd
    rw [List.lookup_cons] at h
    simp only [List.map_cons, List.sum_cons]
    by_cases ha : k = a
    · subst ha
      have hv : u = v := by simpa using h
      subst hv
      have hrest : (l.map fun r => if r.1 = k then (r.1, g r.2) else r) = l := by
        conv_rhs => rw [← List.map_id l]
        refine List.map_congr_left fun r hr => ?_
        have : r.1 ≠ k := fun he => hnd.1 (List.mem_map.mpr ⟨r, hr, he⟩)
        simp [this]
      rw [hrest, if_pos rfl]
      exact add_right_comm _ _ _ |>.trans (by rw [add_comm (f k (g u)), add_assoc, add_right_comm,
        add_assoc])
    · have hb : (k == a) = false := by simpa using ha
      rw [hb] at h
      have ha' : ¬a = k := fun he => ha he.symm
      rw [if_neg ha', add_assoc, ih hnd.2 h, add_assoc]

theorem sum_insert {t : Table K V} {k : K} (h : t.get? k = none) (v : V) (f : K → V → M) :
    (t.insert k v).sum f = t.sum f + f k v := by
  simp only [sum, rows_insert h, List.map_append, List.sum_append]
  simp

/-- Two summands that agree on the rows have the same sum. -/
theorem sum_congr {t : Table K V} {f g : K → V → M}
    (h : ∀ k v, t.get? k = some v → f k v = g k v) : t.sum f = t.sum g := by
  refine congrArg List.sum (List.map_congr_left fun r hr => ?_)
  exact h r.1 r.2 (get?_eq_some_iff.mpr hr)

theorem sum_eq_zero {t : Table K V} {f : K → V → M}
    (h : ∀ k v, t.get? k = some v → f k v = 0) : t.sum f = 0 := by
  rw [sum_congr h]
  simp [sum]

section Order

variable [PartialOrder M] [IsOrderedAddMonoid M]

theorem sum_le_sum {t : Table K V} {f g : K → V → M}
    (h : ∀ k v, t.get? k = some v → f k v ≤ g k v) : t.sum f ≤ t.sum g := by
  refine List.sum_le_sum fun r hr => ?_
  exact h r.1 r.2 (get?_eq_some_iff.mpr hr)

theorem sum_nonneg {t : Table K V} {f : K → V → M}
    (h : ∀ k v, t.get? k = some v → 0 ≤ f k v) : 0 ≤ t.sum f := by
  have hle := sum_le_sum (f := fun _ _ => 0) h
  rwa [sum_eq_zero fun _ _ _ => rfl] at hle

/-- **A table with fewer rows that count has a smaller sum.** -/
theorem sum_le_sum_of_get? {t t' : Table K V} {f : K → V → M} (hf : ∀ k v, 0 ≤ f k v)
    (h : ∀ k v, t.get? k = some v → f k v = 0 ∨ t'.get? k = some v) : t.sum f ≤ t'.sum f := by
  classical
  let g : K × V → M := fun r => f r.1 r.2
  -- The rows of `t` that count are rows of `t'`.
  have hzero : t.sum f = ((t.rows.filter fun r => decide (g r ≠ 0)).map g).sum := by
    change (t.rows.map g).sum = _
    clear h
    induction t.rows with
    | nil => rfl
    | cons r rows ih =>
      by_cases hr : g r = 0
      · rw [List.map_cons, List.sum_cons, hr, zero_add, ih, List.filter_cons_of_neg (by simp [hr])]
      · rw [List.map_cons, List.sum_cons, ih, List.filter_cons_of_pos (by simp [hr]), List.map_cons,
          List.sum_cons]
  have hsub : (t.rows.filter fun r => decide (g r ≠ 0)) ⊆ t'.rows := by
    intro r hr
    obtain ⟨hmem, hne⟩ := List.mem_filter.mp hr
    exact get?_eq_some_iff.mp ((h r.1 r.2 (get?_eq_some_iff.mpr hmem)).resolve_left (of_decide_eq_true hne))
  obtain ⟨l, hperm, hl⟩ := List.subperm_of_subset (t.nodup.of_map.filter _) hsub
  rw [hzero, ← (hperm.map g).sum_eq]
  refine (hl.map g).sum_le_sum fun x hx => ?_
  obtain ⟨r, -, rfl⟩ := List.mem_map.mp hx
  exact hf r.1 r.2

end Order

end Sums

end Table

end Sql
