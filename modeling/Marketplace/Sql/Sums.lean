import Marketplace.Sql.Table
import Mathlib.Algebra.BigOperators.Group.Finset.Basic
import Mathlib.Algebra.Order.BigOperators.Group.Finset

/-!
# Sums over two tables

`sum_le_sum_of_inj` compares the sums of two tables where every row of the first that counts has a row of
the second to itself, that is worth no less.
-/

namespace Sql.Table

variable {K L V W M : Type} [DecidableEq K] [DecidableEq L] [AddCommMonoid M]

omit [DecidableEq K] in
theorem sum_add (t : Table K V) (f g : K → V → M) : (t.sum fun k v => f k v + g k v) = t.sum f + t.sum g :=
  List.sum_map_add

variable [PartialOrder M] [IsOrderedAddMonoid M]

/-- **Rows that have each a row of the other table to itself.** -/
theorem sum_le_sum_of_inj {t : Table K V} {u : Table L W} {f : K → V → M} {g : L → W → M} (φ : K → V → L)
    (hg : ∀ l w, u.get? l = some w → 0 ≤ g l w)
    (h : ∀ k v, t.get? k = some v → f k v ≤ 0 ∨ ∃ w, u.get? (φ k v) = some w ∧ f k v ≤ g (φ k v) w)
    (hinj : ∀ k k' v v', t.get? k = some v → t.get? k' = some v' → φ k v = φ k' v' → k = k') :
    t.sum f ≤ u.sum g := by
  -- What a key of `u` is worth.
  let worth : L → M := fun l => (u.get? l).elim 0 (g l)
  have hworth : ∀ l, 0 ≤ worth l := by
    intro l
    change 0 ≤ (u.get? l).elim 0 (g l)
    rcases hl : u.get? l with _ | w
    · exact le_rfl
    · exact hg l w hl
  have hle : t.sum f ≤ ((t.rows.map fun r => φ r.1 r.2).map worth).sum := by
    rw [List.map_map]
    refine List.sum_le_sum fun r hr => ?_
    rcases h r.1 r.2 (get?_eq_some_iff.mpr hr) with h0 | ⟨w, hw, hrw⟩
    · exact h0.trans (hworth _)
    · change _ ≤ (u.get? (φ r.1 r.2)).elim 0 (g _)
      rw [hw]
      exact hrw
  have hnodup : (t.rows.map fun r => φ r.1 r.2).Nodup := by
    refine List.Nodup.map_on (fun r hr r' hr' heq => ?_) t.nodup.of_map
    have hr₁ := get?_eq_some_iff.mpr hr
    have hr₂ := get?_eq_some_iff.mpr hr'
    have hk := hinj r.1 r'.1 r.2 r'.2 hr₁ hr₂ heq
    rw [← hk, hr₁] at hr₂
    exact Prod.ext hk (Option.some.inj hr₂)
  have hu : u.sum g = ((u.rows.map Prod.fst).map worth).sum := by
    rw [List.map_map]
    refine congrArg List.sum (List.map_congr_left fun r hr => ?_)
    change g r.1 r.2 = (u.get? r.1).elim 0 (g r.1)
    rw [get?_eq_some_iff.mpr hr]
    rfl
  rw [hu, ← List.sum_toFinset worth u.nodup]
  refine hle.trans ?_
  rw [← List.sum_toFinset worth hnodup,
    ← Finset.sum_filter_add_sum_filter_not _ fun l => l ∈ (u.rows.map Prod.fst).toFinset]
  -- The keys that are not in `u` are worth nothing.
  have hout : (∑ l ∈ (t.rows.map fun r => φ r.1 r.2).toFinset.filter
      fun l => ¬l ∈ (u.rows.map Prod.fst).toFinset, worth l) = 0 := by
    refine Finset.sum_eq_zero fun l hl => ?_
    have hnot : l ∉ u.rows.map Prod.fst := fun hmem =>
      (Finset.mem_filter.mp hl).2 (List.mem_toFinset.mpr hmem)
    change (u.get? l).elim 0 (g l) = 0
    rw [get?_eq_none_iff.mpr hnot]
    rfl
  rw [hout, add_zero]
  exact Finset.sum_le_sum_of_subset_of_nonneg (fun l hl => (Finset.mem_filter.mp hl).2) fun l _ _ => hworth l

end Sql.Table
