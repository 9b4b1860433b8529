import Mathlib.Data.List.Nodup

/-!
# Rows under a unique index

A list of rows with a key of which no two rows have the same (`Indexed`), and inserting rows one after
another, which fails at the first whose key is taken. `insertAll_eq_some_iff` says when none is.
-/

namespace Sql

variable {α κ : Type} {key : α → κ}

/-- Rows no two of which have the same key. -/
structure Indexed (key : α → κ) where
  rows : List α
  nodup : (rows.map key).Nodup

namespace Indexed

theorem nodup_append {t : Indexed key} {row : α} (h : key row ∉ t.rows.map key) :
    ((t.rows ++ [row]).map key).Nodup := by
  rw [List.map_append, List.nodup_append]
  refine ⟨t.nodup, List.nodup_singleton _, ?_⟩
  rintro a ha b hb rfl
  obtain rfl : a = key row := by simpa using hb
  exact h ha

variable [DecidableEq κ]

/-- Insert a row; `none` is the violation of the index. -/
def insert (t : Indexed key) (row : α) : Option (Indexed key) :=
  if h : key row ∈ t.rows.map key then none else some ⟨t.rows ++ [row], nodup_append h⟩

/-- Insert rows one after another. -/
def insertAll (t : Indexed key) : List α → Option (Indexed key)
  | [] => some t
  | row :: rest => (t.insert row).bind fun t => t.insertAll rest

theorem insert_eq_some_iff {t t' : Indexed key} {row : α} :
    t.insert row = some t' ↔ key row ∉ t.rows.map key ∧ t'.rows = t.rows ++ [row] := by
  rw [insert]
  split_ifs with h
  · simp [h]
  · obtain ⟨rows, hrows⟩ := t'
    simp only [Option.some.injEq, Indexed.mk.injEq]
    exact ⟨fun e => ⟨h, e.symm⟩, fun e => e.2.symm⟩

/-- **Rows are inserted exactly where the keys of all of them, old and new, differ.** -/
theorem insertAll_eq_some_iff {t t' : Indexed key} {rows : List α} :
    t.insertAll rows = some t' ↔
      (rows.map key).Nodup ∧ (∀ row ∈ rows, key row ∉ t.rows.map key) ∧ t'.rows = t.rows ++ rows := by
  induction rows generalizing t with
  | nil =>
    obtain ⟨rows, hrows⟩ := t
    obtain ⟨rows', hrows'⟩ := t'
    simp [insertAll, eq_comm]
  | cons row rest ih =>
    rw [insertAll, Option.bind_eq_some_iff]
    constructor
    · rintro ⟨t1, hrow, hrest⟩
      obtain ⟨hnew, hrows⟩ := insert_eq_some_iff.mp hrow
      obtain ⟨hnodup, hfree, ht'⟩ := ih.mp hrest
      rw [hrows] at hfree ht'
      refine ⟨?_, ?_, by rw [ht']; simp⟩
      · rw [List.map_cons, List.nodup_cons]
        refine ⟨fun hmem => ?_, hnodup⟩
        obtain ⟨r, hr, hkey⟩ := List.mem_map.mp hmem
        exact hfree r hr (by simp [hkey])
      · rintro r (_ | ⟨_, hr⟩)
        · exact hnew
        · exact fun hmem => hfree r hr (by
            rw [List.map_append]
            exact List.mem_append_left _ hmem)
    · rintro ⟨hnodup, hfree, ht'⟩
      rw [List.map_cons, List.nodup_cons] at hnodup
      have hnew : key row ∉ t.rows.map key := hfree row List.mem_cons_self
      refine ⟨⟨t.rows ++ [row], nodup_append hnew⟩, insert_eq_some_iff.mpr ⟨hnew, rfl⟩,
        ih.mpr ⟨hnodup.2, ?_, ?_⟩⟩
      · intro r hr hmem
        rw [List.map_append, List.mem_append] at hmem
        rcases hmem with hmem | hmem
        · exact hfree r (List.mem_cons_of_mem _ hr) hmem
        · obtain hkey : key r = key row := by simpa using hmem
          exact hnodup.1 (List.mem_map.mpr ⟨r, hr, hkey⟩)
      · rw [ht']
        simp

theorem isSome_insertAll_iff {t : Indexed key} {rows : List α} :
    (t.insertAll rows).isSome = true ↔
      (rows.map key).Nodup ∧ ∀ row ∈ rows, key row ∉ t.rows.map key := by
  constructor
  · intro h
    obtain ⟨t', ht'⟩ := Option.isSome_iff_exists.mp h
    obtain ⟨hnodup, hfree, -⟩ := insertAll_eq_some_iff.mp ht'
    exact ⟨hnodup, hfree⟩
  · rintro ⟨hnodup, hfree⟩
    have hall : ((t.rows ++ rows).map key).Nodup := by
      rw [List.map_append, List.nodup_append]
      refine ⟨t.nodup, hnodup, ?_⟩
      rintro a ha b hb rfl
      obtain ⟨row, hrow, rfl⟩ := List.mem_map.mp hb
      exact hfree row hrow ha
    exact Option.isSome_iff_exists.mpr ⟨⟨_, hall⟩, insertAll_eq_some_iff.mpr ⟨hnodup, hfree, rfl⟩⟩

end Indexed

end Sql
