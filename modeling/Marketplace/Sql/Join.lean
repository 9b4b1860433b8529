import Marketplace.Sql.Table

/-!
# Joins on a key

`LEFT OUTER JOIN t ON t.id = key` puts beside each row every row of the table that has the key, or nothing where there
is none; a key that is `NULL` has none. On the primary key that is one row at most, so the join keeps the rows it is
given, in their order, and puts beside each what `Table.get?` finds (`leftJoin_eq_map`).

`newest` is `ORDER BY id DESC LIMIT 1` of the rows a condition selects, `count` their number.
-/

namespace Sql

variable {K V α : Type} [DecidableEq K]

/-- `LEFT OUTER JOIN t ON t.id = key` -/
def leftJoin (key : α → Option K) (t : Table K V) (rows : List α) : List (α × Option (K × V)) :=
  rows.flatMap fun a =>
    match t.rows.filter fun r => some r.1 = key a with
    | [] => [(a, none)]
    | matching => matching.map fun r => (a, some r)

namespace Table

/-- The row with a key that may be `NULL`. -/
def row? (t : Table K V) (key : Option K) : Option (K × V) := key.bind fun k => (t.get? k).map fun v => (k, v)

theorem map_snd_row? (t : Table K V) (key : Option K) : (t.row? key).map Prod.snd = key.bind t.get? := by
  rcases key with _ | k
  · rfl
  · rw [row?, Option.bind_some, Option.bind_some]
    cases t.get? k <;> rfl

/-- On the primary key at most one row is selected. -/
theorem filter_key (t : Table K V) (key : Option K) :
    (t.rows.filter fun r => some r.1 = key) = (t.row? key).toList := by
  rcases key with _ | k
  · simp [row?]
  simp only [Option.some.injEq, row?, Option.bind_some]
  rcases hk : t.get? k with _ | v
  · simp only [Option.map_none, Option.toList_none, List.filter_eq_nil_iff, decide_eq_true_eq]
    intro r hr he
    exact get?_eq_none_iff.mp hk (List.mem_map.mpr ⟨r, hr, he⟩)
  · -- two rows of the key would be one key twice
    have hrows := t.nodup
    have hmem := get?_eq_some_iff.mp hk
    simp only [Option.map_some, Option.toList_some]
    generalize t.rows = rows at hrows hmem
    induction rows with
    | nil => cases hmem
    | cons r rows ih =>
      rw [List.map_cons, List.nodup_cons] at hrows
      rcases List.mem_cons.mp hmem with rfl | hmem
      · rw [List.filter_cons_of_pos (by simp), List.cons.injEq]
        refine ⟨rfl, List.filter_eq_nil_iff.mpr fun r hr he => ?_⟩
        exact hrows.1 (List.mem_map.mpr ⟨r, hr, of_decide_eq_true he⟩)
      · have hne : r.1 ≠ k := fun he => hrows.1 (he ▸ List.mem_map.mpr ⟨(k, v), hmem, rfl⟩)
        rw [List.filter_cons_of_neg (by simpa using hne)]
        exact ih hrows.2 hmem

/-- `SELECT count(id) FROM t WHERE p` -/
def count (t : Table K V) (p : K → V → Bool) : ℕ := (t.rows.filter fun r => p r.1 r.2).length

/-- `SELECT * FROM t WHERE p ORDER BY id DESC LIMIT 1` -/
def newest [LE K] [DecidableLE K] (t : Table K V) (p : V → Bool) : Option (K × V) :=
  ((t.rows.filter fun r => p r.2).mergeSort fun r r' => decide (r'.1 ≤ r.1)).head?

/-- The newest row is a row of the table. -/
theorem get?_newest [LE K] [DecidableLE K] {t : Table K V} {p : V → Bool} {r : K × V} (h : t.newest p = some r) :
    t.get? r.1 = some r.2 ∧ p r.2 = true := by
  have hmem := List.mem_of_mem_head? h
  rw [List.mem_mergeSort, List.mem_filter] at hmem
  exact ⟨get?_eq_some_iff.mpr hmem.1, hmem.2⟩

/-- Where nothing is selected there is no newest row. -/
theorem newest_eq_none [LE K] [DecidableLE K] {t : Table K V} {p : V → Bool} (h : ∀ v, p v = false) :
    t.newest p = none := by
  rcases he : t.newest p with _ | r
  · rfl
  · exact absurd (get?_newest he).2 (by simp [h])

/-- The newest row is found again by its key. -/
theorem row?_newest [LE K] [DecidableLE K] (t : Table K V) (p : V → Bool) :
    t.row? ((t.newest p).map Prod.fst) = t.newest p := by
  rcases h : t.newest p with _ | r
  · rfl
  · simp [row?, (get?_newest h).1]

end Table

/-- **A join on the primary key looks each row up.** -/
theorem leftJoin_eq_map (key : α → Option K) (t : Table K V) (rows : List α) :
    leftJoin key t rows = rows.map fun a => (a, t.row? (key a)) := by
  rw [leftJoin, List.map_eq_flatMap]
  congr 1
  funext a
  simp only [t.filter_key]
  cases t.row? (key a) <;> rfl

end Sql
