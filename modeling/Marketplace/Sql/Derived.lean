import Marketplace.Sql.Table

/-!
# Tables derived from tables

What a query makes of the rows of a table, each on its own: `Table.filterMap g` keeps the rows `g` has a
value for, with that value. An insertion and an update of the table are one of the derived
table, or leave it alone (`filterMap_insert`, `filterMap_modify`), so what holds of every
way of changing the derived table need not be shown again for the table itself.
-/

namespace Sql

namespace Table

variable {K V W : Type}

/-- A row with its derived value, if there is one. -/
def derive (g : V → Option W) (r : K × V) : Option (K × W) := (g r.2).map fun w => (r.1, w)

theorem derive_eq_some_iff {g : V → Option W} {r : K × V} {k : K} {w : W} :
    derive g r = some (k, w) ↔ r.1 = k ∧ g r.2 = some w := by
  rcases h : g r.2 with _ | w' <;> simp [derive, h]

theorem sublist_derive (g : V → Option W) (rows : List (K × V)) :
    ((rows.filterMap (derive g)).map Prod.fst).Sublist (rows.map Prod.fst) := by
  induction rows with
  | nil => exact List.Sublist.refl _
  | cons r rows ih =>
    rcases h : g r.2 with _ | w
    · have hnone : derive g r = none := by rw [derive, h, Option.map_none]
      rw [List.filterMap_cons_none hnone]
      exact ih.cons _
    · have hsome : derive g r = some (r.1, w) := by rw [derive, h, Option.map_some]
      rw [List.filterMap_cons_some hsome]
      exact ih.cons_cons _

/-- The rows `g` has a value for, with that value. -/
def filterMap (g : V → Option W) (t : Table K V) : Table K W :=
  ⟨t.rows.filterMap (derive g), t.nodup.sublist (sublist_derive g t.rows)⟩

theorem rows_filterMap (g : V → Option W) (t : Table K V) :
    (t.filterMap g).rows = t.rows.filterMap (derive g) := rfl

/-- The sum over a derived table. -/
theorem sum_filterMap {M : Type} [AddMonoid M] (g : V → Option W) (t : Table K V) (f : K → W → M) :
    (t.filterMap g).sum f = t.sum fun k v => ((g v).map (f k)).getD 0 := by
  rw [sum, sum, rows_filterMap]
  induction t.rows with
  | nil => rfl
  | cons r rows ih =>
    rw [List.map_cons, List.sum_cons, ← ih]
    rcases h : g r.2 with _ | w
    · have hnone : derive g r = none := by rw [derive, h, Option.map_none]
      rw [List.filterMap_cons_none hnone, Option.map_none, Option.getD_none, zero_add]
    · have hsome : derive g r = some (r.1, w) := by rw [derive, h, Option.map_some]
      rw [List.filterMap_cons_some hsome, List.map_cons, List.sum_cons, Option.map_some,
        Option.getD_some]

variable [DecidableEq K] {g : V → Option W} {t : Table K V} {k : K} {v : V}

theorem get?_filterMap (g : V → Option W) (t : Table K V) (k : K) :
    (t.filterMap g).get? k = (t.get? k).bind g := by
  refine Option.ext fun w => ?_
  rw [get?_eq_some_iff, Option.bind_eq_some_iff, rows_filterMap, List.mem_filterMap]
  constructor
  · rintro ⟨⟨k', v⟩, hr, hd⟩
    obtain ⟨hk, hw⟩ := derive_eq_some_iff.mp hd
    obtain rfl : k' = k := hk
    exact ⟨v, get?_eq_some_iff.mpr hr, hw⟩
  · rintro ⟨v, hv, hw⟩
    exact ⟨(k, v), get?_eq_some_iff.mp hv, derive_eq_some_iff.mpr ⟨rfl, hw⟩⟩

/-- A new row is a new derived row, if there is a value for it. -/
theorem filterMap_insert (h : t.get? k = none) {w : W} (hw : g v = some w) :
    (t.insert k v).filterMap g = (t.filterMap g).insert k w := by
  have hnone : (t.filterMap g).get? k = none := by rw [get?_filterMap, h, Option.bind_none]
  ext1
  rw [rows_insert hnone, rows_filterMap, rows_filterMap, rows_insert h, List.filterMap_append]
  simp [derive, hw]

/-- A new row without a value leaves the derived table alone. -/
theorem filterMap_insert_none (h : t.get? k = none) (hw : g v = none) :
    (t.insert k v).filterMap g = t.filterMap g := by
  ext1
  rw [rows_filterMap, rows_filterMap, rows_insert h, List.filterMap_append]
  simp [derive, hw]

/-- The rows under one key are one row. -/
theorem eq_of_mem_rows (h : t.get? k = some v) {r : K × V} (hr : r ∈ t.rows) (hk : r.1 = k) :
    r = (k, v) := by
  obtain ⟨k', v'⟩ := r
  obtain rfl : k' = k := hk
  have hv' := get?_eq_some_iff.mpr hr
  rw [h] at hv'
  rw [Option.some.inj hv']

/-- An update of a row is an update of the derived row. -/
theorem filterMap_modify (h : t.get? k = some v) {f : V → V} {f' : W → W}
    (hf : g (f v) = (g v).map f') : (t.modify k f).filterMap g = (t.filterMap g).modify k f' := by
  have hrows : ∀ {U : Type} (t : Table K U) (f : U → U),
      (t.modify k f).rows = t.rows.map fun r => if r.1 = k then (r.1, f r.2) else r :=
    fun _ _ => rfl
  ext1
  rw [rows_filterMap, hrows, List.filterMap_map, hrows, rows_filterMap, List.map_filterMap]
  refine List.filterMap_congr fun r hr => ?_
  rw [Function.comp]
  by_cases hk : r.1 = k
  · obtain rfl := eq_of_mem_rows h hr hk
    rw [if_pos rfl, derive, derive, hf]
    rcases g v with _ | w <;> simp
  · rw [if_neg hk, derive]
    rcases g r.2 with _ | w <;> simp [hk]

/-- An update that does not concern the derived row. -/
theorem filterMap_modify_self {f : V → V} (hf : ∀ v, t.get? k = some v → g (f v) = g v) :
    (t.modify k f).filterMap g = t.filterMap g := by
  rcases h : t.get? k with _ | v
  · rw [modify_of_none h]
  · have hid : g (f v) = (g v).map id := by rw [hf v h, Option.map_id, id]
    rw [filterMap_modify h hid]
    exact modify_eq_self fun _ _ => rfl

end Table

end Sql
