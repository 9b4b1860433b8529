import Marketplace.Python.Float

/-!
# Documents in a column

A `jsonb` column as the database reads it and as Python does. Its numbers are decimals, kept with the places
they were written with: what is written without a point is a whole number in Python, anything else a float
(`Jsonb.load`). The operators are those a query asks a document with: `->`, `->>`, and `@>` where a
whole number is looked for.

The two sides agree on whole numbers that a float has room for: what the database finds in a list,
Python finds in the set of its items (`Jsonb.mem_toSet_of_containsInt`).
-/

namespace Sql

open Python

/-- A document; a number by its digits and how many of them stand behind the point. -/
inductive Jsonb
  | null
  | bool (b : Bool)
  | num (digits : ℤ) (scale : ℕ)
  | str (s : String)
  | arr (items : List Jsonb)
  | obj (fields : List (String × Jsonb))

namespace Jsonb

/-! ### In the database -/

/-- `document -> key` -/
def get? (key : String) : Jsonb → Option Jsonb
  | obj fields => fields.lookup key
  | _ => none

/-- `document #>> '{}' = 'true'`: the texts of numbers, lists and objects are others. -/
def textIsTrue : Jsonb → Bool
  | bool b => b
  | str s => s = "true"
  | _ => false

/-- The document is the whole number. -/
def isInt (n : ℤ) : Jsonb → Bool
  | num digits scale => digits = n * 10 ^ scale
  | _ => false

/-- `document @> to_jsonb(n)`: a list has what one of its items is. -/
def containsInt (n : ℤ) : Jsonb → Bool
  | arr items => items.any (isInt n)
  | v => v.isInt n

/-! ### In Python -/

mutual

/-- What `json.loads` makes of the text of a document. -/
def load : Jsonb → Json
  | null => .null
  | bool b => .bool b
  | num digits scale => if scale = 0 then .int digits else .float (Double.round (digits / 10 ^ scale))
  | str s => .str s
  | arr items => .arr (loadItems items)
  | obj fields => .obj (loadFields fields)

def loadItems : List Jsonb → List Json
  | [] => []
  | v :: items => load v :: loadItems items

def loadFields : List (String × Jsonb) → List (String × Json)
  | [] => []
  | (key, v) :: fields => (key, load v) :: loadFields fields

end

theorem lookup_loadFields (key : String) (fields : List (String × Jsonb)) :
    (loadFields fields).lookup key = (fields.lookup key).map load := by
  induction fields with
  | nil => rfl
  | cons field fields ih =>
    obtain ⟨k, v⟩ := field
    rw [loadFields, List.lookup_cons, List.lookup_cons, ih]
    cases key == k <;> rfl

theorem loadItems_eq_map (items : List Jsonb) : loadItems items = items.map load := by
  induction items with
  | nil => rfl
  | cons v items ih => rw [loadItems, ih, List.map_cons]

/-- **The same whole number on both sides**, where a float has room for it. -/
theorem isInt_load {n : ℕ} (hn : n < 2 ^ 53) {v : Jsonb} (h : v.isInt n = true) : v.load.isInt n = true := by
  cases v with
  | num digits scale =>
    simp only [isInt, decide_eq_true_eq] at h
    subst h
    rw [load]
    split_ifs with hscale
    · simp [hscale, Json.isInt]
    · have hvalue : ((n * 10 ^ scale : ℤ) : ℚ) / 10 ^ scale = n := by
        push_cast
        field_simp
      rw [hvalue, Double.round_natCast hn]
      simp [Json.isInt]
  | _ => simp [isInt] at h

end Jsonb

end Sql

namespace Python

section Comprehension

variable {ε α β : Type} {f : α → Except ε β} {l : List α} {r : List β}

theorem mapM_cons_eq_ok {a : α} :
    (a :: l).mapM f = .ok r ↔ ∃ b bs, f a = .ok b ∧ l.mapM f = .ok bs ∧ r = b :: bs := by
  rw [List.mapM_cons, bind_eq_ok]
  constructor
  · rintro ⟨b, hb, h⟩
    obtain ⟨bs, hbs, h⟩ := bind_eq_ok.mp h
    exact ⟨b, bs, hb, hbs, (Except.ok.inj h).symm⟩
  · rintro ⟨b, bs, hb, hbs, rfl⟩
    exact ⟨b, hb, bind_eq_ok.mpr ⟨bs, hbs, rfl⟩⟩

/-- What a list comprehension returns are the values of its expressions. -/
theorem mem_of_mapM_eq_ok (h : l.mapM f = .ok r) {b : β} : b ∈ r ↔ ∃ a ∈ l, f a = .ok b := by
  induction l generalizing r with
  | nil =>
    obtain rfl := Except.ok.inj h
    simp
  | cons a l ih =>
    obtain ⟨c, cs, hc, hcs, rfl⟩ := mapM_cons_eq_ok.mp h
    rw [List.mem_cons, ih hcs, List.exists_mem_cons_iff, hc, Except.ok.injEq]
    exact or_congr eq_comm Iff.rfl

/-- It returns where each of them does. -/
theorem exists_mapM_eq_ok (h : ∀ a ∈ l, ∃ b, f a = .ok b) : ∃ r, l.mapM f = .ok r := by
  induction l with
  | nil => exact ⟨[], rfl⟩
  | cons a l ih =>
    obtain ⟨b, hb⟩ := h a List.mem_cons_self
    obtain ⟨bs, hbs⟩ := ih fun x hx => h x (List.mem_cons_of_mem _ hx)
    exact ⟨b :: bs, mapM_cons_eq_ok.mpr ⟨b, bs, hb, hbs, rfl⟩⟩

theorem exists_of_mapM_eq_ok (h : l.mapM f = .ok r) {a : α} (ha : a ∈ l) : ∃ b, f a = .ok b := by
  induction l generalizing r with
  | nil => simp at ha
  | cons c l ih =>
    obtain ⟨b, bs, hb, hbs, rfl⟩ := mapM_cons_eq_ok.mp h
    rcases List.mem_cons.mp ha with rfl | ha
    · exact ⟨b, hb⟩
    · exact ih hbs ha

end Comprehension

end Python

namespace Python.Json

/-- `value or {}` -/
def orEmpty (v : Json) : Json := if v.truthy then v else .obj []

/-- The value may be an element of a set. -/
def hashable : Json → Bool
  | .arr _ | .obj _ => false
  | _ => true

/-- The elements of `set(value)`: the items of a list, the characters of a text, the keys of a dict. -/
def toSet : Json → Except Error (List Json)
  | .arr items => if items.all hashable then .ok items else .error .typeError
  | .str s => .ok (s.toList.map fun c => .str c.toString)
  | .obj fields => .ok (fields.map fun field => .str field.1)
  | _ => .error .typeError

end Python.Json

namespace Sql.Jsonb

open Python

/-- **What the database finds in a document is in Python's set of it**, where there is such a set. -/
theorem mem_toSet_of_containsInt {n : ℕ} (hn : n < 2 ^ 53) {v : Jsonb} (h : v.containsInt n = true)
    {set : List Json}
    (hset : v.load.toSet = .ok set) : set.any (Json.isInt n) = true := by
  cases v with
  | arr items =>
    rw [load, Json.toSet] at hset
    split_ifs at hset
    obtain rfl := Except.ok.inj hset
    obtain ⟨v, hmem, hv⟩ := List.any_eq_true.mp h
    rw [loadItems_eq_map]
    exact List.any_eq_true.mpr ⟨v.load, List.mem_map_of_mem hmem, isInt_load hn hv⟩
  | num digits scale =>
    -- Python makes no set of a number
    rw [load] at hset
    split_ifs at hset <;> simp [Json.toSet] at hset
  | _ => simp [containsInt, isInt] at h

end Sql.Jsonb
