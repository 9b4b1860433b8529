import Mathlib.Data.List.DropRight
import Marketplace.Sql.Table
import Marketplace.Resources.Stock
import Marketplace.Text.Decimal

/-!
# Prices of configured products

A product with the pricing strategy `config` is sold by type, network and number of days. Its parameters
either list its offers, a table of prices under keys `type|network|days`, or give a formula, a base price
and multipliers by type and by network.

`planPricesMap` reads the table, `formulaPrices` works the formula out into one, `effectivePrices` is the
table a product that is edited goes on with, and `validate` says which configurations a buyer may
order. What is computed in floating point is a parameter, `Floats`. Products sold by package and
months are not modelled.
-/

namespace Sql.Table

variable {K V W : Type} [DecidableEq K]

/-- `table[k] = v`: a new row, or a new value under a key that is there. -/
def put (t : Table K V) (k : K) (v : V) : Table K V := (t.insert k v).modify k fun _ => v

theorem get?_put (t : Table K V) (k : K) (v : V) (k' : K) :
    (t.put k v).get? k' = if k' = k then some v else t.get? k' := by
  rw [put, get?_modify, get?_insert_eq]
  by_cases hk : k' = k <;> simp [hk]

/-- The pairs written one after the other. -/
def putAll (t : Table K V) (rows : List (K × V)) : Table K V := rows.foldl (fun t r => t.put r.1 r.2) t

/-- Writing pairs adds their keys. -/
theorem isSome_putAll (rows : List (K × V)) (t : Table K V) (k : K) :
    ((t.putAll rows).get? k).isSome ↔ k ∈ rows.map Prod.fst ∨ (t.get? k).isSome := by
  induction rows generalizing t with
  | nil => simp [putAll]
  | cons r rows ih =>
    rw [putAll, List.foldl_cons, ← putAll, ih, get?_put, List.map_cons, List.mem_cons]
    by_cases hk : k = r.1 <;> simp [hk]

theorem mem_rows_put {t : Table K V} {k k' : K} {v v' : V} :
    (k', v') ∈ (t.put k v).rows ↔ k' = k ∧ v' = v ∨ k' ≠ k ∧ (k', v') ∈ t.rows := by
  rw [← get?_eq_some_iff, ← get?_eq_some_iff, get?_put]
  by_cases hk : k' = k
  · simp [hk, eq_comm]
  · simp [hk]

/-- Rows of the result are pairs written or rows that were there. -/
theorem mem_of_mem_putAll {rows : List (K × V)} {t : Table K V} {r : K × V}
    (h : r ∈ (t.putAll rows).rows) : r ∈ rows ∨ r ∈ t.rows := by
  induction rows generalizing t with
  | nil => exact Or.inr h
  | cons r' rows ih =>
    rw [putAll, List.foldl_cons, ← putAll] at h
    rcases ih h with h | h
    · exact Or.inl (List.mem_cons_of_mem _ h)
    · rcases mem_rows_put.mp h with ⟨hk, hv⟩ | ⟨-, h⟩
      · exact Or.inl (by rw [show r = r' from Prod.ext hk hv]; exact List.mem_cons_self)
      · exact Or.inr h

/-- A whole table written over another one. -/
theorem get?_putAll_rows (t u : Table K V) (k : K) :
    (t.putAll u.rows).get? k = (u.get? k).or (t.get? k) := by
  obtain ⟨rows, hnd⟩ := u
  change (t.putAll rows).get? k = (rows.lookup k).or (t.get? k)
  induction rows generalizing t with
  | nil => rfl
  | cons r rows ih =>
    obtain ⟨k', v'⟩ := r
    rw [List.map_cons, List.nodup_cons] at hnd
    rw [putAll, List.foldl_cons, ← putAll, ih _ hnd.2, get?_put, List.lookup_cons]
    by_cases hk : k = k'
    · subst hk
      have hnone : rows.lookup k = none := by
        rw [← Option.not_isSome_iff_eq_none, Option.isSome_iff_exists]
        rintro ⟨v, hv⟩
        exact hnd.1 (List.mem_map.mpr ⟨_, (lookup_eq_some_iff hnd.2).mp hv, rfl⟩)
      simp [hnone]
    · have hb : (k == k') = false := by simpa using hk
      simp [hb, hk]

/-- The keys with the first value written, for those that have none yet. -/
def insertAll (t : Table K V) (keys : List K) (v : V) : Table K V :=
  keys.foldl (fun t k => t.insert k v) t

theorem get?_insertAll (keys : List K) (t : Table K V) (v : V) (k : K) :
    (t.insertAll keys v).get? k = if k ∈ keys then some ((t.get? k).getD v) else t.get? k := by
  induction keys generalizing t with
  | nil => simp [insertAll]
  | cons k' keys ih =>
    rw [insertAll, List.foldl_cons, ← insertAll, ih, get?_insert_eq]
    by_cases hk : k = k'
    · simp [hk]
    · simp [hk]

/-- A function applied to every value. -/
def mapValues (f : V → W) (t : Table K V) : Table K W :=
  ⟨t.rows.map fun r => (r.1, f r.2), by rw [List.map_map]; exact t.nodup⟩

omit [DecidableEq K] in
theorem mem_rows_mapValues {f : V → W} {t : Table K V} {r : K × W} :
    r ∈ (t.mapValues f).rows ↔ ∃ v, (r.1, v) ∈ t.rows ∧ f v = r.2 := by
  obtain ⟨k, w⟩ := r
  simp only [mapValues, List.mem_map, Prod.mk.injEq]
  constructor
  · rintro ⟨⟨k', v⟩, hr, rfl, rfl⟩
    exact ⟨v, hr, rfl⟩
  · rintro ⟨v, hr, rfl⟩
    exact ⟨(k, v), hr, rfl, rfl⟩

theorem isSome_get?_iff {t : Table K V} {k : K} : (t.get? k).isSome ↔ ∃ v, (k, v) ∈ t.rows := by
  rw [Option.isSome_iff_exists]
  exact exists_congr fun v => get?_eq_some_iff

/-- A table with a key has rows. -/
theorem rows_ne_nil {t : Table K V} {k : K} (h : (t.get? k).isSome) : t.rows ≠ [] := by
  obtain ⟨v, hv⟩ := isSome_get?_iff.mp h
  exact List.ne_nil_of_mem hv

end Sql.Table

namespace Marketplace

open Sql

/-! ### Values of a document -/

/-- What a JSON document holds at a place. -/
inductive Value
  | null
  | bool (b : Bool)
  | int (n : ℤ)
  /-- A number with a fraction, and the text it is printed as. -/
  | float (q : ℚ) (text : String)
  | str (s : String)
  /-- A list or a dict, by its text. -/
  | other (text : String)
  deriving DecidableEq, Repr

namespace Value

/-- `str(value)`. -/
def text : Value → String
  | .null => "None"
  | .bool true => "True"
  | .bool false => "False"
  | .int n => toString n
  | .float _ text => text
  | .str s => s
  | .other text => text

/-- `isinstance(value, (int, float))`. -/
def isNumber : Value → Bool
  | .bool _ | .int _ | .float _ _ => true
  | _ => false

/-- The number a value is equal to, if it is one. -/
def number : Value → Option ℚ
  | .bool b => some (if b then 1 else 0)
  | .int n => some n
  | .float q _ => some q
  | _ => none

/-- The value can be a member of a set. -/
def hashable : Value → Bool
  | .other _ => false
  | _ => true

/-- `value in table` for a table of a JSON document. -/
def isKey (v : Value) {V : Type} (t : Table String V) : Bool :=
  match v with
  | .str s => (t.get? s).isSome
  | _ => false

end Value

/-- Digits, with single underscores between them. -/
def readDigits (cs : List Char) : Option ℤ :=
  let groups := cs.splitOn '_'
  if groups.all fun g => !g.isEmpty && g.all Char.isDigit then some (Nat.ofDigitChars 10 groups.flatten 0)
  else none

/-- `int(text)`; the digits are the ASCII ones. -/
def readInt (text : List Char) : Option ℤ :=
  match stripChars isSpace text with
  | '-' :: ds => (readDigits ds).map fun n => -n
  | '+' :: ds => readDigits ds
  | ds => readDigits ds

/-- `int(value)`, where it does not raise. -/
def Value.toInt : Value → Option ℤ
  | .bool b => some (if b then 1 else 0)
  | .int n => some n
  | .float q _ => some (if q < 0 then ⌈q⌉ else ⌊q⌋)
  | .str s => readInt s.toList
  | .null | .other _ => none

/-! ### Keys of offers -/

/-- `f"{type}|{network}|{days}"`. -/
def joinKey (proxyType network days : String) : String := proxyType ++ "|" ++ network ++ "|" ++ days

/-- `_plan_key`. -/
def planKey (proxyType network : String) (days : ℤ) : String :=
  joinKey (strip proxyType) (strip network) (toString days)

/-- `parse_plan_price_key`. -/
def parsePlanPriceKey (key : String) : Option (String × String × ℤ) :=
  match key.toList.splitOn '|' with
  | [proxyType, network, rawDays] =>
    if stripChars isSpace proxyType = [] ∨ stripChars isSpace network = [] then none
    else match readInt rawDays with
      | none => none
      | some days =>
        if days ≤ 0 then none
        else some (String.ofList (stripChars isSpace proxyType), String.ofList (stripChars isSpace network), days)
  | _ => none

/-! #### A key is read back -/

export Text (stripChars_idem mem_stripChars stripChars_eq_self isSpace_of_isDigit)

/-- What a text is split into does not hold the separator. -/
theorem not_mem_of_mem_splitOn {a : Char} {cs l : List Char} (h : l ∈ cs.splitOn a) : a ∉ l := by
  induction cs generalizing l with
  | nil =>
    obtain rfl : l = [] := by simpa using h
    exact List.not_mem_nil
  | cons c cs ih =>
    rw [List.splitOn_cons_eq_if_modifyHead] at h
    split_ifs at h with hc
    · rcases List.mem_cons.mp h with rfl | h
      · exact List.not_mem_nil
      · exact ih h
    · rcases hs : cs.splitOn a with _ | ⟨l', ls⟩
      · exact absurd hs (List.splitOn_ne_nil _ _)
      · rw [hs, List.modifyHead_cons] at h
        rcases List.mem_cons.mp h with rfl | h
        · have hl' : a ∉ l' := ih (by rw [hs]; exact List.mem_cons_self)
          have hne : a ≠ c := fun e => hc (by simp [e])
          simp [hl', hne]
        · exact ih (by rw [hs]; exact List.mem_cons_of_mem _ h)

/-- A number is read back. -/
theorem readInt_toString (n : ℕ) : readInt (toString n).toList = some (n : ℤ) := by
  have hdig : ∀ c ∈ (toString n).toList, c.isDigit = true := by
    rw [Text.toList_toString]
    exact fun c hc => Nat.isDigit_of_mem_toDigits (by decide) (by decide) hc
  have hne : (toString n).toList ≠ [] := by rw [Text.toList_toString]; exact Nat.toDigits_ne_nil
  have hof : Nat.ofDigitChars 10 (toString n).toList 0 = n := by
    rw [Text.toList_toString]
    simp
  have hread : readDigits (toString n).toList = some (n : ℤ) := by
    have hsplit : (toString n).toList.splitOn '_' = [(toString n).toList] :=
      List.splitOn_eq_singleton fun hm => absurd (hdig _ hm) (by decide)
    have hall : (toString n).toList.all Char.isDigit = true := List.all_eq_true.mpr hdig
    simp only [readDigits, hsplit, List.all_cons, List.all_nil, Bool.and_true, hall, List.flatten_cons,
      List.flatten_nil, List.append_nil, hof]
    rw [if_pos (by simp)]
  have hstrip : stripChars isSpace (toString n).toList = (toString n).toList :=
    stripChars_eq_self fun c hc => isSpace_of_isDigit (hdig c hc)
  rw [readInt, hstrip]
  rcases h : (toString n).toList with _ | ⟨c, cs⟩
  · exact absurd h hne
  · have hc : c.isDigit = true := hdig c (by rw [h]; exact List.mem_cons_self)
    rw [h] at hread
    split
    · next heq => rw [(List.cons.inj heq).1] at hc; exact absurd hc (by decide)
    · next heq => rw [(List.cons.inj heq).1] at hc; exact absurd hc (by decide)
    · exact hread

/-- The parts of a key in its normal form. -/
structure KeyParts (proxyType network : String) (days : ℤ) : Prop where
  /-- The two codes are stripped, not empty, and hold no separator. -/
  code : ∀ s ∈ [proxyType, network], s.toList ≠ [] ∧ stripChars isSpace s.toList = s.toList ∧ '|' ∉ s.toList
  positive : 0 < days

theorem readInt_of_pos {days : ℤ} (h : 0 < days) : readInt (toString days).toList = some days := by
  obtain ⟨n, rfl⟩ := Int.eq_ofNat_of_zero_le h.le
  exact readInt_toString n

theorem bar_not_mem_toString {days : ℤ} (h : 0 < days) : '|' ∉ (toString days).toList := by
  obtain ⟨n, rfl⟩ := Int.eq_ofNat_of_zero_le h.le
  change '|' ∉ (toString n).toList
  rw [Text.toList_toString]
  exact fun hm => absurd (Nat.isDigit_of_mem_toDigits (by decide) (by decide) hm) (by decide)

/-- **A key in its normal form is read back into its parts.** -/
theorem parsePlanPriceKey_joinKey {proxyType network : String} {days : ℤ} (h : KeyParts proxyType network days) :
    parsePlanPriceKey (joinKey proxyType network (toString days)) = some (proxyType, network, days) := by
  obtain ⟨htne, htstrip, htbar⟩ := h.code proxyType (by simp)
  obtain ⟨hnne, hnstrip, hnbar⟩ := h.code network (by simp)
  have hsplit : (joinKey proxyType network (toString days)).toList.splitOn '|' =
      [proxyType.toList, network.toList, (toString days).toList] := by
    have hl : (joinKey proxyType network (toString days)).toList =
        List.intercalate ['|'] [proxyType.toList, network.toList, (toString days).toList] := by
      simp [joinKey, List.intercalate]
    rw [hl]
    refine List.splitOn_intercalate '|' (fun l hl => ?_) (by simp)
    simp only [List.mem_cons, List.not_mem_nil, or_false] at hl
    obtain rfl | rfl | rfl := hl
    · exact htbar
    · exact hnbar
    · exact bar_not_mem_toString h.positive
  simp only [parsePlanPriceKey, hsplit, htstrip, hnstrip, htne, hnne, readInt_of_pos h.positive, or_self,
    if_false, not_le.mpr h.positive, String.ofList_toList]

/-- What is read off a key is in its normal form. -/
theorem keyParts_of_parse {key proxyType network : String} {days : ℤ}
    (h : parsePlanPriceKey key = some (proxyType, network, days)) : KeyParts proxyType network days := by
  rw [parsePlanPriceKey] at h
  split at h
  · next t n d hsplit =>
    have hbar : ∀ l ∈ [t, n, d], '|' ∉ l := by
      rw [← hsplit]
      intro l hl
      exact not_mem_of_mem_splitOn hl
    split_ifs at h with hne
    split at h
    · simp at h
    · next days' hdays =>
      split_ifs at h with hpos
      obtain ⟨rfl, rfl, rfl⟩ : _ ∧ _ ∧ _ := by simpa using h
      push Not at hne
      refine ⟨fun s hs => ?_, by omega⟩
      simp only [List.mem_cons, List.not_mem_nil, or_false] at hs
      obtain rfl | rfl := hs
      · rw [String.toList_ofList]
        exact ⟨hne.1, stripChars_idem _ _, fun hm => hbar t (by simp) (mem_stripChars hm)⟩
      · rw [String.toList_ofList]
        exact ⟨hne.2, stripChars_idem _ _, fun hm => hbar n (by simp) (mem_stripChars hm)⟩
  · simp at h

/-! ### The parameters of a product -/

/-- An entry of `duration_options`: a dict, of which `days` is read, or something else. -/
inductive DurationEntry
  | dict (days : Option Value)
  | other
  deriving DecidableEq, Repr

/-- The `pricing_params` of a product, of type and network. A field that is absent is `none`. -/
structure PricingParams where
  basePrice : Option Value
  typeMult : Option (Table String Value)
  networkMult : Option (Table String Value)
  durationOptions : Option (List DurationEntry)
  planPrices : Option (Table String Value)
  typeDisplay : Table String String
  networkDisplay : Table String String

/-- `{}`. -/
def PricingParams.empty : PricingParams := ⟨none, none, none, none, none, .empty, .empty⟩

instance : Inhabited PricingParams := ⟨.empty⟩

/-- The arithmetic in double precision, and `float()`. -/
structure Floats where
  /-- `float(value)`, where it does not raise. -/
  float : Value → Option ℚ
  /-- `round(base * t * n * days / 30)`. -/
  formula : ℚ → ℚ → ℚ → ℤ → ℤ
  /-- `cost * (1 + margin / 100)`. -/
  withMargin : ℤ → ℚ → ℚ
  /-- `raw / step`. -/
  quotient : ℚ → ℕ → ℚ

/-- An entry of the table that is an offer, under its normal key. -/
def planRow (row : String × Value) : Option (String × ℤ) :=
  match parsePlanPriceKey row.1, row.2 with
  | some (proxyType, network, days), .int price =>
    if price ≤ 0 then none else some (joinKey proxyType network (toString days), price)
  | _, _ => none

/-- `plan_prices_map`. -/
def planPricesMap (params : PricingParams) : Table String ℤ :=
  match params.planPrices with
  | none => .empty
  | some raw => Table.empty.putAll (raw.rows.filterMap planRow)

/-- `d.get("days", 0)` as a number of days. -/
def DurationEntry.toDays : DurationEntry → Option ℤ
  | .dict none => some 0
  | .dict (some v) => v.toInt
  | .other => none

section Formula

variable (F : Floats)

/-- One combination of the formula. -/
def formulaRow (base : Value) (proxyType : String × Value) (network : String × Value)
    (entry : DurationEntry) : Option (String × ℤ) := do
  let days ← entry.toDays
  let price := F.formula (← F.float base) (← F.float proxyType.2) (← F.float network.2) days
  if 1 ≤ days ∧ 0 < price then some (planKey proxyType.1 network.1 days, price) else none

/-- `formula_prices`. -/
def formulaPrices (params : PricingParams) : Table String ℤ :=
  match params.basePrice with
  | none => .empty
  | some base =>
    if base.isNumber then
      Table.empty.putAll ((params.typeMult.getD .empty).rows.flatMap fun proxyType =>
        (params.networkMult.getD .empty).rows.flatMap fun network =>
          (params.durationOptions.getD []).filterMap fun entry => formulaRow F base proxyType network entry)
    else .empty

/-- `effective_prices`, and whether they come from the formula. -/
def effectivePrices (params : PricingParams) : Table String ℤ × Bool :=
  let prices := planPricesMap params
  if prices.rows ≠ [] then (prices, false) else (formulaPrices F params, true)

/-- The parameters of a product that is edited: with a table, and without the formula. -/
def PricingParams.tabled (params : PricingParams) : PricingParams :=
  let (prices, fromFormula) := effectivePrices F params
  let params := if fromFormula then
    { params with basePrice := none, typeMult := none, networkMult := none, durationOptions := none }
    else params
  { params with planPrices := some (prices.mapValues .int) }

/-- The parameters of a product that is given an offer. -/
def PricingParams.withPlan (params : PricingParams) (key : String) (price : ℤ) : PricingParams :=
  { params.tabled F with
    planPrices := some (((effectivePrices F params).1.put key price).mapValues .int) }

/-! #### The keys on offer -/

/-- The key is one of the table of offers. -/
def PricingParams.Lists (params : PricingParams) (k : String) : Prop :=
  ((planPricesMap params).get? k).isSome

instance (params : PricingParams) (k : String) : Decidable (params.Lists k) :=
  inferInstanceAs (Decidable (_ = true))

theorem lists_iff {params : PricingParams} {k : String} :
    params.Lists k ↔
      ∃ raw, params.planPrices = some raw ∧ ∃ r ∈ raw.rows, ∃ price, planRow r = some (k, price) := by
  rw [PricingParams.Lists, planPricesMap]
  rcases params.planPrices with _ | raw
  · simp
  · simp only [Table.isSome_putAll, Table.get?_empty, Option.isSome_none, Bool.false_eq_true, or_false,
      List.mem_map, List.mem_filterMap]
    constructor
    · rintro ⟨⟨k', price⟩, ⟨r, hr, hrow⟩, rfl⟩
      exact ⟨raw, rfl, r, hr, price, hrow⟩
    · rintro ⟨raw', hraw, r, hr, price, hrow⟩
      obtain rfl := Option.some.inj hraw
      exact ⟨(k, price), ⟨r, hr, hrow⟩, rfl⟩

/-- An offer under its normal key is an offer under that key. -/
theorem planRow_normal {r : String × Value} {k : String} {price : ℤ} (h : planRow r = some (k, price)) :
    planRow (k, .int price) = some (k, price) := by
  rw [planRow] at h
  split at h
  · next proxyType network days price' hparse _ =>
    split_ifs at h with hp
    obtain ⟨rfl, rfl⟩ : joinKey proxyType network (toString days) = k ∧ price' = price := by simpa using h
    simp only [planRow, parsePlanPriceKey_joinKey (keyParts_of_parse hparse), if_neg hp]
  · simp at h

/-- The key of an offer does not depend on its price. -/
theorem planRow_key {k k₁ k₂ : String} {v₁ v₂ : Value} {p₁ p₂ : ℤ} (h₁ : planRow (k, v₁) = some (k₁, p₁))
    (h₂ : planRow (k, v₂) = some (k₂, p₂)) : k₁ = k₂ := by
  rw [planRow] at h₁ h₂
  split at h₁
  · next t n d p hparse _ =>
    split_ifs at h₁
    split at h₂
    · next t' n' d' p' hparse' _ =>
      split_ifs at h₂
      simp only at hparse hparse'
      obtain ⟨rfl, rfl, rfl⟩ : t = t' ∧ n = n' ∧ d = d' := by simpa [hparse] using hparse'
      obtain ⟨rfl, -⟩ := Prod.mk.inj (Option.some.inj h₁)
      exact (Prod.mk.inj (Option.some.inj h₂)).1
    · simp at h₂
  · simp at h₁

/-- The rows of the table of offers are under their normal keys. -/
theorem planRow_of_mem {params : PricingParams} {k : String} {price : ℤ}
    (h : (k, price) ∈ (planPricesMap params).rows) : planRow (k, .int price) = some (k, price) := by
  rw [planPricesMap] at h
  rcases hraw : params.planPrices with _ | raw
  · rw [hraw] at h
    simp at h
  · rw [hraw] at h
    rcases Table.mem_of_mem_putAll h with h | h
    · obtain ⟨r, -, hrow⟩ := List.mem_filterMap.mp h
      exact planRow_normal hrow
    · simp at h

variable {F} in
theorem lists_tabled_iff {params : PricingParams} {k : String} :
    (params.tabled F).Lists k ↔
      ∃ r ∈ (effectivePrices F params).1.rows, ∃ price, planRow (r.1, .int r.2) = some (k, price) := by
  rw [lists_iff]
  constructor
  · rintro ⟨raw, hraw, r, hr, price, hrow⟩
    obtain rfl : (effectivePrices F params).1.mapValues Value.int = raw := by
      simpa [PricingParams.tabled] using hraw
    obtain ⟨v, hv, hv'⟩ := Table.mem_rows_mapValues.mp hr
    refine ⟨(r.1, v), hv, price, ?_⟩
    dsimp only
    rw [hv']
    exact hrow
  · rintro ⟨r, hr, price, hrow⟩
    exact ⟨_, rfl, (r.1, .int r.2), Table.mem_rows_mapValues.mpr ⟨r.2, hr, rfl⟩, price, hrow⟩

variable {F} in
/-- **A product that lists offers keeps them when it is edited.** -/
theorem lists_tabled_of_lists {params : PricingParams} {k₀ : String} (h₀ : params.Lists k₀) {k : String} :
    (params.tabled F).Lists k ↔ params.Lists k := by
  have heff : (effectivePrices F params).1 = planPricesMap params := by
    rw [effectivePrices, if_pos (Table.rows_ne_nil h₀)]
  rw [lists_tabled_iff, heff, PricingParams.Lists, Table.isSome_get?_iff]
  constructor
  · rintro ⟨⟨k', price'⟩, hr, price, hrow⟩
    obtain ⟨rfl, rfl⟩ : k' = k ∧ price' = price := by simpa [planRow_of_mem hr] using hrow
    exact ⟨price', hr⟩
  · rintro ⟨price, hr⟩
    exact ⟨(k, price), hr, price, planRow_of_mem hr⟩

variable {F} in
/-- **An offer that is added is listed next to what the product goes on with.** -/
theorem lists_withPlan_iff {params : PricingParams} {key : String} {price : ℤ}
    (hkey : planRow (key, .int price) = some (key, price)) {k : String} :
    (params.withPlan F key price).Lists k ↔ k = key ∨ (params.tabled F).Lists k := by
  rw [lists_tabled_iff, lists_iff]
  constructor
  · rintro ⟨raw, hraw, ⟨k', v'⟩, hr, p', hrow⟩
    obtain rfl : ((effectivePrices F params).1.put key price).mapValues Value.int = raw := by
      simpa [PricingParams.withPlan] using hraw
    obtain ⟨v, hv, rfl⟩ := Table.mem_rows_mapValues.mp hr
    rcases Table.mem_rows_put.mp hv with ⟨rfl, rfl⟩ | ⟨-, hv⟩
    · exact Or.inl (planRow_key hrow hkey)
    · exact Or.inr ⟨(k', v), hv, p', hrow⟩
  · have hin : ∀ {k' : String} {v : ℤ}, (k', v) ∈ ((effectivePrices F params).1.put key price).rows →
        ∀ {p' : ℤ}, planRow (k', .int v) = some (k, p') →
        ∃ raw, (params.withPlan F key price).planPrices = some raw ∧
          ∃ r ∈ raw.rows, ∃ price, planRow r = some (k, price) := by
      intro k' v hv p' hrow
      exact ⟨_, rfl, (k', .int v), Table.mem_rows_mapValues.mpr ⟨v, hv, rfl⟩, p', hrow⟩
    have hnew : k = key → ∃ raw, (params.withPlan F key price).planPrices = some raw ∧
          ∃ r ∈ raw.rows, ∃ price, planRow r = some (k, price) := by
      rintro rfl
      exact hin (Table.mem_rows_put.mpr (Or.inl ⟨rfl, rfl⟩)) hkey
    rintro (rfl | ⟨⟨k', v⟩, hr, p', hrow⟩)
    · exact hnew rfl
    · by_cases hk : k' = key
      · subst hk
        exact hnew (planRow_key hrow hkey)
      · exact hin (Table.mem_rows_put.mpr (Or.inr ⟨hk, hr⟩)) hrow

end Formula

/-! ### What a buyer may order -/

/-- The `user_config` of an order. -/
structure UserConfig where
  type : Option Value
  network : Option Value
  days : Option Value
  quantity : Option Value
  planKey : Option Value
  deriving DecidableEq, Repr

/-- `normalize_user_config`. -/
def normalizeUserConfig (params : PricingParams) (cfg : UserConfig) : UserConfig :=
  let parsed := match cfg.planKey with
    | none | some .null | some (.str "") => none
    | some raw => parsePlanPriceKey raw.text
  match parsed, cfg.type, cfg.network, cfg.days with
  | some (proxyType, network, days), _, _, _ =>
    { cfg with
      type := some (.str proxyType), network := some (.str network), days := some (.int days)
      planKey := some (.str (joinKey proxyType network (toString days))) }
  | none, some proxyType, some network, some days =>
    if (planPricesMap params).rows ≠ [] then
      { cfg with planKey := some (.str (joinKey proxyType.text network.text days.text)) }
    else cfg
  | none, _, _, _ => cfg

/-- `isinstance(quantity, int) and quantity >= 1`. -/
def quantityOk : Value → Bool
  | .bool b => b
  | .int n => 1 ≤ n
  | _ => false

/-- The number of days is a listed one; without a list, every number is. -/
def daysListed (params : PricingParams) (days : ℤ) : Bool :=
  match params.durationOptions with
  | none | some [] => true
  | some options =>
    let listed := options.filterMap fun
      | .dict d => some (d.getD .null)
      | .other => none
    listed.all Value.hashable && listed.any fun v => v.number = some (days : ℚ)

/-- `ConfigPricing.validate`. -/
def validate (params : PricingParams) (userConfig : UserConfig) : Bool :=
  let cfg := normalizeUserConfig params userConfig
  match cfg.type, cfg.network, cfg.days, cfg.quantity with
  | some proxyType, some network, some days, some quantity =>
    quantityOk quantity &&
      if (planPricesMap params).rows ≠ [] then
        ((planPricesMap params).get? (joinKey proxyType.text network.text days.text)).isSome
      else
        proxyType.isKey (params.typeMult.getD .empty) && network.isKey (params.networkMult.getD .empty) &&
          match days with
          | .int n => 0 < n && daysListed params n
          | _ => false
  | _, _, _, _ => false

/-- The key an order is looked up by, `"|".join(…)` of what it has under `type`, `network` and `days`. -/
def UserConfig.selectionKey (cfg : UserConfig) : String :=
  let text (v : Option Value) := (v.map Value.text).getD ""
  joinKey (text cfg.type) (text cfg.network) (text cfg.days)

end Marketplace
