import Mathlib.Data.List.ReduceOption
import Marketplace.Lists.MapM
import Marketplace.Pricing.FromPrice

/-!
# Products that start at one price

`Product.Kept` says of the entries of a product when the catalogue query, the page and the checkout tell one
price (`one_price_iff`). What the query and the page tell is worked out of the entries they look at
(`config_shown_iff`, `credit_shown_iff`), and what the checkout charges of the choices that are on sale
(`config_charges_iff`, `credit_charges_iff`).

A product whose first entries are not its least ones is not kept: `dearer_type_first`.
-/

namespace Marketplace.FromPrice

open Sql

/-! ### The condition -/

/-- The discount on an order of so many. -/
def discountAt (tiers : List VolumeTier) (quantity : ℤ) : ℚ :=
  ((bestTier (tiers.filter fun t => t.minQty ≤ quantity)).map (·.discount)).getD 0

/-- The positive numbers among the values. -/
def Positive (vs : List Value) : Set ℚ := {q | 0 < q ∧ ∃ v ∈ vs, jsonNumber v = some q}

/-- The least positive number, or what stands for it where there is none. -/
def LeastPositive (vs : List Value) (otherwise x : ℚ) : Prop :=
  IsLeast (Positive vs) x ∨ Positive vs = ∅ ∧ x = otherwise

/-- The number found, or what stands for it where nothing is. -/
def FoundNumber (v : Option Value) (otherwise x : ℚ) : Prop :=
  v = none ∧ x = otherwise ∨ ∃ w, v = some w ∧ jsonNumber w = some x

section Config

variable (params : PricingParams)

/-- A duration of the form has days, and they are a plain value. -/
def FormComplete : Prop :=
  ∀ entry ∈ params.durationOptions.getD [], ∃ v, daysItem entry = some v ∧ v.hashable = true

/-- What the formula gives for a type, a network and a whole number of days that are listed. -/
def Combination (x : ℚ) : Prop :=
  ∃ (base typeMult networkMult : ℚ) (days : ℤ), params.basePrice.bind Value.number = some base ∧
    (∃ v ∈ objectValues params.typeMult, v.number = some typeMult) ∧
    (∃ v ∈ objectValues params.networkMult, v.number = some networkMult) ∧
    (∃ v ∈ daysValues params, jsonNumber v = some (days : ℚ)) ∧ 0 < days ∧
    x = base * typeMult * networkMult * (days / 30)

/-- The prices on sale: of the plans, or where there are none of the combinations. -/
inductive OnSale : ℤ → Prop
  | plan {key : String} {price : ℤ} (h : (key, price) ∈ (planPricesMap params).rows) : OnSale price
  | combination {x : ℚ} (hplans : (planPricesMap params).rows = []) (hform : FormComplete params)
    (h : Combination params x) : OnSale (round x)

variable (readFloat : String → Option ℚ)

/-- The numbers of the plan table, texts that are numbers among them. -/
def TableNumbers : Set ℚ := {q | ∃ v ∈ objectValues params.planPrices, castText readFloat v = some (some q)}

/-- The entries stored first, rounded to even. -/
def FirstEntries (price : ℚ) : Prop :=
  ∃ base typeMult networkMult days : ℚ,
    (∃ c, castText readFloat (params.basePrice.getD .null) = some c ∧ c.getD 0 = base) ∧
    FoundNumber (firstValue params.typeMult) 1 typeMult ∧
    FoundNumber (firstValue params.networkMult) 1 networkMult ∧ FoundNumber (firstDays params) 30 days ∧
    price = round (base * typeMult * networkMult * days / 30)

/-- The least positive entries, rounded up from the half. -/
def LeastEntries (price : ℚ) : Prop :=
  ∃ base typeMult networkMult days : ℚ, (params.basePrice.bind jsonNumber).getD 0 = base ∧
    LeastPositive (objectValues params.typeMult) 1 typeMult ∧
    LeastPositive (objectValues params.networkMult) 1 networkMult ∧ LeastPositive (daysValues params) 30 days ∧
    price = if base ≤ 0 then 0 else (mathRound (base * typeMult * networkMult * (days / 30)) : ℚ)

/-- Where the entries the query looks at, and those the page looks at, come to this price. -/
inductive ConfigShown (price : ℚ) : Prop
  /-- The least number of the plan table is a positive one that is not a text. -/
  | table (hleast : IsLeast (TableNumbers params readFloat) price)
    (hpositive : price ∈ Positive (objectValues params.planPrices))
  /-- All the numbers of the table are texts or not positive, so that the page uses the formula. -/
  | texts (hleast : IsLeast (TableNumbers params readFloat) price)
    (hnone : Positive (objectValues params.planPrices) = ∅) (hentries : LeastEntries params price)
  /-- There are no numbers in a table, and both use the formula. -/
  | formula (hnone : TableNumbers params readFloat = ∅) (hfirst : FirstEntries params readFloat price)
    (hentries : LeastEntries params price)

end Config

section Credit

variable (params : CreditParams)

/-- The choice for a package can be worked out. -/
def CreditPackage.Complete (p : CreditPackage) : Prop :=
  (∃ v, p.size = some v) ∧ (p.price ≠ .null → (∃ n, p.intSize = some n) ∧ ∃ n, p.price.toInt = some n)

/-- A buyer can choose this size. -/
structure SizeOffered (n : ℤ) : Prop where
  positive : 1 ≤ n
  complete : ∀ p ∈ params.shownPackages, p.Complete
  shown : params.shownPackages ≠ [] → ∃ p ∈ params.shownPackages, p.size.bind Value.number = some (n : ℚ)

/-- The price of this size: of the first package with a price, or where no package has one, of its requests. -/
inductive SizeCosts (n : ℤ) : ℤ → Prop
  | own {p : CreditPackage} {price : ℤ}
    (hfirst : params.pricedPackages.find? (fun p => p.intSize = some n) = some p)
    (hprice : p.price.toInt = some price) : SizeCosts n price
  | requests {price : ℚ} (hpriced : params.pricedPackages = [])
    (hprice : params.creditPrice.bind Value.number = some price) : SizeCosts n (round (price * n))

/-- Where the first package, and the smallest one, come to this price. -/
inductive CreditShown (readFloat : String → Option ℚ) : ℚ → Prop
  /-- The first package is the smallest one. -/
  | smallest {unit size : ℚ} (hunit : params.creditPrice.bind jsonNumber = some unit) (hpositive : 0 < unit)
    (hfound : FoundNumber (params.packages.head?.bind (·.size)) 0 size)
    (hleast : IsLeast (Positive (params.packages.filterMap (·.size))) size) :
    CreditShown readFloat (unit * size)
  /-- The page has no price to show, and the query comes to zero. -/
  | nothing {unit : Option ℚ} {size : ℚ}
    (hunit : castText readFloat (params.creditPrice.getD .null) = some unit)
    (hfound : FoundNumber (params.packages.head?.bind (·.size)) 0 size) (hzero : unit.getD 0 * size = 0)
    (hnone : (params.creditPrice.bind jsonNumber).getD 0 ≤ 0 ∨
      Positive (params.packages.filterMap (·.size)) = ∅) :
    CreditShown readFloat 0

end Credit

/-- What a choice on sale costs, less the discount. -/
def Product.Costs (p : Product) (amount : ℤ) : Prop :=
  match p.pricing with
  | .config params => ∃ price, OnSale params price ∧ amount = round (price * (1 - discountAt p.volumeTiers 1))
  | .credit params => ∃ n price, SizeOffered params n ∧ SizeCosts params n price ∧
      amount = round (price * (1 - discountAt p.volumeTiers n))

/-- The entries the query and the page look at come to this price. -/
def Product.Shown (readFloat : String → Option ℚ) (p : Product) (price : ℚ) : Prop :=
  match p.pricing with
  | .config params =>
    (∀ v ∈ objectValues params.planPrices, (castText readFloat v).isSome) ∧ ConfigShown params readFloat price
  | .credit params => CreditShown params readFloat price

/-- The entries looked at come to one price, some choice on sale costs exactly this, and none costs less. -/
def Product.Kept (readFloat : String → Option ℚ) (p : Product) : Prop :=
  ∃ price : ℚ, p.Shown readFloat price ∧ IsLeast {amount : ℚ | ∃ cost, p.Costs cost ∧ amount = cost} price

/-! ### Lists of numbers -/

@[simp] theorem round_intCast (n : ℤ) : round (n : ℚ) = n := by
  simpa [round] using Arith.roundDiv_self (t := n) (n := 1) one_pos

theorem min?_eq_some_iff {l : List ℚ} {m : ℚ} : l.min? = some m ↔ IsLeast {q | q ∈ l} m := by
  rw [List.min?_eq_some_iff]
  rfl

theorem setOf_mem_positiveNumbers (vs : List Value) : {q | q ∈ positiveNumbers vs} = Positive vs := by
  ext q
  simp [positiveNumbers, Positive, and_comm]

theorem positiveNumbers_eq_nil_iff {vs : List Value} : positiveNumbers vs = [] ↔ Positive vs = ∅ := by
  rw [← setOf_mem_positiveNumbers, Set.eq_empty_iff_forall_notMem, List.eq_nil_iff_forall_not_mem]
  rfl

theorem leastPositive_iff {vs : List Value} {otherwise x : ℚ} :
    LeastPositive vs otherwise x ↔ (positiveNumbers vs).min?.getD otherwise = x := by
  rcases hm : (positiveNumbers vs).min? with _ | m
  · have hnone : Positive vs = ∅ := positiveNumbers_eq_nil_iff.mp (List.min?_eq_none_iff.mp hm)
    have hempty : ¬IsLeast (∅ : Set ℚ) x := fun h => Set.not_nonempty_empty h.nonempty
    simp [LeastPositive, hnone, hempty, eq_comm]
  · have hleast : IsLeast (Positive vs) m := by
      rw [← setOf_mem_positiveNumbers]
      exact min?_eq_some_iff.mp hm
    rw [LeastPositive, Option.getD_some]
    constructor
    · rintro (h | ⟨hnone, -⟩)
      · exact hleast.unique h
      · exact absurd hleast.nonempty (Set.not_nonempty_iff_eq_empty.mpr hnone)
    · rintro rfl
      exact Or.inl hleast

theorem foundNumber_iff {v : Option Value} {otherwise x : ℚ} :
    FoundNumber v otherwise x ↔ ∃ c, castFound v = some c ∧ c.getD otherwise = x := by
  rcases v with _ | v
  · simp [FoundNumber, castFound, eq_comm]
  · simp [FoundNumber, castFound]

theorem applyVolumeDiscount_eq (amount quantity : ℤ) (tiers : List VolumeTier) :
    applyVolumeDiscount amount quantity tiers = round (amount * (1 - discountAt tiers quantity)) := by
  rw [applyVolumeDiscount, discountAt]
  rcases bestTier (tiers.filter fun t => t.minQty ≤ quantity) with _ | best
  · simp
  · rfl

/-! ### What the query and the page tell -/

section Shown

variable {readFloat : String → Option ℚ} {params : PricingParams}

/-- A number of the page is a number of the query. -/
theorem castText_of_jsonNumber {v : Value} {q : ℚ} (h : jsonNumber v = some q) :
    castText readFloat v = some (some q) := by
  cases v <;> simp_all [jsonNumber, castText]

theorem positive_subset : Positive (objectValues params.planPrices) ⊆ TableNumbers params readFloat := by
  rintro q ⟨-, v, hv, hq⟩
  exact ⟨v, hv, castText_of_jsonNumber hq⟩

theorem planNumbers_eq_some_iff {numbers : List ℚ} :
    planNumbers readFloat params = some numbers ↔
      (∀ v ∈ objectValues params.planPrices, (castText readFloat v).isSome) ∧
        ((objectValues params.planPrices).filterMap (castText readFloat)).reduceOption = numbers := by
  rw [planNumbers, Option.map_eq_some_iff]
  simp only [Lists.mapM_eq_some_iff]
  constructor
  · rintro ⟨_, ⟨hread, rfl⟩, h⟩
    exact ⟨hread, h⟩
  · rintro ⟨hread, h⟩
    exact ⟨_, ⟨hread, rfl⟩, h⟩

theorem setOf_mem_planNumbers :
    {q | q ∈ ((objectValues params.planPrices).filterMap (castText readFloat)).reduceOption} =
      TableNumbers params readFloat := by
  ext q
  simp [TableNumbers, List.reduceOption_mem_iff]

/-- The formula of the query works with the first entries. -/
theorem formulaSql_iff {price : ℚ} :
    (∃ c, formulaSql readFloat params = some c ∧ c.getD 0 = price) ↔ FirstEntries params readFloat price := by
  constructor
  · rintro ⟨c, hc, rfl⟩
    simp only [formulaSql, Option.bind_eq_bind, Option.bind_eq_some_iff, Option.some.injEq] at hc
    obtain ⟨base, hbase, typeMult, htype, networkMult, hnetwork, days, hdays, rfl⟩ := hc
    refine ⟨base.getD 0, typeMult.getD 1, networkMult.getD 1, days.getD 30, ⟨base, hbase, rfl⟩,
      foundNumber_iff.mpr ⟨_, htype, rfl⟩, foundNumber_iff.mpr ⟨_, hnetwork, rfl⟩,
      foundNumber_iff.mpr ⟨_, hdays, rfl⟩, ?_⟩
    rcases base with _ | base
    · -- Without a base price the query has no price, which counts as zero.
      simp [round, Arith.roundDiv]
    · rfl
  · rintro ⟨_, _, _, _, ⟨base, hbase, rfl⟩, htype, hnetwork, hdays, rfl⟩
    obtain ⟨typeMult, htype', rfl⟩ := foundNumber_iff.mp htype
    obtain ⟨networkMult, hnetwork', rfl⟩ := foundNumber_iff.mp hnetwork
    obtain ⟨days, hdays', rfl⟩ := foundNumber_iff.mp hdays
    refine ⟨base.map fun base => _, by
      simp only [formulaSql, hbase, htype', hnetwork', hdays', Option.bind_eq_bind, Option.bind_some]
      rfl, ?_⟩
    rcases base with _ | base
    · simp [round, Arith.roundDiv]
    · rfl

/-- The formula of the page works with the least positive entries. -/
theorem configMinPrice_iff {price : ℚ} (hnone : Positive (objectValues params.planPrices) = ∅) :
    configMinPrice params = price ↔ LeastEntries params price := by
  have hmin : (positiveNumbers (objectValues params.planPrices)).min? = none :=
    List.min?_eq_none_iff.mpr (positiveNumbers_eq_nil_iff.mpr hnone)
  simp only [LeastEntries, leastPositive_iff, configMinPrice, hmin]
  constructor
  · rintro rfl
    exact ⟨_, _, _, _, rfl, rfl, rfl, rfl, rfl⟩
  · rintro ⟨_, _, _, _, rfl, rfl, rfl, rfl, rfl⟩
    rfl

theorem configMinPrice_of_positive {price : ℚ} (h : IsLeast (Positive (objectValues params.planPrices)) price) :
    configMinPrice params = price := by
  rw [← setOf_mem_positiveNumbers] at h
  rw [configMinPrice, min?_eq_some_iff.mpr h]

/-- **What the query and the page show of a configured product.** -/
theorem config_shown_iff {price : ℚ} :
    ((∃ c, configPriceSql readFloat params = some c ∧ c.getD 0 = price) ∧ configMinPrice params = price) ↔
      (∀ v ∈ objectValues params.planPrices, (castText readFloat v).isSome) ∧
        ConfigShown params readFloat price := by
  rcases hnumbers : planNumbers readFloat params with _ | numbers
  · -- A text that is no number: the query fails.
    have hread : ¬∀ v ∈ objectValues params.planPrices, (castText readFloat v).isSome := by
      intro hread
      rw [planNumbers_eq_some_iff.mpr ⟨hread, rfl⟩] at hnumbers
      exact absurd hnumbers (by simp)
    simp [configPriceSql, hnumbers, hread]
  obtain ⟨hread, rfl⟩ := planNumbers_eq_some_iff.mp hnumbers
  rw [and_iff_right hread]
  set numbers := ((objectValues params.planPrices).filterMap (castText readFloat)).reduceOption with hdef
  have hset : {q | q ∈ numbers} = TableNumbers params readFloat := setOf_mem_planNumbers
  rcases hmin : numbers.min? with _ | m
  · -- No number in the table: both go on to the formula.
    have hempty : TableNumbers params readFloat = ∅ := by
      rw [← hset, List.min?_eq_none_iff.mp hmin]
      simp
    have hpositive : Positive (objectValues params.planPrices) = ∅ :=
      Set.subset_eq_empty positive_subset hempty
    have hsql : configPriceSql readFloat params = formulaSql readFloat params := by
      simp [configPriceSql, hnumbers, hmin]
    rw [hsql, formulaSql_iff, configMinPrice_iff hpositive]
    constructor
    · rintro ⟨hfirst, hentries⟩
      exact .formula hempty hfirst hentries
    · rintro (⟨hleast, -⟩ | ⟨hleast, -, -⟩ | ⟨-, hfirst, hentries⟩)
      · exact absurd hleast.nonempty (Set.not_nonempty_iff_eq_empty.mpr hempty)
      · exact absurd hleast.nonempty (Set.not_nonempty_iff_eq_empty.mpr hempty)
      · exact ⟨hfirst, hentries⟩
  · have hleast : IsLeast (TableNumbers params readFloat) m := by
      rw [← hset]
      exact min?_eq_some_iff.mp hmin
    have hsql : (∃ c, configPriceSql readFloat params = some c ∧ c.getD 0 = price) ↔
        IsLeast (TableNumbers params readFloat) price := by
      have hm : configPriceSql readFloat params = some (some m) := by simp [configPriceSql, hnumbers, hmin]
      rw [hm]
      constructor
      · rintro ⟨c, hc, rfl⟩
        obtain rfl := Option.some.inj hc
        exact hleast
      · intro h
        exact ⟨some m, rfl, hleast.unique h⟩
    rw [hsql]
    constructor
    · rintro ⟨hprice, hpage⟩
      rcases (Positive (objectValues params.planPrices)).eq_empty_or_nonempty with hnone | hsome
      · exact .texts hprice hnone ((configMinPrice_iff hnone).mp hpage)
      · obtain ⟨least, hpositive⟩ : ∃ least, IsLeast (Positive (objectValues params.planPrices)) least := by
          rcases hmin' : (positiveNumbers (objectValues params.planPrices)).min? with _ | least
          · rw [List.min?_eq_none_iff, positiveNumbers_eq_nil_iff] at hmin'
            exact absurd hsome (Set.not_nonempty_iff_eq_empty.mpr hmin')
          · rw [min?_eq_some_iff, setOf_mem_positiveNumbers] at hmin'
            exact ⟨least, hmin'⟩
        rw [configMinPrice_of_positive hpositive] at hpage
        subst hpage
        exact .table hprice hpositive.1
    · rintro (⟨hprice, hpositive⟩ | ⟨hprice, hnone, hentries⟩ | ⟨hempty, -, -⟩)
      · exact ⟨hprice, configMinPrice_of_positive ⟨hpositive, fun q hq => hprice.2 (positive_subset hq)⟩⟩
      · exact ⟨hprice, (configMinPrice_iff hnone).mpr hentries⟩
      · exact absurd hleast.nonempty (Set.not_nonempty_iff_eq_empty.mpr hempty)

end Shown

/-! ### What the checkout charges -/

section Charged

variable {params : PricingParams} {tiers : List VolumeTier} {cfg : UserConfig}

theorem number_of_jsonNumber {v : Value} {q : ℚ} (h : jsonNumber v = some q) : v.number = some q := by
  cases v <;> simp_all [jsonNumber, Value.number]

theorem asSent_eq_int_iff {v : Value} {n : ℤ} : asSent v = .int n ↔ jsonNumber v = some (n : ℚ) := by
  cases v with
  | float q text =>
    by_cases hq : q.den = 1
    · rw [asSent, if_pos hq, Value.int.injEq, jsonNumber, Option.some.injEq]
      conv_rhs => rw [← Rat.coe_int_num_of_den_eq_one hq]
      exact Int.cast_inj.symm
    · rw [asSent, if_neg hq, jsonNumber, Option.some.injEq]
      refine iff_of_false (by simp) ?_
      rintro rfl
      exact hq (Rat.den_intCast n)
  | int m => simp [asSent, jsonNumber]
  | _ => simp [asSent, jsonNumber]

/-! #### Plans -/

/-- A plan that is picked fills in its type, its network and its days. -/
theorem normalize_plan {key proxyType network : String} {days : ℤ} (hkey : cfg.planKey = some (.str key))
    (hparse : parsePlanPriceKey key = some (proxyType, network, days)) :
    normalizeUserConfig params cfg = { cfg with
      type := some (.str proxyType), network := some (.str network), days := some (.int days)
      planKey := some (.str (joinKey proxyType network (toString days))) } := by
  have hne : key ≠ "" := by
    rintro rfl
    exact absurd hparse (by simp [parsePlanPriceKey])
  simp [normalizeUserConfig, hkey, hparse, hne, Value.text]

/-- The keys of the plans are in their normal form. -/
theorem parse_of_mem_rows {key : String} {price : ℤ} (h : (key, price) ∈ (planPricesMap params).rows) :
    ∃ proxyType network days, parsePlanPriceKey key = some (proxyType, network, days) ∧
      joinKey proxyType network (toString days) = key := by
  have hrow := planRow_of_mem h
  rw [planRow] at hrow
  split at hrow
  · next proxyType network days price' hparse _ =>
    split_ifs at hrow
    exact ⟨proxyType, network, days, hparse, (Prod.mk.inj (Option.some.inj hrow)).1⟩
  · simp at hrow

theorem quote_plan {key : String} {price : ℤ} (h : (key, price) ∈ (planPricesMap params).rows)
    (hkey : cfg.planKey = some (.str key)) (hquantity : cfg.quantity = some (.int 1)) :
    quote params tiers cfg = some (applyVolumeDiscount price 1 tiers) := by
  obtain ⟨proxyType, network, days, hparse, hjoin⟩ := parse_of_mem_rows h
  have hget : (planPricesMap params).get? key = some price := Table.get?_eq_some_iff.mpr h
  have hrows : (planPricesMap params).rows ≠ [] := List.ne_nil_of_mem h
  set normal : UserConfig := { cfg with
    type := some (.str proxyType), network := some (.str network), days := some (.int days)
    planKey := some (.str key) } with hnormal
  have hfirst : normalizeUserConfig params cfg = normal := by rw [normalize_plan hkey hparse, hjoin]
  have hagain : normalizeUserConfig params normal = normal := by
    have hkey' : normal.planKey = some (.str key) := rfl
    rw [normalize_plan hkey' hparse, hjoin]
  have htext : joinKey (Value.str proxyType).text (Value.str network).text (Value.int days).text = key := hjoin
  have hvalid : validate params normal = true := by
    rw [validate, hagain, hnormal]
    simp [hquantity, quantityOk, hrows, htext, hget]
  have hsub : subtotal params normal = some (price, 1) := by
    rw [subtotal, hagain, hnormal]
    simp [hquantity, hrows, htext, hget, Value.toInt]
  rw [quote, hfirst, if_pos hvalid, hsub]
  rfl

theorem charges_plan_iff {amount : ℤ} (hrows : (planPricesMap params).rows ≠ []) :
    (∃ form, getOptions params = some form ∧ ∃ cfg, form.Filled cfg ∧ quote params tiers cfg = some amount) ↔
      ∃ key price, (key, price) ∈ (planPricesMap params).rows ∧ applyVolumeDiscount price 1 tiers = amount := by
  rw [getOptions, if_pos hrows]
  constructor
  · rintro ⟨form, hform, cfg, hfilled, hquote⟩
    obtain rfl := Option.some.inj hform
    obtain ⟨key, hmem, hkey⟩ := hfilled.planKey
    obtain ⟨⟨_, price⟩, hrow, rfl⟩ := List.mem_map.mp hmem
    rw [quote_plan hrow hkey hfilled.quantity, Option.some.injEq] at hquote
    exact ⟨_, price, hrow, hquote⟩
  · rintro ⟨key, price, hmem, rfl⟩
    refine ⟨_, rfl, ⟨none, none, none, some (.int 1), some (.str key)⟩, ⟨?_, rfl, rfl, rfl, rfl⟩,
      quote_plan hmem rfl rfl⟩
    exact ⟨key, List.mem_map.mpr ⟨_, hmem, rfl⟩, rfl⟩

/-! #### Combinations -/

theorem normalize_formula (hrows : (planPricesMap params).rows = []) (hkey : cfg.planKey = none) :
    normalizeUserConfig params cfg = cfg := by
  rw [normalizeUserConfig, hkey]
  split
  · next h => simp at h
  · rw [if_neg (by simp [hrows])]
  · rfl

theorem multiplier_eq_some_iff {t : Table String Value} {key : String} {x : ℚ} :
    multiplier (some t) (.str key) = some x ↔ ∃ v, (key, v) ∈ t.rows ∧ v.number = some x := by
  simp [multiplier, Option.bind_eq_some_iff, Table.get?_eq_some_iff]

theorem daysListed_iff {entries : List DurationEntry} {days : List Value} {n : ℤ}
    (hentries : params.durationOptions = some entries) (hne : entries ≠ [])
    (hdays : entries.mapM daysItem = some days) :
    daysListed params n = true ↔ (∀ v ∈ days, v.hashable = true) ∧ ∃ v ∈ days, v.number = some (n : ℚ) := by
  obtain ⟨hitem, rfl⟩ := Lists.mapM_eq_some_iff.mp hdays
  obtain ⟨entry, rest, rfl⟩ := List.exists_cons_of_ne_nil hne
  rw [daysListed, hentries]
  simp only [Bool.and_eq_true, List.all_eq_true, List.any_eq_true, decide_eq_true_eq]
  rw [List.filterMap_congr (g := daysItem)]
  intro entry hentry
  have := hitem entry hentry
  cases entry with
  | dict v =>
    obtain ⟨v, rfl⟩ := Option.isSome_iff_exists.mp this
    rfl
  | other => rfl

/-- A select of the keys of a table, and the number the price is multiplied by. -/
theorem picks_keys_iff {t : Option (Table String Value)} {x : ℚ} :
    (∃ value, Picks (t.map fun t => t.rows.map Prod.fst) (some value) .str ∧ multiplier t value = some x) ↔
      ∃ v ∈ objectValues t, v.number = some x := by
  rcases t with _ | t
  · simp [Picks, objectValues]
  · simp only [Option.map_some, Picks, Option.some.injEq, objectValues, Option.getD_some, List.mem_map]
    constructor
    · rintro ⟨_, ⟨_, -, rfl⟩, hx⟩
      obtain ⟨v, hv, hx⟩ := multiplier_eq_some_iff.mp hx
      exact ⟨v, ⟨_, hv, rfl⟩, hx⟩
    · rintro ⟨v, ⟨row, hrow, rfl⟩, hx⟩
      exact ⟨_, ⟨row.1, ⟨row, hrow, rfl⟩, rfl⟩, multiplier_eq_some_iff.mpr ⟨row.2, hrow, hx⟩⟩

/-- A key that is picked is one of the table. -/
theorem isKey_of_picks {t : Option (Table String Value)} {value : Value}
    (h : Picks (t.map fun t => t.rows.map Prod.fst) (some value) .str) :
    value.isKey (t.getD .empty) = true := by
  rcases t with _ | t
  · simp [Picks] at h
  · simp only [Option.map_some, Picks, Option.some.injEq, List.mem_map] at h
    obtain ⟨_, ⟨row, hrow, rfl⟩, rfl⟩ := h
    exact Table.isSome_get?_iff.mpr ⟨row.2, hrow⟩

/-- What is charged for a form without plans that is filled in. -/
theorem quote_formula {proxyType network : Value} {days : ℤ} (hrows : (planPricesMap params).rows = [])
    (hkey : cfg.planKey = none) (hquantity : cfg.quantity = some (.int 1)) (htype : cfg.type = some proxyType)
    (hnetwork : cfg.network = some network) (hdays : cfg.days = some (.int days)) (hpositive : 0 < days)
    (htypeKey : proxyType.isKey (params.typeMult.getD .empty) = true)
    (hnetworkKey : network.isKey (params.networkMult.getD .empty) = true)
    (hlisted : daysListed params days = true) {amount : ℤ} :
    quote params tiers cfg = some amount ↔
      ∃ base typeMult networkMult, params.basePrice.bind Value.number = some base ∧
        multiplier params.typeMult proxyType = some typeMult ∧
        multiplier params.networkMult network = some networkMult ∧
        applyVolumeDiscount (round (base * typeMult * networkMult * (days / 30))) 1 tiers = amount := by
  have hnormal : normalizeUserConfig params cfg = cfg := normalize_formula hrows hkey
  have hvalid : validate params cfg = true := by
    rw [validate, hnormal, htype, hnetwork, hdays, hquantity]
    simp [quantityOk, hrows, htypeKey, hnetworkKey, hpositive, hlisted]
  rw [quote, hnormal, if_pos hvalid, subtotal, hnormal, htype, hnetwork, hdays, hquantity]
  have hone : (Value.int 1).toInt = some 1 := rfl
  have hnumber : (Value.int days).number = some (days : ℚ) := rfl
  simp only [hrows, hone, hnumber, Option.bind_eq_bind, Option.bind_some, ne_eq, not_true_eq_false, if_false,
    Option.map_eq_some_iff, Option.bind_eq_some_iff, Option.some.injEq, Int.cast_one, mul_one]
  constructor
  · rintro ⟨_, ⟨v, hv, base, hbase, typeMult, htypeMult, networkMult, hnetworkMult, rfl⟩, hamount⟩
    exact ⟨base, typeMult, networkMult, ⟨v, hv, hbase⟩, htypeMult, hnetworkMult, hamount⟩
  · rintro ⟨base, typeMult, networkMult, ⟨v, hv, hbase⟩, htypeMult, hnetworkMult, hamount⟩
    exact ⟨_, ⟨v, hv, base, hbase, typeMult, htypeMult, networkMult, hnetworkMult, rfl⟩, hamount⟩

/-- A form without plans is charged for where the days are a whole number that is listed. -/
theorem filled_of_quote {amount : ℤ} (hrows : (planPricesMap params).rows = []) (hkey : cfg.planKey = none)
    (h : quote params tiers cfg = some amount) :
    ∃ proxyType network days, cfg.type = some proxyType ∧ cfg.network = some network ∧
      cfg.days = some (.int days) ∧ 0 < days ∧ daysListed params days = true := by
  have hnormal : normalizeUserConfig params cfg = cfg := normalize_formula hrows hkey
  rw [quote, hnormal] at h
  split_ifs at h with hvalid
  rw [validate, hnormal] at hvalid
  split at hvalid
  · next proxyType network days quantity htype hnetwork hdays _ =>
    rw [if_neg (by simp [hrows])] at hvalid
    simp only [Bool.and_eq_true] at hvalid
    obtain ⟨-, -, hvalid⟩ := hvalid
    split at hvalid
    · next n =>
      rw [Bool.and_eq_true, decide_eq_true_eq] at hvalid
      exact ⟨proxyType, network, n, htype, hnetwork, hdays, hvalid.1, hvalid.2⟩
    · simp at hvalid
  · simp at hvalid

theorem getOptions_formula (hrows : (planPricesMap params).rows = []) {entries : List DurationEntry}
    (hentries : params.durationOptions = some entries) {days : List Value}
    (hdays : entries.mapM daysItem = some days) :
    getOptions params = some ⟨none, params.typeMult.map fun t => t.rows.map Prod.fst,
      params.networkMult.map fun t => t.rows.map Prod.fst, some days⟩ := by
  rw [getOptions, if_neg (by simp [hrows])]
  simp only [hentries, hdays, Option.map_some]

theorem charges_formula_iff {amount : ℤ} (hrows : (planPricesMap params).rows = []) :
    (∃ form, getOptions params = some form ∧ ∃ cfg, form.Filled cfg ∧ quote params tiers cfg = some amount) ↔
      FormComplete params ∧ ∃ x, Combination params x ∧ applyVolumeDiscount (round x) 1 tiers = amount := by
  constructor
  · rintro ⟨form, hform, cfg, hfilled, hquote⟩
    have hoptions := hform
    rw [getOptions, if_neg (by simp [hrows])] at hform
    rcases hentries : params.durationOptions with _ | entries
    · -- Without durations no days are filled in.
      simp only [hentries, Option.some.injEq] at hform
      subst hform
      obtain ⟨_, _, _, -, -, hdays, -⟩ := filled_of_quote hrows hfilled.planKey hquote
      exact absurd (hdays.symm.trans hfilled.days) (by simp)
    rcases hdays : entries.mapM daysItem with _ | days
    · simp [hentries, hdays] at hform
    rw [getOptions_formula hrows hentries hdays, Option.some.injEq] at hoptions
    subst hoptions
    obtain ⟨proxyType, network, n, htype, hnetwork, hn, hpositive, hlisted⟩ :=
      filled_of_quote hrows hfilled.planKey hquote
    obtain ⟨c, hc, hcfg⟩ := hfilled.days
    have hsent : jsonNumber c = some (n : ℚ) :=
      asSent_eq_int_iff.mp (Option.some.inj (hcfg.symm.trans hn))
    obtain ⟨hitem, rfl⟩ := Lists.mapM_eq_some_iff.mp hdays
    have hne : entries ≠ [] := by
      rintro rfl
      simp at hc
    have hhash := ((daysListed_iff hentries hne hdays).mp hlisted).1
    have htypePick := htype ▸ hfilled.type
    have hnetworkPick := hnetwork ▸ hfilled.network
    rw [quote_formula hrows hfilled.planKey hfilled.quantity htype hnetwork hn hpositive
      (isKey_of_picks htypePick) (isKey_of_picks hnetworkPick) hlisted] at hquote
    obtain ⟨base, typeMult, networkMult, hbase, htypeMult, hnetworkMult, rfl⟩ := hquote
    refine ⟨fun entry hentry => ?_, _, ⟨base, typeMult, networkMult, n, hbase,
      picks_keys_iff.mp ⟨_, htypePick, htypeMult⟩, picks_keys_iff.mp ⟨_, hnetworkPick, hnetworkMult⟩,
      ⟨c, ?_, hsent⟩, hpositive, rfl⟩, rfl⟩
    · rw [hentries, Option.getD_some] at hentry
      obtain ⟨v, hv⟩ := Option.isSome_iff_exists.mp (hitem entry hentry)
      exact ⟨v, hv, hhash v (List.mem_filterMap.mpr ⟨entry, hentry, hv⟩)⟩
    · rw [daysValues, hentries, Option.getD_some]
      exact hc
  · rintro ⟨hcomplete, x, hx, rfl⟩
    obtain ⟨base, typeMult, networkMult, n, hbase, htype, hnetwork, ⟨c, hc, hsent⟩, hpositive, rfl⟩ := hx
    rcases hentries : params.durationOptions with _ | entries
    · simp [daysValues, hentries] at hc
    rw [daysValues, hentries, Option.getD_some] at hc
    rw [FormComplete, hentries, Option.getD_some] at hcomplete
    have hdays : entries.mapM daysItem = some (entries.filterMap daysItem) := by
      refine Lists.mapM_eq_some_iff.mpr ⟨fun entry hentry => ?_, rfl⟩
      obtain ⟨v, hv, -⟩ := hcomplete entry hentry
      exact Option.isSome_iff_exists.mpr ⟨v, hv⟩
    have hne : entries ≠ [] := by
      rintro rfl
      simp at hc
    have hlisted : daysListed params n = true := by
      refine (daysListed_iff hentries hne hdays).mpr ⟨fun v hv => ?_, c, hc, number_of_jsonNumber hsent⟩
      obtain ⟨entry, hentry, hv⟩ := List.mem_filterMap.mp hv
      obtain ⟨v', hv', hhash⟩ := hcomplete entry hentry
      rwa [← Option.some.inj (hv'.symm.trans hv)]
    obtain ⟨proxyType, htypePick, htypeMult⟩ := picks_keys_iff.mpr htype
    obtain ⟨network, hnetworkPick, hnetworkMult⟩ := picks_keys_iff.mpr hnetwork
    refine ⟨_, getOptions_formula hrows hentries hdays,
      ⟨some proxyType, some network, some (.int n), some (.int 1), none⟩,
      ⟨rfl, htypePick, hnetworkPick, ⟨c, hc, by rw [asSent_eq_int_iff.mpr hsent]⟩, rfl⟩, ?_⟩
    rw [quote_formula hrows rfl rfl rfl rfl rfl hpositive (isKey_of_picks htypePick)
      (isKey_of_picks hnetworkPick) hlisted]
    exact ⟨base, typeMult, networkMult, hbase, htypeMult, hnetworkMult, rfl⟩

/-- **What is charged for a configured product.** -/
theorem config_charges_iff {amount : ℤ} :
    (∃ form, getOptions params = some form ∧ ∃ cfg, form.Filled cfg ∧ quote params tiers cfg = some amount) ↔
      ∃ price, OnSale params price ∧ amount = round (price * (1 - discountAt tiers 1)) := by
  simp only [← applyVolumeDiscount_eq]
  by_cases hrows : (planPricesMap params).rows = []
  · rw [charges_formula_iff hrows]
    constructor
    · rintro ⟨hcomplete, x, hx, rfl⟩
      exact ⟨_, .combination hrows hcomplete hx, rfl⟩
    · rintro ⟨_, ⟨hmem⟩ | ⟨-, hcomplete, hx⟩, rfl⟩
      · rw [hrows] at hmem
        simp at hmem
      · exact ⟨hcomplete, _, hx, rfl⟩
  · rw [charges_plan_iff hrows]
    constructor
    · rintro ⟨key, price, hmem, rfl⟩
      exact ⟨price, .plan hmem, rfl⟩
    · rintro ⟨_, ⟨hmem⟩ | ⟨hnone, -, -⟩, rfl⟩
      · exact ⟨_, _, hmem, rfl⟩
      · exact absurd hnone hrows

end Charged

/-! ### Request packages -/

section Credit

variable {params : CreditParams} {tiers : List VolumeTier}

/-- The query multiplies by the size of the first package; what is missing counts as zero. -/
theorem creditPriceSql_iff {readFloat : String → Option ℚ} {price : ℚ} :
    (∃ c, creditPriceSql readFloat params = some c ∧ c.getD 0 = price) ↔
      ∃ unit size, castText readFloat (params.creditPrice.getD .null) = some unit ∧
        FoundNumber (params.packages.head?.bind (·.size)) 0 size ∧ price = unit.getD 0 * size := by
  have hproduct : ∀ unit size : Option ℚ,
      (unit.bind fun u => size.bind fun s => some (u * s)).getD 0 = unit.getD 0 * size.getD 0 := by
    rintro (_ | u) (_ | s) <;> simp
  constructor
  · rintro ⟨c, hc, rfl⟩
    simp only [creditPriceSql, Option.bind_eq_bind, Option.bind_eq_some_iff, Option.some.injEq] at hc
    obtain ⟨unit, hunit, size, hsize, rfl⟩ := hc
    exact ⟨unit, size.getD 0, hunit, foundNumber_iff.mpr ⟨size, hsize, rfl⟩, hproduct unit size⟩
  · rintro ⟨unit, _, hunit, hsize, rfl⟩
    obtain ⟨size, hsize', rfl⟩ := foundNumber_iff.mp hsize
    refine ⟨unit.bind fun u => size.bind fun s => some (u * s), ?_, hproduct unit size⟩
    simp only [creditPriceSql, hunit, hsize', Option.bind_eq_bind, Option.bind_some]

theorem creditMinPrice_of_least {unit size : ℚ} (hunit : params.creditPrice.bind jsonNumber = some unit)
    (hpositive : 0 < unit) (hleast : IsLeast (Positive (params.packages.filterMap (·.size))) size) :
    creditMinPrice params = unit * size := by
  rw [← setOf_mem_positiveNumbers] at hleast
  rw [creditMinPrice, min?_eq_some_iff.mpr hleast, hunit]
  exact if_pos hpositive

theorem creditMinPrice_eq_zero (h : (params.creditPrice.bind jsonNumber).getD 0 ≤ 0 ∨
    Positive (params.packages.filterMap (·.size)) = ∅) : creditMinPrice params = 0 := by
  rcases h with h | h
  · rw [creditMinPrice]
    split
    · exact if_neg (not_lt.mpr h)
    · rfl
  · rw [creditMinPrice, List.min?_eq_none_iff.mpr (positiveNumbers_eq_nil_iff.mpr h)]

/-- **What the query and the page show of request packages.** -/
theorem credit_shown_iff {readFloat : String → Option ℚ} {price : ℚ} :
    ((∃ c, creditPriceSql readFloat params = some c ∧ c.getD 0 = price) ∧ creditMinPrice params = price) ↔
      CreditShown params readFloat price := by
  rw [creditPriceSql_iff]
  constructor
  · rintro ⟨⟨unit, size, hunit, hfound, rfl⟩, hpage⟩
    by_cases hnone : (params.creditPrice.bind jsonNumber).getD 0 ≤ 0 ∨
        Positive (params.packages.filterMap (·.size)) = ∅
    · rw [creditMinPrice_eq_zero hnone] at hpage
      rw [← hpage]
      exact .nothing hunit hfound hpage.symm hnone
    · push Not at hnone
      obtain ⟨hpositive, hsome⟩ := hnone
      rcases hnumber : params.creditPrice.bind jsonNumber with _ | u
      · simp [hnumber] at hpositive
      rw [hnumber, Option.getD_some] at hpositive
      -- A price that is a number is the one the query reads.
      obtain ⟨v, hv, hu⟩ := Option.bind_eq_some_iff.mp hnumber
      rw [hv, Option.getD_some, castText_of_jsonNumber hu, Option.some.injEq] at hunit
      subst hunit
      rcases hmin : (positiveNumbers (params.packages.filterMap (·.size))).min? with _ | least
      · rw [List.min?_eq_none_iff, positiveNumbers_eq_nil_iff] at hmin
        exact absurd hmin hsome.ne_empty
      rw [min?_eq_some_iff, setOf_mem_positiveNumbers] at hmin
      rw [creditMinPrice_of_least hnumber hpositive hmin, Option.getD_some] at hpage
      obtain rfl : least = size := mul_left_cancel₀ hpositive.ne' hpage
      exact .smallest hnumber hpositive hfound hmin
  · rintro (⟨hunit, hpositive, hfound, hleast⟩ | ⟨hunit, hfound, hzero, hnone⟩)
    · obtain ⟨v, hv, hu⟩ := Option.bind_eq_some_iff.mp hunit
      refine ⟨⟨some _, _, ?_, hfound, rfl⟩, creditMinPrice_of_least hunit hpositive hleast⟩
      rw [hv, Option.getD_some, castText_of_jsonNumber hu]
    · exact ⟨⟨_, _, hunit, hfound, hzero.symm⟩, creditMinPrice_eq_zero hnone⟩

/-! #### At the checkout -/

theorem toInt_of_number {v : Value} {n : ℤ} (h : v.number = some (n : ℚ)) : v.toInt = some n := by
  cases v with
  | bool b =>
    cases b <;> simp only [Value.number, Option.some.injEq, Bool.false_eq_true, if_false, if_true] at h <;>
      simp only [Value.toInt, Bool.false_eq_true, if_false, if_true, Option.some.injEq] <;> exact_mod_cast h
  | int m => simpa [Value.number, Value.toInt] using h
  | float q text =>
    obtain rfl : q = n := by simpa [Value.number] using h
    simp [Value.toInt]
  | _ => simp [Value.number] at h

theorem choice_eq_some_iff {p : CreditPackage} {v : Value} :
    p.choice = some v ↔ p.Complete ∧ p.size = some v := by
  rw [CreditPackage.choice, CreditPackage.Complete]
  rcases p.size with _ | size
  · simp
  · by_cases hprice : p.price = .null
    · simp [hprice]
    · rcases p.price.toInt with _ | price <;> rcases p.intSize with _ | n <;> simp [hprice]

/-- The sizes the form offers. -/
theorem offers_iff {n : ℤ} :
    (∃ field, params.getOptions = some field ∧ field.Offers n) ↔
      (∀ p ∈ params.shownPackages, p.Complete) ∧
        (params.shownPackages = [] → 1 ≤ n) ∧
        (params.shownPackages ≠ [] → ∃ p ∈ params.shownPackages, p.size.bind Value.number = some (n : ℚ)) := by
  rw [CreditParams.getOptions]
  by_cases hshown : params.shownPackages = []
  · simp [hshown, PackageField.Offers]
  rw [if_pos hshown]
  simp only [Option.map_eq_some_iff, Lists.mapM_eq_some_iff, hshown, false_implies, true_and, ne_eq,
    not_false_eq_true, true_implies]
  have hcomplete : (∀ p ∈ params.shownPackages, p.choice.isSome) ↔ ∀ p ∈ params.shownPackages, p.Complete := by
    refine forall₂_congr fun p _ => ?_
    rw [Option.isSome_iff_exists]
    simp only [choice_eq_some_iff]
    exact ⟨fun ⟨_, h, _⟩ => h, fun h => ⟨_, h, h.1.choose_spec⟩⟩
  constructor
  · rintro ⟨_, ⟨_, ⟨hall, rfl⟩, rfl⟩, v, hv, hn⟩
    obtain ⟨p, hp, hchoice⟩ := List.mem_filterMap.mp hv
    refine ⟨hcomplete.mp hall, p, hp, ?_⟩
    rw [(choice_eq_some_iff.mp hchoice).2, Option.bind_some, hn]
  · rintro ⟨hall, p, hp, hn⟩
    obtain ⟨v, hv, hn⟩ := Option.bind_eq_some_iff.mp hn
    exact ⟨_, ⟨_, ⟨hcomplete.mpr hall, rfl⟩, rfl⟩, v,
      List.mem_filterMap.mpr ⟨p, hp, choice_eq_some_iff.mpr ⟨hall p hp, hv⟩⟩, hn⟩

theorem shownPackages_of_priced (h : params.pricedPackages ≠ []) :
    params.shownPackages = params.pricedPackages :=
  if_pos h

theorem intSize_of_complete {p : CreditPackage} (hp : p ∈ params.pricedPackages) (hcomplete : p.Complete) :
    (∃ n, p.intSize = some n) ∧ ∃ n, p.price.toInt = some n := by
  rw [CreditParams.pricedPackages, List.mem_filter, decide_eq_true_eq] at hp
  exact hcomplete.2 hp.2.1

theorem pricedAt_eq {ps : List CreditPackage} {n : ℤ}
    (h : ∀ p ∈ ps, (∃ n, p.intSize = some n) ∧ ∃ n, p.price.toInt = some n) :
    pricedAt n ps = some ((ps.find? fun p => p.intSize = some n).bind (·.price.toInt)) := by
  induction ps with
  | nil => rfl
  | cons p ps ih =>
    obtain ⟨⟨size, hsize⟩, price, hprice⟩ := h p (by simp)
    by_cases hn : size = n
    · simp [pricedAt, hsize, hn, hprice]
    · simp [pricedAt, hsize, hn, ih fun p hp => h p (by simp [hp])]

theorem validate_of_offered {n : ℤ} (h : SizeOffered params n) : params.validate n = some true := by
  rw [CreditParams.validate, if_neg (by have := h.positive; omega)]
  by_cases hpriced : params.pricedPackages = []
  · rw [if_neg (by simp [hpriced])]
  rw [if_pos hpriced, Option.map_eq_some_iff]
  have hshown := shownPackages_of_priced hpriced
  refine ⟨_, Lists.mapM_eq_some_iff.mpr ⟨fun p hp => ?_, rfl⟩, ?_⟩
  · exact Option.isSome_iff_exists.mpr (intSize_of_complete hp (h.complete p (hshown ▸ hp))).1
  · obtain ⟨p, hp, hn⟩ := h.shown (hshown ▸ hpriced)
    obtain ⟨v, hv, hn⟩ := Option.bind_eq_some_iff.mp hn
    rw [List.contains_iff_mem, List.mem_filterMap]
    exact ⟨p, hshown ▸ hp, by rw [CreditPackage.intSize, hv, Option.bind_some, toInt_of_number hn]⟩

theorem subtotal_iff {n price : ℤ} (h : SizeOffered params n) :
    params.subtotal n = some price ↔ SizeCosts params n price := by
  have hcomplete : ∀ p ∈ params.pricedPackages, (∃ n, p.intSize = some n) ∧ ∃ n, p.price.toInt = some n := by
    intro p hp
    refine intSize_of_complete hp (h.complete p ?_)
    rwa [shownPackages_of_priced (List.ne_nil_of_mem hp)]
  rw [CreditParams.subtotal, pricedAt_eq hcomplete]
  by_cases hpriced : params.pricedPackages = []
  · simp only [hpriced, List.find?_nil, Option.bind_none, Option.bind_eq_bind, Option.bind_some,
      Option.bind_eq_some_iff, Option.some.injEq]
    constructor
    · rintro ⟨v, hv, q, hq, rfl⟩
      exact .requests hpriced (Option.bind_eq_some_iff.mpr ⟨v, hv, hq⟩)
    · rintro (⟨hfirst, -⟩ | ⟨-, hprice⟩)
      · simp [hpriced] at hfirst
      · obtain ⟨v, hv, hq⟩ := Option.bind_eq_some_iff.mp hprice
        exact ⟨v, hv, _, hq, rfl⟩
  · -- A size that is offered is the size of a package, and the first of this size has a price.
    have hshown := shownPackages_of_priced hpriced
    obtain ⟨p, hp, hn⟩ := h.shown (hshown ▸ hpriced)
    obtain ⟨v, hv, hn⟩ := Option.bind_eq_some_iff.mp hn
    have hsize : p.intSize = some n := by rw [CreditPackage.intSize, hv, Option.bind_some, toInt_of_number hn]
    obtain ⟨first, hfirst⟩ :
        ∃ first, params.pricedPackages.find? (fun p => p.intSize = some n) = some first := by
      rw [← Option.isSome_iff_exists, List.find?_isSome]
      exact ⟨p, hshown ▸ hp, by simpa using hsize⟩
    obtain ⟨own, hown⟩ := (hcomplete first (List.mem_of_find?_eq_some hfirst)).2
    simp only [hfirst, hown, Option.bind_some, Option.bind_eq_bind, Option.some.injEq]
    constructor
    · rintro rfl
      exact .own hfirst hown
    · rintro (⟨hfirst', hprice⟩ | ⟨hnone, -⟩)
      · obtain rfl := Option.some.inj (hfirst.symm.trans hfirst')
        exact Option.some.inj (hown.symm.trans hprice)
      · exact absurd hnone hpriced

/-- **What is charged for a request package.** -/
theorem credit_charges_iff {amount : ℤ} :
    (∃ field, params.getOptions = some field ∧ ∃ n, field.Offers n ∧ params.quote tiers n = some amount) ↔
      ∃ n price, SizeOffered params n ∧ SizeCosts params n price ∧
        amount = round (price * (1 - discountAt tiers n)) := by
  simp only [← applyVolumeDiscount_eq]
  constructor
  · rintro ⟨field, hfield, n, hoffers, hquote⟩
    obtain ⟨hcomplete, -, hshown⟩ := offers_iff.mp ⟨field, hfield, hoffers⟩
    have hpositive : 1 ≤ n := by
      by_contra hn
      have hrefused : params.validate n = some false := if_pos (by omega)
      simp [CreditParams.quote, hrefused] at hquote
    have hoffered : SizeOffered params n := ⟨hpositive, hcomplete, hshown⟩
    simp only [CreditParams.quote, validate_of_offered hoffered, Option.bind_eq_bind, Option.bind_some, if_true,
      Option.bind_eq_some_iff, Option.some.injEq] at hquote
    obtain ⟨price, hprice, rfl⟩ := hquote
    exact ⟨n, price, hoffered, (subtotal_iff hoffered).mp hprice, rfl⟩
  · rintro ⟨n, price, hoffered, hcosts, rfl⟩
    obtain ⟨field, hfield, hoffers⟩ :=
      offers_iff.mpr ⟨hoffered.complete, fun _ => hoffered.positive, hoffered.shown⟩
    refine ⟨field, hfield, n, hoffers, ?_⟩
    simp only [CreditParams.quote, validate_of_offered hoffered, Option.bind_eq_bind, Option.bind_some, if_true,
      (subtotal_iff hoffered).mpr hcosts]

end Credit

/-! ### One price -/

theorem charges_iff (p : Product) (amount : ℤ) : p.Charges amount ↔ p.Costs amount := by
  rw [Product.Charges, Product.Costs]
  cases p.pricing with
  | config params => exact config_charges_iff
  | credit params => exact credit_charges_iff

theorem shown_iff (readFloat : String → Option ℚ) (p : Product) (price : ℚ) :
    p.browsePrice readFloat = some price ∧ p.effectiveMinPrice = price ↔ p.Shown readFloat price := by
  rw [Product.browsePrice, Product.effectiveMinPrice, Product.Shown, Option.map_eq_some_iff]
  cases p.pricing with
  | config params => exact config_shown_iff
  | credit params => exact credit_shown_iff

/-- **Of which products the three tell one price.** -/
theorem one_price_iff (readFloat : String → Option ℚ) (p : Product) :
    p.OnePrice readFloat ↔ p.Kept readFloat := by
  rw [Product.OnePrice, Product.Kept]
  refine exists_congr fun price => ?_
  simp only [← and_assoc, shown_iff, charges_iff]

/-- A product with two types, the dearer of which is stored first. -/
def Product.sample : Product where
  pricing := .config {
    basePrice := some (.int 30000)
    typeMult := some ((Table.empty.put "isp" (.int 1)).put "dc" (.int 2))
    networkMult := some (Table.empty.put "fpt" (.int 1))
    durationOptions := some [.dict (some (.int 30))]
    planPrices := none
    typeDisplay := .empty
    networkDisplay := .empty }
  volumeTiers := []

/-- **The catalogue asks for twice of what the page asks for**, and the page is right. -/
theorem dearer_type_first : ¬Product.sample.OnePrice fun _ => none := by
  rintro ⟨price, hsql, hpage, -⟩
  have htypes : objectValues (some ((Table.empty.put "isp" (.int 1)).put "dc" (.int 2))) =
      [.int 1, .int 2] := by
    decide
  have hnetworks : objectValues (some (Table.empty.put "fpt" (.int 1))) = [.int 1] := by decide
  have hfirst : firstValue (some ((Table.empty.put "isp" (.int 1)).put "dc" (.int 2))) =
      some (.int 2) := by
    decide
  have hnetwork : firstValue (some (Table.empty.put "fpt" (.int 1))) = some (.int 1) := by decide
  have hnone : objectValues none = [] := rfl
  have hquery : Product.sample.browsePrice (fun _ => none) = some 60000 := by
    have hround : round (30000 * 2) = 60000 := by
      rw [show (30000 * 2 : ℚ) = ((60000 : ℤ) : ℚ) by norm_num, round_intCast]
    simp [Product.browsePrice, Product.sample, configPriceSql, planNumbers, hnone, formulaSql, castText,
      castFound, jsonNumber, firstDays, daysItem, hfirst, hnetwork, hround]
  have hshown : Product.sample.effectiveMinPrice = 30000 := by
    have hround : mathRound 30000 = 30000 := by norm_num [mathRound, Int.floor_eq_iff]
    simp [Product.effectiveMinPrice, Product.sample, configMinPrice, minOfMult, minDays, daysValues, daysItem,
      htypes, hnetworks, hnone, positiveNumbers, jsonNumber, hround]
  rw [hquery] at hsql
  rw [hshown] at hpage
  have := Option.some.inj hsql
  linarith

end Marketplace.FromPrice
