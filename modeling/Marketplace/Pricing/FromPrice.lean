import Mathlib.Data.Rat.Floor
import Mathlib.Data.List.Defs
import Mathlib.Order.Bounds.Basic
import Marketplace.Arith.Rounding
import Marketplace.Pricing.Config

/-!
# The price a product starts at

A product without priced packages is priced by its parameters, by `config` or by `credit`. Three programs
say what it costs at least: the catalogue query (`browsePrice`), the page (`effectiveMinPrice`), and the
checkout, for every choice of the form it shows (`Product.Charges`). The numbers are exact here; what the
database reads a text as is a parameter.

The three look at different entries: the query at the least number of the plan table or else at the entries
that are stored first, the page at the least positive ones, the checkout at what is on sale
(`Product.OnePrice`). The labels of the form, and the packages a source has paused, are not modelled.
-/

namespace Marketplace.FromPrice

open Sql

/-! ### Numbers -/

/-- `round(x)`, in Python and in the database. -/
def round (q : ℚ) : ℤ := Arith.roundDiv q.num q.den

/-- `Math.round(x)` -/
def mathRound (q : ℚ) : ℤ := ⌊q + 1 / 2⌋

/-- The number a document holds at a place, `typeof v === "number"`. -/
def jsonNumber : Value → Option ℚ
  | .int n => some n
  | .float q _ => some q
  | _ => none

/-- The values of an object; what is none has no values. -/
def objectValues (t : Option (Table String Value)) : List Value :=
  ((t.map Table.rows).getD []).map Prod.snd

/-! ### Discounts -/

/-- An entry of `volume_tiers`. -/
structure VolumeTier where
  minQty : ℚ
  discount : ℚ

/-- `max(tiers, key=lambda t: t["min_qty"])`: of the greatest, the first. -/
def bestTier : List VolumeTier → Option VolumeTier
  | [] => none
  | t :: ts =>
    match bestTier ts with
    | none => some t
    | some best => if t.minQty < best.minQty then some best else some t

/-- `apply_volume_discount`: the amount. -/
def applyVolumeDiscount (amount quantity : ℤ) (tiers : List VolumeTier) : ℤ :=
  match bestTier (tiers.filter fun t => t.minQty ≤ quantity) with
  | none => amount
  | some best => round (amount * (1 - best.discount))

/-! ### Configured products at the checkout -/

/-- The choices of the fields `get_options` returns; a field that is not shown is `none`. -/
structure Form where
  planKey : Option (List String)
  type : Option (List String)
  network : Option (List String)
  days : Option (List Value)

/-- `d["days"]` -/
def daysItem : DurationEntry → Option Value
  | .dict days => days
  | .other => none

/-- `ConfigPricing.get_options`, where it does not raise. -/
def getOptions (params : PricingParams) : Option Form :=
  if (planPricesMap params).rows ≠ [] then
    some ⟨some ((planPricesMap params).rows.map Prod.fst), none, none, none⟩
  else
    let keys (t : Table String Value) := t.rows.map Prod.fst
    match params.durationOptions with
    | none => some ⟨none, params.typeMult.map keys, params.networkMult.map keys, none⟩
    | some entries =>
      (entries.mapM daysItem).map fun days =>
        ⟨none, params.typeMult.map keys, params.networkMult.map keys, some days⟩

/-- A choice as the page sends it back: a whole number is written without a point. -/
def asSent : Value → Value
  | .float q text => if q.den = 1 then .int q.num else .float q text
  | v => v

/-- What is filled in is a choice of the field; a field that is not shown is not filled in. -/
def Picks {α : Type} (choices : Option (List α)) (value : Option Value) (asValue : α → Value) : Prop :=
  match choices with
  | none => value = none
  | some choices => ∃ c ∈ choices, value = some (asValue c)

/-- A form that is filled in, for one piece. -/
structure Form.Filled (form : Form) (cfg : UserConfig) : Prop where
  planKey : Picks form.planKey cfg.planKey .str
  type : Picks form.type cfg.type .str
  network : Picks form.network cfg.network .str
  days : Picks form.days cfg.days asSent
  quantity : cfg.quantity = some (.int 1)

/-- `table[key]`, as a number. -/
def multiplier (t : Option (Table String Value)) (key : Value) : Option ℚ := do
  match key with
  | .str s => (← (← t).get? s).number
  | _ => none

/-- `_subtotal`: the amount before discounts and the quantity. -/
def subtotal (params : PricingParams) (userConfig : UserConfig) : Option (ℤ × ℤ) := do
  let cfg := normalizeUserConfig params userConfig
  let quantity ← (← cfg.quantity).toInt
  let proxyType ← cfg.type
  let network ← cfg.network
  let days ← cfg.days
  if (planPricesMap params).rows ≠ [] then
    let price ← (planPricesMap params).get? (joinKey proxyType.text network.text days.text)
    some (price * quantity, quantity)
  else
    let base ← (← params.basePrice).number
    let typeMult ← multiplier params.typeMult proxyType
    let networkMult ← multiplier params.networkMult network
    let days ← days.number
    some (round (base * typeMult * networkMult * (days / 30) * quantity), quantity)

/-- What `quote_product` charges; an order that `validate` refuses is not quoted. -/
def quote (params : PricingParams) (tiers : List VolumeTier) (userConfig : UserConfig) : Option ℤ :=
  let cfg := normalizeUserConfig params userConfig
  if validate params cfg then
    (subtotal params cfg).map fun s => applyVolumeDiscount s.1 s.2 tiers
  else none

/-! ### Request packages at the checkout -/

/-- An entry of `packages`. -/
structure CreditPackage where
  size : Option Value
  /-- `p.get("price")` -/
  price : Value
  /-- `p.get("active", True)` -/
  active : Bool

/-- The `pricing_params` of a product sold by the package. -/
structure CreditParams where
  creditPrice : Option Value
  packages : List CreditPackage

/-- `int(p["size"])` -/
def CreditPackage.intSize (p : CreditPackage) : Option ℤ := p.size.bind Value.toInt

/-- `_priced_packages`. -/
def CreditParams.pricedPackages (params : CreditParams) : List CreditPackage :=
  params.packages.filter fun p => p.price ≠ .null ∧ p.active

/-- The packages that are shown. -/
def CreditParams.shownPackages (params : CreditParams) : List CreditPackage :=
  if params.pricedPackages ≠ [] then params.pricedPackages else params.packages.filter (·.active)

/-- The one field `get_options` returns. -/
inductive PackageField
  | select (choices : List Value)
  | number (min : ℤ)

/-- The value of the choice for a package; its price by the request is worked out next to it. -/
def CreditPackage.choice (p : CreditPackage) : Option Value := do
  let size ← p.size
  if p.price ≠ .null then
    let _ ← p.price.toInt
    let _ ← p.intSize
    some size
  else some size

/-- `CreditPricing.get_options`, where it does not raise. -/
def CreditParams.getOptions (params : CreditParams) : Option PackageField :=
  if params.shownPackages ≠ [] then (params.shownPackages.mapM CreditPackage.choice).map .select
  else some (.number 1)

/-- The field offers this size. -/
def PackageField.Offers : PackageField → ℤ → Prop
  | .select choices, n => ∃ v ∈ choices, v.number = some (n : ℚ)
  | .number min, n => min ≤ n

/-- `CreditPricing.validate`, for a whole `package_size`. -/
def CreditParams.validate (params : CreditParams) (packageSize : ℤ) : Option Bool :=
  if packageSize < 1 then some false
  else if params.pricedPackages ≠ [] then
    (params.pricedPackages.mapM CreditPackage.intSize).map fun sizes => sizes.contains packageSize
  else some true

/-- The price of the first package of this size. -/
def pricedAt (packageSize : ℤ) : List CreditPackage → Option (Option ℤ)
  | [] => some none
  | p :: ps => do
    if (← p.intSize) = packageSize then
      let price ← p.price.toInt
      some (some price)
    else pricedAt packageSize ps

/-- `_subtotal`: the amount before discounts. -/
def CreditParams.subtotal (params : CreditParams) (packageSize : ℤ) : Option ℤ := do
  match ← pricedAt packageSize params.pricedPackages with
  | some price => some price
  | none =>
    let price ← (← params.creditPrice).number
    some (round (price * packageSize))

/-- What `quote_product` charges for a package of this size. -/
def CreditParams.quote (params : CreditParams) (tiers : List VolumeTier) (packageSize : ℤ) : Option ℤ := do
  if ← params.validate packageSize then
    let amount ← params.subtotal packageSize
    some (applyVolumeDiscount amount packageSize tiers)
  else none

/-! ### A product -/

/-- `pricing_strategy` and `pricing_params`. -/
inductive Pricing
  | config (params : PricingParams)
  | credit (params : CreditParams)

/-- A product without priced packages. -/
structure Product where
  pricing : Pricing
  volumeTiers : List VolumeTier

/-- An amount that is charged for a choice the form offers, one piece of it. -/
def Product.Charges (p : Product) (amount : ℤ) : Prop :=
  match p.pricing with
  | .config params =>
    ∃ form, getOptions params = some form ∧
      ∃ cfg, form.Filled cfg ∧ quote params p.volumeTiers cfg = some amount
  | .credit params =>
    ∃ field, params.getOptions = some field ∧ ∃ n, field.Offers n ∧ params.quote p.volumeTiers n = some amount

/-! ### The catalogue query -/

section Query

-- What the database reads a text as, if it is a number.
variable (readFloat : String → Option ℚ)

/-- `CAST(text AS FLOAT)`, where the query does not fail; `NULL` is `none` inside. -/
def castText : Value → Option (Option ℚ)
  | .null => some none
  | .int n => some (some n)
  | .float q _ => some (some q)
  | .str s => (readFloat s).map some
  | .bool _ | .other _ => none

/-- `CAST(jsonb AS FLOAT)` of what a path finds. -/
def castFound : Option Value → Option (Option ℚ)
  | none => some none
  | some v => (jsonNumber v).map some

/-- The order `jsonb` keeps the keys of an object in. -/
def storedBefore (a b : String) : Bool :=
  a.utf8ByteSize < b.utf8ByteSize ∨ a.utf8ByteSize = b.utf8ByteSize ∧ a < b

/-- The row that is stored first. -/
def firstStored : List (String × Value) → Option (String × Value)
  | [] => none
  | r :: rs =>
    match firstStored rs with
    | none => some r
    | some r' => if storedBefore r'.1 r.1 then some r' else some r

/-- `$.field.*`: the first of the values. -/
def firstValue (t : Option (Table String Value)) : Option Value :=
  t.bind fun t => (firstStored t.rows).map Prod.snd

/-- `$.duration_options[0].days` -/
def firstDays (params : PricingParams) : Option Value :=
  (params.durationOptions.bind List.head?).bind daysItem

/-- The numbers of `plan_prices`. -/
def planNumbers (params : PricingParams) : Option (List ℚ) :=
  ((objectValues params.planPrices).mapM (castText readFloat)).map List.reduceOption

/-- `round(base_price * type_multiplier * network_multiplier * duration_days / 30.0)` -/
def formulaSql (params : PricingParams) : Option (Option ℚ) := do
  let base ← castText readFloat (params.basePrice.getD .null)
  let typeMult ← castFound (firstValue params.typeMult)
  let networkMult ← castFound (firstValue params.networkMult)
  let days ← castFound (firstDays params)
  some (base.map fun base =>
    (round (base * typeMult.getD 1 * networkMult.getD 1 * days.getD 30 / 30) : ℚ))

/-- `coalesce(plan_min, …)` -/
def configPriceSql (params : PricingParams) : Option (Option ℚ) := do
  match (← planNumbers readFloat params).min? with
  | some price => some (some price)
  | none => formulaSql readFloat params

/-- `credit_price * package_size` -/
def creditPriceSql (params : CreditParams) : Option (Option ℚ) := do
  let creditPrice ← castText readFloat (params.creditPrice.getD .null)
  let size ← castFound (params.packages.head?.bind (·.size))
  some do some ((← creditPrice) * (← size))

/-- `browse_price`; the query fails where a cast does. -/
def Product.browsePrice (p : Product) : Option ℚ :=
  let dynamicPrice := match p.pricing with
    | .config params => configPriceSql readFloat params
    | .credit params => creditPriceSql readFloat params
  dynamicPrice.map fun price => price.getD 0

end Query

/-! ### The page -/

/-- The numbers above zero. -/
def positiveNumbers (vs : List Value) : List ℚ := (vs.filterMap jsonNumber).filter (0 < ·)

/-- `minOfMult` -/
def minOfMult (mult : Option (Table String Value)) : ℚ :=
  (positiveNumbers (objectValues mult)).min?.getD 1

/-- The `days` of the durations. -/
def daysValues (params : PricingParams) : List Value := (params.durationOptions.getD []).filterMap daysItem

/-- `minDays` -/
def minDays (params : PricingParams) : ℚ := (positiveNumbers (daysValues params)).min?.getD 30

/-- `configMinPrice`. -/
def configMinPrice (params : PricingParams) : ℚ :=
  match (positiveNumbers (objectValues params.planPrices)).min? with
  | some price => price
  | none =>
    let base := (params.basePrice.bind jsonNumber).getD 0
    if base ≤ 0 then 0
    else mathRound (base * minOfMult params.typeMult * minOfMult params.networkMult * (minDays params / 30))

/-- `creditMinPrice`. -/
def creditMinPrice (params : CreditParams) : ℚ :=
  let unit := (params.creditPrice.bind jsonNumber).getD 0
  match (positiveNumbers (params.packages.filterMap (·.size))).min? with
  | some size => if 0 < unit then unit * size else 0
  | none => 0

/-- `effectiveMinPrice`. -/
def Product.effectiveMinPrice (p : Product) : ℚ :=
  match p.pricing with
  | .config params => configMinPrice params
  | .credit params => creditMinPrice params

/-! ### What is asked of the three -/

/-- The query, the page and the checkout tell one price. -/
def Product.OnePrice (readFloat : String → Option ℚ) (p : Product) : Prop :=
  ∃ price : ℚ, p.browsePrice readFloat = some price ∧ p.effectiveMinPrice = price ∧
    IsLeast {amount : ℚ | ∃ charged, p.Charges charged ∧ amount = charged} price

end Marketplace.FromPrice
