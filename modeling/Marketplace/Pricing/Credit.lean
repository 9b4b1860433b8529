import Marketplace.Python.Float

/-!
# Prices of request packages

`CreditPricing` sells requests by the package. A package with a price of its own is sold at exactly this price, and
where a product has such packages that are active, a buyer can only choose one of them. Where it has none, a package is as
large as the buyer likes, at `credit_price` for each request.

`pricedPackages` are the packages that decide. `subtotal` is only asked for a size that `validate` has let
through, a whole number; `apply_volume_discount` is a parameter of `quote`.
-/

namespace Marketplace.Credit

open Python

/-- The items of a dict. -/
abbrev Fields : Type := List (String × Json)

/-- What a price can raise. -/
inductive PricingError
  | keyError (key : String)
  | python (error : Python.Error)
  deriving DecidableEq, Repr

/-- `fields[key]` -/
def item (fields : Fields) (key : String) : Except PricingError Json :=
  match fields.lookup key with
  | some v => .ok v
  | none => .error (.keyError key)

/-- `p.get(…)` for something that should be a dict. -/
def asFields (v : Json) : Except PricingError Fields :=
  match v with
  | .obj fields => .ok fields
  | _ => .error (.python .attributeError)

/-- `[p for p in params.get("packages", []) if …]`, as far as every `p` has a `get`: the characters of a text and the
keys of a dict have none. -/
def packages (params : Fields) : Except PricingError (List Fields) :=
  match params.lookup "packages" with
  | none => .ok []
  | some (.arr items) => items.mapM asFields
  | some (.str s) => if s = "" then .ok [] else .error (.python .attributeError)
  | some (.obj fields) => if fields.isEmpty then .ok [] else .error (.python .attributeError)
  | some _ => .error (.python .typeError)

/-- `p.get("active", True)` -/
def isActive (p : Fields) : Bool := ((p.lookup "active").getD (.bool true)).truthy

/-- `p.get("price") is not None` -/
def hasPrice (p : Fields) : Bool := !(Json.get p "price").isNull

/-- `_priced_packages`. -/
def pricedPackages (params : Fields) : Except PricingError (List Fields) := do
  let all ← packages params
  pure (all.filter fun p => hasPrice p ∧ isActive p)

variable (py : Language)

/-- `int(value)` -/
def toInt (v : Json) : Except PricingError ℤ := (py.toInt v).mapError .python

/-- `int(p["size"])` -/
def intItem (p : Fields) (key : String) : Except PricingError ℤ := do
  let v ← item p key
  toInt py v

/-- `isinstance(value, int)`, and the number it is then. -/
def wholeNumber : Json → Option ℤ
  | .int n => some n
  | .bool b => some (if b then 1 else 0)
  | _ => none

/-! ### What is offered -/

/-- A choice of the select. -/
structure Choice where
  value : Json
  label : Json
  price : Option ℤ
  perUnit : Option Double

/-- The one field `get_options` returns. -/
inductive Field
  | select (label : Json) (choices : List Choice)
  /-- A number from `min` on. -/
  | number (label : Json) (min : ℤ)

/-- `round(x, 2)` -/
def roundTwo (q : ℚ) : Double := Double.round (Arith.roundDiv (100 * q).num (100 * q).den / 100)

/-- `a / b` for whole numbers. -/
def trueDiv (a b : ℤ) : Except PricingError ℚ :=
  match Double.round (a / b) with
  | .finite q => .ok q
  | _ => .error (.python .overflowError)

/-- The choice for a package. -/
def choice (p : Fields) : Except PricingError Choice := do
  let size ← item p "size"
  let label := (p.lookup "label").getD (.str (py.str size ++ " credits"))
  if hasPrice p then
    let price ← intItem py p "price"
    let n ← intItem py p "size"
    let perUnit ← trueDiv price (max n 1)
    pure ⟨size, label, some price, some (roundTwo perUnit)⟩
  else
    pure ⟨size, label, none, none⟩

/-- `get_options`. -/
def getOptions (params : Fields) : Except PricingError Field := do
  let labels ← asFields ((params.lookup "field_labels").getD (.obj []))
  let label := (labels.lookup "package_size").getD (.str "Số request trong gói")
  let priced ← pricedPackages params
  let all ← packages params
  let shown := if priced.isEmpty then all.filter fun p => isActive p else priced
  if shown.isEmpty then pure (.number label 1)
  else
    let choices ← shown.mapM (choice py)
    pure (.select label choices)

/-- The field offers this size. -/
def Field.Offers (field : Field) (n : ℤ) : Prop :=
  match field with
  | .select _ choices => ∃ c ∈ choices, c.value.isInt n = true
  | .number _ min => min ≤ n

/-! ### What is sold -/

/-- `validate`. -/
def validate (params userConfig : Fields) : Except PricingError Bool :=
  match (userConfig.lookup "package_size").bind wholeNumber with
  | none => .ok false
  | some n =>
    if n < 1 then .ok false
    else do
      let priced ← pricedPackages params
      if priced.isEmpty then pure true
      else
        let sizes ← priced.mapM fun p => intItem py p "size"
        pure (sizes.contains n)

/-- `round(price * n)` -/
def roundTimes (price : Json) (n : ℤ) : Except PricingError ℤ :=
  match price with
  | .int m => .ok (m * n)
  | .bool b => .ok (if b then n else 0)
  | .float x =>
    match (py.toFloat (.int n)).map x.mul with
    | .ok (.finite q) => .ok (Arith.roundDiv q.num q.den)
    | .ok (.inf _) => .error (.python .overflowError)
    | .ok .nan => .error (.python .valueError)
    | .error e => .error (.python e)
  | _ => .error (.python .typeError)

/-- The price of the first package of this size. -/
def pricedAt (n : ℤ) : List Fields → Except PricingError (Option ℤ)
  | [] => .ok none
  | p :: ps => do
    let size ← intItem py p "size"
    if size = n then
      let price ← intItem py p "price"
      pure (some price)
    else pricedAt n ps

/-- `_subtotal`. -/
def subtotal (params : Fields) (n : ℤ) : Except PricingError ℤ := do
  let priced ← pricedPackages params
  match ← pricedAt py n priced with
  | some price => pure price
  | none => do
    let price ← item params "credit_price"
    roundTimes py price n

/-- `quote`: the amount, for a size that was let through. -/
def quote (applyVolumeDiscount : ℤ → ℤ → Json → Except PricingError ℤ) (params : Fields) (n : ℤ) :
    Except PricingError ℤ := do
  let amount ← subtotal py params n
  let tiers := (params.lookup "volume_tiers").getD (.arr [])
  if tiers.truthy then applyVolumeDiscount amount n tiers else pure amount

end Marketplace.Credit
