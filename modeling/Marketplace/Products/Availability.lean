import Marketplace.Lists.MapM
import Marketplace.Model.Types
import Marketplace.Sql.Ternary
import Marketplace.Suppliers.StockShown

/-!
# In stock

`products/availability.py` promises one answer to whether a package or a product can be ordered now. It is
worked out three times: in Python for the states a payload shows (`variantStockState`, `productAvailability`), in
SQL for the filter and the least price of a list (`variantSellableSql`, `productSellableSql`, and
`inventoryManagedSql` of the pricing engine), and in the storefront, which chooses among packages by the states
it was given.

`one_meaning_iff` says of which products the answers are one. They part where a package has own lines beside a
listing that is switched off, where what a closed package made to order has in stock is counted, and where the
database tells no params from some in another way than Python does (`Misread`).
-/

namespace Marketplace.Availability

open Text Python Sql Storefront Lists

/-! ### Products -/

/-- A listing of a package, and its provider. -/
structure Supply where
  listing : Listing
  config : List (String × Json)
  isActive : Bool
  isApproved : Bool

/-- A row of `product_variants`, with what is there of it: the seller's own lines on sale, and a listing. -/
structure Package where
  price : ℤ
  deliveryMode : DeliveryMode
  isActive : Bool
  /-- `manual_stock`, which a check keeps from being negative. -/
  manualStock : Option ℕ
  pool : ℕ
  supply : Option Supply

structure PricingConfig where
  serviceType : String
  strategy : String
  params : Json
  isActive : Bool

/-- `pricing_configs`, as one query reads the rows and as another does. -/
structure Configs where
  rows : List PricingConfig
  again : List PricingConfig
  perm : again.Perm rows
  unique : ((rows.filter (·.isActive)).map PricingConfig.serviceType).Nodup

/-- A row of `products` with its packages; `pricingParams` is `none` where the column is `NULL`, and `provider` says of
the provider, where there is one, whether it is on. -/
structure Product where
  pricingStrategy : Option String
  pricingParams : Option Json
  serviceType : Option String
  provider : Option Bool
  packages : List Package

/-- The packages on sale. -/
def Product.active (p : Product) : List Package := p.packages.filter (·.isActive)

section Stock

variable (loc : Storefront.Locale) (dumps : Json → String)

/-- `sellable_stock_by_variant` of a package; `none` where the query fails. -/
def Package.stock (pkg : Package) : Option ℤ :=
  match pkg.supply with
  | none => some pkg.pool
  | some s => sellableStock loc dumps ⟨s.listing, pkg.price, s.config, s.isActive, s.isApproved, pkg.pool⟩

/-! ### In Python -/

/-- `stock_state` -/
inductive StockState
  | inStock | low | manual | paused | out
  deriving DecidableEq, Repr

/-- `availability` -/
inductive ProductState
  | stock (state : StockState)
  | auto
  deriving DecidableEq, Repr

/-- `PUBLIC_LOW_STOCK_THRESHOLD` -/
def publicLowStockThreshold : ℤ := 10

/-- `variant_stock_state` -/
def variantStockState (mode : DeliveryMode) (count : ℤ) (sourcePaused : Bool) (manualStock : Option ℕ) :
    StockState :=
  if mode ≠ .instant then if ∃ n ∈ manualStock, n ≤ 0 then .out else .manual
  else if sourcePaused then .paused
  else if count ≤ 0 then .out
  else if count ≤ publicLowStockThreshold then .low else .inStock

/-- `is_purchasable` -/
def isPurchasable (state : StockState) : Bool := state ∈ [StockState.inStock, .low, .manual]

/-- `product_availability` -/
def productAvailability (states : List StockState) (inventoryManaged providerActive : Bool) : ProductState :=
  if inventoryManaged = false then if providerActive then .auto else .stock .paused
  else .stock (([StockState.inStock, .low, .manual, .paused].find? fun s => s ∈ states).getD .out)

/-- A state of a product with which it is in stock. -/
def ProductState.inStock (state : ProductState) : Bool :=
  state ∈ [ProductState.stock .inStock, .stock .low, .stock .manual, .auto]

/-- The package is in `paused_ids`, if it is an instant one. -/
def Package.sourcePaused (pkg : Package) : Bool := pkg.supply.any fun s => !s.isActive

/-- What `_variants_by_product` shows as the state of a package: stock is counted of instant packages only. -/
def Package.stockState (pkg : Package) : Option StockState :=
  match pkg.deliveryMode with
  | .instant => (pkg.stock loc dumps).map fun count => variantStockState .instant count pkg.sourcePaused none
  | .manual => some (variantStockState .manual 0 false pkg.manualStock)

/-- `_variants_by_product`, of one product. -/
def variantsByProduct (p : Product) : Option (List (Package × StockState)) :=
  p.active.mapM fun pkg => (pkg.stockState loc dumps).map (pkg, ·)

/-- The row of a service type that is in force. -/
def activeConfig (rows : List PricingConfig) (serviceType : String) : Option PricingConfig :=
  rows.find? fun c => c.isActive && c.serviceType = serviceType

/-- `service_type or "other"` -/
def Product.service (p : Product) : String :=
  let serviceType := p.serviceType.getD ""
  if serviceType = "" then "other" else serviceType

/-- `product_pricing_override` -/
def productPricingOverride (p : Product) : Option (String × Json) :=
  let params := p.pricingParams.getD .null
  if p.pricingStrategy = some "fixed" then some ("fixed", if params.truthy then params else .obj [])
  else if p.pricingStrategy.getD "" ≠ "" ∧ params.truthy then some (p.pricingStrategy.getD "", params)
  else none

/-- `resolve_pricing`, without the packages. -/
def resolvePricing (p : Product) (rows : List PricingConfig) : String × Json :=
  match productPricingOverride p with
  | some override => override
  | none =>
    match activeConfig rows p.service with
    | some config => (config.strategy, config.params)
    | none => ("fixed", .obj [])

/-- `_admin_strategy_name` -/
def adminStrategyName (p : Product) (configs : List (String × String)) : String :=
  if p.pricingStrategy = some "fixed" then "fixed"
  else if p.pricingStrategy.getD "" ≠ "" ∧ (p.pricingParams.getD .null).truthy then p.pricingStrategy.getD ""
  else (configs.lookup p.service).getD "fixed"

/-- `_availability_by_product`, of one product; of the rows for a service type, `setdefault` keeps the first. -/
def availabilityByProduct (p : Product) (rows : List PricingConfig) : Option ProductState := do
  let variants ← variantsByProduct loc dumps p
  let configs :=
    if productPricingOverride p = none then (rows.filter (·.isActive)).map fun c => (c.serviceType, c.strategy) else []
  pure (productAvailability (variants.map Prod.snd) (adminStrategyName p configs = "fixed") (p.provider.getD true))

/-! ### In SQL -/

/-- `manual_open_sql` -/
def manualOpenSql (mode : DeliveryMode) (manualStock : Option ℕ) : Truth :=
  .conj (some (mode = .manual)) (.disj (.isNull manualStock) (.compare (· > ·) manualStock (some 0)))

/-- `variant_sellable_sql` -/
def variantSellableSql (mode : DeliveryMode) (stock : Option ℤ) (manualStock : Option ℕ) : Truth :=
  .disj (manualOpenSql mode manualStock) (.conj (some (mode = .instant)) (some (0 < stock.getD 0)))

/-- A package is sellable, to the list. -/
def sellable (row : Package × ℤ) : Bool :=
  variantSellableSql row.1.deliveryMode (some row.2) row.1.manualStock = some true

/-- `sellable_min_price_sql` -/
def sellableMinPriceSql (rows : List (Package × ℤ)) : Option ℤ :=
  ((rows.filter fun row => 0 < row.1.price && sellable row).map (·.1.price)).min? <|>
    ((rows.filter fun row => 0 < row.1.price).map (·.1.price)).min?

/-- A row of `variant_stats`. -/
structure VariantStats where
  minPrice : Option ℤ
  stockCount : ℤ
  hasInstant : Bool
  hasManual : Bool
  hasOpenManual : Bool

/-- The packages of a product that a list counts, with their stock. -/
def countedVariants (p : Product) : Option (List (Package × ℤ)) :=
  p.active.mapM fun pkg => (pkg.stock loc dumps).map (pkg, ·)

/-- `variant_stats`; without packages on sale there is no row. -/
def variantStats (rows : List (Package × ℤ)) : Option VariantStats :=
  if rows.isEmpty then none
  else some {
    minPrice := sellableMinPriceSql rows
    stockCount := (rows.map Prod.snd).sum +
      ((rows.filter fun row => row.1.deliveryMode = .manual).map fun row => ((row.1.manualStock.getD 0 : ℕ) : ℤ)).sum
    hasInstant := rows.any fun row => row.1.deliveryMode = .instant
    hasManual := rows.any fun row => row.1.deliveryMode = .manual
    hasOpenManual := rows.any fun row => manualOpenSql row.1.deliveryMode row.1.manualStock = some true }

mutual

/-- A document is taken for a `jsonb`: no text in it holds `U+0000`. -/
def castable : Json → Bool
  | .str s => !s.toList.contains '\x00'
  | .arr items => castableItems items
  | .obj fields => castableFields fields
  | _ => true

def castableItems : List Json → Bool
  | [] => true
  | v :: items => castable v && castableItems items

def castableFields : List (String × Json) → Bool
  | [] => true
  | (name, v) :: fields => !name.toList.contains '\x00' && castable v && castableFields fields

end

/-- The text `{}`, which is what `cast("{}", JSONB)` is bound as. -/
def isQuotedObject : Json → Bool
  | .str s => s = "\x7b\x7d"
  | _ => false

/-- `dynamic_override`; `none` where the cast fails. -/
def dynamicOverride (p : Product) : Option Bool :=
  match p.pricingStrategy, p.pricingParams with
  | some s, some v =>
    if s = "fixed" then some false else if castable v then some (!isQuotedObject v) else none
  | _, _ => some false

/-- `inventory_managed_sql` -/
def inventoryManagedSql (p : Product) (rows : List PricingConfig) : Option Bool :=
  if p.pricingStrategy = some "fixed" then some true
  else (dynamicOverride p).map fun dynamic =>
    if dynamic then false
    else ((activeConfig rows (p.serviceType.getD "other")).map PricingConfig.strategy).getD "fixed" = "fixed"

/-- `product_sellable_sql` -/
def productSellableSql (managed : Bool) (stockCount : Option ℤ) (hasManual : Option Bool) (providerActive : Bool) :
    Truth :=
  if managed = false then some providerActive
  else .disj (some (0 < stockCount.getD 0)) (some (hasManual.getD false))

/-- `_provider_active_sql` -/
def providerActiveSql (p : Product) : Bool := p.provider.isNone || p.provider = some true

/-- `list_products` keeps the product when what is in stock is asked for. -/
def listedInStock (p : Product) (rows : List PricingConfig) : Option Truth := do
  let stats := variantStats (← countedVariants loc dumps p)
  let managed ← inventoryManagedSql p rows
  pure (productSellableSql managed (stats.map VariantStats.stockCount) (stats.map VariantStats.hasOpenManual)
    (providerActiveSql p))

/-! ### In the storefront -/

/-- What the storefront knows of a package. -/
structure StockHint where
  deliveryMode : DeliveryMode
  stockState : Option StockState
  stockCount : Option ℤ
  isActive : Bool
  price : ℤ

/-- `variantStockState` -/
def StockHint.state (v : StockHint) : StockState :=
  match v.stockState with
  | some state => state
  | none =>
    if v.deliveryMode = .manual then .manual
    else
      let count := v.stockCount.getD 0
      if count ≤ 0 then .out else if count ≤ 10 then .low else .inStock

/-- `variantPurchasable` -/
def variantPurchasable (v : StockHint) : Bool :=
  v.state = .inStock || v.state = .low || v.state = .manual

/-- `orderable` of `effectiveMinPrice`. -/
def orderable (v : StockHint) : Bool := v.isActive && 0 < v.price && variantPurchasable v

/-- `effectiveMinPrice`, where a package has a price. -/
def effectiveMinPrice (variants : List StockHint) : Option ℤ :=
  let priced := variants.filter fun v => v.isActive && 0 < v.price
  let orderable := priced.filter variantPurchasable
  let pool := if orderable.isEmpty then priced else orderable
  (pool.map StockHint.price).min?

/-- The payload of a package whose state is known. -/
def payload (variant : Package × StockState) : StockHint where
  deliveryMode := variant.1.deliveryMode
  stockState := some variant.2
  stockCount :=
    if variant.1.deliveryMode = .instant then variant.1.stock loc dumps
    else variant.1.manualStock.map fun n => (n : ℤ)
  isActive := variant.1.isActive
  price := variant.1.price

end Stock

/-! ### One meaning -/

section Meaning

variable (loc : Storefront.Locale) (dumps : Json → String) (p : Product) (configs : Configs)

/-- **What the module promises**: the filter keeps the products whose payload says that they are in stock; a
package is sellable in SQL if its state says so; the least price is taken of the same packages by the list and
by the storefront; and the two sides agree on which products are sold from stock. -/
structure OneMeaning : Prop where
  listed : ∃ kept state, listedInStock loc dumps p configs.rows = some kept ∧
    availabilityByProduct loc dumps p configs.again = some state ∧ (kept = some true ↔ state.inStock = true)
  package : ∀ pkg ∈ p.packages, ∃ count state, pkg.stock loc dumps = some count ∧
    pkg.stockState loc dumps = some state ∧
      (variantSellableSql pkg.deliveryMode (some count) pkg.manualStock = some true ↔ isPurchasable state = true)
  price : ∃ rows variants, countedVariants loc dumps p = some rows ∧ variantsByProduct loc dumps p = some variants ∧
    (rows.filter fun row => 0 < row.1.price && sellable row).map Prod.fst =
      (variants.filter fun v => orderable (payload loc dumps v)).map Prod.fst ∧
    sellableMinPriceSql rows = effectiveMinPrice (variants.map (payload loc dumps))
  managed : ∃ managed, inventoryManagedSql p configs.rows = some managed ∧
    (managed = true ↔ (resolvePricing p configs.again).1 = "fixed")

/-- A service type that is priced by packages. -/
def FixedFor (rows : List PricingConfig) (serviceType : String) : Prop :=
  ∀ config ∈ activeConfig rows serviceType, config.strategy = "fixed"

/-- The product has a strategy with params. -/
def Product.PricesItself : Prop := p.pricingStrategy.getD "" ≠ "" ∧ (p.pricingParams.getD .null).truthy = true

/-- The product is priced by its packages. -/
def Product.SoldFromStock (rows : List PricingConfig) : Prop :=
  p.pricingStrategy = some "fixed" ∨ ¬p.PricesItself ∧ FixedFor rows p.service

/-- The package can be ordered: it is made to order, without a limit or with something left of it, or there are
units of it. -/
def Package.CanBeOrdered (pkg : Package) : Prop :=
  match pkg.deliveryMode with
  | .instant => ∃ count, pkg.stock loc dumps = some count ∧ 0 < count
  | .manual => pkg.manualStock ≠ some 0

/-- A closed package made to order that has units in stock, which are counted. -/
def Package.CountedClosed (pkg : Package) : Prop :=
  pkg.deliveryMode = .manual ∧ pkg.manualStock = some 0 ∧ ∃ count, pkg.stock loc dumps = some count ∧ 0 < count

/-- Nothing but the service type tells either side how the product is priced. -/
def Product.ToldByService : Prop :=
  p.pricingStrategy = none ∨ p.pricingStrategy ≠ some "fixed" ∧ p.pricingParams = none ∨
    p.pricingStrategy = some "" ∧ ∃ v ∈ p.pricingParams, isQuotedObject v = true

/-- The ways to read a product's pricing in which the database parts from Python. -/
inductive Misread (rows : List PricingConfig) : Prop
  /-- There are params, but none to speak of (`null`, `0`, `[]`, an object without fields), or the strategy is the
  text without characters. -/
  | empty {s : String} {v : Json} (hs : p.pricingStrategy = some s) (hne : s ≠ "fixed")
      (hv : p.pricingParams = some v) (hquoted : isQuotedObject v = false) (hempty : s = "" ∨ v.truthy = false)
      (hfixed : FixedFor rows p.service)
  /-- The params are the text `{}`. -/
  | quoted {s : String} {v : Json} (hs : p.pricingStrategy = some s) (hne : s ≠ "fixed") (hset : s ≠ "")
      (hv : p.pricingParams = some v) (hquoted : isQuotedObject v = true)
      (hfixed : FixedFor rows (p.serviceType.getD "other"))
  /-- The service type is the text without characters. -/
  | unnamed (htold : p.ToldByService) (hservice : p.serviceType = some "")
      (hfixed : ¬(FixedFor rows "" ↔ FixedFor rows "other"))

/-- The params can be taken for a `jsonb`, where they are. -/
def Product.Castable : Prop := ∀ s ∈ p.pricingStrategy, s ≠ "fixed" → ∀ v ∈ p.pricingParams, castable v = true

/-- **The products of which the promise is kept.** -/
structure Kept : Prop where
  /-- No query fails. -/
  computes : ∀ pkg ∈ p.packages, (pkg.stock loc dumps).isSome = true
  castable : p.Castable
  /-- An instant package has no own lines beside a listing that is switched off. -/
  unmixed : ∀ pkg ∈ p.packages, pkg.deliveryMode = .instant → pkg.sourcePaused = true → pkg.pool = 0
  /-- Where a closed package has units in stock, another package can be ordered. -/
  uncounted : p.SoldFromStock configs.rows → (∃ pkg ∈ p.active, pkg.CountedClosed loc dumps) →
    ∃ pkg ∈ p.active, pkg.CanBeOrdered loc dumps
  read : ¬Misread p configs.rows

end Meaning

/-! ### How a product is priced -/

section Pricing

variable {p : Product} {rows : List PricingConfig}

theorem activeConfig_eq_some_iff (hunique : ((rows.filter (·.isActive)).map PricingConfig.serviceType).Nodup)
    {serviceType : String} {config : PricingConfig} :
    activeConfig rows serviceType = some config ↔
      config ∈ rows ∧ config.isActive = true ∧ config.serviceType = serviceType := by
  constructor
  · intro h
    have hfound := List.find?_some h
    rw [Bool.and_eq_true, decide_eq_true_eq] at hfound
    exact ⟨List.mem_of_find?_eq_some h, hfound⟩
  · rintro ⟨hmem, hactive, htype⟩
    cases hfind : activeConfig rows serviceType with
    | none =>
      have hnone := List.find?_eq_none.mp hfind config hmem
      simp [hactive, htype] at hnone
    | some config' =>
      have hfound := List.find?_some hfind
      rw [Bool.and_eq_true, decide_eq_true_eq] at hfound
      have hmem' := List.mem_of_find?_eq_some hfind
      rw [List.inj_on_of_nodup_map hunique (List.mem_filter.mpr ⟨hmem', hfound.1⟩)
        (List.mem_filter.mpr ⟨hmem, hactive⟩) (hfound.2.trans htype.symm)]

/-- Whichever way the rows are read, the same one is found. -/
theorem activeConfig_again (configs : Configs) : activeConfig configs.again = activeConfig configs.rows := by
  funext serviceType
  have hunique : ((configs.again.filter (·.isActive)).map PricingConfig.serviceType).Nodup :=
    ((configs.perm.filter _).map _).nodup_iff.mpr configs.unique
  ext config
  rw [activeConfig_eq_some_iff hunique, activeConfig_eq_some_iff configs.unique, configs.perm.mem_iff]

theorem lookup_configs (rows : List PricingConfig) (serviceType : String) :
    ((rows.filter (·.isActive)).map fun c => (c.serviceType, c.strategy)).lookup serviceType =
      (activeConfig rows serviceType).map PricingConfig.strategy := by
  induction rows with
  | nil => rfl
  | cons config rows ih =>
    rw [activeConfig, List.find?_cons, List.filter_cons]
    by_cases hactive : config.isActive = true
    · rw [if_pos hactive, List.map_cons, List.lookup_cons, hactive, Bool.true_and]
      by_cases htype : config.serviceType = serviceType
      · simp [htype]
      · have hne : (serviceType == config.serviceType) = false := beq_false_of_ne (Ne.symm htype)
        rw [hne, ih]
        simp [htype, activeConfig]
    · rw [if_neg hactive, ih]
      simp [hactive, activeConfig]

theorem strategy_eq_fixed_iff {serviceType : String} :
    ((activeConfig rows serviceType).map PricingConfig.strategy).getD "fixed" = "fixed" ↔
      FixedFor rows serviceType := by
  cases h : activeConfig rows serviceType <;> simp [FixedFor, h]

theorem productPricingOverride_of_pricesItself (hfixed : p.pricingStrategy ≠ some "fixed") (h : p.PricesItself) :
    productPricingOverride p = some (p.pricingStrategy.getD "", p.pricingParams.getD .null) := by
  rw [productPricingOverride, if_neg hfixed]
  exact if_pos h

theorem productPricingOverride_eq_none (hfixed : p.pricingStrategy ≠ some "fixed") (h : ¬p.PricesItself) :
    productPricingOverride p = none := by
  rw [productPricingOverride, if_neg hfixed]
  exact if_neg h

/-- **`resolve_pricing` answers `fixed`.** -/
theorem resolvePricing_eq_fixed_iff : (resolvePricing p rows).1 = "fixed" ↔ p.SoldFromStock rows := by
  rw [resolvePricing, Product.SoldFromStock]
  by_cases hfixed : p.pricingStrategy = some "fixed"
  · rw [productPricingOverride, if_pos hfixed]
    exact iff_of_true rfl (.inl hfixed)
  · by_cases hprices : p.PricesItself
    · rw [productPricingOverride_of_pricesItself hfixed hprices]
      refine iff_of_false (fun h => ?_) (by simp [hfixed, hprices])
      cases hs : p.pricingStrategy with
      | none => exact hprices.1 (by rw [hs]; rfl)
      | some s =>
        rw [hs] at h
        exact hfixed (hs.trans (congrArg some h))
    · rw [productPricingOverride_eq_none hfixed hprices]
      simp only [hfixed, hprices, not_false_eq_true, true_and, false_or]
      rw [← strategy_eq_fixed_iff]
      cases activeConfig rows p.service <;> rfl

/-- Both ways to read the strategy in Python are one. -/
theorem adminStrategyName_eq (p : Product) (rows : List PricingConfig) :
    adminStrategyName p (if productPricingOverride p = none then
      (rows.filter (·.isActive)).map fun c => (c.serviceType, c.strategy) else []) = (resolvePricing p rows).1 := by
  rw [adminStrategyName, resolvePricing]
  by_cases hfixed : p.pricingStrategy = some "fixed"
  · rw [productPricingOverride, if_pos hfixed, if_pos hfixed]
  · by_cases hprices : p.PricesItself
    · rw [productPricingOverride_of_pricesItself hfixed hprices, if_neg hfixed]
      exact if_pos hprices
    · rw [productPricingOverride_eq_none hfixed hprices, if_neg hfixed, if_pos rfl, lookup_configs]
      refine (if_neg hprices).trans ?_
      cases activeConfig rows p.service <;> rfl

theorem service_eq (p : Product) (h : p.serviceType ≠ some "") : p.service = p.serviceType.getD "other" := by
  rw [Product.service]
  cases hs : p.serviceType with
  | none => rfl
  | some s =>
    have hne : s ≠ "" := fun he => h (hs.trans (congrArg some he))
    simp [hne]

/-- Where the service type alone decides, the two sides agree unless it is the text without characters. -/
theorem fixedFor_service_iff :
    (FixedFor rows (p.serviceType.getD "other") ↔ FixedFor rows p.service) ↔
      ¬(p.serviceType = some "" ∧ ¬(FixedFor rows "" ↔ FixedFor rows "other")) := by
  by_cases hs : p.serviceType = some ""
  · have hservice : p.service = "other" := by simp [Product.service, hs]
    rw [hs, Option.getD_some, hservice]
    simp
  · rw [service_eq p hs]
    simp [hs]

theorem truthy_of_isQuotedObject {v : Json} (h : isQuotedObject v = true) : v.truthy = true := by
  cases v with
  | str s =>
    rw [isQuotedObject, decide_eq_true_eq] at h
    rw [h]
    rfl
  | _ => cases h

/-- What the database makes of a product whose strategy is not `fixed`, against what Python does. -/
def ReadAlike (p : Product) (rows : List PricingConfig) (dynamic : Option Bool) : Prop :=
  ∃ managed, (dynamic.map fun dynamic => if dynamic then false
    else decide (((activeConfig rows (p.serviceType.getD "other")).map PricingConfig.strategy).getD "fixed" = "fixed")) =
      some managed ∧ (managed = true ↔ ¬p.PricesItself ∧ FixedFor rows p.service)

theorem readAlike_false : ReadAlike p rows (some false) ↔
    (FixedFor rows (p.serviceType.getD "other") ↔ ¬p.PricesItself ∧ FixedFor rows p.service) := by
  rw [ReadAlike]
  simp [strategy_eq_fixed_iff]

theorem readAlike_true : ReadAlike p rows (some true) ↔ ¬(¬p.PricesItself ∧ FixedFor rows p.service) := by
  rw [ReadAlike]
  simp

theorem Product.ToldByService.not_pricesItself (h : p.ToldByService) : ¬p.PricesItself := by
  rcases h with h | ⟨-, h⟩ | ⟨h, -⟩
  · simp [Product.PricesItself, h]
  · simp [Product.PricesItself, h, Json.truthy]
  · simp [Product.PricesItself, h]

theorem Product.ToldByService.misread_iff (h : p.ToldByService) :
    Misread p rows ↔ p.serviceType = some "" ∧ ¬(FixedFor rows "" ↔ FixedFor rows "other") := by
  refine ⟨?_, fun hunnamed => .unnamed h hunnamed.1 hunnamed.2⟩
  rintro (⟨hs, -, hv, hquoted, -, -⟩ | ⟨hs, -, hset, hv, -, -⟩ | ⟨-, hservice, hne⟩)
  · rcases h with h | ⟨-, h⟩ | ⟨-, v, h, hquoted'⟩
    · cases hs.symm.trans h
    · cases hv.symm.trans h
    · obtain rfl := Option.some.inj (hv.symm.trans h)
      rw [hquoted] at hquoted'
      cases hquoted'
  · rcases h with h | ⟨-, h⟩ | ⟨h, -⟩
    · cases hs.symm.trans h
    · cases hv.symm.trans h
    · exact absurd (Option.some.inj (hs.symm.trans h)) hset
  · exact ⟨hservice, hne⟩

theorem Product.ToldByService.readAlike_iff (h : p.ToldByService) :
    ReadAlike p rows (some false) ↔ ¬Misread p rows := by
  rw [readAlike_false, h.misread_iff, ← fixedFor_service_iff]
  simp [h.not_pricesItself]

/-- A strategy and params which the database does not take for none. -/
theorem readAlike_of_some {s : String} {v : Json} (hs : p.pricingStrategy = some s) (hne : s ≠ "fixed")
    (hv : p.pricingParams = some v) (h : ¬p.ToldByService) :
    ReadAlike p rows (some (!isQuotedObject v)) ↔ ¬Misread p rows := by
  cases hquoted : isQuotedObject v with
  | true =>
    have hset : s ≠ "" := fun he => h (.inr (.inr ⟨hs.trans (congrArg some he), v, hv, hquoted⟩))
    have hprices : p.PricesItself := by
      simp [Product.PricesItself, hs, hv, hset, truthy_of_isQuotedObject hquoted]
    rw [Bool.not_true, readAlike_false]
    simp only [hprices, not_true_eq_false, false_and, iff_false]
    refine not_congr ⟨fun hfor => .quoted hs hne hset hv hquoted hfor, ?_⟩
    rintro (⟨-, -, hv', hquoted', -, -⟩ | ⟨-, -, -, -, -, hfor⟩ | ⟨htold, -, -⟩)
    · obtain rfl := Option.some.inj (hv.symm.trans hv')
      rw [hquoted] at hquoted'
      cases hquoted'
    · exact hfor
    · exact absurd htold h
  | false =>
    have hprices : ¬p.PricesItself ↔ s = "" ∨ v.truthy = false := by
      rw [Product.PricesItself, not_and_or]
      simp [hs, hv]
    rw [Bool.not_false, readAlike_true, hprices]
    refine not_congr ⟨fun hfor => .empty hs hne hv hquoted hfor.1 hfor.2, ?_⟩
    rintro (⟨hs', -, hv', -, hempty, hfor⟩ | ⟨-, -, -, hv', hquoted', -⟩ | ⟨htold, -, -⟩)
    · obtain rfl := Option.some.inj (hs.symm.trans hs')
      obtain rfl := Option.some.inj (hv.symm.trans hv')
      exact ⟨hempty, hfor⟩
    · obtain rfl := Option.some.inj (hv.symm.trans hv')
      rw [hquoted] at hquoted'
      cases hquoted'
    · exact absurd htold h

/-- **Which products the two sides read alike.** -/
theorem managed_iff :
    (∃ managed, inventoryManagedSql p rows = some managed ∧ (managed = true ↔ p.SoldFromStock rows)) ↔
      p.Castable ∧ ¬Misread p rows := by
  by_cases hfixed : p.pricingStrategy = some "fixed"
  · refine iff_of_true ⟨true, by rw [inventoryManagedSql, if_pos hfixed], iff_of_true rfl (.inl hfixed)⟩ ⟨?_, ?_⟩
    · intro s hs hne
      exact absurd (Option.some.inj (hs.symm.trans hfixed)) hne
    · rintro (⟨hs, hne, -, -, -, -⟩ | ⟨hs, hne, -, -, -, -⟩ | ⟨htold, -, -⟩)
      · exact hne (Option.some.inj (hs.symm.trans hfixed))
      · exact hne (Option.some.inj (hs.symm.trans hfixed))
      · rcases htold with hs | hs | hs
        · cases hs.symm.trans hfixed
        · exact hs.1 hfixed
        · exact absurd (Option.some.inj (hs.1.symm.trans hfixed)) (by decide)
  · have hleft : (∃ managed, inventoryManagedSql p rows = some managed ∧ (managed = true ↔ p.SoldFromStock rows)) ↔
        ReadAlike p rows (dynamicOverride p) := by
      rw [inventoryManagedSql, if_neg hfixed, Product.SoldFromStock, ReadAlike]
      simp only [hfixed, false_or]
    rw [hleft, dynamicOverride.eq_def, Product.Castable]
    rcases hs : p.pricingStrategy with _ | s
    · have htold : p.ToldByService := .inl hs
      simp [htold.readAlike_iff]
    · have hne : s ≠ "fixed" := fun he => hfixed (hs.trans (congrArg some he))
      rcases hv : p.pricingParams with _ | v
      · have htold : p.ToldByService := .inr (.inl ⟨hfixed, hv⟩)
        simp [htold.readAlike_iff]
      · by_cases hcast : castable v = true
        · simp only [hne, hcast, if_true, if_false]
          by_cases htold : p.ToldByService
          · have hquoted : isQuotedObject v = true := by
              rcases htold with h | ⟨-, h⟩ | ⟨-, v', h, hquoted⟩
              · cases hs.symm.trans h
              · cases hv.symm.trans h
              · rwa [Option.some.inj (hv.symm.trans h)]
            rw [hquoted, Bool.not_true, htold.readAlike_iff]
            simp [hcast]
          · rw [readAlike_of_some hs hne hv htold]
            simp [hcast]
        · refine iff_of_false ?_ fun h => hcast (h.1 s rfl hne v rfl)
          simp only [hne, hcast, if_false]
          rintro ⟨managed, hnone, -⟩
          cases hnone

end Pricing

/-! ### Packages -/

section Packages

variable {loc : Storefront.Locale} {dumps : Json → String} {pkg : Package} {count : ℤ}

/-- Own lines are counted, and a listing takes nothing away. -/
theorem pool_le_stock (h : pkg.stock loc dumps = some count) : (pkg.pool : ℤ) ≤ count := by
  rw [Package.stock] at h
  split at h
  · exact (Option.some.inj h).le
  · rw [sellableStock] at h
    split_ifs at h
    · have hpool : (pkg.pool : ℤ) + 0 = count := Option.some.inj h
      omega
    · obtain ⟨n, hn, h⟩ := Option.bind_eq_some_iff.mp h
      obtain ⟨below, -, rfl⟩ := Option.map_eq_some_iff.mp hn
      obtain rfl := Option.some.inj h
      have hunits := units_nonneg
      refine Int.le_add_of_nonneg_right ?_
      split_ifs
      · exact le_rfl
      · exact hunits _

/-- A listing that is switched off adds nothing to the own lines. -/
theorem stock_of_sourcePaused (hpaused : pkg.sourcePaused = true) : pkg.stock loc dumps = some (pkg.pool : ℤ) := by
  rw [Package.stock]
  rw [Package.sourcePaused] at hpaused
  cases hs : pkg.supply with
  | none => rfl
  | some s =>
    rw [hs, Option.any_some, Bool.not_eq_true'] at hpaused
    simp only [sellableStock, hpaused, or_true, if_true]
    exact congrArg some (Int.add_zero _)

theorem manualOpenSql_eq_true {mode : DeliveryMode} {manualStock : Option ℕ} :
    manualOpenSql mode manualStock = some true ↔ mode = .manual ∧ manualStock ≠ some 0 := by
  rw [manualOpenSql, Truth.conj_eq_true, Truth.disj_eq_true, Truth.isNull_eq_true, Truth.compare_eq_true]
  cases manualStock with
  | none => simp
  | some n => simp [Nat.pos_iff_ne_zero]

theorem variantSellableSql_eq_true {mode : DeliveryMode} {manualStock : Option ℕ} :
    variantSellableSql mode (some count) manualStock = some true ↔
      (mode = .manual ∧ manualStock ≠ some 0) ∨ (mode = .instant ∧ 0 < count) := by
  rw [variantSellableSql, Truth.disj_eq_true, manualOpenSql_eq_true, Truth.conj_eq_true]
  simp

theorem canBeOrdered_iff (h : pkg.stock loc dumps = some count) :
    pkg.CanBeOrdered loc dumps ↔ variantSellableSql pkg.deliveryMode (some count) pkg.manualStock = some true := by
  rw [variantSellableSql_eq_true, Package.CanBeOrdered]
  cases pkg.deliveryMode <;> simp [h]

/-- **Which packages the two sides agree on.** -/
theorem package_iff (h : pkg.stock loc dumps = some count) :
    (∃ state, pkg.stockState loc dumps = some state ∧
      (variantSellableSql pkg.deliveryMode (some count) pkg.manualStock = some true ↔ isPurchasable state = true)) ↔
      (pkg.deliveryMode = .instant → pkg.sourcePaused = true → pkg.pool = 0) := by
  rw [variantSellableSql_eq_true, Package.stockState.eq_def]
  cases hmode : pkg.deliveryMode with
  | manual =>
    refine iff_of_true ⟨_, rfl, ?_⟩ (by simp)
    rw [variantStockState]
    cases hlimit : pkg.manualStock with
    | none => simp [isPurchasable]
    | some n => cases n <;> simp [isPurchasable]
  | instant =>
    simp only [h, Option.map_some, Option.some.injEq, exists_eq_left', true_and, forall_true_left]
    rw [variantStockState, if_neg (by simp)]
    cases hpaused : pkg.sourcePaused with
    | true =>
      have hpool : (pkg.pool : ℤ) = count := Option.some.inj ((stock_of_sourcePaused hpaused).symm.trans h)
      rw [if_pos rfl]
      simp only [isPurchasable, forall_true_left]
      have hnone : (StockState.paused ∈ [StockState.inStock, .low, .manual]) = False := by simp
      simp only [hnone, decide_false, reduceCtorEq, false_and, false_or, Bool.false_eq_true, iff_false]
      omega
    | false =>
      rw [if_neg (by simp)]
      refine iff_of_true ?_ (by simp)
      split_ifs with hzero hlow
      · simp [isPurchasable, hzero]
      · simp [isPurchasable, not_le.mp hzero]
      · simp [isPurchasable, not_le.mp hzero]

end Packages

/-! ### Products -/

theorem sum_pos_iff {l : List ℤ} (h : ∀ x ∈ l, 0 ≤ x) : 0 < l.sum ↔ ∃ x ∈ l, 0 < x := by
  induction l with
  | nil => simp
  | cons x l ih =>
    obtain ⟨hx, hl⟩ := List.forall_mem_cons.mp h
    have hsum : 0 ≤ l.sum := List.sum_nonneg hl
    rw [List.sum_cons, List.exists_mem_cons_iff, ← ih hl]
    omega

/-- A row of the list says that something of its product can be sold: of a package there are units, or it is open. -/
theorem stats_iff {rows : List (Package × ℤ)} (h : ∀ row ∈ rows, 0 ≤ row.2) :
    (0 < ((variantStats rows).map VariantStats.stockCount).getD 0 ∨
      ((variantStats rows).map VariantStats.hasOpenManual).getD false = true) ↔
      ∃ row ∈ rows, 0 < row.2 ∨ (row.1.deliveryMode = .manual ∧ row.1.manualStock ≠ some 0) := by
  rw [variantStats]
  cases rows with
  | nil => simp
  | cons first rest =>
    set rows := first :: rest with hrows
    have hne : rows.isEmpty = false := rfl
    have hunits : 0 < (rows.map Prod.snd).sum ↔ ∃ row ∈ rows, 0 < row.2 := by
      rw [sum_pos_iff (List.forall_mem_map.mpr h)]
      simp only [List.mem_map, exists_exists_and_eq_and]
    have hlimit : ∀ row ∈ rows.filter fun row => row.1.deliveryMode = .manual,
        0 ≤ ((row.1.manualStock.getD 0 : ℕ) : ℤ) := fun _ _ => Int.natCast_nonneg _
    have hlimits : 0 < ((rows.filter fun row => row.1.deliveryMode = .manual).map
        fun row => ((row.1.manualStock.getD 0 : ℕ) : ℤ)).sum → ∃ row ∈ rows,
          row.1.deliveryMode = .manual ∧ row.1.manualStock ≠ some 0 := by
      rw [sum_pos_iff (List.forall_mem_map.mpr hlimit)]
      rintro ⟨x, hx, hpos⟩
      obtain ⟨row, hrow, rfl⟩ := List.mem_map.mp hx
      obtain ⟨hmem, hmode⟩ := List.mem_filter.mp hrow
      refine ⟨row, hmem, of_decide_eq_true hmode, fun hzero => ?_⟩
      rw [hzero] at hpos
      exact absurd hpos (by simp)
    have hnonneg : 0 ≤ (rows.map Prod.snd).sum := List.sum_nonneg (List.forall_mem_map.mpr h)
    have hnonneg' : 0 ≤ ((rows.filter fun row => row.1.deliveryMode = .manual).map
        fun row => ((row.1.manualStock.getD 0 : ℕ) : ℤ)).sum := List.sum_nonneg (List.forall_mem_map.mpr hlimit)
    simp only [hne, Bool.false_eq_true, if_false, Option.map_some, Option.getD_some, List.any_eq_true,
      decide_eq_true_eq, manualOpenSql_eq_true]
    constructor
    · rintro (hpos | ⟨row, hmem, hopen⟩)
      · rcases lt_or_ge 0 (rows.map Prod.snd).sum with hsum | hsum
        · obtain ⟨row, hmem, hrow⟩ := hunits.mp hsum
          exact ⟨row, hmem, .inl hrow⟩
        · obtain ⟨row, hmem, hopen⟩ := hlimits (by omega)
          exact ⟨row, hmem, .inr hopen⟩
      · exact ⟨row, hmem, .inr hopen⟩
    · rintro ⟨row, hmem, hrow | hopen⟩
      · have hsum := hunits.mpr ⟨row, hmem, hrow⟩
        exact .inl (by omega)
      · exact .inr ⟨row, hmem, hopen⟩

/-- The first of the states in stock that is there is one a package can be ordered in. -/
theorem inStock_productAvailability {states : List StockState} {managed active : Bool} :
    (productAvailability states managed active).inStock = true ↔
      if managed = true then ∃ state ∈ states, isPurchasable state = true else active = true := by
  rw [productAvailability]
  cases managed with
  | false => cases active <;> simp [ProductState.inStock]
  | true =>
    by_cases h1 : StockState.inStock ∈ states
    · simp only [List.find?_cons, h1, decide_true]
      exact iff_of_true rfl ⟨_, h1, rfl⟩
    · by_cases h2 : StockState.low ∈ states
      · simp only [List.find?_cons, h1, h2, decide_true, decide_false]
        exact iff_of_true rfl ⟨_, h2, rfl⟩
      · by_cases h3 : StockState.manual ∈ states
        · simp only [List.find?_cons, h1, h2, h3, decide_true, decide_false]
          exact iff_of_true rfl ⟨_, h3, rfl⟩
        · refine iff_of_false ?_ ?_
          · by_cases h4 : StockState.paused ∈ states <;>
              simp [h1, h2, h3, h4, ProductState.inStock]
          · rintro ⟨state, hmem, hstate⟩
            cases state with
            | inStock => exact h1 hmem
            | low => exact h2 hmem
            | manual => exact h3 hmem
            | paused => cases hstate
            | out => cases hstate

section Listed

variable {loc : Storefront.Locale} {dumps : Json → String} {p : Product} {configs : Configs}

/-- The units of a package whose stock is known. -/
def Package.units (loc : Storefront.Locale) (dumps : Json → String) (pkg : Package) : ℤ := (pkg.stock loc dumps).getD 0

/-- The state of a package whose stock is known. -/
def Package.shown (loc : Storefront.Locale) (dumps : Json → String) (pkg : Package) : StockState :=
  (pkg.stockState loc dumps).getD .out

theorem stock_eq_units {pkg : Package} (h : (pkg.stock loc dumps).isSome = true) :
    pkg.stock loc dumps = some (pkg.units loc dumps) := by
  obtain ⟨count, hcount⟩ := Option.isSome_iff_exists.mp h
  rw [Package.units, hcount]
  rfl

theorem stockState_eq_shown {pkg : Package} (h : (pkg.stock loc dumps).isSome = true) :
    pkg.stockState loc dumps = some (pkg.shown loc dumps) := by
  obtain ⟨count, hcount⟩ := Option.isSome_iff_exists.mp h
  rw [Package.shown, Package.stockState.eq_def]
  cases pkg.deliveryMode with
  | manual => rfl
  | instant =>
    rw [hcount]
    rfl

theorem mem_packages_of_active {pkg : Package} (h : pkg ∈ p.active) : pkg ∈ p.packages := (List.mem_filter.mp h).1

theorem countedVariants_eq (h : ∀ pkg ∈ p.packages, (pkg.stock loc dumps).isSome = true) :
    countedVariants loc dumps p = some (p.active.map fun pkg => (pkg, pkg.units loc dumps)) :=
  mapM_eq_some_map fun pkg hpkg => by rw [stock_eq_units (h pkg (mem_packages_of_active hpkg))]; rfl

theorem variantsByProduct_eq (h : ∀ pkg ∈ p.packages, (pkg.stock loc dumps).isSome = true) :
    variantsByProduct loc dumps p = some (p.active.map fun pkg => (pkg, pkg.shown loc dumps)) :=
  mapM_eq_some_map fun pkg hpkg => by rw [stockState_eq_shown (h pkg (mem_packages_of_active hpkg))]; rfl

theorem soldFromStock_again : p.SoldFromStock configs.again ↔ p.SoldFromStock configs.rows := by
  rw [Product.SoldFromStock, Product.SoldFromStock, FixedFor, FixedFor, activeConfig_again]

/-- The states say which packages can be ordered, where none has own lines beside a listing that is switched off. -/
theorem isPurchasable_shown_iff (h : ∀ pkg ∈ p.packages, (pkg.stock loc dumps).isSome = true)
    (hunmixed : ∀ pkg ∈ p.packages, pkg.deliveryMode = .instant → pkg.sourcePaused = true → pkg.pool = 0) :
    ∀ pkg ∈ p.packages, isPurchasable (pkg.shown loc dumps) = true ↔ pkg.CanBeOrdered loc dumps := by
  intro pkg hpkg
  have hcount := stock_eq_units (h pkg hpkg)
  obtain ⟨state, hstate, hiff⟩ := (package_iff hcount).mpr (hunmixed pkg hpkg)
  rw [canBeOrdered_iff hcount, hiff, Package.shown, hstate]
  rfl

/-- What the filter keeps of a product that is sold from stock: something can be ordered, or is counted though it
is closed. -/
theorem exists_units_iff (h : ∀ pkg ∈ p.packages, (pkg.stock loc dumps).isSome = true) :
    (∃ row ∈ p.active.map fun pkg => (pkg, pkg.units loc dumps),
      0 < row.2 ∨ (row.1.deliveryMode = .manual ∧ row.1.manualStock ≠ some 0)) ↔
      (∃ pkg ∈ p.active, pkg.CanBeOrdered loc dumps) ∨ ∃ pkg ∈ p.active, pkg.CountedClosed loc dumps := by
  rw [← exists_or]
  simp only [List.mem_map, exists_exists_and_eq_and, ← and_or_left]
  refine exists_congr fun pkg => and_congr_right fun hpkg => ?_
  have hstock := stock_eq_units (h pkg (mem_packages_of_active hpkg))
  rw [Package.CanBeOrdered, Package.CountedClosed]
  cases hmode : pkg.deliveryMode with
  | instant => simp [hstock]
  | manual =>
    simp only [hstock, Option.some.injEq, exists_eq_left', true_and]
    tauto

theorem listedInStock_eq (h : ∀ pkg ∈ p.packages, (pkg.stock loc dumps).isSome = true) {managed : Bool}
    (hmanaged : inventoryManagedSql p configs.rows = some managed) :
    ∃ kept, listedInStock loc dumps p configs.rows = some kept ∧ (kept = some true ↔
      if managed = true then
        (∃ pkg ∈ p.active, pkg.CanBeOrdered loc dumps) ∨ ∃ pkg ∈ p.active, pkg.CountedClosed loc dumps
      else p.provider.getD true = true) := by
  rw [listedInStock, countedVariants_eq h]
  simp only [bind, Option.bind_some, hmanaged]
  refine ⟨_, rfl, ?_⟩
  rw [productSellableSql]
  cases managed with
  | false =>
    rw [providerActiveSql]
    cases p.provider <;> simp
  | true =>
    rw [if_neg (by simp), Truth.disj_eq_true, ← exists_units_iff h, ← stats_iff]
    · simp
    · refine List.forall_mem_map.mpr fun pkg hpkg => ?_
      have hpool := pool_le_stock (stock_eq_units (h pkg (mem_packages_of_active hpkg)))
      simp only
      omega

theorem availabilityByProduct_eq (configs : Configs) (h : ∀ pkg ∈ p.packages, (pkg.stock loc dumps).isSome = true) :
    ∃ state, availabilityByProduct loc dumps p configs.again = some state ∧ (state.inStock = true ↔
      if (resolvePricing p configs.again).1 = "fixed"
      then ∃ pkg ∈ p.active, isPurchasable (pkg.shown loc dumps) = true
      else p.provider.getD true = true) := by
  rw [availabilityByProduct, variantsByProduct_eq h]
  simp only [bind, Option.bind_some, adminStrategyName_eq]
  refine ⟨_, rfl, ?_⟩
  rw [inStock_productAvailability]
  simp

/-- **Which products the filter keeps rightly.** -/
theorem listed_iff (h : ∀ pkg ∈ p.packages, (pkg.stock loc dumps).isSome = true)
    (hpackage : ∀ pkg ∈ p.packages, isPurchasable (pkg.shown loc dumps) = true ↔ pkg.CanBeOrdered loc dumps)
    {managed : Bool} (hmanaged : inventoryManagedSql p configs.rows = some managed)
    (hsold : managed = true ↔ p.SoldFromStock configs.rows) :
    (∃ kept state, listedInStock loc dumps p configs.rows = some kept ∧
      availabilityByProduct loc dumps p configs.again = some state ∧ (kept = some true ↔ state.inStock = true)) ↔
      (p.SoldFromStock configs.rows → (∃ pkg ∈ p.active, pkg.CountedClosed loc dumps) →
        ∃ pkg ∈ p.active, pkg.CanBeOrdered loc dumps) := by
  obtain ⟨kept, hkept, hiff⟩ := listedInStock_eq h hmanaged
  obtain ⟨state, hstate, hiff'⟩ := availabilityByProduct_eq configs h
  have hactive : (∃ pkg ∈ p.active, isPurchasable (pkg.shown loc dumps) = true) ↔
      ∃ pkg ∈ p.active, pkg.CanBeOrdered loc dumps :=
    exists_congr fun pkg => and_congr_right fun hpkg => hpackage pkg (mem_packages_of_active hpkg)
  have hresolved : (resolvePricing p configs.again).1 = "fixed" ↔ p.SoldFromStock configs.rows :=
    resolvePricing_eq_fixed_iff.trans soldFromStock_again
  rw [hkept, hstate]
  simp only [Option.some.injEq, exists_and_left, exists_eq_left']
  rw [hiff, hiff']
  by_cases hfixed : p.SoldFromStock configs.rows
  · rw [if_pos (hsold.mpr hfixed), if_pos (hresolved.mpr hfixed), hactive]
    exact ⟨fun hab _ hb => hab.mp (.inr hb), fun hba => ⟨fun hab => hab.elim id (hba hfixed), .inl⟩⟩
  · rw [if_neg (mt hsold.mp hfixed), if_neg (mt hresolved.mp hfixed)]
    exact iff_of_true Iff.rfl fun hsold' => absurd hsold' hfixed

/-- A package is sellable to the list if the storefront can sell it. -/
theorem sellable_eq_purchasable (h : ∀ pkg ∈ p.packages, (pkg.stock loc dumps).isSome = true)
    (hpackage : ∀ pkg ∈ p.packages, isPurchasable (pkg.shown loc dumps) = true ↔ pkg.CanBeOrdered loc dumps) :
    ∀ pkg ∈ p.active, sellable (pkg, pkg.units loc dumps) =
      variantPurchasable (payload loc dumps (pkg, pkg.shown loc dumps)) := by
  intro pkg hpkg
  have hmem := mem_packages_of_active hpkg
  rw [Bool.eq_iff_iff, sellable, decide_eq_true_iff, ← canBeOrdered_iff (stock_eq_units (h pkg hmem)),
    ← hpackage pkg hmem]
  cases hstate : pkg.shown loc dumps <;> simp [isPurchasable, variantPurchasable, payload, StockHint.state]

theorem isActive_payload {pkg : Package} (h : pkg ∈ p.active) (state : StockState) :
    (payload loc dumps (pkg, state)).isActive = true := (List.mem_filter.mp h).2

/-- The same packages, where the two sides agree on each. -/
theorem filter_sellable (hsell : ∀ pkg ∈ p.active, sellable (pkg, pkg.units loc dumps) =
      variantPurchasable (payload loc dumps (pkg, pkg.shown loc dumps))) :
    ((p.active.map fun pkg => (pkg, pkg.units loc dumps)).filter fun row => 0 < row.1.price && sellable row).map
        Prod.fst =
      ((p.active.map fun pkg => (pkg, pkg.shown loc dumps)).filter fun v => orderable (payload loc dumps v)).map
        Prod.fst := by
  rw [List.filter_map, List.filter_map, List.map_map, List.map_map]
  refine congrArg (List.map id) (List.filter_congr fun pkg hpkg => ?_)
  rw [Function.comp_apply, Function.comp_apply, orderable, isActive_payload hpkg, Bool.true_and, hsell pkg hpkg]
  rfl

/-- The same least price, where the two sides agree on each. -/
theorem least_price (hsell : ∀ pkg ∈ p.active, sellable (pkg, pkg.units loc dumps) =
      variantPurchasable (payload loc dumps (pkg, pkg.shown loc dumps))) :
    sellableMinPriceSql (p.active.map fun pkg => (pkg, pkg.units loc dumps)) =
      effectiveMinPrice ((p.active.map fun pkg => (pkg, pkg.shown loc dumps)).map (payload loc dumps)) := by
  set hint : Package → StockHint := fun pkg => payload loc dumps (pkg, pkg.shown loc dumps) with hhint
  set priced := p.active.filter fun pkg => decide (0 < pkg.price) with hpriced
  set sold := p.active.filter fun pkg => decide (0 < pkg.price) && sellable (pkg, pkg.units loc dumps) with hsold
  have hpricedHints : ((p.active.map hint).filter fun v => v.isActive && decide (0 < v.price)) = priced.map hint := by
    rw [List.filter_map]
    refine congrArg (List.map hint) (List.filter_congr fun pkg hpkg => ?_)
    rw [Function.comp_apply, isActive_payload hpkg, Bool.true_and]
    rfl
  have hsoldHints : (priced.map hint).filter variantPurchasable = sold.map hint := by
    rw [List.filter_map, hpriced, List.filter_filter]
    refine congrArg (List.map hint) (List.filter_congr fun pkg hpkg => ?_)
    rw [hsell pkg hpkg, Bool.and_comm]
    rfl
  have hmin : sellableMinPriceSql (p.active.map fun pkg => (pkg, pkg.units loc dumps)) =
      ((sold.map (·.price)).min? <|> (priced.map (·.price)).min?) := by
    rw [sellableMinPriceSql, List.filter_map, List.filter_map, List.map_map, List.map_map]
    rfl
  rw [hmin, effectiveMinPrice, List.map_map]
  change _ = (let priced := (p.active.map hint).filter fun v => v.isActive && decide (0 < v.price)
    let orderable := priced.filter variantPurchasable
    let pool := if orderable.isEmpty then priced else orderable
    (pool.map StockHint.price).min?)
  simp only [hpricedHints, hsoldHints]
  cases sold with
  | nil =>
    simp only [List.map_nil, List.isEmpty_nil, if_true, List.map_map]
    rfl
  | cons pkg rest =>
    simp only [List.map_cons, List.isEmpty_cons, Bool.false_eq_true, if_false, List.map_map]
    rfl

/-- **The least price is taken of the same packages.** -/
theorem price_of_package (h : ∀ pkg ∈ p.packages, (pkg.stock loc dumps).isSome = true)
    (hpackage : ∀ pkg ∈ p.packages, isPurchasable (pkg.shown loc dumps) = true ↔ pkg.CanBeOrdered loc dumps) :
    ∃ rows variants, countedVariants loc dumps p = some rows ∧ variantsByProduct loc dumps p = some variants ∧
      (rows.filter fun row => 0 < row.1.price && sellable row).map Prod.fst =
        (variants.filter fun v => orderable (payload loc dumps v)).map Prod.fst ∧
      sellableMinPriceSql rows = effectiveMinPrice (variants.map (payload loc dumps)) :=
  ⟨_, _, countedVariants_eq h, variantsByProduct_eq h, filter_sellable (sellable_eq_purchasable h hpackage),
    least_price (sellable_eq_purchasable h hpackage)⟩

end Listed

/-! ### The promise -/

/-- **Of which products the promise is kept.** -/
theorem one_meaning_iff (loc : Storefront.Locale) (dumps : Json → String) (p : Product) (configs : Configs) :
    OneMeaning loc dumps p configs ↔ Kept loc dumps p configs := by
  constructor
  · intro h
    have hcomputes : ∀ pkg ∈ p.packages, (pkg.stock loc dumps).isSome = true := by
      intro pkg hpkg
      obtain ⟨count, -, hcount, -⟩ := h.package pkg hpkg
      rw [hcount]
      rfl
    have hmanaged : ∃ managed, inventoryManagedSql p configs.rows = some managed ∧
        (managed = true ↔ p.SoldFromStock configs.rows) := by
      obtain ⟨managed, hm, hiff⟩ := h.managed
      exact ⟨managed, hm, hiff.trans (resolvePricing_eq_fixed_iff.trans soldFromStock_again)⟩
    have hunmixed : ∀ pkg ∈ p.packages, pkg.deliveryMode = .instant → pkg.sourcePaused = true → pkg.pool = 0 := by
      intro pkg hpkg
      obtain ⟨count, state, hcount, hstate, hiff⟩ := h.package pkg hpkg
      exact (package_iff hcount).mp ⟨state, hstate, hiff⟩
    obtain ⟨managed, hm, hsold⟩ := hmanaged
    exact ⟨hcomputes, (managed_iff.mp ⟨managed, hm, hsold⟩).1, hunmixed,
      (listed_iff hcomputes (isPurchasable_shown_iff hcomputes hunmixed) hm hsold).mp h.listed,
      (managed_iff.mp ⟨managed, hm, hsold⟩).2⟩
  · intro h
    obtain ⟨managed, hm, hsold⟩ := managed_iff.mpr ⟨h.castable, h.read⟩
    have hpackage := isPurchasable_shown_iff h.computes h.unmixed
    refine ⟨(listed_iff h.computes hpackage hm hsold).mpr h.uncounted, fun pkg hpkg => ?_,
      price_of_package h.computes hpackage,
      ⟨managed, hm, hsold.trans (resolvePricing_eq_fixed_iff.trans soldFromStock_again).symm⟩⟩
    have hcount := stock_eq_units (h.computes pkg hpkg)
    obtain ⟨state, hstate, hiff⟩ := (package_iff hcount).mpr (h.unmixed pkg hpkg)
    exact ⟨_, state, hcount, hstate, hiff⟩

/-- One line of the seller's beside a listing whose provider is off. -/
def mixedPackage : Package :=
  ⟨1000, .instant, true, none, 1, some ⟨⟨0, 5, 1, none, none⟩, [], false, true⟩⟩

/-- A product of that package. -/
def mixedProduct : Product := ⟨some "fixed", none, some "other", none, [mixedPackage]⟩

def noConfigs : Configs := ⟨[], [], .nil, by simp⟩

/-- The filter keeps a product that is shown as paused. -/
theorem kept_but_paused :
    ¬OneMeaning plainLocale (fun _ => "") mixedProduct noConfigs ∧
      listedInStock plainLocale (fun _ => "") mixedProduct noConfigs.rows = some (some true) ∧
      availabilityByProduct plainLocale (fun _ => "") mixedProduct noConfigs.again = some (.stock .paused) := by
  have hlisted : listedInStock plainLocale (fun _ => "") mixedProduct noConfigs.rows = some (some true) := by decide
  have hshown : availabilityByProduct plainLocale (fun _ => "") mixedProduct noConfigs.again =
      some (.stock .paused) := by decide
  refine ⟨fun h => ?_, hlisted, hshown⟩
  obtain ⟨kept, state, hkept, hstate, hiff⟩ := h.listed
  obtain rfl := Option.some.inj (hlisted.symm.trans hkept)
  obtain rfl := Option.some.inj (hshown.symm.trans hstate)
  exact absurd (hiff.mp rfl) (by decide)

end Marketplace.Availability
