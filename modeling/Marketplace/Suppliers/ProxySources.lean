import Marketplace.Pricing.Config
import Marketplace.Sql.Tx
import Marketplace.Model.Db

/-!
# Importing offers of a DProxy source

A DProxy source sells the plans of a catalog. Which plan an order of a key `type|network|days` buys is
looked up in the configuration of the source (`resolvePlanId`): in the matrix `plan_ids` if there is one,
otherwise it is the single `plan_id` that older configurations have.

`importPlans` puts items of the catalog on sale, in new products or in products the source has. It writes
the matrix (`mergePlanIds`), and a source with a single plan moves to a matrix on that occasion.

The rows of `providers` are sources of the adapter `dproxy`. Descriptions, slugs, the public keys of
products and the business log are left out.
-/

namespace Marketplace

open Sql

/-! ### The rows -/

/-- `config.base_url` as `urlsplit` reads it, and the other fields that are checked. -/
structure Connection where
  scheme : String
  hostname : Option String
  hasCredentials : Bool
  hasQueryOrFragment : Bool
  authType : Option String
  authHeader : Option String
  rotateMethod : Option String
  timeoutSeconds : Option Value
  expiryToleranceHours : Option Value
  lowCreditUsd : Option Value
  deriving DecidableEq, Repr

/-- The `config` of a DProxy source. An absent `plan_ids` is an empty one. -/
structure DProxyConfig where
  planId : Option String
  planIds : Table String String
  minMarginPct : Option Value
  connection : Connection

/-- A row of `providers`. -/
structure Source where
  sellerId : Option ℕ
  reviewStatus : String
  config : DProxyConfig

/-- `ProductStatus`. -/
inductive ProductStatus
  | draft | active | paused | suspended
  deriving DecidableEq, Repr

/-- A row of `products`. Absent `pricing_params` are empty ones. -/
structure SourceProduct where
  sellerId : ℕ
  categoryId : ℕ
  title : String
  escrowHours : ℕ
  status : ProductStatus
  providerId : Option ℕ
  pricingStrategy : Option String
  pricingParams : PricingParams

/-- A row of `supplier_catalog_items`, with the attributes of `extra` that are read. -/
structure CatalogItem where
  name : String
  costPrice : ℤ
  proxyType : Option String
  durationDays : Option ℕ
  isActive : Option Bool
  proxyCount : Option ℕ
  minQuantity : Option ℕ
  deriving DecidableEq, Repr

/-- What is read of an account that may own products: whether it is a seller, whether it is an internal one, and how
many active products its tier allows, if the tier has a limit. -/
structure OwnerAccount where
  isSeller : Bool
  isInternal : Bool
  maxActiveProducts : Option ℕ
  deriving DecidableEq, Repr

/-- The tables the import reads and writes. -/
structure SourceDb where
  providers : Table ℕ Source
  products : Table ℕ SourceProduct
  /-- Keyed by provider and external id. -/
  catalog : Table (ℕ × String) CatalogItem
  accounts : Table ℕ OwnerAccount
  categories : List ℕ
  /-- The product of each variant. -/
  variants : Table ℕ ℕ

/-- A function on these tables inside a session; the locks are on providers. -/
abbrev SourceTx (α : Type) : Type := Sql.Tx SourceDb ℕ Abort α

namespace SourceDb

/-- Rewrite a product. -/
def modifyProduct (id : ℕ) (f : SourceProduct → SourceProduct) (d : SourceDb) : SourceDb :=
  { d with products := d.products.modify id f }

/-- Write the configuration of a provider. -/
def setConfig (id : ℕ) (config : DProxyConfig) (d : SourceDb) : SourceDb :=
  { d with providers := d.providers.modify id fun p => { p with config } }

/-- A number no product has. -/
def freshProduct (d : SourceDb) : ℕ := (d.products.rows.map Prod.fst).sum + 1

end SourceDb

/-! ### Which plan an order buys -/

/-- `value` where it is truthy. -/
def truthy (text : Option String) : Option String := text.filter (· ≠ "")

/-- `_resolve_plan_id`. -/
def resolvePlanId (config : DProxyConfig) (key : String) : Option String :=
  if config.planIds.rows ≠ [] then config.planIds.get? key else config.planId

/-! ### The configuration of a source -/

/-- The text without the occurrences of a word. -/
def removeWord (word : List Char) : ℕ → List Char → List Char
  | 0, cs => cs
  | _, [] => []
  | fuel + 1, c :: cs =>
    if word.isPrefixOf (c :: cs) then removeWord word fuel ((c :: cs).drop word.length)
    else c :: removeWord word fuel cs

/-- `UUID(text)` does not raise. -/
def isUuid (text : String) : Bool :=
  let remove (word : String) (cs : List Char) := removeWord word.toList cs.length cs
  let hex := (stripChars (fun c => c ∈ ['{', '}']) (remove "uuid:" (remove "urn:" text.toList))).filter (· ≠ '-')
  hex.length = 32 && hex.all fun c => c.isDigit || c ∈ "abcdefABCDEF".toList

/-- `key` splits into a type, a network and a positive number of days. -/
def isMatrixKey (key : String) : Bool :=
  match key.toList.splitOn '|' with
  | [proxyType, network, days] =>
    !proxyType.isEmpty && !network.isEmpty && (readInt days).any fun n => 0 < n
  | _ => false

section Import

variable (F : Floats)

/-- A field that must be a number in a range, if it is there. -/
def inRange (value : Option Value) (low high : ℚ) : Bool :=
  match value with
  | none | some .null | some (.str "") => true
  | some v => (F.float v).any fun number => low ≤ number && number ≤ high

/-- `validate_dproxy_config` on a matrix: the detail of the error, if there is one. -/
def validateDproxyConfig (config : DProxyConfig) : Option String :=
  let c := config.connection
  let authType := (truthy c.authType).getD "bearer"
  if c.scheme ≠ "http" ∧ c.scheme ≠ "https" then some "config.base_url phải dùng http hoặc https"
  else if truthy c.hostname = none then some "config.base_url thiếu host"
  else if c.hasCredentials then some "config.base_url không được chứa thông tin đăng nhập"
  else if c.hasQueryOrFragment then some "config.base_url không được chứa query string hoặc fragment"
  else if config.planId.any fun plan => !isUuid plan then some "config.plan_id phải là UUID hợp lệ"
  else if config.planIds.rows = [] then some "config.plan_ids phải là object không rỗng"
  else if config.planIds.rows.any fun row => !isMatrixKey row.1 || !isUuid row.2 then
    some "Mỗi giá trị config.plan_ids phải là UUID hợp lệ"
  else if authType ≠ "bearer" ∧ authType ≠ "header" then some "auth_type phải là một trong: bearer, header"
  else if authType = "header" ∧ truthy c.authHeader = none then
    some "auth_type=header yêu cầu config.auth_header"
  else if ((truthy c.rotateMethod).getD "POST").toList.map Char.toUpper ∉
      ["GET".toList, "POST".toList, "PUT".toList] then
    some "rotate_method phải là một trong: GET, POST, PUT"
  else if ¬inRange F c.timeoutSeconds 5 60 then some "config.timeout_seconds phải trong khoảng 5–60"
  else if ¬inRange F c.expiryToleranceHours 0 72 then some "config.expiry_tolerance_hours phải trong khoảng 0–72"
  else if ¬inRange F c.lowCreditUsd 0 100000 then some "config.low_credit_usd phải trong khoảng 0–100000"
  else none

/-! ### Costs and margins -/

/-- `_min_margin_pct`. -/
def minMarginPct (config : DProxyConfig) : ℚ :=
  match config.minMarginPct with
  | none | some .null | some (.bool false) | some (.str "") => 10
  | some v => match F.float v with
    | none => 10
    | some pct => if pct = 0 ∧ v.isNumber then 10 else pct

/-- `margin_ok`. -/
def marginOk (sellPrice costPrice : ℤ) (margin : ℚ) : Bool :=
  costPrice ≤ 0 || F.withMargin costPrice margin ≤ sellPrice

/-- `suggest_price`. -/
def suggestPrice (costPrice : ℤ) (margin : ℚ) (roundTo : ℕ) : ℤ :=
  if costPrice ≤ 0 then 0
  else ⌈F.quotient (F.withMargin costPrice margin) (max roundTo 1)⌉ * (max roundTo 1 : ℕ)

/-- `cost_for` a plan of a DProxy source. -/
def costFor (item : Option CatalogItem) : Option ℤ := (item.map CatalogItem.costPrice).filter (0 < ·)

/-- `catalog_external_id` of a DProxy source. -/
def catalogExternalId (config : DProxyConfig) (key : String) : Option String := truthy (config.planIds.get? key)

/-- `require_margin`. -/
def requireMargin (price : ℤ) (cost : Option ℤ) (margin : ℚ) : SourceTx Unit :=
  Tx.require (∀ c ∈ cost, marginOk F price c margin) (.api 400 "PROXY_PRICE_BELOW_MARGIN")

/-! ### The items of an import -/

/-- An item of the request. -/
structure PlanImportItem where
  externalId : String
  type : String
  network : String
  days : Option ℕ
  price : Option ℕ
  typeLabel : Option String
  networkLabel : Option String
  title : Option String
  categoryId : Option ℕ
  status : ProductStatus
  escrowHours : Option ℕ
  productId : Option ℕ
  groupKey : Option String
  deriving DecidableEq, Repr

/-- The product an item names. -/
def PlanImportItem.target (spec : PlanImportItem) : Option ℕ := spec.productId.filter (· ≠ 0)

/-- Type, network and days an item is sold by: its own, or those of the plan. -/
def PlanImportItem.plan (spec : PlanImportItem) (item : CatalogItem) : String × String × ℕ :=
  let proxyType := strip spec.type
  (if proxyType = "" then strip (item.proxyType.getD "") else proxyType, strip spec.network,
    ((spec.days.filter (· ≠ 0)).orElse fun _ => item.durationDays).getD 0)

/-- `_validate_item` for a DProxy source. -/
def validateItem (item : CatalogItem) (spec : PlanImportItem) : SourceTx (String × String × ℕ) := do
  let (proxyType, network, days) := spec.plan item
  let planDays := item.durationDays.getD 0
  let proxyCount := (item.proxyCount.filter (· ≠ 0)).getD 1
  let minQuantity := (item.minQuantity.filter (· ≠ 0)).getD 1
  Tx.require (item.isActive ≠ some false) (.api 400 "PROXY_PLAN_INACTIVE")
  Tx.require (proxyCount = 1 ∧ minQuantity ≤ 1) (.api 400 "PROXY_PLAN_NOT_RETAIL")
  Tx.require (planDays = 0 ∨ days = planDays) (.api 400 "PROXY_PLAN_FIXED_DURATION")
  Tx.require (proxyType ≠ "" ∧ network ≠ "" ∧ 1 ≤ days) (.api 400 "INVALID_PRODUCT_CONFIG")
  Tx.require ('|' ∉ proxyType.toList ∧ '|' ∉ network.toList) (.api 400 "INVALID_PRODUCT_CONFIG")
  pure (proxyType, network, days)

/-- Who imports: `none` is an admin. -/
abbrev SourceScope : Type := Option ℕ

/-- `_owner_seller_id`. -/
def ownerSellerId (provider : Source) (scope : SourceScope) (requested : Option ℕ) : SourceTx ℕ :=
  match scope with
  | some sellerId => pure sellerId
  | none => Tx.getOrElse ((requested.filter (· ≠ 0)).orElse fun _ => provider.sellerId)
      (.api 400 "INVALID_PRODUCT_CONFIG")

/-- `_require_internal_owner`. -/
def requireInternalOwner (provider : Source) (sellerId : ℕ) : SourceTx Unit := do
  let owner ← Tx.read fun d => d.accounts.get? sellerId
  Tx.require (owner.any fun account => account.isSeller && account.isInternal)
    (.api 400 "PROXY_SOURCE_OWNER_NOT_INTERNAL")
  Tx.require (provider.sellerId = none ∨ provider.sellerId = some sellerId) (.api 400 "INVALID_PRODUCT_CONFIG")

/-- `_assert_can_activate`. -/
def assertCanActivate (sellerId : ℕ) : SourceTx Unit := do
  let active ← Tx.read fun d => d.products.rows.countP fun row =>
    row.2.sellerId = sellerId && row.2.status = .active
  let account ← Tx.read fun d => d.accounts.get? sellerId
  let limit := account.bind fun a => if a.isInternal then none else a.maxActiveProducts
  Tx.require (∀ l ∈ limit, active + 1 ≤ l) (.api 409 "PRODUCT_LIMIT_REACHED")

/-- `create_product` with `commit=False`. -/
def createSourceProduct (product : SourceProduct) : SourceTx ℕ := do
  Tx.when (product.status = .active) (assertCanActivate product.sellerId)
  let id ← Tx.read SourceDb.freshProduct
  Tx.modify fun d => { d with products := d.products.insert id product }
  pure id

/-- An entry of what an import reports. -/
structure CreatedOffer where
  productId : ℕ
  productTitle : String
  planKey : String
  price : ℤ
  costPrice : Option ℤ
  marginOk : Bool
  deriving DecidableEq, Repr

/-- What the loop over the items has gathered. -/
structure Importing where
  created : List CreatedOffer
  /-- The new product of each group. -/
  newProducts : Table String ℕ
  /-- The products with an offer so far, in order. -/
  touched : List ℕ
  /-- The plan of each key so far. -/
  patch : Table String String

/-- The product an item goes to: the one it names, the new one of its group, or a new one. -/
def productFor (pid : ℕ) (scope : SourceScope) (sellerId : Option ℕ) (item : CatalogItem)
    (spec : PlanImportItem) (acc : Importing) : SourceTx (ℕ × Table String ℕ) :=
  match spec.target, truthy spec.groupKey with
  | some id, _ => do
    let product ← Tx.read fun d => d.products.get? id
    let product ← Tx.getOrElse (product.filter fun p => scope = none ∨ scope = some p.sellerId)
      (.api 404 "PRODUCT_NOT_FOUND")
    Tx.require (product.providerId = some pid) (.api 400 "INVALID_PRODUCT_CONFIG")
    pure (id, acc.newProducts)
  | none, group =>
    match group.bind acc.newProducts.get? with
    | some id => pure (id, acc.newProducts)
    | none => do
      let categories ← Tx.read SourceDb.categories
      let category := spec.categoryId.getD 0
      Tx.require (category ∈ categories) (.api 400 "INVALID_PRODUCT_CONFIG")
      let owner ← Tx.getOrElse sellerId .integrity
      let title := ((strip ((truthy spec.title).getD item.name)).take 255).toString
      let id ← createSourceProduct
        { sellerId := owner, categoryId := category, title
          escrowHours := (spec.escrowHours.filter (· ≠ 0)).getD 24, status := spec.status, providerId := some pid
          pricingStrategy := some "config", pricingParams := .empty }
      pure (id, match group with
        | some g => acc.newProducts.put g id
        | none => acc.newProducts)

/-- The display names an item brings. -/
def PricingParams.withLabels (params : PricingParams) (proxyType network : String) (spec : PlanImportItem) :
    PricingParams :=
  let label (table : Table String String) (code : String) (text : Option String) :=
    match truthy text with
    | some t => table.put code (t.take 80).toString
    | none => table
  { params with
    typeDisplay := label params.typeDisplay proxyType spec.typeLabel
    networkDisplay := match truthy spec.networkLabel with
      | some _ => label params.networkDisplay network spec.networkLabel
      | none => if network = "xoay" then params.networkDisplay.insert network "Key xoay" else params.networkDisplay }

/-- The price of an item: the one it asks for, or the suggested one. -/
def offerPrice (spec : PlanImportItem) (cost : Option ℤ) (margin : ℚ) : ℤ :=
  match spec.price.filter (· ≠ 0), cost with
  | some p, _ => p
  | none, some c => suggestPrice F c (max margin 30) 1000
  | none, none => 0

/-- One item: its key and price, the product it goes to, and the new table of that product. -/
def importItem (pid : ℕ) (provider : Source) (scope : SourceScope) (sellerId : Option ℕ) (acc : Importing)
    (spec : PlanImportItem) : SourceTx Importing := do
  let item ← Tx.read fun d => d.catalog.get? (pid, spec.externalId)
  let item ← Tx.getOrElse item (.api 404 "PRODUCT_NOT_FOUND")
  let (proxyType, network, days) ← validateItem item spec
  let key := planKey proxyType network days
  Tx.require (∀ plan ∈ acc.patch.get? key, plan = spec.externalId) (.api 409 "PROXY_PLAN_CONFLICT")
  let cost := costFor (some item)
  let margin := minMarginPct F provider.config
  let price := offerPrice F spec cost margin
  Tx.require (0 < price) (.api 400 "INVALID_PRODUCT_CONFIG")
  requireMargin F price cost margin
  let (id, newProducts) ← productFor pid scope sellerId item spec acc
  let product ← Tx.read fun d => d.products.get? id
  let product ← Tx.getOrElse product (.api 404 "PRODUCT_NOT_FOUND")
  Tx.modify (SourceDb.modifyProduct id fun p =>
    { p with pricingParams := (p.pricingParams.withPlan F key price).withLabels proxyType network spec })
  pure
    { created := acc.created ++ [{ productId := id, productTitle := product.title, planKey := key, price
                                   costPrice := cost, marginOk := cost.all fun c => marginOk F price c margin }]
      newProducts
      touched := if id ∈ acc.touched then acc.touched else acc.touched ++ [id]
      patch := acc.patch.put key spec.externalId }

/-- The loop over the items. -/
def importItems (pid : ℕ) (provider : Source) (scope : SourceScope) (sellerId : Option ℕ) :
    List PlanImportItem → Importing → SourceTx Importing
  | [], acc => pure acc
  | spec :: items, acc => do
    let acc ← importItem F pid provider scope sellerId acc spec
    importItems pid provider scope sellerId items acc

/-! ### The matrix of a source -/

/-- The configured products of a provider. -/
def SourceDb.configProducts (d : SourceDb) (pid : ℕ) : List SourceProduct :=
  (d.products.rows.map Prod.snd).filter fun p => p.providerId = some pid && p.pricingStrategy = some "config"

/-- The matrix before the new keys are written: for a source with a single plan, that plan under every key
its products list. -/
def migratePlanIds (config : DProxyConfig) (products : List SourceProduct) : Table String String :=
  match truthy config.planId with
  | some legacy =>
    if config.planIds.rows = [] then
      config.planIds.insertAll
        (products.flatMap fun product => (planPricesMap product.pricingParams).rows.map Prod.fst) legacy
    else config.planIds
  | none => config.planIds

/-- `_merge_plan_ids`. -/
def mergePlanIds (pid : ℕ) (patch : Table String String) : SourceTx Unit := do
  let locked ← Tx.lock pid fun d => d.providers.get? pid
  let locked ← Tx.getOrElse locked (.valueError "provider")
  let config := locked.config
  Tx.require (∀ row ∈ patch.rows, ∀ current ∈ config.planIds.get? row.1, current = row.2)
    (.api 409 "PROXY_PLAN_CONFLICT")
  let products ← Tx.read fun d => d.configProducts pid
  let migrated := migratePlanIds config products
  let planIds := migrated.putAll patch.rows
  if truthy config.planId = none ∧ ∀ row ∈ patch.rows, migrated.get? row.1 = some row.2 then pure ()
  else do
    let config := { config with planIds, planId := none }
    Tx.require (validateDproxyConfig F config = none) (.api 400 "INVALID_PRODUCT_CONFIG")
    Tx.modify (SourceDb.setConfig pid config)

/-- `update_product_operations` of a product that has its new table, with `commit=False`. -/
def updateProductOperations (pid : ℕ) (productId : ℕ) : SourceTx Unit := do
  let product ← Tx.read fun d => d.products.get? productId
  let product ← Tx.getOrElse product (.api 404 "PRODUCT_NOT_FOUND")
  let provider ← Tx.read fun d => d.providers.get? pid
  let provider ← Tx.getOrElse provider (.api 404 "PRODUCT_NOT_FOUND")
  Tx.require (provider.reviewStatus = "approved") (.api 400 "PROVIDER_NOT_APPROVED")
  Tx.require (∀ s ∈ provider.sellerId, s = product.sellerId) (.api 400 "PROVIDER_NOT_OWNED")
  let variantCount ← Tx.read fun d => d.variants.rows.countP fun row => row.2 = productId
  Tx.require (variantCount = 0) (.api 409 "PRODUCT_HAS_FIXED_VARIANTS")
  let planPrices := planPricesMap product.pricingParams
  Tx.require (planPrices.rows ≠ []) (.api 400 "PRODUCT_PRICING_INCOMPATIBLE")
  Tx.require (if provider.config.planIds.rows ≠ [] then
      ∀ row ∈ planPrices.rows, (provider.config.planIds.get? row.1).isSome
    else (truthy provider.config.planId).isSome ∧ planPrices.rows.length = 1)
    (.api 400 "PRODUCT_PRICING_INCOMPATIBLE")
  let catalog ← Tx.read SourceDb.catalog
  Tx.forEach planPrices.rows fun row =>
    requireMargin F row.2
      (costFor ((catalogExternalId provider.config row.1).bind fun ext => catalog.get? (pid, ext)))
      (minMarginPct F provider.config)
  Tx.modify (SourceDb.modifyProduct productId fun p =>
    { p with providerId := some pid, pricingStrategy := some "config" })

/-! ### The import -/

/-- The owner of the new products of an import, where there are any. -/
def importOwner (provider : Source) (scope : SourceScope) (items : List PlanImportItem)
    (ownerSellerId : Option ℕ) : SourceTx (Option ℕ) :=
  if items.any fun spec => spec.target.isNone then do
    let owner ← Marketplace.ownerSellerId provider scope ownerSellerId
    requireInternalOwner provider owner
    pure (some owner)
  else pure none

/-- `_import_plans`. -/
def importPlansTx (pid : ℕ) (provider : Source) (scope : SourceScope) (items : List PlanImportItem)
    (ownerSellerId : Option ℕ) : SourceTx (List CreatedOffer) := do
  let sellerId ← importOwner provider scope items ownerSellerId
  Tx.require (provider.reviewStatus = "approved") (.api 400 "PROVIDER_NOT_APPROVED")
  let acc ← importItems F pid provider scope sellerId items ⟨[], .empty, [], .empty⟩
  Tx.when (acc.patch.rows ≠ []) (mergePlanIds F pid acc.patch)
  Tx.forEach acc.touched (updateProductOperations F pid)
  pure acc.created

/-- `import_plans`: the answer, and the tables after the commit or the rollback. -/
def importPlans (pid : ℕ) (provider : Source) (scope : SourceScope) (items : List PlanImportItem)
    (ownerSellerId : Option ℕ) (d : SourceDb) : Except Abort (List CreatedOffer) × SourceDb :=
  match (importPlansTx F pid provider scope items ownerSellerId).run d with
  | .ok (created, d') => (.ok created, d')
  | .error e => (.error e, d)

end Import

end Marketplace
