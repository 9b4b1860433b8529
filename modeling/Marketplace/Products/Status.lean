import Marketplace.Resources.Stock
import Marketplace.Sellers.TierAuto
import Marketplace.Suppliers.ProxySources

/-!
# The status of a product

`products/service.py`, the operations that change the status of products: a seller's, one product or many at a
time, and an admin's. A seller may have so many products active at once as the rule of the seller's tier
says, and leaves a product alone that an admin has suspended.

No operation locks a product before it decides. A product is loaded, the active products are counted, and
the `UPDATE` at the end of the session takes the row and writes the columns that differ from what was
loaded.

Titles, texts, images and the business log are left out. Of the edit of a product by an admin, the category
and the status are kept.
-/

namespace Marketplace

open Sql

/-! ### The rows -/

/-- A row of `products`. -/
structure ListedProduct where
  sellerId : ℕ
  categoryId : ℕ
  status : ProductStatus
  adminHidden : Bool
  serviceType : Option String
  providerId : Option ℕ
  pricingStrategy : Option String
  /-- `pricing_params` is not empty. -/
  hasPricingParams : Bool
  deriving DecidableEq

/-- A seller's account. -/
structure ListedSeller where
  tier : SellerTier
  isInternal : Bool
  deriving DecidableEq

/-- What the rest of the shop keeps: categories, the adapter of each provider with whether it is active, and the
strategies of the active pricing configurations by service type. -/
structure ListedShop where
  categories : Table ℕ Unit
  providers : Table ℕ (String × Bool)
  configs : Table String String

/-- The tables. -/
structure CatalogDb where
  products : Table ℕ ListedProduct
  sellers : Table ℕ ListedSeller
  /-- `max_active_products` of the rule of each tier; `none` is unlimited. -/
  maxActiveProducts : SellerTier → Option ℕ
  shop : ListedShop

/-- A function on these tables inside a session, which locks products. -/
abbrev CatalogTx (α : Type) : Type := Sql.Tx CatalogDb ℕ Abort α

namespace CatalogDb

/-- `count(Product.id)` of the seller's active products. -/
def activeCount (d : CatalogDb) (sellerId : ℕ) : ℕ :=
  d.products.sum fun _ product => if product.sellerId = sellerId ∧ product.status = .active then 1 else 0

/-- Add a product. -/
def addProduct (productId : ℕ) (product : ListedProduct) (d : CatalogDb) : CatalogDb :=
  { d with products := d.products.insert productId product }

/-- Rewrite a product. -/
def modifyProduct (productId : ℕ) (f : ListedProduct → ListedProduct) (d : CatalogDb) : CatalogDb :=
  { d with products := d.products.modify productId f }

end CatalogDb

/-! ### The flush -/

/-- The `UPDATE` of a product that was loaded and edited. -/
def ListedProduct.write (loaded edited row : ListedProduct) : ListedProduct :=
  { row with
    categoryId := writeColumn loaded.categoryId edited.categoryId row.categoryId
    status := writeColumn loaded.status edited.status row.status
    adminHidden := writeColumn loaded.adminHidden edited.adminHidden row.adminHidden }

/-- The flush of a product; without a change there is no `UPDATE`, and the row is not taken. -/
def flushListed (productId : ℕ) (loaded edited : ListedProduct) : CatalogTx Unit := do
  Tx.stmt (fun _ => if edited = loaded then [] else [productId]) fun _ => Tx.pure ()
  Tx.modify (CatalogDb.modifyProduct productId (loaded.write edited))

/-- `db.get(Product, product_id)`. -/
def getListed (productId : ℕ) : CatalogTx ListedProduct := do
  let product ← Tx.read fun d => d.products.get? productId
  Tx.getOrElse product (.api 404 "PRODUCT_NOT_FOUND")

/-! ### A seller's operations -/

/-- The statuses a seller may ask for. -/
inductive SaleStatus
  | active | paused
  deriving DecidableEq, Repr

/-- `ProductStatus(status)`. -/
def SaleStatus.status : SaleStatus → ProductStatus
  | .active => .active
  | .paused => .paused

/-- `active_product_allowance`: how many products are active, and how many may be. -/
def activeProductAllowance (sellerId : ℕ) : CatalogTx (ℕ × Option ℕ) := do
  let seller ← Tx.read fun d => d.sellers.get? sellerId
  let active ← Tx.read fun d => d.activeCount sellerId
  let rule ← Tx.read fun d => d.maxActiveProducts
  match seller with
  | none => pure (active, rule .new)
  | some seller => pure (active, if seller.isInternal then none else rule seller.tier)

/-- There is no limit, or it is not exceeded. -/
def underLimit (active : ℕ) (limit : Option ℕ) : Prop := ∀ l ∈ limit, active ≤ l

instance decidableUnderLimit (active : ℕ) (limit : Option ℕ) : Decidable (underLimit active limit) := by
  unfold underLimit
  infer_instance

/-- `_assert_can_activate`, for one product. -/
def assertCanActivateSeller (sellerId : ℕ) : CatalogTx Unit := do
  let allowance ← activeProductAllowance sellerId
  Tx.require (underLimit (allowance.1 + 1) allowance.2) (.api 409 "PRODUCT_LIMIT_REACHED")

/-- A product as it is created. -/
def newListed (sellerId categoryId : ℕ) (active : Bool) (serviceType : Option String) : ListedProduct where
  sellerId
  categoryId
  status := if active then .active else .draft
  adminHidden := false
  serviceType
  providerId := none
  pricingStrategy := none
  hasPricingParams := false

/-- `create_product`; the sequence has given the product its key. -/
def createListed (productId sellerId categoryId : ℕ) (active : Bool) (serviceType : Option String) :
    CatalogTx Unit := do
  Tx.when (active = true) (assertCanActivateSeller sellerId)
  Tx.modify (CatalogDb.addProduct productId (newListed sellerId categoryId active serviceType))

/-- `update_seller_product_status`. -/
def updateSellerProductStatus (productId sellerId : ℕ) (status : SaleStatus) : CatalogTx Unit := do
  let product ← getListed productId
  Tx.require (product.sellerId = sellerId) (.api 403 "NOT_OWNER")
  Tx.require (product.status ≠ .suspended) (.api 409 "PRODUCT_SUSPENDED")
  Tx.when (status = .active ∧ product.status ≠ .active) (assertCanActivateSeller sellerId)
  flushListed productId product { product with status := status.status }

/-- `delete_product`. -/
def deleteListed (productId sellerId : ℕ) : CatalogTx Unit := updateSellerProductStatus productId sellerId .paused

/-- `dict.fromkeys`: each key once, where it came first. -/
def fromKeys (ids : List ℕ) : List ℕ := ids.reverse.dedup.reverse

/-- Why a product of a bulk operation is left alone. -/
inductive SkipReason
  | notFound | notOwner | suspended | tierLimit | unchanged | needsSetup
  deriving DecidableEq, Repr

/-- What a bulk operation has done with its products. -/
structure BulkResult where
  /-- The products with what they were loaded as and what they have become. -/
  updated : List (ℕ × ListedProduct × ListedProduct)
  skipped : List (ℕ × SkipReason)

/-- A product that is left alone, before the others. -/
def BulkResult.skip (productId : ℕ) (reason : SkipReason) (r : BulkResult) : BulkResult :=
  { r with skipped := (productId, reason) :: r.skipped }

/-- A product that is changed, before the others. -/
def BulkResult.update (productId : ℕ) (loaded edited : ListedProduct) (r : BulkResult) : BulkResult :=
  { r with updated := (productId, loaded, edited) :: r.updated }

/-- The updates of a bulk operation, in the order of the keys. -/
def BulkResult.flush (r : BulkResult) : CatalogTx Unit :=
  Tx.forEach (r.updated.insertionSort fun a b => a.1 ≤ b.1) fun u => flushListed u.1 u.2.1 u.2.2

/-- The loop of `bulk_update_seller_product_status`; `headroom` is how many more may be activated. -/
def sellerBulk (sellerId : ℕ) (status : SaleStatus) (byId : ℕ → Option ListedProduct) :
    Option ℕ → List ℕ → BulkResult
  | _, [] => ⟨[], []⟩
  | headroom, productId :: rest =>
    match byId productId with
    | none => (sellerBulk sellerId status byId headroom rest).skip productId .notFound
    | some product =>
      if product.sellerId ≠ sellerId then
        (sellerBulk sellerId status byId headroom rest).skip productId .notOwner
      else if product.status = .suspended then
        (sellerBulk sellerId status byId headroom rest).skip productId .suspended
      else if status = .active ∧ product.status ≠ .active then
        if headroom = some 0 then
          (sellerBulk sellerId status byId headroom rest).skip productId .tierLimit
        else
          (sellerBulk sellerId status byId (headroom.map (· - 1)) rest).update productId product
            { product with status := status.status }
      else
        (sellerBulk sellerId status byId headroom rest).update productId product
          { product with status := status.status }

/-- How many more products the seller may activate, if that is asked for. -/
def sellerHeadroom (sellerId : ℕ) (status : SaleStatus) : CatalogTx (Option ℕ) :=
  match status with
  | .paused => pure none
  | .active => do
    let allowance ← activeProductAllowance sellerId
    pure (allowance.2.map fun limit => limit - allowance.1)

/-- `bulk_update_seller_product_status`. -/
def bulkUpdateSellerProductStatus (productIds : List ℕ) (sellerId : ℕ) (status : SaleStatus) :
    CatalogTx BulkResult := do
  let byId ← Tx.read fun d => d.products.get?
  let headroom ← sellerHeadroom sellerId status
  let result := sellerBulk sellerId status byId headroom (fromKeys productIds)
  result.flush
  pure result

/-! ### Whether a product can be sold -/

/-- `ADAPTER_STRATEGY_COMPAT`: the strategies of an adapter; none are listed of `mock` and of what is no
adapter. -/
def adapterStrategies : String → Option (List String)
  | "seller_pool" | "igbm" | "token_keys" => some ["fixed"]
  | "manual" | "seller_task_webhook" => some ["task"]
  | "topproxy" => some ["config"]
  | "scrapecreators" | "dproxy" => some ["config", "credit"]
  | "seller_gateway" | "ghlab_fb" => some ["credit"]
  | _ => none

/-- `setup_status(…)["needs_setup"]`. -/
def needsSetup (adapterType : Option String) (strategy : String) (providerActive : Bool) : Bool :=
  match adapterType.filter (· ≠ "") with
  | none => strategy ≠ "fixed"
  | some adapter => !providerActive || (strategy ≠ "" && (adapterStrategies adapter).any (strategy ∉ ·))

/-- `_admin_strategy_name`. -/
def adminStrategyName (product : ListedProduct) (configs : Table String String) : String :=
  match product.pricingStrategy.filter (· ≠ "") with
  | some "fixed" => "fixed"
  | some strategy => if product.hasPricingParams then strategy else ofServiceType
  | none => ofServiceType
where
  ofServiceType : String := (configs.get? ((product.serviceType.filter (· ≠ "")).getD "other")).getD "fixed"

/-- Whether a product waits for its setup. -/
def ListedShop.waits (shop : ListedShop) (product : ListedProduct) : Bool :=
  let provider := product.providerId.bind shop.providers.get?
  needsSetup (provider.map Prod.fst) (adminStrategyName product shop.configs) ((provider.map Prod.snd).getD true)

/-! ### An admin's operations -/

/-- `suspend_product`. -/
def suspendProduct (productId : ℕ) : CatalogTx Unit := do
  let product ← getListed productId
  flushListed productId product { product with status := .suspended }

/-- `_validate_category_exists`. -/
def validateCategoryExists (categoryId : ℕ) : CatalogTx Unit := do
  let category ← Tx.read fun d => d.shop.categories.get? categoryId
  Tx.require (category ≠ none) (.api 404 "CATEGORY_NOT_FOUND")

/-- `admin_update_product`, of the category and the status. -/
def adminUpdateProduct (productId : ℕ) (categoryId : Option ℕ) (status : Option ProductStatus) :
    CatalogTx Unit := do
  let product ← getListed productId
  Tx.forEach categoryId.toList validateCategoryExists
  flushListed productId product
    { product with categoryId := categoryId.getD product.categoryId, status := status.getD product.status }

/-- The actions of `admin_bulk_update_products`: those of `ADMIN_BULK_STATUS`, and the others. -/
inductive CatalogAction
  | setStatus (status : ProductStatus)
  | setCategory (categoryId : ℕ)
  | hideAdmin
  | unhideAdmin
  deriving DecidableEq

/-- What an action makes of a product, or why it is left alone. -/
def CatalogAction.edit (shop : ListedShop) (product : ListedProduct) : CatalogAction → ListedProduct ⊕ SkipReason
  | .setCategory categoryId =>
    if product.categoryId = categoryId then .inr .unchanged else .inl { product with categoryId }
  | .hideAdmin =>
    if product.adminHidden then .inr .unchanged
    else .inl
      { product with
        adminHidden := true
        status := if product.status = .active then .suspended else product.status }
  | .unhideAdmin => if product.adminHidden then .inl { product with adminHidden := false } else .inr .unchanged
  | .setStatus status =>
    if product.status = status then .inr .unchanged
    else if status = .active ∧ shop.waits product = true then .inr .needsSetup
    else .inl { product with status }

/-- The loop of `admin_bulk_update_products`. -/
def adminBulk (shop : ListedShop) (action : CatalogAction) (found : ℕ → Option ListedProduct) : List ℕ → BulkResult
  | [] => ⟨[], []⟩
  | productId :: rest =>
    match found productId with
    | none => (adminBulk shop action found rest).skip productId .notFound
    | some product =>
      match action.edit shop product with
      | .inl edited => (adminBulk shop action found rest).update productId product edited
      | .inr reason => (adminBulk shop action found rest).skip productId reason

/-- `set_category` names a category that is there. -/
def CatalogAction.validate : CatalogAction → CatalogTx Unit
  | .setCategory categoryId => validateCategoryExists categoryId
  | _ => pure ()

/-- `admin_bulk_update_products`. The products come with their providers. -/
def adminBulkUpdateProducts (ids : List ℕ) (action : CatalogAction) : CatalogTx BulkResult := do
  action.validate
  let rows ← Tx.read fun d => (d.products.get?, d.shop.providers)
  let configs ← Tx.read fun d => d.shop.configs
  let result := adminBulk { categories := .empty, providers := rows.2, configs } action rows.1 (fromKeys ids)
  result.flush
  pure result

end Marketplace
