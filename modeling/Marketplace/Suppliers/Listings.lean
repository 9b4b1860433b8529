import Marketplace.Suppliers.ProxySources

/-!
# Prices of packages bought from a source

`suppliers/sources.py` and the sync of `suppliers/service.py`, with `update_variant`: a package is tied to an
item of a source by a listing, and the price rule of the source may follow the cost of the item. A price
that a seller typed is marked on the listing, `price_manual`, and the rule is to leave it alone.

No function locks what it has read. Listings and packages are loaded, the sync waits for the supplier
after it has loaded the listings, and the flush writes the columns that differ from what was loaded.

The configuration of a source is given as it is parsed. Names, limits, hints, statuses, health and alerts are left out,
and so are the other fields of a package. `import_items` commits a package before its listing, which are two
transactions here.
-/

namespace Marketplace

open Sql

/-! ### The rows -/

/-- A source: its owner, whether it is approved, its price rule (`PriceRule`), its margin, and `manual_stock`. -/
structure PriceSource where
  sellerId : Option ℕ
  isApproved : Bool
  markupPct : ℚ
  roundTo : ℕ
  followCost : Bool
  minMarginPct : ℚ
  manualStock : Bool

/-- An item of a supplier's catalog. -/
structure UpstreamItem where
  externalId : String
  costPrice : ℤ
  amount : ℤ
  deriving DecidableEq

/-- A row of `supplier_listings`. -/
structure SupplierListing where
  providerId : ℕ
  variantId : ℕ
  externalProductId : String
  costPrice : ℤ
  upstreamAmount : ℤ
  syncError : Option String
  failStreak : ℕ
  autoPausedAt : Option ℕ
  priceManual : Bool
  deriving DecidableEq

/-- A row of `product_variants`. -/
structure Package where
  productId : ℕ
  price : ℤ
  isActive : Bool
  deriving DecidableEq

/-- A row of `products`. -/
structure PackagedProduct where
  sellerId : ℕ
  providerId : Option ℕ
  deriving DecidableEq

/-- The tables. -/
structure ListingDb where
  providers : Table ℕ PriceSource
  products : Table ℕ PackagedProduct
  variants : Table ℕ Package
  listings : Table ℕ SupplierListing
  /-- `supplier_catalog_items`, by provider and external id. -/
  items : Table (ℕ × String) UpstreamItem
  /-- What no column keeps: the price of the package is one that was typed, and has not been handed back since. -/
  typed : ℕ → Bool

/-- The rows that are locked. -/
inductive ListingKey
  | product (productId : ℕ)
  | variant (variantId : ℕ)
  | listing (listingId : ℕ)
  /-- `uq_supplier_listings_variant`. -/
  | listingOf (variantId : ℕ)
  deriving DecidableEq

/-- A function on these tables inside a session. -/
abbrev ListingTx (α : Type) : Type := Sql.Tx ListingDb ListingKey Abort α

/-! ### The flush -/

/-- The `UPDATE` of a listing that was loaded and edited. -/
def SupplierListing.write (loaded edited row : SupplierListing) : SupplierListing where
  providerId := writeColumn loaded.providerId edited.providerId row.providerId
  variantId := row.variantId
  externalProductId := writeColumn loaded.externalProductId edited.externalProductId row.externalProductId
  costPrice := writeColumn loaded.costPrice edited.costPrice row.costPrice
  upstreamAmount := writeColumn loaded.upstreamAmount edited.upstreamAmount row.upstreamAmount
  syncError := writeColumn loaded.syncError edited.syncError row.syncError
  failStreak := writeColumn loaded.failStreak edited.failStreak row.failStreak
  autoPausedAt := writeColumn loaded.autoPausedAt edited.autoPausedAt row.autoPausedAt
  priceManual := writeColumn loaded.priceManual edited.priceManual row.priceManual

/-- The `UPDATE` of a package that was loaded and edited. -/
def Package.write (loaded edited row : Package) : Package where
  productId := writeColumn loaded.productId edited.productId row.productId
  price := writeColumn loaded.price edited.price row.price
  isActive := writeColumn loaded.isActive edited.isActive row.isActive

namespace ListingDb

/-- Rewrite a listing. -/
def modifyListing (listingId : ℕ) (f : SupplierListing → SupplierListing) (d : ListingDb) : ListingDb :=
  { d with listings := d.listings.modify listingId f }

/-- Rewrite a package. -/
def modifyVariant (variantId : ℕ) (f : Package → Package) (d : ListingDb) : ListingDb :=
  { d with variants := d.variants.modify variantId f }

/-- The source of a product. -/
def setSource (productId providerId : ℕ) (d : ListingDb) : ListingDb :=
  { d with products := d.products.modify productId fun product => { product with providerId := some providerId } }

/-- Note that the price of a package is typed, or is not any more. -/
def noteTyped (variantId : ℕ) (typed : Bool) (d : ListingDb) : ListingDb :=
  { d with typed := Function.update d.typed variantId typed }

end ListingDb

/-- The flush of a listing; without a change there is no `UPDATE`, and the row is not taken. -/
def flushListing (listingId : ℕ) (loaded edited : SupplierListing) : ListingTx Unit := do
  Tx.stmt (fun _ => if edited = loaded then [] else [.listing listingId]) fun _ => Tx.pure ()
  Tx.modify (ListingDb.modifyListing listingId (loaded.write edited))

/-- The flush of a package. -/
def flushVariant (variantId : ℕ) (loaded edited : Package) : ListingTx Unit := do
  Tx.stmt (fun _ => if edited = loaded then [] else [.variant variantId]) fun _ => Tx.pure ()
  Tx.modify (ListingDb.modifyVariant variantId (loaded.write edited))

/-- The flush of a product whose source is set. -/
def flushSource (productId providerId : ℕ) (loaded : PackagedProduct) : ListingTx Unit := do
  Tx.stmt (fun _ => if loaded.providerId = some providerId then [] else [.product productId]) fun _ => Tx.pure ()
  Tx.when (loaded.providerId ≠ some providerId) (Tx.modify (ListingDb.setSource productId providerId))

/-! ### Looking things up -/

/-- `db.get(Provider, provider_id)`. -/
def getSource (providerId : ℕ) : ListingTx PriceSource := do
  let provider ← Tx.read fun d => d.providers.get? providerId
  Tx.getOrElse provider (.api 404 "PROVIDER_NOT_FOUND")

/-- `_catalog_item`. -/
def catalogItem (providerId : ℕ) (externalId : String) : ListingTx UpstreamItem := do
  let item ← Tx.read fun d => d.items.get? (providerId, externalId)
  Tx.getOrElse item (.api 404 "PRODUCT_NOT_FOUND")

/-- `_scoped_variant`; an admin has no scope. -/
def scopedVariant (variantId : ℕ) (scope : Option ℕ) : ListingTx (Package × PackagedProduct) := do
  let variant ← Tx.read fun d => d.variants.get? variantId
  let variant ← Tx.getOrElse variant (.api 404 "VARIANT_NOT_FOUND")
  let product ← Tx.read fun d => d.products.get? variant.productId
  let product ← Tx.getOrElse product (.api 404 "VARIANT_NOT_FOUND")
  Tx.require (∀ sellerId ∈ scope, product.sellerId = sellerId) (.api 404 "VARIANT_NOT_FOUND")
  pure (variant, product)

/-- `apply_upstream`. -/
def SupplierListing.applyUpstream (listing : SupplierListing) (up : UpstreamItem) (keepAmount : Bool) :
    SupplierListing :=
  { listing with
    costPrice := up.costPrice
    upstreamAmount := if keepAmount then listing.upstreamAmount else up.amount
    syncError := none }

section Prices

variable (F : Floats)

/-- The price the rule of the source gives. -/
def PriceSource.rulePrice (source : PriceSource) (costPrice : ℤ) : ℤ :=
  suggestPrice F costPrice source.markupPct source.roundTo

/-! ### Importing and attaching -/

/-- The product of a package that is imported: one that is there, or a new one. -/
def importProduct (providerId sellerId newProductId : ℕ) (productId : Option ℕ) : ListingTx ℕ :=
  match productId with
  | none => do
    Tx.modify fun d => { d with products := d.products.insert newProductId ⟨sellerId, some providerId⟩ }
    pure newProductId
  | some productId => do
    let product ← Tx.read fun d => d.products.get? productId
    let product ← Tx.getOrElse product (.api 404 "PRODUCT_NOT_FOUND")
    Tx.require (product.sellerId = sellerId) (.api 404 "PRODUCT_NOT_FOUND")
    Tx.require (product.providerId = none ∨ product.providerId = some providerId) (.api 400 "INVALID_PRODUCT_CONFIG")
    flushSource productId providerId product
    pure productId

/-- `import_items`, up to the commit of the package; the sequences have given the keys. -/
def importPackage (providerId sellerId newProductId variantId : ℕ) (externalId : String) (price : Option ℤ)
    (productId : Option ℕ) : ListingTx Unit := do
  let source ← getSource providerId
  Tx.require (source.isApproved = true) (.api 400 "PROVIDER_NOT_APPROVED")
  let item ← catalogItem providerId externalId
  let productId ← importProduct providerId sellerId newProductId productId
  Tx.modify fun d =>
    { d with
      variants := d.variants.insert variantId
        { productId, price := (price.filter (· ≠ 0)).getD (source.rulePrice F item.costPrice), isActive := true } }

/-- The `INSERT` of a listing: it waits for another one of the package, and fails if there is one then. -/
def insertListing (listingId : ℕ) (listing : SupplierListing) : ListingTx Unit := do
  let other ← Tx.lock (.listingOf listing.variantId) fun d =>
    d.listings.rows.find? fun row => row.2.variantId = listing.variantId
  Tx.require (other = none) .integrity
  Tx.modify fun d => { d with listings := d.listings.insert listingId listing }

/-- `attach_listing`; `mark` is what the caller then sets `price_manual` to. -/
def attachListing (listingId providerId variantId : ℕ) (up : UpstreamItem) (mark : Option Bool) : ListingTx Unit := do
  let listing ← Tx.read fun d => d.listings.rows.find? fun row => row.2.variantId = variantId
  match listing with
  | none =>
    insertListing listingId
      (SupplierListing.applyUpstream
        { providerId, variantId, externalProductId := up.externalId, costPrice := 0, upstreamAmount := 0
          syncError := none, failStreak := 0, autoPausedAt := none, priceManual := mark.getD false } up false)
  | some (listingId, listing) =>
    flushListing listingId listing
      (SupplierListing.applyUpstream
        { listing with
          providerId
          externalProductId := up.externalId
          priceManual := mark.getD listing.priceManual } up false)

/-- `import_items`, from the commit of the package on. The item and the price were read before it. -/
def importListing (listingId providerId variantId : ℕ) (item : UpstreamItem) (price rulePrice : ℤ) : ListingTx Unit :=
  attachListing listingId providerId variantId item (some (decide (price ≠ rulePrice)))

/-- `attach_existing_variant`. -/
def attachExistingVariant (listingId providerId variantId : ℕ) (scope : Option ℕ) (externalId : String) :
    ListingTx Unit := do
  let source ← getSource providerId
  let target ← scopedVariant variantId scope
  Tx.require (∀ sellerId ∈ source.sellerId, sellerId = target.2.sellerId) (.api 400 "PROVIDER_NOT_OWNED")
  let item ← catalogItem providerId externalId
  flushSource target.1.productId providerId target.2
  attachListing listingId providerId variantId item none

/-! ### A seller's edits -/

/-- `update_variant`, of the price and the switch. -/
def updateVariant (variantId sellerId : ℕ) (price : Option ℤ) (isActive : Option Bool) : ListingTx Unit := do
  let variant ← Tx.read fun d => d.variants.get? variantId
  let variant ← Tx.getOrElse variant (.api 404 "VARIANT_NOT_FOUND")
  let product ← Tx.read fun d => d.products.get? variant.productId
  let product ← Tx.getOrElse product (.api 404 "PRODUCT_NOT_FOUND")
  Tx.require (product.sellerId = sellerId) (.api 403 "NOT_OWNER")
  flushVariant variantId variant
    { variant with price := price.getD variant.price, isActive := isActive.getD variant.isActive }
  Tx.when (price.getD variant.price ≠ variant.price) (Tx.modify (ListingDb.noteTyped variantId true))

/-- The fields of `update_listing`. -/
structure ListingUpdate where
  price : Option ℤ
  externalId : Option String
  isActive : Option Bool
  productId : Option ℕ
  priceManual : Option Bool
  stock : Option ℤ

/-- The stock, for a source whose stock is set by hand. -/
def ListingUpdate.setStock (u : ListingUpdate) (source : PriceSource) (listing : SupplierListing) :
    ListingTx SupplierListing :=
  match u.stock with
  | none => pure listing
  | some stock => do
    Tx.require (source.manualStock = true) (.api 400 "INVALID_PRODUCT_CONFIG")
    pure { listing with upstreamAmount := stock }

/-- The package moves to another product of the seller. -/
def ListingUpdate.move (u : ListingUpdate) (listing : SupplierListing) (product : PackagedProduct) (variant : Package) :
    ListingTx Package :=
  match u.productId.filter (· ≠ variant.productId) with
  | none => pure variant
  | some productId => do
    let target ← Tx.read fun d => d.products.get? productId
    let target ← Tx.getOrElse target (.api 404 "PRODUCT_NOT_FOUND")
    Tx.require (target.sellerId = product.sellerId) (.api 404 "PRODUCT_NOT_FOUND")
    Tx.require (target.providerId = none ∨ target.providerId = some listing.providerId)
      (.api 400 "INVALID_PRODUCT_CONFIG")
    flushSource productId listing.providerId target
    pure { variant with productId }

/-- A price of its own marks the listing. -/
def ListingUpdate.setPrice (u : ListingUpdate) (row : SupplierListing × Package) : SupplierListing × Package :=
  match u.price.filter (· ≠ row.2.price) with
  | none => row
  | some price => ({ row.1 with priceManual := true }, { row.2 with price })

/-- The switch; a package that is switched on gets another chance. -/
def ListingUpdate.setActive (u : ListingUpdate) (row : SupplierListing × Package) : SupplierListing × Package :=
  match u.isActive with
  | none => row
  | some true => ({ row.1 with failStreak := 0, autoPausedAt := none }, { row.2 with isActive := true })
  | some false => (row.1, { row.2 with isActive := false })

/-- Another item of the catalog. -/
def ListingUpdate.setItem (u : ListingUpdate) (source : PriceSource) (listing : SupplierListing) :
    ListingTx SupplierListing :=
  match u.externalId.filter (· ≠ listing.externalProductId) with
  | none => pure listing
  | some externalId => do
    let item ← catalogItem listing.providerId externalId
    pure (SupplierListing.applyUpstream { listing with externalProductId := item.externalId } item source.manualStock)

/-- The price is handed back to the rule, or taken from it. -/
def ListingUpdate.setManual (u : ListingUpdate) (source : PriceSource) (row : SupplierListing × Package) :
    SupplierListing × Package :=
  match u.priceManual with
  | none => row
  | some true => ({ row.1 with priceManual := true }, row.2)
  | some false =>
    ({ row.1 with priceManual := false },
      { row.2 with price := if 0 < row.1.costPrice then source.rulePrice F row.1.costPrice else row.2.price })

/-- What `update_listing` makes of the note that the price is typed. -/
def ListingUpdate.note (u : ListingUpdate) (variantId : ℕ) (loaded edited : Package) (d : ListingDb) : ListingDb :=
  if u.priceManual = some false then d.noteTyped variantId false
  else if edited.price ≠ loaded.price then d.noteTyped variantId true
  else d

/-- `update_listing`. -/
def updateListing (listingId : ℕ) (scope : Option ℕ) (u : ListingUpdate) : ListingTx Unit := do
  let listing ← Tx.read fun d => d.listings.get? listingId
  let listing ← Tx.getOrElse listing (.api 404 "VARIANT_NOT_FOUND")
  let target ← scopedVariant listing.variantId scope
  let source ← getSource listing.providerId
  let edited ← u.setStock source listing
  let moved ← u.move edited target.2 target.1
  let row := u.setActive (u.setPrice (edited, moved))
  Tx.require (∀ price ∈ u.price, 0 ≤ price) (.api 400 "INVALID_PRODUCT_CONFIG")
  let switched ← u.setItem source row.1
  let final := u.setManual F source (switched, row.2)
  flushVariant listing.variantId target.1 final.2
  flushListing listingId listing final.1
  Tx.modify (u.note listing.variantId target.1 final.2)

/-! ### The rule of the source -/

/-- A listing with its package, as `list_listings` selects them. -/
structure ListedPackage where
  listingId : ℕ
  listing : SupplierListing
  variant : Package

/-- `list_listings`. -/
def listListings (providerId : ℕ) (scope : Option ℕ) (d : ListingDb) : List ListedPackage :=
  d.listings.rows.filterMap fun row => do
    let variant ← d.variants.get? row.2.variantId
    let product ← d.products.get? variant.productId
    if row.2.providerId = providerId ∧ ∀ sellerId ∈ scope, product.sellerId = sellerId then
      some { listingId := row.1, listing := row.2, variant }
    else none

/-- The options of `reprice_listings`. -/
structure RepriceOptions where
  marginPct : Option ℚ
  roundTo : Option ℕ
  listingIds : Option (List ℕ)
  onlyBelowMin : Bool
  dryRun : Bool
  includeManual : Bool

/-- The new price of a listing, if it gets one. -/
def RepriceOptions.newPrice (o : RepriceOptions) (source : PriceSource) (row : ListedPackage) : Option ℤ :=
  let price := suggestPrice F row.listing.costPrice (o.marginPct.getD source.markupPct) (o.roundTo.getD source.roundTo)
  if (∃ ids ∈ o.listingIds, row.listingId ∉ ids) ∨
      o.onlyBelowMin = true ∧ marginOk F row.variant.price row.listing.costPrice source.minMarginPct = true ∨
      row.listing.costPrice ≤ 0 ∨ row.listing.syncError = some "delisted" ∨
      row.listing.priceManual = true ∧ o.includeManual = false ∧ o.listingIds = none ∨ price = row.variant.price then
    none
  else some price

/-- The rule may change prices that are marked. -/
def RepriceOptions.overrides (o : RepriceOptions) : Bool := o.includeManual || o.listingIds.isSome

/-- What `reprice_listings` writes for one listing. -/
def RepriceOptions.reprice (o : RepriceOptions) (row : ListedPackage) (price : ℤ) : ListingTx Unit := do
  flushVariant row.listing.variantId row.variant { row.variant with price }
  flushListing row.listingId row.listing
    { row.listing with priceManual := if o.listingIds.isSome then false else row.listing.priceManual }
  Tx.when (o.overrides = true) (Tx.modify (ListingDb.noteTyped row.listing.variantId false))

/-- `reprice_listings`. -/
def repriceListings (providerId : ℕ) (scope : Option ℕ) (o : RepriceOptions) : ListingTx Unit := do
  let source ← getSource providerId
  let rows ← Tx.read (listListings providerId scope)
  Tx.require (o.dryRun = false) .notCommitted
  Tx.forEach rows fun row => Tx.forEach (o.newPrice F source row).toList (o.reprice row)

/-- What the sync makes of a listing. -/
def syncedListing (source : PriceSource) (catalog : List UpstreamItem) (listing : SupplierListing) : SupplierListing :=
  match catalog.reverse.find? fun up => up.externalId = listing.externalProductId with
  | none => { listing with upstreamAmount := 0, syncError := some "delisted" }
  | some up => listing.applyUpstream up source.manualStock

/-- What the sync makes of the price of a package. -/
def syncedPrice (source : PriceSource) (catalog : List UpstreamItem) (listing : SupplierListing) (price : ℤ) : ℤ :=
  match catalog.reverse.find? fun up => up.externalId = listing.externalProductId with
  | none => price
  | some up =>
    if source.followCost = true ∧ listing.priceManual = false ∧ 0 < up.costPrice then source.rulePrice F up.costPrice
    else price

/-- The sync of one listing, with the packages as they were loaded. -/
def syncListing (source : PriceSource) (catalog : List UpstreamItem) (variants : ℕ → Option Package)
    (row : ℕ × SupplierListing) : ListingTx Unit := do
  Tx.forEach (variants row.2.variantId).toList fun variant =>
    flushVariant row.2.variantId variant { variant with price := syncedPrice F source catalog row.2 variant.price }
  flushListing row.1 row.2 (syncedListing source catalog row.2)

/-- `replace_catalog_snapshot`. -/
def replaceCatalogSnapshot (providerId : ℕ) (catalog : List UpstreamItem) (d : ListingDb) : ListingDb :=
  { d with
    items := (catalog.map fun up => ((providerId, up.externalId), up)).foldl (fun t r => t.put r.1 r.2)
      ⟨d.items.rows.filter fun row => row.1.1 ≠ providerId, d.items.nodup.sublist (List.filter_sublist.map _)⟩ }

/-- `sync_provider_listings`. The listings are loaded, then the supplier answers with its catalog or fails, and then the
packages are loaded. -/
def syncProviderListings (providerId : ℕ) (answer : Except String (List UpstreamItem)) : ListingTx Unit := do
  let source ← getSource providerId
  let listings ← Tx.read fun d => d.listings.rows.filter fun row => row.2.providerId = providerId
  match answer with
  | .error message =>
    Tx.forEach listings fun row => flushListing row.1 row.2 { row.2 with syncError := some message }
  | .ok catalog => do
    Tx.modify (replaceCatalogSnapshot providerId catalog)
    let variants ← Tx.read fun d => d.variants.get?
    Tx.forEach listings (syncListing F source catalog variants)

end Prices

end Marketplace
