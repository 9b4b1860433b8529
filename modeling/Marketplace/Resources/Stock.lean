import Marketplace.Resources.Service
import Marketplace.Sql.Zoom
import Marketplace.Text.Strip

/-!
# The seller's stock

`resources/service.py`, the part a seller works with: the lines of a package, uploaded, edited, put back on
sale, archived, deleted or reported.

The functions on one line read it with `db.get`, which takes no lock, check what they have read, and
write when the session is flushed: an `UPDATE` or `DELETE` by primary key that waits for the row's lock
and then does its work, whatever the row says by that time. An `UPDATE` names the columns that differ from
the line as it was loaded, and no others. `bulkResourceAction` locks its lines before it looks at them.

The content of the lines is kept beside the database, as no function on orders reads it.
-/

namespace Marketplace

open Sql

/-- The platform, with the content of the stock lines. -/
structure StockDb where
  db : Db
  /-- `data`, by line. -/
  data : ℕ → String
  /-- `data_hash`, by line. -/
  dataHash : ℕ → String

/-- The platform inside. -/
def stockBooks : Part StockDb Db where
  get := StockDb.db
  set d s := { s with db := d }
  get_set _ _ := rfl
  set_get _ := rfl
  set_set _ _ _ := rfl

/-- A function on the stock inside a session. -/
abbrev StockTx (α : Type) : Type := Sql.Tx StockDb RowKey Abort α

/-! ### Texts -/

export Text (isSpace stripChars)

/-- `data.strip()`. -/
def strip (data : String) : String := String.ofList (stripChars isSpace data.toList)

/-- One kind of line ending. -/
def normalizeNewlines : List Char → List Char
  | [] => []
  | '\r' :: '\n' :: cs => '\n' :: normalizeNewlines cs
  | '\r' :: cs => '\n' :: normalizeNewlines cs
  | c :: cs => c :: normalizeNewlines cs

/-- `normalize_resource_data`. -/
def normalizeResourceData (data : String) : String :=
  String.ofList (stripChars (fun c => c ∈ [' ', '\t', '\r', '\n']) (normalizeNewlines data.toList))

/-- `resource_data_hash`: a keyed digest, which stands here for the text it is taken of. -/
def resourceDataHash (data : String) : String := normalizeResourceData data

/-- `RESOURCE_DATA_MAX_LENGTH`. -/
def resourceDataMaxLength : ℕ := 200000

/-! ### Loading and flushing a line -/

/-- `db.get(Resource, resource_id)`. -/
def getResource (resourceId : ℕ) : StockTx Resource := do
  let resource ← Tx.read fun s => s.db.resources.get? resourceId
  Tx.getOrElse resource (.api 404 "RESOURCE_NOT_FOUND")

/-- `_verify_resource_ownership`: the line with the owner the session will write. A line that was never
sold goes to the owner of its product. -/
def verifyResourceOwnership (resource : Resource) (sellerId : ℕ) : StockTx Resource := do
  if resource.sellerId = sellerId then pure resource
  else do
    let owner ← Tx.read fun s => (s.db.variants.get? resource.variantId).bind fun variant =>
      (s.db.products.get? variant.productId).map Product.sellerId
    Tx.require (owner = some sellerId) (.api 403 "NOT_OWNER")
    pure (if resource.orderId = none then { resource with sellerId := sellerId } else resource)

/-- A column of an `UPDATE`: written if it differs from what was loaded. -/
def writeColumn {α : Type} [DecidableEq α] (loaded edited row : α) : α :=
  if edited = loaded then row else edited

/-- A column written over what was loaded holds what was edited. -/
theorem writeColumn_self {α : Type} [DecidableEq α] (loaded edited : α) :
    writeColumn loaded edited loaded = edited := by
  rw [writeColumn]
  split_ifs with h
  · exact h.symm
  · rfl

/-- The `UPDATE` of a line that was loaded and edited. -/
def Resource.write (loaded edited row : Resource) : Resource :=
  { row with
    sellerId := writeColumn loaded.sellerId edited.sellerId row.sellerId
    status := writeColumn loaded.status edited.status row.status
    orderId := writeColumn loaded.orderId edited.orderId row.orderId
    assignedAt := writeColumn loaded.assignedAt edited.assignedAt row.assignedAt
    expiresAt := writeColumn loaded.expiresAt edited.expiresAt row.expiresAt
    isArchived := writeColumn loaded.isArchived edited.isArchived row.isArchived }

namespace StockDb

/-- Write a line, and its content if there is a new one. -/
def writeResource (resourceId : ℕ) (loaded edited : Resource) (data : Option String) (s : StockDb) :
    StockDb where
  db := s.db.modifyResource resourceId (Resource.write loaded edited)
  data := match data with
    | some text => Function.update s.data resourceId text
    | none => s.data
  dataHash := match data with
    | some text => Function.update s.dataHash resourceId (resourceDataHash text)
    | none => s.dataHash

/-- Delete a line. -/
def eraseResource (resourceId : ℕ) (s : StockDb) : StockDb :=
  { s with db := { s.db with resources := s.db.resources.erase resourceId } }

/-- The shop holds a line with this digest, other than the one at hand. -/
def Holds (s : StockDb) (sellerId : ℕ) (hash : String) (exceptId : Option ℕ) : Prop :=
  ∃ r ∈ s.db.resources.rows, r.2.sellerId = sellerId ∧ s.dataHash r.1 = hash ∧ some r.1 ≠ exceptId

instance (s : StockDb) (sellerId : ℕ) (hash : String) (exceptId : Option ℕ) :
    Decidable (s.Holds sellerId hash exceptId) := by
  unfold Holds
  infer_instance

/-- A case refers to the line. -/
def Referenced (s : StockDb) (resourceId : ℕ) : Prop :=
  (∃ c ∈ s.db.claimResources, c.resourceId = resourceId) ∨ ∃ a ∈ s.db.resourceActions,
    a.originalResourceId = resourceId ∨ a.replacementResourceId = some resourceId

instance (s : StockDb) (resourceId : ℕ) : Decidable (s.Referenced resourceId) := by
  unfold Referenced
  infer_instance

end StockDb

/-- The flush of a line that was loaded and edited, under the unique index on the content. A row that is
gone by now fails it. -/
def flushResource (resourceId : ℕ) (loaded edited : Resource) (data : Option String) :
    StockTx Unit := do
  if edited = loaded ∧ data = none then pure ()
  else do
    let row ← Tx.lock (.resource resourceId) fun s => (s.db.resources.get? resourceId,
      decide (∃ text ∈ data, s.Holds edited.sellerId (resourceDataHash text) (some resourceId)))
    Tx.require (row.1 ≠ none ∧ row.2 = false) .integrity
    Tx.modify (StockDb.writeResource resourceId loaded edited data)

/-- The flush of a deletion, under the foreign keys of the cases. -/
def removeResource (resourceId : ℕ) : StockTx Unit := do
  let referenced ← Tx.lock (.resource resourceId) fun s => decide (s.Referenced resourceId)
  Tx.require (referenced = false) .integrity
  Tx.modify (StockDb.eraseResource resourceId)

/-! ### One line -/

/-- The checks of a new content. -/
def checkResourceData (data : String) : StockTx Unit := do
  Tx.require (strip data ≠ "") (.api 400 "RESOURCE_EMPTY")
  Tx.require ((strip data).length ≤ resourceDataMaxLength) (.api 422 "RESOURCE_TOO_LONG")

/-- `_assert_not_in_shop`. -/
def assertNotInShop (data : String) (sellerId exceptId : ℕ) : StockTx Unit := do
  let clash ← Tx.read fun s => decide (s.Holds sellerId (resourceDataHash data) (some exceptId))
  Tx.require (clash = false) (.api 409 "RESOURCE_DUPLICATE")

/-- `update_resource_data`. Commits. -/
def updateResourceData (resourceId sellerId : ℕ) (data : String) : StockTx Unit := do
  let loaded ← getResource resourceId
  let resource ← verifyResourceOwnership loaded sellerId
  Tx.require (resource.orderId = none ∧ (resource.status = .available ∨ resource.status = .error))
    (.api 400 "RESOURCE_NOT_EDITABLE")
  checkResourceData data
  -- The query of `_assert_not_in_shop` flushes a new owner first.
  flushResource resourceId loaded resource none
  assertNotInShop data resource.sellerId resourceId
  flushResource resourceId resource resource (some (strip data))

/-- `restock_resource`. Commits. -/
def restockResource (resourceId sellerId : ℕ) (data : String) : StockTx Unit := do
  let loaded ← getResource resourceId
  let resource ← verifyResourceOwnership loaded sellerId
  Tx.require (resource.status = .error ∧ resource.orderId = none) (.api 400 "RESOURCE_NOT_EDITABLE")
  checkResourceData data
  flushResource resourceId loaded resource none
  assertNotInShop data resource.sellerId resourceId
  flushResource resourceId resource
    { resource with
      status := .available
      orderId := none
      assignedAt := none
      expiresAt := none
      isArchived := false } (some (strip data))

/-- `archive_resource`. Commits. -/
def archiveResource (resourceId sellerId : ℕ) : StockTx Unit := do
  let loaded ← getResource resourceId
  let resource ← verifyResourceOwnership loaded sellerId
  Tx.require (resource.status ≠ .assigned) (.api 400 "RESOURCE_NOT_DELETABLE")
  flushResource resourceId loaded { resource with isArchived := true } none

/-- `restore_resource`. Commits. -/
def restoreResource (resourceId sellerId : ℕ) : StockTx Unit := do
  let loaded ← getResource resourceId
  let resource ← verifyResourceOwnership loaded sellerId
  flushResource resourceId loaded { resource with isArchived := false } none

/-- `delete_resource`. Commits. -/
def deleteResource (resourceId sellerId : ℕ) : StockTx Unit := do
  let loaded ← getResource resourceId
  let resource ← verifyResourceOwnership loaded sellerId
  Tx.require (resource.status = .available ∨ resource.status = .error)
    (.api 400 "RESOURCE_NOT_DELETABLE")
  if resource.orderId ≠ none ∨ resource.status = .error then
    flushResource resourceId loaded { resource with isArchived := true } none
  else removeResource resourceId

/-- `mark_resource_error`. Commits. -/
def markResourceError (resourceId sellerId : ℕ) : StockTx Unit := do
  let resource ← getResource resourceId
  Tx.require (resource.sellerId = sellerId) (.api 403 "NOT_OWNER")
  flushResource resourceId resource { resource with status := .error } none

/-! ### Many lines -/

/-- The actions of `bulk_resource_action`. -/
inductive BulkAction
  | archive | restore | delete
  deriving DecidableEq, Repr

/-- The lines a bulk action is about. -/
inductive BulkSelection
  /-- The lines named. -/
  | ids (resourceIds : List ℕ)
  /-- The lines that match the caller's filter. -/
  | matching (clauses : StockDb → ℕ → Resource → Bool)

/-- `BULK_ALL_MATCHING_LIMIT`. -/
def bulkAllMatchingLimit : ℕ := 50000

/-- The rows `bulk_resource_action` locks. -/
def StockDb.bulkRows (s : StockDb) (variantId : ℕ) : BulkSelection → List (ℕ × Resource)
  | .ids resourceIds => s.db.resources.rows.filter fun r =>
      r.1 ∈ resourceIds ∧ r.2.variantId = variantId
  | .matching clauses => ((s.db.resources.rows.filter fun r =>
      r.2.variantId = variantId ∧ clauses s r.1 r.2 = true).mergeSort fun a b =>
        decide (a.1 ≤ b.1)).take bulkAllMatchingLimit

/-- The lines of a selection the action goes on with; a selection by filter skips what was sold. -/
def bulkTargets (action : BulkAction) (rows : List (ℕ × Resource)) :
    BulkSelection → StockTx (List (ℕ × Resource))
  | .ids resourceIds => do
    Tx.require (resourceIds.Nodup ∧ rows.length = resourceIds.length) (.api 400 "RESOURCE_NOT_EDITABLE")
    pure rows
  | .matching _ => pure (if action = .restore then rows else rows.filter fun r => r.2.status ≠ .assigned)

/-- A line that is deleted and not archived. -/
def Resource.Deletable (r : Resource) : Prop := r.orderId = none ∧ r.status = .available

instance (r : Resource) : Decidable r.Deletable := by
  unfold Resource.Deletable
  infer_instance

/-- What a bulk action does to one line. -/
def bulkOne (action : BulkAction) (r : ℕ × Resource) : StockTx Unit := do
  if action = .delete ∧ r.2.Deletable then removeResource r.1
  else
    Tx.modify fun s =>
      { s with db := s.db.modifyResource r.1 fun v => { v with isArchived := decide (action ≠ .restore) } }

/-- `bulk_resource_action`. Commits. -/
def bulkResourceAction (variantId sellerId : ℕ) (action : BulkAction) (selection : BulkSelection) :
    StockTx Unit := do
  let variant ← Tx.read fun s => s.db.variants.get? variantId
  let variant ← Tx.getOrElse variant (.api 404 "VARIANT_NOT_FOUND")
  let product ← Tx.read fun s => s.db.products.get? variant.productId
  Tx.require (product.map Product.sellerId = some sellerId) (.api 403 "NOT_OWNER")
  let rows ← Sql.Tx.stmt (fun s => (s.bulkRows variantId selection).map fun r => RowKey.resource r.1)
    fun s => .pure (s.bulkRows variantId selection)
  let targets ← bulkTargets action rows selection
  Tx.require (action = .restore ∨ ∀ r ∈ targets, r.2.status ≠ .assigned)
    (.api 400 "RESOURCE_NOT_DELETABLE")
  Tx.forEach targets (bulkOne action)

/-- The new lines of an upload: the first of each digest, and none the shop holds. -/
def StockDb.newItems (s : StockDb) (sellerId : ℕ) (items : List String) : List String :=
  (items.reverse.pwFilter fun a b => resourceDataHash a ≠ resourceDataHash b).reverse.filter fun item =>
    ¬s.Holds sellerId (resourceDataHash item) none

/-- Add one line. -/
def StockDb.addResource (resourceId : ℕ) (v : Resource) (data : String) (s : StockDb) : StockDb where
  db := s.db.insertResource resourceId v
  data := Function.update s.data resourceId data
  dataHash := Function.update s.dataHash resourceId (resourceDataHash data)

/-- `db.add(Resource(…))` and the flush. -/
def addResource (cfg : Settings) (variantId sellerId resourceId : ℕ) (item : String) :
    StockTx Unit := do
  let taken ← Tx.lock (.resource resourceId) fun s =>
    decide (s.db.resources.get? resourceId ≠ none ∨ s.Holds sellerId (resourceDataHash item) none)
  Tx.require (taken = false) .integrity
  Tx.modify (StockDb.addResource resourceId
    { variantId := variantId, sellerId := sellerId, status := .available, orderId := none
      assignedAt := none, expiresAt := none, refundAmountCap := none, isArchived := false
      createdAt := cfg.startedAt } item)

/-- `bulk_add_resources`, for lines without a batch; `numbers` are the numbers of the new lines.
Commits. -/
def bulkAddResources (cfg : Settings) (variantId sellerId : ℕ) (items : List String)
    (numbers : List ℕ) : StockTx Unit := do
  let variant ← Tx.lock (.variant variantId) fun s => s.db.variants.get? variantId
  let variant ← Tx.getOrElse variant (.api 404 "VARIANT_NOT_FOUND")
  let product ← Tx.read fun s => s.db.products.get? variant.productId
  Tx.require (product.map Product.sellerId = some sellerId) (.api 403 "NOT_OWNER")
  Tx.require (variant.deliveryMode = .instant) (.api 400 "INVENTORY_NOT_INSTANT")
  let cleaned := (items.map strip).filter fun item => item ≠ ""
  Tx.require (∀ item ∈ cleaned, item.length ≤ resourceDataMaxLength) (.api 422 "RESOURCE_TOO_LONG")
  let items ← Tx.read fun s => s.newItems sellerId cleaned
  Tx.forEach (numbers.zip items) fun r => addResource cfg variantId sellerId r.1 r.2

end Marketplace
