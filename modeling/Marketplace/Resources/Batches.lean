import Marketplace.Resources.Stock

/-!
# Batches of stock lines

`resources/batches.py`: a batch carries the format of its lines and a note on how to sign in, and a buyer sees both
above the lines of it. A batch with sold lines is not edited; its unsold lines move to an edited copy.

Next to it stands what a checkout does to lines, `claim_resources`. The other columns of a line play no part
here, and the caller's money is elsewhere.
-/

namespace Marketplace

open Sql

/-! ### The rows -/

/-- A stock line. -/
structure BatchLine where
  variantId : ℕ
  sellerId : ℕ
  status : ResourceStatus
  orderId : Option ℕ
  isArchived : Bool
  fieldCount : Option ℕ
  batchId : Option ℕ
  createdAt : ℕ
  deriving DecidableEq

/-- A row of `stock_batches`. -/
structure StockBatch where
  variantId : ℕ
  sellerId : ℕ
  format : String
  fieldCount : ℕ
  loginNote : Option String
  source : String
  deriving DecidableEq

/-- The tables. -/
structure BatchDb where
  resources : Table ℕ BatchLine
  batches : Table ℕ StockBatch
  /-- The product of a package. -/
  variants : Table ℕ ℕ
  /-- The seller of a product. -/
  products : Table ℕ ℕ

/-- The rows that are locked. -/
inductive BatchKey
  | resource (resourceId : ℕ)
  | batch (batchId : ℕ)
  deriving DecidableEq

/-- A function on these tables inside a session. -/
abbrev BatchTx (α : Type) : Type := Sql.Tx BatchDb BatchKey Abort α

/-! ### Texts -/

/-- `STOCK_FORMAT_MAX_LENGTH`. -/
def stockFormatMaxLength : ℕ := 500

/-- `STOCK_NOTE_MAX_LENGTH`. -/
def stockNoteMaxLength : ℕ := 500

/-- `clean_format`: the line and its number of fields. -/
def StockBatch.cleanFormat (value : String) : Option (String × ℕ) :=
  let text := stripChars isSpace value.toList
  if text = [] ∨ '\n' ∈ text ∨ '\r' ∈ text ∨ stockFormatMaxLength < text.length then none
  else some (String.ofList text, text.count '|' + 1)

/-- `clean_note`: on one line, without the `#` in front. -/
def StockBatch.cleanNote (value : String) : Option String :=
  let words := (((stripChars isSpace value.toList).dropWhile (· = '#')).splitOnP isSpace).filter (· ≠ [])
  let text := ([' '].intercalate words).take stockNoteMaxLength
  if text = [] then none else some (String.ofList text)

/-! ### Reading and writing rows -/

/-- Unsold and listed, `_in_stock`. -/
def BatchLine.inStock (line : BatchLine) : Prop := line.orderId = none ∧ line.isArchived = false

instance decidableInStock (line : BatchLine) : Decidable line.inStock := by
  unfold BatchLine.inStock
  infer_instance

namespace BatchDb

/-- The lines that meet a condition. -/
def linesWhere (p : ℕ → BatchLine → Bool) (d : BatchDb) : List ℕ :=
  (d.resources.rows.filter fun row => p row.1 row.2).map Prod.fst

/-- Rewrite lines. -/
def modifyLines (resourceIds : List ℕ) (f : BatchLine → BatchLine) (d : BatchDb) : BatchDb :=
  { d with resources := d.resources.modifyAll resourceIds f }

/-- Rewrite a batch. -/
def modifyBatch (batchId : ℕ) (f : StockBatch → StockBatch) (d : BatchDb) : BatchDb :=
  { d with batches := d.batches.modify batchId f }

/-- Add a batch. -/
def insertBatch (batchId : ℕ) (batch : StockBatch) (d : BatchDb) : BatchDb :=
  { d with batches := d.batches.insert batchId batch }

end BatchDb

/-- `UPDATE resources SET batch_id = … WHERE …`: the lines that meet the condition once nobody else holds them. -/
def moveLines (p : ℕ → BatchLine → Bool) (target : ℕ) : BatchTx Unit := do
  let ids ← Tx.stmt (fun d => (d.linesWhere p).map .resource) fun d => Tx.pure (d.linesWhere p)
  Tx.modify (BatchDb.modifyLines ids fun line => { line with batchId := some target })

/-- `_owned_variant`. -/
def ownedVariant (variantId sellerId : ℕ) : BatchTx Unit := do
  let productId ← Tx.read fun d => d.variants.get? variantId
  let productId ← Tx.getOrElse productId (.api 404 "VARIANT_NOT_FOUND")
  let owner ← Tx.read fun d => d.products.get? productId
  Tx.require (owner = some sellerId) (.api 403 "NOT_OWNER")

/-- `owned_batch`. -/
def ownedBatch (batchId sellerId : ℕ) : BatchTx StockBatch := do
  let batch ← Tx.read fun d => d.batches.get? batchId
  let batch ← Tx.getOrElse batch (.api 404 "STOCK_BATCH_NOT_FOUND")
  Tx.require (batch.sellerId = sellerId) (.api 404 "STOCK_BATCH_NOT_FOUND")
  pure batch

/-- `new_batch`; the sequence has given the key. -/
def newBatch (batchId variantId sellerId : ℕ) (formatLine : String) (loginNote : Option String) (source : String) :
    BatchTx Unit := do
  let cleaned ← Tx.getOrElse (StockBatch.cleanFormat formatLine) (.api 422 "STOCK_FORMAT_INVALID")
  let taken ← Tx.lock (.batch batchId) fun d => d.batches.get? batchId
  Tx.require (taken = none) .integrity
  Tx.modify (BatchDb.insertBatch batchId
    { variantId, sellerId, format := cleaned.1, fieldCount := cleaned.2
      loginNote := loginNote.bind StockBatch.cleanNote, source })

/-! ### Edits -/

/-- What the batch becomes. -/
structure BatchEdit where
  formatLine : Option String
  loginNote : Option String
  clearNote : Bool

/-- The format and its number of fields. -/
def BatchEdit.newFormat (edit : BatchEdit) (batch : StockBatch) : Option (String × ℕ) :=
  match edit.formatLine with
  | none => some (batch.format, batch.fieldCount)
  | some formatLine => StockBatch.cleanFormat formatLine

/-- The note. -/
def BatchEdit.newNote (edit : BatchEdit) (batch : StockBatch) : Option String :=
  if edit.clearNote = true then none
  else match edit.loginNote with
    | none => batch.loginNote
    | some loginNote => StockBatch.cleanNote loginNote

/-- The `UPDATE` of a batch that was loaded and edited. -/
def StockBatch.write (loaded : StockBatch) (text : String) (fields : ℕ) (note : Option String) (row : StockBatch) :
    StockBatch :=
  { row with
    format := writeColumn loaded.format text row.format
    fieldCount := writeColumn loaded.fieldCount fields row.fieldCount
    loginNote := writeColumn loaded.loginNote note row.loginNote }

/-- The sold lines of a batch. -/
def soldOf (batchId : ℕ) (_ : ℕ) (line : BatchLine) : Bool :=
  decide (line.batchId = some batchId ∧ line.orderId ≠ none)

/-- The lines an edit of a batch moves. -/
def unsoldOf (batchId : ℕ) (_ : ℕ) (line : BatchLine) : Bool := decide (line.batchId = some batchId ∧ line.inStock)

/-- The copy with the unsold lines. -/
def splitBatch (batchId copyId sellerId : ℕ) (batch : StockBatch) (text : String) (note : Option String) :
    BatchTx Unit := do
  newBatch copyId batch.variantId sellerId text note "split"
  moveLines (unsoldOf batchId) copyId

/-- The edit in place. -/
def editBatch (batchId : ℕ) (batch : StockBatch) (text : String) (fields : ℕ) (note : Option String) :
    BatchTx Unit := do
  Tx.lock (.batch batchId) fun _ => ()
  Tx.modify (BatchDb.modifyBatch batchId (batch.write text fields note))

/-- The change of a batch, once it is known that there is one. -/
def changeBatch (batchId copyId sellerId : ℕ) (batch : StockBatch) (text : String) (fields : ℕ)
    (note : Option String) : BatchTx Unit := do
  let sold ← Tx.read fun d => (d.linesWhere (soldOf batchId)).length
  if sold ≠ 0 then splitBatch batchId copyId sellerId batch text note
  else editBatch batchId batch text fields note

/-- `update_batch`; `copyId` is the key of the copy. -/
def updateBatch (batchId copyId sellerId : ℕ) (edit : BatchEdit) : BatchTx Unit := do
  let batch ← ownedBatch batchId sellerId
  let cleaned ← Tx.getOrElse (edit.newFormat batch) (.api 422 "STOCK_FORMAT_INVALID")
  Tx.when ((cleaned.1, edit.newNote batch) ≠ (batch.format, batch.loginNote))
    (changeBatch batchId copyId sellerId batch cleaned.1 cleaned.2 (edit.newNote batch))

/-- The lines `assign_format` is for: chosen ones, or those with as many fields, or all. -/
def assignable (variantId sellerId : ℕ) (resourceIds : Option (List ℕ)) (fieldCount : Option ℕ) (resourceId : ℕ)
    (line : BatchLine) : Bool :=
  decide (line.variantId = variantId ∧ line.sellerId = sellerId ∧ line.batchId = none ∧ line.inStock) &&
    match resourceIds with
    | some ids => decide (resourceId ∈ ids)
    | none => fieldCount.all fun n => decide (line.fieldCount = some n)

/-- `assign_format`; `batchId` is the key of the new batch. -/
def assignFormat (variantId batchId sellerId : ℕ) (formatLine : String) (loginNote : Option String)
    (resourceIds : Option (List ℕ)) (fieldCount : Option ℕ) : BatchTx Unit := do
  ownedVariant variantId sellerId
  Tx.require (StockBatch.cleanFormat formatLine ≠ none) (.api 422 "STOCK_FORMAT_INVALID")
  let count ← Tx.read fun d => (d.linesWhere (assignable variantId sellerId resourceIds fieldCount)).length
  Tx.require (count ≠ 0) .notCommitted
  newBatch batchId variantId sellerId formatLine loginNote "assign"
  moveLines (assignable variantId sellerId resourceIds fieldCount) batchId

/-! ### A checkout -/

/-- The lines of a package that can be sold, oldest first; `skipped` are the ones that others hold. -/
def BatchDb.claimable (d : BatchDb) (variantId : ℕ) (skipped : List ℕ) : List ℕ :=
  ((d.resources.rows.filter fun row =>
      row.2.variantId = variantId ∧ row.2.status = .available ∧ row.2.inStock ∧ row.1 ∉ skipped).mergeSort
        fun a b => decide (a.2.createdAt < b.2.createdAt ∨ a.2.createdAt = b.2.createdAt ∧ a.1 ≤ b.1)).map Prod.fst

/-- `claim_resources`, with the commit of the checkout. -/
def checkoutLines (variantId quantity orderId : ℕ) (skipped : List ℕ) : BatchTx Unit := do
  let ids ← Tx.stmt (fun d => ((d.claimable variantId skipped).take quantity).map .resource)
    fun d => Tx.pure ((d.claimable variantId skipped).take quantity)
  Tx.require (quantity ≤ ids.length) .resourceUnavailable
  Tx.modify (BatchDb.modifyLines ids fun line => { line with status := .assigned, orderId := some orderId })

/-! ### What a buyer sees -/

/-- `order_batches`: the batches the lines of the order are of. -/
def BatchDb.orderBatches (d : BatchDb) (orderId : ℕ) : List (ℕ × StockBatch) :=
  d.batches.rows.filter fun row =>
    d.resources.rows.any fun line => decide (line.2.orderId = some orderId ∧ line.2.batchId = some row.1)

/-- The format and the note above a line of the order, if it has a batch. -/
def BatchDb.shownFormat (d : BatchDb) (orderId resourceId : ℕ) : Option (String × Option String) := do
  let line ← d.resources.get? resourceId
  let batchId ← line.batchId
  let row ← (d.orderBatches orderId).find? fun row => row.1 = batchId
  pure (row.2.format, row.2.loginNote)

end Marketplace
