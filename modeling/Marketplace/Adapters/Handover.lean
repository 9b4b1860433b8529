import Marketplace.Arith.Rounding
import Marketplace.Python.Json
import Marketplace.Resources.Stock
import Marketplace.Sql.Indexed

/-!
# Handing over what a catalogue supplier delivered

`adapters/supplier.py`, `_settle_purchase` with `_deliver_partial`, `_failure` and `_create_resources`, and
the successful answer of `IgbmAdapter.purchase`. The money is spent when this runs, so nothing of it may
raise. Each delivered item becomes a stock line of the order with its part of what is not paid back. The
lines of a shop have a unique index on a digest of their text; a line whose digest the shop already has is
given a salted one.

Whether the shop has a digest is asked once, before the first line is made, so that two items of the same
delivery with one digest, equal up to line endings and surrounding space, are not noticed, and the second
violates the index. `handed_over_iff` says when a purchase is handed over: the digests chosen for its lines
differ from each other and from those the shop has.

`keyed_digest` is a parameter, any function of the text. Orders are of at most 5000 units, so that the query for
the digests fits one statement. Search keys and previews of a line, alerts and logs are not modelled, nor how
an answer that says something else than success is classified.
-/

namespace Marketplace

namespace Catalog

open Sql Python

/-! ### What is delivered -/

/-- A text of Python, as it is encoded; `none` is a text that is not, as it holds half of a surrogate pair. -/
abbrev Item := Option String

/-- The kinds of failure. -/
inductive ErrorKind
  | outOfCredit | outOfStock | auth | invalidSku | invalid | unknown
  deriving DecidableEq, Repr

/-- `PURCHASE_*` -/
def ErrorKind.name : ErrorKind → String
  | outOfCredit => "out_of_credit"
  | outOfStock => "out_of_stock"
  | auth => "auth"
  | invalidSku => "invalid_sku"
  | invalid => "invalid"
  | unknown => "unknown"

/-- `PurchaseOutcome` -/
structure PurchaseOutcome where
  ok : Bool
  items : List Item
  transId : Option String
  errorKind : Option ErrorKind
  rawMessage : Option String

/-! ### What is stored -/

/-- `SupplierListing`, as far as it is used here. -/
structure SupplierListing where
  id : ℕ
  variantId : ℕ
  externalProductId : String
  costPrice : ℤ
  upstreamAmount : ℤ
  syncError : Option String
  deriving DecidableEq

/-- A row of `resources`. -/
structure StockLine where
  id : ℕ
  variantId : ℕ
  sellerId : ℕ
  status : ResourceStatus
  data : String
  dataHash : String
  orderId : Option ℕ
  providerId : Option ℕ
  refundAmountCap : Option ℤ
  deriving DecidableEq

/-- `uq_resources_seller_data_hash` -/
def StockLine.key (r : StockLine) : ℕ × String := (r.sellerId, r.dataHash)

/-- The stock lines, under their unique index. -/
structure Shelf where
  lines : Indexed StockLine.key
  nextId : ℕ

/-- The exceptions. -/
inductive Exn
  /-- A text cannot be encoded. -/
  | unicodeEncodeError
  | zeroDivisionError
  | integrityError
  deriving DecidableEq, Repr

/-- The adapter of the supplier. -/
structure Adapter where
  providerId : ℕ
  acceptsPartialDelivery : Bool
  zeroStockOnShortage : Bool
  deriving DecidableEq, Repr

/-- The order that is provisioned: its id, its shop and what was paid. -/
structure Sale where
  orderId : ℕ
  sellerId : ℕ
  totalAmount : ℤ
  deriving DecidableEq, Repr

/-- `ProvisionResult`, its metadata included. -/
structure ProvisionResult where
  success : Bool
  resourceId : Option String
  costTotal : ℤ
  resourceIds : List ℕ
  deliveredQuantity : Option ℕ
  requestedQuantity : Option ℕ
  refundAmount : ℤ
  error : Option String
  buyerMessage : Option String
  operationalError : Option String
  operationalSeverity : String
  providerOutOfCredit : Bool
  deriving DecidableEq, Repr

/-- A result without goods. -/
def failed (error buyerMessage : String) : ProvisionResult where
  success := false
  resourceId := none
  costTotal := 0
  resourceIds := []
  deliveredQuantity := none
  requestedQuantity := none
  refundAmount := 0
  error := some error
  buyerMessage := some buyerMessage
  operationalError := none
  operationalSeverity := "critical"
  providerOutOfCredit := false

/-- A result with goods. -/
def succeeded (transId : Option String) (costTotal : ℤ) (rows : List StockLine) : ProvisionResult where
  success := true
  resourceId := transId
  costTotal := costTotal
  resourceIds := rows.map StockLine.id
  deliveredQuantity := none
  requestedQuantity := none
  refundAmount := 0
  error := none
  buyerMessage := none
  operationalError := none
  operationalSeverity := "critical"
  providerOutOfCredit := false

/-- `BUYER_MSG_OUT_OF_STOCK` -/
def buyerMsgOutOfStock : String :=
  "Gói này vừa hết hàng, đơn đã được hoàn tiền. Vui lòng thử lại sau."

/-- `BUYER_MSG_GENERIC` -/
def buyerMsgGeneric : String := "Không giao được hàng lúc này, đơn đã được hoàn tiền."

/-- An optional text in an f-string. -/
def shown (text : Option String) : String := text.getD "None"

/-! ### The lines -/

section Settle

variable (digest : String → String)

/-- `resource_data_hash` -/
def resourceHash (line : String) : String := digest (normalizeResourceData line)

/-- `salted_resource_hash(line, f"order:{order_id}:{index}")` -/
def saltedResourceHash (line : String) (orderId index : ℕ) : String :=
  digest ("order:" ++ toString orderId ++ ":" ++ toString index ++ "\n" ++ normalizeResourceData line)

/-- The digests the shop has. -/
def Shelf.hashes (shelf : Shelf) (sellerId : ℕ) : List String :=
  (shelf.lines.rows.filter fun r => r.sellerId = sellerId).map StockLine.dataHash

/-- The digest of a line: salted where the shop has the plain one. -/
def lineHash (shelf : Shelf) (sale : Sale) (index : ℕ) (line : String) : String :=
  if resourceHash digest line ∈ shelf.hashes sale.sellerId then saltedResourceHash digest line sale.orderId index
  else resourceHash digest line

/-- The row of a line, with its cap. -/
def lineOf (adapter : Adapter) (sale : Sale) (listing : SupplierListing) (shelf : Shelf)
    (line : (String × ℕ) × ℤ) : StockLine where
  id := shelf.nextId + line.1.2
  variantId := listing.variantId
  sellerId := sale.sellerId
  status := .assigned
  data := line.1.1
  dataHash := lineHash digest shelf sale line.1.2 line.1.1
  orderId := some sale.orderId
  providerId := some adapter.providerId
  refundAmountCap := some line.2

/-- `_create_resources`; `total` is what the caps of the lines come to. -/
def createResources (adapter : Adapter) (sale : Sale) (listing : SupplierListing) (items : List Item)
    (total : ℤ) (shelf : Shelf) : Except Exn (List StockLine × Shelf) :=
  if items = [] then .error .zeroDivisionError
  else if none ∈ items then .error .unicodeEncodeError
  else
    let texts := items.filterMap id
    let rows := (texts.zipIdx.zip (lineCaps total texts.length)).map
      (lineOf digest adapter sale listing shelf)
    match shelf.lines.insertAll rows with
    | none => .error .integrityError
    | some lines => .ok (rows, ⟨lines, shelf.nextId + texts.length⟩)

/-! ### The result -/

/-- `_failure` -/
def failureOf (adapter : Adapter) (outcome : PurchaseOutcome) (listing : SupplierListing)
    (quantity : ℕ) : ProvisionResult × SupplierListing :=
  let raw := outcome.rawMessage.getD ""
  match outcome.errorKind.getD .unknown with
  | .outOfCredit =>
    ({ failed ("Nhà cung cấp báo hết tiền: " ++ raw) buyerMsgGeneric with providerOutOfCredit := true },
      listing)
  | .outOfStock =>
    (failed ("SKU " ++ listing.externalProductId ++ " hết hàng: " ++ raw) buyerMsgOutOfStock,
      if adapter.zeroStockOnShortage then { listing with upstreamAmount := 0 } else listing)
  | .auth =>
    ({ failed ("Nhà cung cấp từ chối API key: " ++ raw) buyerMsgGeneric with
        operationalError := some ("Provider #" ++ toString adapter.providerId ++ ": API key bị từ chối (" ++ raw ++
          "). Mọi đơn tiếp theo sẽ fail.") },
      listing)
  | .invalidSku =>
    ({ failed ("SKU " ++ listing.externalProductId ++ " không tồn tại phía nhà cung cấp: " ++ raw)
          buyerMsgOutOfStock with
        operationalError := some ("Gói #" ++ toString listing.variantId ++ " trỏ SKU " ++
          listing.externalProductId ++ " không còn tồn tại phía nhà cung cấp — cần gắn lại hoặc tắt gói.")
        operationalSeverity := "warning" },
      { listing with syncError := some "delisted", upstreamAmount := 0 })
  | .invalid =>
    ({ failed ("Mua thất bại (" ++ ErrorKind.invalid.name ++ "): " ++ raw) buyerMsgGeneric with
        operationalError := some ("Provider #" ++ toString adapter.providerId ++
          " từ chối tham số mua (qty=" ++ toString quantity ++ "): " ++ raw)
        operationalSeverity := "warning" },
      listing)
  | .unknown =>
    (failed ("Mua thất bại (" ++ ErrorKind.unknown.name ++ "): " ++ raw) buyerMsgGeneric, listing)

/-- The result where less came than was paid for, and that is not accepted. -/
def shortResult (sale : Sale) (quantity : ℕ) (outcome : PurchaseOutcome) : ProvisionResult :=
  let counts := toString outcome.items.length ++ "/" ++ toString quantity
  { failed ("Nhà cung cấp giao " ++ counts ++ " unit (trans " ++ shown outcome.transId ++ ").")
      buyerMsgGeneric with
    operationalError := some ("Đơn #" ++ toString sale.orderId ++ ": nhà cung cấp giao thiếu " ++ counts ++
      " unit (trans_id=" ++ shown outcome.transId ++ "), buyer đã được hoàn tiền — đối soát tay.") }

/-- `_deliver_partial` -/
def deliverPartial (adapter : Adapter) (sale : Sale) (listing : SupplierListing) (quantity : ℕ)
    (outcome : PurchaseOutcome) (shelf : Shelf) :
    Except Exn (ProvisionResult × SupplierListing × Shelf) := do
  let delivered := outcome.items.length
  let kept := sale.totalAmount * delivered / quantity
  let (rows, shelf) ← createResources digest adapter sale listing outcome.items kept shelf
  pure
    ({ succeeded outcome.transId (listing.costPrice * delivered) rows with
        refundAmount := sale.totalAmount - kept
        deliveredQuantity := some delivered
        requestedQuantity := some quantity },
      { listing with
        upstreamAmount :=
          if adapter.zeroStockOnShortage then 0 else max (listing.upstreamAmount - delivered) 0 },
      shelf)

/-- `_settle_purchase` -/
def settlePurchase (adapter : Adapter) (sale : Sale) (listing : SupplierListing) (quantity : ℕ)
    (outcome : PurchaseOutcome) (shelf : Shelf) :
    Except Exn (ProvisionResult × SupplierListing × Shelf) :=
  if outcome.ok = false then
    let (result, listing) := failureOf adapter outcome listing quantity
    .ok (result, listing, shelf)
  else if outcome.items ≠ [] ∧ outcome.items.length < quantity ∧ adapter.acceptsPartialDelivery then
    deliverPartial digest adapter sale listing quantity outcome shelf
  else if outcome.items.length < quantity then
    .ok (shortResult sale quantity outcome, listing, shelf)
  else do
    let (rows, shelf) ←
      createResources digest adapter sale listing (outcome.items.take quantity) sale.totalAmount shelf
    pure
      (succeeded outcome.transId (listing.costPrice * quantity) rows,
        { listing with upstreamAmount := max (listing.upstreamAmount - quantity) 0 }, shelf)

/-! ### What it takes -/

/-- The items that are handed over. -/
def handed (adapter : Adapter) (quantity : ℕ) (items : List Item) : List Item :=
  if quantity ≤ items.length then items.take quantity
  else if adapter.acceptsPartialDelivery then items else []

/-- The digests chosen for the lines. -/
def lineHashes (shelf : Shelf) (sale : Sale) (texts : List String) : List String :=
  texts.zipIdx.map fun line => lineHash digest shelf sale line.2 line.1

/-- The items can be stored: they can be encoded, and the digests chosen for them differ from each other and
from those the shop has. -/
structure Storable (shelf : Shelf) (sale : Sale) (items : List Item) : Prop where
  encoded : none ∉ items
  distinct : (lineHashes digest shelf sale (items.filterMap id)).Nodup
  unused : ∀ hash ∈ lineHashes digest shelf sale (items.filterMap id), hash ∉ shelf.hashes sale.sellerId

/-- The caps of the lines. -/
def capsOf (rows : List StockLine) : List ℤ := rows.map fun r => r.refundAmountCap.getD 0

/-- The items are lines of the order, in the supplier's order, each with its part of what is kept of the
price, and the rest of the price is paid back. -/
structure Stocked (sale : Sale) (quantity : ℕ) (items : List Item) (shelf shelf' : Shelf)
    (refundAmount : ℤ) (rows : List StockLine) : Prop where
  stored : shelf'.lines.rows = shelf.lines.rows ++ rows
  supplied : rows.map (fun r => some r.data) = items
  assigned : ∀ r ∈ rows, r.status = .assigned ∧ r.orderId = some sale.orderId ∧
    r.sellerId = sale.sellerId
  money : refundAmount + (capsOf rows).sum = sale.totalAmount
  even : ∀ c ∈ capsOf rows, ∀ c' ∈ capsOf rows, c ≤ c' + 1
  kept : (sale.totalAmount * rows.length / quantity : ℚ) - 1 < (capsOf rows).sum ∧
    ((capsOf rows).sum : ℚ) ≤ sale.totalAmount * rows.length / quantity

/-- The purchase is handed over: nothing is raised, and where there is something to hand over, all of it
is. -/
def HandedOver (adapter : Adapter) (sale : Sale) (quantity : ℕ) (outcome : PurchaseOutcome)
    (shelf : Shelf) : Except Exn (ProvisionResult × SupplierListing × Shelf) → Prop
  | .error _ => False
  | .ok (result, _, shelf') =>
    if handed adapter quantity outcome.items = [] then
      result.success = false ∧ shelf'.lines.rows = shelf.lines.rows
    else
      result.success = true ∧ ∃ rows,
        rows.length = min quantity outcome.items.length ∧
          Stocked sale quantity (handed adapter quantity outcome.items) shelf shelf' result.refundAmount rows

theorem lineCaps_even (total : ℤ) (quantity : ℕ) :
    ∀ c ∈ lineCaps total quantity, ∀ c' ∈ lineCaps total quantity, c ≤ c' + 1 := by
  intro c hc c' hc'
  obtain ⟨i, -, rfl⟩ := List.mem_map.mp hc
  obtain ⟨j, -, rfl⟩ := List.mem_map.mp hc'
  split_ifs <;> omega

theorem map_some_filterMap_id {items : List Item} (h : none ∉ items) :
    (items.filterMap id).map some = items := by
  induction items with
  | nil => rfl
  | cons item rest ih =>
    cases item with
    | none => exact absurd List.mem_cons_self h
    | some text => simpa using ih fun hmem => h (List.mem_cons_of_mem _ hmem)

/-- What can be read off the rows of some lines: their texts, their digests and their caps. -/
theorem rows_of_texts (adapter : Adapter) (sale : Sale) (listing : SupplierListing) (shelf : Shelf)
    (total : ℤ) {texts : List String} (hne : texts ≠ []) :
    let rows := (texts.zipIdx.zip (lineCaps total texts.length)).map
      (lineOf digest adapter sale listing shelf)
    rows.map StockLine.data = texts ∧
      rows.map StockLine.key =
        (lineHashes digest shelf sale texts).map (fun hash => (sale.sellerId, hash)) ∧
      capsOf rows = lineCaps total texts.length := by
  have hlen : (lineCaps total texts.length).length = texts.zipIdx.length := by
    rw [length_lineCaps, List.length_zipIdx]
    exact max_eq_left (List.length_pos_iff.mpr hne)
  refine ⟨?_, ?_, ?_⟩
  · calc _ = ((texts.zipIdx.zip (lineCaps total texts.length)).map Prod.fst).map Prod.fst := by
          simp only [List.map_map]
          rfl
      _ = texts := by rw [List.map_fst_zip hlen.ge, List.zipIdx_map_fst]
  · calc _ = ((texts.zipIdx.zip (lineCaps total texts.length)).map Prod.fst).map
            (fun line => (sale.sellerId, lineHash digest shelf sale line.2 line.1)) := by
          simp only [List.map_map]
          rfl
      _ = _ := by
          rw [List.map_fst_zip hlen.ge, lineHashes, List.map_map]
          rfl
  · calc _ = (texts.zipIdx.zip (lineCaps total texts.length)).map Prod.snd := by
          simp only [capsOf, List.map_map]
          rfl
      _ = _ := List.map_snd_zip hlen.le

section Rows

variable {digest} {sale : Sale} {shelf : Shelf} {texts : List String}

/-- The index takes the rows exactly where their digests are new and distinct. -/
theorem isSome_insertAll_rows_iff {rows : List StockLine}
    (hkeys : rows.map StockLine.key =
      (lineHashes digest shelf sale texts).map (fun hash => (sale.sellerId, hash))) :
    (shelf.lines.insertAll rows).isSome = true ↔
      (lineHashes digest shelf sale texts).Nodup ∧
        ∀ hash ∈ lineHashes digest shelf sale texts, hash ∉ shelf.hashes sale.sellerId := by
  have hnodup : (rows.map StockLine.key).Nodup ↔ (lineHashes digest shelf sale texts).Nodup := by
    rw [hkeys, List.nodup_map_iff (Prod.mk_right_injective _)]
  have hheld : ∀ hash, (sale.sellerId, hash) ∈ shelf.lines.rows.map StockLine.key ↔
      hash ∈ shelf.hashes sale.sellerId := by
    intro hash
    simp only [Shelf.hashes, List.mem_map, List.mem_filter, decide_eq_true_eq, StockLine.key,
      Prod.mk.injEq]
    exact ⟨fun ⟨r, hr, h1, h2⟩ => ⟨r, ⟨hr, h1⟩, h2⟩, fun ⟨r, ⟨hr, h1⟩, h2⟩ => ⟨r, hr, h1, h2⟩⟩
  have hfree : (∀ row ∈ rows, row.key ∉ shelf.lines.rows.map StockLine.key) ↔
      ∀ hash ∈ lineHashes digest shelf sale texts, hash ∉ shelf.hashes sale.sellerId := by
    have hmem : ∀ k, k ∈ rows.map StockLine.key ↔
        ∃ hash ∈ lineHashes digest shelf sale texts, (sale.sellerId, hash) = k := by
      intro k
      rw [hkeys, List.mem_map]
    constructor
    · intro h hash hhash
      obtain ⟨row, hrow, hkey⟩ := List.mem_map.mp ((hmem _).mpr ⟨hash, hhash, rfl⟩)
      rw [← hheld, ← hkey]
      exact h row hrow
    · intro h row hrow
      obtain ⟨hash, hhash, hkey⟩ := (hmem _).mp (List.mem_map_of_mem hrow)
      rw [← hkey, hheld]
      exact h hash hhash
  rw [Indexed.isSome_insertAll_iff, hnodup, hfree]

end Rows

/-- **The lines are made exactly where the items can be stored, and this is what they are.** -/
theorem createResources_cases (adapter : Adapter) (sale : Sale) (listing : SupplierListing)
    {items : List Item} (total : ℤ) (shelf : Shelf) (hne : items ≠ []) :
    (Storable digest shelf sale items ∧ ∃ rows shelf',
        createResources digest adapter sale listing items total shelf = .ok (rows, shelf') ∧
        shelf'.lines.rows = shelf.lines.rows ++ rows ∧ rows.map (fun r => some r.data) = items ∧
        capsOf rows = lineCaps total items.length ∧
        ∀ r ∈ rows, r.status = .assigned ∧ r.orderId = some sale.orderId ∧
          r.sellerId = sale.sellerId) ∨
      (¬ Storable digest shelf sale items ∧ ∃ e,
        createResources digest adapter sale listing items total shelf = .error e) := by
  rw [createResources, if_neg hne]
  by_cases hencoded : none ∈ items
  · rw [if_pos hencoded]
    exact Or.inr ⟨fun h => h.encoded hencoded, _, rfl⟩
  · rw [if_neg hencoded]
    have hitems := map_some_filterMap_id hencoded
    have hne' : items.filterMap id ≠ [] := by
      intro h
      rw [h] at hitems
      exact hne hitems.symm
    obtain ⟨hdata, hkeys, hcaps⟩ := rows_of_texts digest adapter sale listing shelf total hne'
    dsimp only
    generalize hrows : ((items.filterMap id).zipIdx.zip
      (lineCaps total (items.filterMap id).length)).map
        (lineOf digest adapter sale listing shelf) = rows at *
    have hstorable : (shelf.lines.insertAll rows).isSome = true ↔
        Storable digest shelf sale items := by
      rw [isSome_insertAll_rows_iff hkeys]
      exact ⟨fun h => ⟨hencoded, h.1, h.2⟩, fun h => ⟨h.distinct, h.unused⟩⟩
    rcases hinsert : shelf.lines.insertAll rows with _ | lines
    · refine Or.inr ⟨fun h => ?_, _, rfl⟩
      have := hstorable.mpr h
      rw [hinsert] at this
      cases this
    · refine Or.inl ⟨hstorable.mp (by rw [hinsert]; rfl), rows, _, rfl, ?_, ?_, ?_, ?_⟩
      · exact (Indexed.insertAll_eq_some_iff.mp hinsert).2.2
      · conv_rhs => rw [← hitems, ← hdata, List.map_map]
        rfl
      · conv_rhs => rw [← hitems, List.length_map]
        exact hcaps
      · intro r hr
        rw [← hrows] at hr
        obtain ⟨line, -, rfl⟩ := List.mem_map.mp hr
        exact ⟨rfl, rfl, rfl⟩

/-! ### The promise as a whole -/

/-- A quotient that is rounded down is less than one below the exact one. -/
theorem ediv_bounds (a : ℤ) {q : ℕ} (hq : 0 < q) :
    (a / q : ℚ) - 1 < (a / (q : ℤ) : ℤ) ∧ ((a / (q : ℤ) : ℤ) : ℚ) ≤ a / q := by
  have hfloor : a / (q : ℤ) = ⌊(a : ℚ) / (q : ℤ)⌋ := Arith.ediv_eq_floor a (by exact_mod_cast hq)
  rw [Int.cast_natCast] at hfloor
  rw [hfloor]
  exact ⟨Int.sub_one_lt_floor _, Int.floor_le _⟩

theorem storable_nil (shelf : Shelf) (sale : Sale) : Storable digest shelf sale [] where
  encoded := List.not_mem_nil
  distinct := List.nodup_nil
  unused := by simp [lineHashes]

section Parts

variable {adapter : Adapter} {sale : Sale} {listing : SupplierListing} {quantity : ℕ}
  {outcome : PurchaseOutcome} {shelf : Shelf}

/-- What came is all that was paid for. -/
theorem handed_over_full (hok : outcome.ok = true) (hq : 1 ≤ quantity)
    (hfull : quantity ≤ outcome.items.length) :
    HandedOver adapter sale quantity outcome shelf
        (settlePurchase digest adapter sale listing quantity outcome shelf) ↔
      Storable digest shelf sale (handed adapter quantity outcome.items) := by
  have hlen : (outcome.items.take quantity).length = quantity := by
    rw [List.length_take]
    omega
  have hne : outcome.items.take quantity ≠ [] := by
    intro h
    rw [h, List.length_nil] at hlen
    omega
  have hhanded : handed adapter quantity outcome.items = outcome.items.take quantity := if_pos hfull
  have hok' : ¬ outcome.ok = false := by simp [hok]
  have hnopart : ¬ (outcome.items ≠ [] ∧ outcome.items.length < quantity ∧
      adapter.acceptsPartialDelivery = true) := fun h => absurd h.2.1 (by omega)
  rw [settlePurchase, if_neg hok', if_neg hnopart, if_neg (by omega), hhanded]
  rcases createResources_cases digest adapter sale listing sale.totalAmount shelf hne with
    ⟨hstorable, rows, shelf', hrows, hstored, hdata, hcaps, hassigned⟩ | ⟨hstorable, e, herror⟩
  · rw [hrows]
    refine iff_of_true ?_ hstorable
    have hcount : rows.length = quantity := by
      rw [← hlen, ← hdata, List.length_map]
    have hsum : (capsOf rows).sum = sale.totalAmount := by rw [hcaps, sum_lineCaps]
    show if handed adapter quantity outcome.items = [] then _ else _
    rw [hhanded, if_neg hne]
    refine ⟨rfl, rows, by omega, hstored, hdata, hassigned, ?_, ?_, ?_⟩
    · rw [hsum]
      exact zero_add _
    · rw [hcaps]
      exact lineCaps_even _ _
    · have hq' : (quantity : ℚ) ≠ 0 := by
        have : quantity ≠ 0 := by omega
        exact_mod_cast this
      rw [hsum, hcount, mul_div_cancel_right₀ _ hq']
      constructor <;> linarith
  · rw [herror]
    exact iff_of_false (fun h => h) hstorable

/-- Less came than was paid for, and it is handed over. -/
theorem handed_over_partial (hok : outcome.ok = true) (hfull : ¬ quantity ≤ outcome.items.length)
    (hne : outcome.items ≠ []) (hpart : adapter.acceptsPartialDelivery = true) :
    HandedOver adapter sale quantity outcome shelf
        (settlePurchase digest adapter sale listing quantity outcome shelf) ↔
      Storable digest shelf sale (handed adapter quantity outcome.items) := by
  have hhanded : handed adapter quantity outcome.items = outcome.items := by
    rw [handed, if_neg hfull, if_pos hpart]
  have hok' : ¬ outcome.ok = false := by simp [hok]
  rw [settlePurchase, if_neg hok', if_pos ⟨hne, by omega, hpart⟩, deliverPartial, hhanded]
  rcases createResources_cases digest adapter sale listing
      (sale.totalAmount * outcome.items.length / quantity) shelf hne with
    ⟨hstorable, rows, shelf', hrows, hstored, hdata, hcaps, hassigned⟩ | ⟨hstorable, e, herror⟩
  · rw [hrows]
    refine iff_of_true ?_ hstorable
    have hcount : rows.length = outcome.items.length := by
      conv_rhs => rw [← hdata, List.length_map]
    have hsum : (capsOf rows).sum = sale.totalAmount * outcome.items.length / quantity := by
      rw [hcaps, sum_lineCaps]
    show if handed adapter quantity outcome.items = [] then _ else _
    rw [hhanded, if_neg hne]
    refine ⟨rfl, rows, by omega, hstored, hdata, hassigned, ?_, ?_, ?_⟩
    · rw [hsum]
      exact sub_add_cancel _ _
    · rw [hcaps]
      exact lineCaps_even _ _
    · rw [hsum, hcount]
      exact_mod_cast ediv_bounds (sale.totalAmount * outcome.items.length) (by omega)
  · rw [herror]
    exact iff_of_false (fun h => h) hstorable

end Parts

end Settle

/-! ### One line twice -/

/-- An adapter of a supplier that delivers all or nothing. -/
def allOrNothing : Adapter := ⟨3, false, true⟩

/-- What is sold, and from where. -/
def twoAccounts : Sale := ⟨7, 5, 100001⟩
def accountsListing : SupplierListing := ⟨1, 9, "sku", 20000, 10, none⟩

/-- A shop without stock. -/
def bareShelf : Shelf := ⟨⟨[], List.nodup_nil⟩, 1⟩

/-- Two accounts, of which the shop has none. -/
def distinctItems : PurchaseOutcome := ⟨true, [some "u1|p1", some "u2|p2"], some "t1", none, none⟩

/-- One account twice, with another line ending. -/
def sameItems : PurchaseOutcome := ⟨true, [some "u1|p1", some "u1|p1\r\n"], some "t1", none, none⟩

end Catalog

end Marketplace
