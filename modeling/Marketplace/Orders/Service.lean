import Marketplace.Wallet.Service
import Marketplace.Affiliate.Service
import Marketplace.BuyerTiers.Cashback
import Marketplace.Promotions.Service
import Marketplace.Resources.Service

/-!
# Orders

`orders/service.py`: checkout (`createOrder`, `createOrderWithAdapter`), provisioning
(`applyProvisionResult`, `provisionPendingOrder`), the buyer's confirmation and the seller's manual
fulfilment.

An adapter talks to systems outside the database; `Provision` lists what its answer can be
and what it writes on the way. The seller's `acceptOrder` and `deliverOrder` read the
order without a lock: the row is locked by their `UPDATE`, after the checks.
-/

namespace Marketplace

open Sql

/-- `MAX_ORDER_QUANTITY`. -/
def maxOrderQuantity : ℕ := 5000

/-- `MANUAL_DELIVERY_MAX_LENGTH`. -/
def manualDeliveryMaxLength : ℕ := 5000000

/-- `escrow_until`. -/
def escrowUntil (cfg : Settings) : ℕ := cfg.now + cfg.escrowHours * 3600

/-- `order.status = …`, with the moment of delivery the status hook stamps. -/
def Order.setStatus (cfg : Settings) (status : OrderStatus) (o : Order) : Order :=
  { o with
    status := status
    deliveredAt :=
      if status = .delivered ∧ o.status ≠ .delivered then some cfg.now else o.deliveredAt }

/-- A new status on the order's row. -/
def setOrderStatus (cfg : Settings) (orderId : ℕ) (status : OrderStatus) : Tx Unit :=
  Tx.modify (Db.modifyOrder orderId (Order.setStatus cfg status))

/-- `_buyer_cancel_reason`. -/
def buyerCancelReason (buyerMessage : Option String) : String :=
  buyerMessage.getD "Rất tiếc, đơn không thể cấp phát tự động nên đã được huỷ." ++ " " ++
    "Toàn bộ số tiền đã được hoàn về ví của bạn."

/-- The order is closed before delivery. -/
def cancelOrder (cfg : Settings) (orderId : ℕ) (reason : String) : Tx Unit := do
  setOrderStatus cfg orderId .cancelled
  Tx.modify (Db.modifyOrder orderId fun o => { o with cancelReason := some reason })

/-- The open dispute of an order. -/
def Db.openDispute (d : Db) (orderId : ℕ) : Option (ℕ × Dispute) :=
  d.disputes.rows.find? fun r => r.2.orderId = orderId ∧ r.2.status = .open_

/-! ### Settling -/

/-- What every settlement pays: the seller and the platform. -/
def payOut (cfg : Settings) (orderId : ℕ) (order : Order) : Tx Unit := do
  let seller ← Tx.read fun d => d.accounts.get? order.sellerId
  let (remaining, platformFee) ← settlement cfg order seller
  Tx.when (remaining ≠ 0) (releaseEscrow cfg orderId order.sellerId remaining platformFee)

/-- What every settlement applies after it closed the order: `apply_affiliate_commission`, then
`apply_buyer_cashback`. -/
def applyPrograms (cfg : Settings) (orderId : ℕ) (order : Order) : Tx Unit := do
  applyAffiliateCommission cfg orderId order
  applyBuyerCashback cfg orderId { order with status := .completed }

/-- What a refund in full takes back: `clawback_commission_for_order`, then
`clawback_buyer_cashback`. -/
def clawbackPrograms (cfg : Settings) (orderId : ℕ) : Tx Unit := do
  clawbackCommissionForOrder cfg orderId
  clawbackBuyerCashback cfg orderId

/-! ### Manual stock -/

/-- `take_manual_stock`, for the package as the checkout read it. -/
def takeManualStock (variantId : ℕ) (variant : ProductVariant) (orderId quantity : ℕ) :
    Tx Unit := do
  if variant.deliveryMode ≠ .manual ∨ variant.manualStock = none then pure ()
  else do
    let row ← Tx.lock (.variant variantId) fun d => d.variants.get? variantId
    Tx.require (∃ v ∈ row, ∃ left ∈ v.manualStock, quantity ≤ left) .resourceUnavailable
    Tx.modify (Db.modifyVariant variantId fun v =>
      { v with manualStock := v.manualStock.map fun left => left - quantity })
    Tx.modify (Db.modifyOrder orderId fun o => { o with stockHeld := quantity })

/-- `release_manual_stock`. -/
def releaseManualStock (orderId : ℕ) (order : Order) : Tx Unit := do
  match order.variantId with
  | none => pure ()
  | some variantId =>
    Tx.when (0 < order.stockHeld) do
      let _ ← Tx.lock (.variant variantId) fun d => d.variants.get? variantId
      Tx.modify (Db.modifyVariant variantId fun v =>
        { v with manualStock := v.manualStock.map fun left => left + order.stockHeld })
      Tx.modify (Db.modifyOrder orderId fun o => { o with stockHeld := 0 })

/-! ### Provisioning -/

/-- `ProvisionResult`. `linesDelivered` says that the adapter delivered stock rows
(`resource_ids`). -/
structure ProvisionResult where
  success : Bool
  data : Option String
  asyncFulfillment : Bool
  linesDelivered : Bool
  refundAmount : ℤ
  buyerMessage : Option String
  deriving DecidableEq, Repr

/-- A provision that failed. -/
def ProvisionResult.failure (buyerMessage : Option String) : ProvisionResult :=
  ⟨false, none, false, false, 0, buyerMessage⟩

/-- A provision that delivered a text. -/
def ProvisionResult.text (data : Option String) : ProvisionResult :=
  ⟨true, data, false, false, 0, none⟩

/-- A provision that created stock rows. -/
def ProvisionResult.lines (refundAmount : ℤ) : ProvisionResult :=
  ⟨true, none, false, true, refundAmount, none⟩

/-- What an adapter's `provision` came to. -/
inductive Provision
  /-- It answered a failure. -/
  | failed (buyerMessage : Option String)
  /-- It delivered a text and wrote nothing. -/
  | text (data : Option String)
  /-- It queued tasks for the seller (`ManualAdapter`, `SellerTaskWebhookAdapter`); tasks whose
  submission failed are created as failed. -/
  | tasks (rows : List (ℕ × String × ServiceTaskStatus))
  /-- `SellerPoolAdapter`: the seller's stock. -/
  | sellerPool (skipped : List ℕ) (variantId quantity : ℕ) (durationDays : Option ℕ)
  /-- A catalogue supplier delivered `rows`, new stock rows, of `quantity` bought. -/
  | supplier (rows : List ℕ) (variantId quantity : ℕ) (acceptsPartial : Bool)
  /-- Proxies were bound, under the numbers given; a retry binds none where they are bound
  already. -/
  | proxies (lines : List (ℕ × ℕ × Option String)) (data : Option String)
  deriving Repr

/-- `format_task_delivery`. -/
def formatTaskDelivery (tasks : List ServiceTask) : String :=
  "\n".intercalate ((tasks.zipIdx 1).map fun r =>
    toString r.2 ++ ". " ++ r.1.targetUrl ++ " — " ++ (match r.1.status with
      | .pending => "Đang chờ xử lý"
      | .assigned => "assigned"
      | .processing => "Đang xử lý"
      | .completed => "Hoàn thành"
      | .failed => "Không thực hiện được") ++
    match nonempty r.1.resultData with
      | some result => "\n   Kết quả: " ++ result
      | none => "")

/-- One row of `_create_resources`. -/
def createResource (cfg : Settings) (orderId variantId sellerId : ℕ) (id : ℕ) (cap : ℤ) :
    Tx Unit :=
  insertRow (.resource id) (fun d => d.resources.get? id)
    (Db.insertResource id
      { variantId := variantId, sellerId := sellerId, status := .assigned, orderId := some orderId
        assignedAt := some cfg.now, expiresAt := none, refundAmountCap := some cap
        isArchived := false, createdAt := cfg.startedAt })

/-- `_settle_purchase` of a catalogue supplier that delivered `rows`. -/
def settlePurchase (cfg : Settings) (orderId sellerId : ℕ) (total : ℤ) (rows : List ℕ)
    (variantId quantity : ℕ) (acceptsPartial : Bool) : Tx ProvisionResult := do
  if rows.length < quantity then
    if rows ≠ [] ∧ acceptsPartial = true then do
      let kept := total * rows.length / quantity
      Tx.forEach (rows.zip (lineCaps kept rows.length)) fun r =>
        createResource cfg orderId variantId sellerId r.1 r.2
      pure (.lines (total - kept))
    else pure (.failure (some "Không giao được hàng lúc này, đơn đã được hoàn tiền."))
  else do
    let rows := rows.take quantity
    Tx.forEach (rows.zip (lineCaps total rows.length)) fun r =>
      createResource cfg orderId variantId sellerId r.1 r.2
    pure (.lines 0)

/-- The key `(order_id, line_no)` of proxy lines. -/
def Db.hasLine (d : Db) (orderId lineNo : ℕ) : Prop :=
  ∃ r ∈ d.allocations.rows, r.2.orderId = orderId ∧ r.2.lineNo = lineNo

instance (d : Db) (orderId lineNo : ℕ) : Decidable (d.hasLine orderId lineNo) := by
  unfold Db.hasLine
  infer_instance

/-- Bind one proxy line, under the constraints of the table. -/
def bindAllocation (orderId id lineNo : ℕ) (text : Option String) : Tx Unit := do
  let taken ← Tx.read fun d => decide (d.hasLine orderId lineNo)
  Tx.require (taken = false ∧ 0 < lineNo) .integrity
  insertRow (.allocation id) (fun d => d.allocations.get? id)
    (Db.insertAllocation id
      { orderId := orderId, lineNo := lineNo, status := .allocated, refundAmountCap := none
        deliveredText := text })

/-- Create one task. -/
def createTask (orderId id : ℕ) (targetUrl : String) (status : ServiceTaskStatus) : Tx Unit := do
  let taken ← Tx.read fun d => (d.tasks.get? id).isSome
  Tx.require (taken = false) .integrity
  Tx.modify (Db.insertTask id
    { orderId := orderId, targetUrl := targetUrl, status := status, resultData := none })

/-- `adapter.provision(order.id, …)`: the result, with the rows it writes. -/
def Provision.run (cfg : Settings) (orderId : ℕ) (order : Order) : Provision → Tx ProvisionResult
  | .failed buyerMessage => pure (.failure buyerMessage)
  | .text data => pure (.text data)
  | .tasks rows => do
    Tx.forEach rows fun r => createTask orderId r.1 r.2.1 r.2.2
    let tasks := rows.map fun r => (⟨orderId, r.2.1, r.2.2, none⟩ : ServiceTask)
    if rows.all fun r => r.2.2 = .failed then pure (.failure none)
    else pure ⟨true, some (formatTaskDelivery tasks), true, false, 0, none⟩
  | .sellerPool skipped variantId quantity durationDays => do
    let ids ← tryClaimResources cfg skipped variantId quantity orderId durationDays
    pure (if ids.isSome then .lines 0 else .failure none)
  | .supplier rows variantId quantity acceptsPartial =>
    settlePurchase cfg orderId order.sellerId order.totalAmount rows variantId quantity
      acceptsPartial
  | .proxies lines data => do
    Tx.forEach lines fun l => bindAllocation orderId l.1 l.2.1 l.2.2
    pure (.text data)

/-- `_delivered_text`. -/
def deliveredText (result : ProvisionResult) : Option String :=
  if result.linesDelivered = true then none else result.data

/-- The part of `_apply_provision_result` for a result that delivers. -/
def deliverProvision (cfg : Settings) (orderId : ℕ) (order : Order) (result : ProvisionResult) :
    Tx Unit := do
  setOrderStatus cfg orderId .delivered
  Tx.modify (Db.modifyOrder orderId fun o => { o with deliveredData := deliveredText result })
  Tx.when (0 < result.refundAmount)
    (refundEscrow cfg orderId order.buyerId result.refundAmount "-short")
  Tx.modify (Db.modifyOrder orderId fun o => { o with escrowExpiresAt := some (escrowUntil cfg) })
  let lines ← listOrderAllocations orderId
  let current ← Tx.read fun d => d.orders.get? orderId
  let short ← finalizeOrderLines orderId (current.getD order) (deliveredText result) lines
  Tx.when (0 < short) (refundEscrow cfg orderId order.buyerId short ":short-delivery")

/-- `_apply_provision_result`. -/
def applyProvisionResult (cfg : Settings) (orderId : ℕ) (order : Order) (providerId : Option ℕ)
    (result : ProvisionResult) : Tx Unit := do
  if result.success = true then do
    Tx.modify (Db.modifyOrder orderId fun o => { o with providerId := providerId })
    if result.asyncFulfillment = true then do
      setOrderStatus cfg orderId .processing
      Tx.modify (Db.modifyOrder orderId fun o => { o with deliveredData := deliveredText result })
    else deliverProvision cfg orderId order result
  else do
    refundEscrow cfg orderId order.buyerId order.totalAmount ""
    cancelOrder cfg orderId (buyerCancelReason result.buyerMessage)

/-! ### Checkout -/

/-- What `POST /orders` asks for. -/
structure Purchase where
  buyerId : ℕ
  variantId : ℕ
  quantity : ℕ
  expectedUnitPrice : Option ℤ
  /-- The normalised code, where the body has one. -/
  promoCode : Option String
  deriving DecidableEq, Repr

/-- `check_variant_quantity`. -/
def checkVariantQuantity (variant : ProductVariant) (quantity : ℕ) : Tx Unit :=
  let low := if variant.minPerOrder = 0 then 1 else variant.minPerOrder
  Tx.require (low ≤ quantity ∧ ∀ high ∈ variant.maxPerOrder, quantity ≤ high)
    (.api 400 "ORDER_QUANTITY_RANGE")

/-- `_variant_for_purchase`. -/
def variantForPurchase (p : Purchase) : Tx (ProductVariant × Product) := do
  let variant ← Tx.read fun d => d.variants.get? p.variantId
  let variant ← Tx.getOrElse variant (.api 404 "VARIANT_NOT_FOUND")
  Tx.require (variant.isActive = true) (.api 404 "VARIANT_NOT_FOUND")
  let product ← Tx.read fun d => d.products.get? variant.productId
  let product ← Tx.getOrElse product (.api 400 "PRODUCT_UNAVAILABLE")
  Tx.require (product.isActive = true) (.api 400 "PRODUCT_UNAVAILABLE")
  Tx.require (product.sellerId ≠ p.buyerId) (.api 400 "SELF_PURCHASE")
  checkVariantQuantity variant p.quantity
  Tx.require (∀ price ∈ p.expectedUnitPrice, price = variant.price) (.api 409 "ORDER_PRICE_CHANGED")
  pure (variant, product)

/-- `_apply_promo` at order creation. -/
def applyPromo (cfg : Settings) (promoCode : Option String) (buyerId : ℕ) (subtotal : ℤ) :
    Tx (Option AppliedPromo) := do
  match promoCode with
  | none => pure none
  | some code => do
    let applied ← applyCode cfg code buyerId subtotal
    pure (some applied)

/-- The discount of an order. -/
def discountOf (promo : Option AppliedPromo) : ℤ := (promo.map AppliedPromo.discount).getD 0

/-- The order a checkout creates, `_promo_fields` included. -/
def newOrder (cfg : Settings) (buyerId sellerId : ℕ) (variantId productId : Option ℕ)
    (quantity : ℕ) (subtotal : ℤ) (promo : Option AppliedPromo) (status : OrderStatus) : Order where
  buyerId := buyerId
  sellerId := sellerId
  variantId := variantId
  productId := productId
  providerId := none
  quantity := quantity
  totalAmount := subtotal - discountOf promo
  refundedAmount := 0
  stockHeld := 0
  promoCode := promo.map AppliedPromo.code
  discountAmount := discountOf promo
  status := status
  escrowExpiresAt := if status = .delivered then some (escrowUntil cfg) else none
  deliveredAt := if status = .delivered then some cfg.now else none
  deliveredData := none
  cancelReason := none
  createdAt := cfg.startedAt
  isSeeded := false

/-- What every checkout does once the order has its number: charge the buyer and count the
code. -/
def chargeOrder (cfg : Settings) (orderId buyerId : ℕ) (total : ℤ) (promo : Option AppliedPromo) :
    Tx Unit := do
  deductCredit cfg buyerId total (orderReference orderId "")
  match promo with
  | some applied => recordRedemption cfg applied orderId buyerId
  | none => pure ()

/-- `db.add(Order(…))` and the flush. -/
def addOrder (orderId : ℕ) (order : Order) : Tx Unit :=
  insertRow (.order orderId) (fun d => d.orders.get? orderId) (Db.insertOrder orderId order)

/-- `create_order` for a package delivered from stock. -/
def createInstantOrder (cfg : Settings) (skipped : List ℕ) (orderId : ℕ) (p : Purchase)
    (variant : ProductVariant) (product : Product) (promo : Option AppliedPromo) : Tx Unit := do
  let subtotal := variant.price * p.quantity
  let order := newOrder cfg p.buyerId product.sellerId (some p.variantId) (some variant.productId)
    p.quantity subtotal promo .delivered
  addOrder orderId order
  chargeOrder cfg orderId p.buyerId order.totalAmount promo
  let resources ← claimResources cfg skipped p.variantId p.quantity orderId variant.durationDays
  setCaps resources order.totalAmount

/-- `create_order` for a package made to order. -/
def createManualOrder (cfg : Settings) (orderId : ℕ) (p : Purchase) (variant : ProductVariant)
    (product : Product) (promo : Option AppliedPromo) : Tx Unit := do
  let subtotal := variant.price * p.quantity
  let order := newOrder cfg p.buyerId product.sellerId (some p.variantId) (some variant.productId)
    p.quantity subtotal promo .pending
  addOrder orderId order
  takeManualStock p.variantId variant orderId p.quantity
  chargeOrder cfg orderId p.buyerId order.totalAmount promo

/-- `create_order`, for a package no catalogue supplier delivers. Commits. -/
def createOrder (cfg : Settings) (skipped : List ℕ) (orderId : ℕ) (p : Purchase) : Tx Unit := do
  let (variant, product) ← variantForPurchase p
  let promo ← applyPromo cfg p.promoCode p.buyerId (variant.price * p.quantity)
  if variant.deliveryMode = .instant then
    createInstantOrder cfg skipped orderId p variant product promo
  else createManualOrder cfg orderId p variant product promo

/-- What `create_order_with_adapter` is asked for and finds outside the database. -/
structure AdapterPurchase where
  buyerId : ℕ
  productId : ℕ
  /-- `user_config["variant_id"]`, under the fixed strategy. -/
  variantId : Option ℕ
  promoCode : Option String
  /-- `quote_product`. -/
  quoteAmount : ℤ
  quoteQuantity : ℕ
  /-- `max_quantity_for`. -/
  adapterMax : Option ℕ
  /-- `precheck_external_purchase` and the first `get_adapter` let the order pass. -/
  available : Bool
  /-- The second `get_adapter` finds an adapter and `check_compatibility` does not block. -/
  compatible : Bool
  /-- `provisions_over_network`. -/
  overNetwork : Bool
  /-- What the inline provision comes to; `none` is an exception. -/
  provision : Option Provision
  /-- `adapter.provider_id or product.provider_id`. -/
  providerId : Option ℕ

/-- The checks of `create_order_with_adapter` before any money moves. -/
def productForPurchase (p : AdapterPurchase) : Tx Product := do
  let product ← Tx.read fun d => d.products.get? p.productId
  let product ← Tx.getOrElse product (.api 400 "PRODUCT_UNAVAILABLE")
  Tx.require (product.isActive = true) (.api 400 "PRODUCT_UNAVAILABLE")
  Tx.require (product.providerId ≠ none) (.api 400 "PROVIDER_NOT_CONFIGURED")
  Tx.require (product.sellerId ≠ p.buyerId) (.api 400 "SELF_PURCHASE")
  Tx.require (p.quoteQuantity ≤ maxOrderQuantity) (.api 400 "ORDER_QUANTITY_LIMIT")
  match p.variantId with
  | none => pure ()
  | some variantId => do
    let variant ← Tx.read fun d => d.variants.get? variantId
    match variant with
    | some variant =>
      if variant.productId = p.productId then checkVariantQuantity variant p.quoteQuantity
      else pure ()
    | none => pure ()
  Tx.require (∀ limit ∈ p.adapterMax, p.quoteQuantity ≤ limit) (.api 400 "ORDER_QUANTITY_LIMIT")
  Tx.require (p.available = true) (.api 400 "PRODUCT_UNAVAILABLE")
  pure product

/-- `create_order_with_adapter` after the order is charged. -/
def provisionNewOrder (cfg : Settings) (orderId : ℕ) (order : Order) (p : AdapterPurchase) :
    Tx Unit := do
  if p.compatible = false then do
    refundEscrow cfg orderId p.buyerId order.totalAmount ""
    cancelOrder cfg orderId (buyerCancelReason none)
  else if p.overNetwork = true then pure ()
  else
    match p.provision with
    | none => do
      refundEscrow cfg orderId p.buyerId order.totalAmount ""
      cancelOrder cfg orderId (buyerCancelReason none)
    | some provision => do
      let result ← provision.run cfg orderId order
      applyProvisionResult cfg orderId order p.providerId result

/-- `create_order_with_adapter`. Commits. -/
def createOrderWithAdapter (cfg : Settings) (orderId : ℕ) (p : AdapterPurchase) : Tx Unit := do
  let product ← productForPurchase p
  let promo ← applyPromo cfg p.promoCode p.buyerId p.quoteAmount
  let order := newOrder cfg p.buyerId product.sellerId p.variantId (some p.productId)
    p.quoteQuantity p.quoteAmount promo .pending
  addOrder orderId order
  chargeOrder cfg orderId p.buyerId order.totalAmount promo
  provisionNewOrder cfg orderId order p

/-- `provision_pending_order`; an exception in the adapter rolls back. Commits. -/
def provisionPendingOrder (cfg : Settings) (orderId : ℕ) (provision : Provision)
    (providerId : Option ℕ) : Tx Unit := do
  let order ← lockOrder orderId
  let order ← Tx.getOrElse order .notCommitted
  Tx.require (order.status = .pending) .notCommitted
  let result ← provision.run cfg orderId order
  applyProvisionResult cfg orderId order providerId result

/-! ### The buyer and the seller -/

/-- `confirm_order`. Commits. -/
def confirmOrder (cfg : Settings) (orderId buyerId : ℕ) : Tx Unit := do
  let order ← lockOrder orderId
  let order ← Tx.getOrElse order (.api 404 "ORDER_NOT_FOUND")
  Tx.require (order.buyerId = buyerId) (.api 403 "NOT_ORDER_OWNER")
  Tx.require (order.status = .delivered) (.api 400 "ORDER_NOT_DELIVERED")
  let dispute ← Tx.read fun d => d.openDispute orderId
  Tx.require (dispute = none) (.api 400 "DISPUTE_ALREADY_OPEN")
  setOrderStatus cfg orderId .completed
  payOut cfg orderId order
  applyPrograms cfg orderId order

/-- `accept_order`. Commits. -/
def acceptOrder (cfg : Settings) (orderId sellerId : ℕ) : Tx Unit := do
  let order ← Tx.read fun d => d.orders.get? orderId
  let order ← Tx.getOrElse order (.api 404 "ORDER_NOT_FOUND")
  Tx.require (order.sellerId = sellerId) (.api 403 "NOT_ORDER_OWNER")
  Tx.require (order.status = .pending) (.api 400 "ORDER_NOT_PENDING")
  -- The flush at the commit is what locks the row.
  let _ ← lockOrder orderId
  setOrderStatus cfg orderId .processing

/-- `deliver_order`. Commits. -/
def deliverOrder (cfg : Settings) (orderId sellerId : ℕ) (data : String) : Tx Unit := do
  let order ← Tx.read fun d => d.orders.get? orderId
  let order ← Tx.getOrElse order (.api 404 "ORDER_NOT_FOUND")
  Tx.require (order.sellerId = sellerId) (.api 403 "NOT_ORDER_OWNER")
  Tx.require (order.status = .processing) (.api 400 "ORDER_NOT_PROCESSING")
  Tx.require (data.length ≤ manualDeliveryMaxLength) (.api 422 "DELIVERY_TOO_LONG")
  -- `escrow_until` reads the configuration, which flushes the change and locks the row.
  let _ ← lockOrder orderId
  setOrderStatus cfg orderId .delivered
  Tx.modify (Db.modifyOrder orderId fun o =>
    { o with
      deliveredAt := some cfg.now
      deliveredData := some data
      stockHeld := 0
      escrowExpiresAt := some (escrowUntil cfg) })

end Marketplace
