import Marketplace.Orders.Service

/-!
# Orders in the hands of the platform

What administrators and the scheduler do to an order: `orders/admin_case.py`, and the
per-order transactions of `scheduler.py` that release an escrow, refund an order past its
deadline, or give up on a provision. All of them lock the order's row first and check its status
under the lock.
-/

namespace Marketplace

open Sql

/-- `_lock`. -/
def lockOrderRow (orderId : ℕ) : Tx Order := do
  let order ← lockOrder orderId
  Tx.getOrElse order (.api 404 "ORDER_NOT_FOUND")

/-- `_open_dispute`, as a condition: the case file owns the decision while one is open. -/
def requireNoOpenDispute (orderId : ℕ) : Tx Unit := do
  let dispute ← Tx.read fun d => d.openDispute orderId
  Tx.require (dispute = none) (.api 409 "ORDER_ACTION_NOT_ALLOWED")

/-- `release_order`. Commits. -/
def releaseOrder (cfg : Settings) (orderId : ℕ) : Tx Unit := do
  let order ← lockOrderRow orderId
  Tx.require (order.status = .delivered) (.api 409 "ORDER_ACTION_NOT_ALLOWED")
  requireNoOpenDispute orderId
  payOut cfg orderId order
  setOrderStatus cfg orderId .completed
  applyPrograms cfg orderId order

/-- `refund_order`. Commits. -/
def refundOrder (cfg : Settings) (orderId : ℕ) (buyerMessage : Option String) : Tx Unit := do
  let order ← lockOrderRow orderId
  Tx.require (order.status = .pending ∨ order.status = .processing ∨ order.status = .delivered)
    (.api 409 "ORDER_ACTION_NOT_ALLOWED")
  requireNoOpenDispute orderId
  let remaining := order.totalAmount - order.refundedAmount
  Tx.require (0 < remaining) (.api 409 "ORDER_ACTION_NOT_ALLOWED")
  refundEscrow cfg orderId order.buyerId remaining ":admin-refund"
  setOrderStatus cfg orderId (if order.status = .delivered then .refunded else .cancelled)
  Tx.when (order.status ≠ .delivered) (releaseManualStock orderId order)
  let reason := nonempty (buyerMessage.map fun m => m.trimAscii.toString)
  Tx.modify (Db.modifyOrder orderId fun o =>
    { o with cancelReason := some (reason.getD
        "Đơn đã được sàn huỷ và hoàn toàn bộ số tiền về ví của bạn.") })
  clawbackPrograms cfg orderId

/-- `extend_escrow`. Commits. -/
def extendEscrow (cfg : Settings) (orderId days : ℕ) : Tx Unit := do
  let order ← lockOrderRow orderId
  Tx.require (order.status = .delivered) (.api 409 "ORDER_ACTION_NOT_ALLOWED")
  Tx.modify (Db.modifyOrder orderId fun o =>
    { o with escrowExpiresAt := some (max (order.escrowExpiresAt.getD cfg.now) cfg.now + days * 86400) })

/-- `_lock_due_order`: the order, if it still meets the job's condition. -/
def lockDueOrder (orderId : ℕ) (due : Db → Order → Bool) : Tx Order := do
  let order ← Tx.lock (.order orderId) fun d => (d.orders.get? orderId).filter (due d)
  Tx.getOrElse order .notCommitted

/-- One order of `escrow_release_job`. Commits. -/
def escrowRelease (cfg : Settings) (orderId : ℕ) : Tx Unit := do
  let order ← lockDueOrder orderId fun d order =>
    order.status = .delivered && order.escrowExpiresAt.any (· ≤ cfg.now) &&
      (d.openDispute orderId).isNone
  payOut cfg orderId order
  setOrderStatus cfg orderId .completed
  applyPrograms cfg orderId order

/-- One order of `sla_check_job`. Commits. -/
def slaCheck (cfg : Settings) (orderId : ℕ) : Tx Unit := do
  let order ← lockDueOrder orderId fun d order =>
    order.status = .pending && (order.variantId.bind d.variants.get?).any fun variant =>
      order.createdAt + variant.slaHours * 3600 < cfg.now
  refundEscrow cfg orderId order.buyerId order.totalAmount ""
  releaseManualStock orderId order
  cancelOrder cfg orderId
    "Người bán không giao hàng đúng hạn nên đơn đã được huỷ. Toàn bộ số tiền đã được hoàn về ví của bạn."

/-- One order of `provision_sweep_job` past its deadline; `catalog` says whether a catalogue
supplier delivers it. Commits. -/
def provisionSweep (cfg : Settings) (orderId : ℕ) (catalog : Bool) : Tx Unit := do
  let order ← lockDueOrder orderId fun _ order =>
    order.status = .pending && order.productId.isSome && (order.variantId.isNone || catalog) &&
      order.createdAt + 900 ≤ cfg.now
  refundEscrow cfg orderId order.buyerId order.totalAmount ""
  cancelOrder cfg orderId
    "Rất tiếc, đơn không thể cấp phát tự động nên đã được huỷ. Toàn bộ số tiền đã được hoàn về ví của bạn."

end Marketplace
