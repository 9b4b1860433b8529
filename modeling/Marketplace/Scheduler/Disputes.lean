import Marketplace.Disputes.Service

/-!
# Dispute deadlines

The three jobs of `scheduler.py` that settle overdue cases: `dispute_resolution_timeout_job`,
`dispute_seller_timeout_job` and `dispute_abandonment_job`. Each selects and locks a batch of
orders and settles them one by one, committing after each. The first commit gives up every
lock of the batch; from then on the orders are objects the session still holds, as they were when the
batch was read, because `expire_on_commit` is off.

The functions below are the transaction of one order of such a batch, for the order as the
session holds it.
-/

namespace Marketplace

open Sql

/-- The order of a batch: its open case is locked and re-read, and the flush of the changes locks
the order's row. -/
def settleDue (orderId : ℕ) (resolve : ℕ → Dispute → Tx Unit) : Tx Unit := do
  let (disputeId, dispute) ← lockOpenDispute orderId
  let _ ← lockOrder orderId
  resolve disputeId dispute

/-- One order of `dispute_resolution_timeout_job`. Commits. -/
def disputeResolutionTimeout (cfg : Settings) (orderId : ℕ) (order : Order) : Tx Unit :=
  settleDue orderId fun disputeId dispute =>
    resolveAfterResponseTimeout cfg disputeId dispute orderId order

/-- One order of `dispute_seller_timeout_job`. Commits. -/
def disputeSellerTimeout (cfg : Settings) (orderId : ℕ) (order : Order) : Tx Unit :=
  settleDue orderId fun disputeId dispute =>
    resolveAfterSellerTimeout cfg disputeId dispute orderId order

/-- One order of `dispute_abandonment_job`. Commits. -/
def disputeAbandonment (cfg : Settings) (orderId : ℕ) (order : Order) : Tx Unit :=
  settleDue orderId fun disputeId dispute =>
    resolveAbandonedDispute cfg disputeId dispute orderId order

/-- The condition of `dispute_resolution_timeout_job` on an order's open case. -/
def Db.responseOverdue (d : Db) (now orderId : ℕ) : Prop :=
  ∃ c ∈ d.openDispute orderId, c.2.reviewRequestedAt = none ∧
    ∃ t ∈ c.2.resolutionDeadlineAt, t ≤ now

instance (d : Db) (now orderId : ℕ) : Decidable (d.responseOverdue now orderId) := by
  unfold Db.responseOverdue
  infer_instance

/-- The orders `dispute_resolution_timeout_job` selects, as the session will hold them. -/
def Db.overdueOrders (d : Db) (now : ℕ) : List (ℕ × Order) :=
  d.orders.rows.filter fun r => d.responseOverdue now r.1

end Marketplace
