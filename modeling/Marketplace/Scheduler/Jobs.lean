import Marketplace.Scheduler.Disputes
import Marketplace.Sql.Batch

/-!
# One failing case and the others

The loops of the three jobs of `Marketplace.Scheduler.Disputes`. Each runs in one session: the
orders are selected and locked once, then settled one by one, with a commit after each and a
rollback after one that raises.

The rollback expires the orders of the whole batch, and the next iteration reads `order.id` outside
its `try` block. `dispute_jobs_settle_others` says exactly which batches survive that: those in which
no case but the last one raises. `failing_case_blocks_others` is a batch of two.
-/

namespace Marketplace

open Sql

/-- A job that settles overdue cases. -/
inductive DisputeJob
  | resolutionTimeout | sellerTimeout | abandonment
  deriving DecidableEq, Repr

/-- The condition of `dispute_seller_timeout_job` on an order's open case. -/
def Db.sellerOverdue (d : Db) (now orderId : ℕ) : Prop :=
  ∃ c ∈ d.openDispute orderId, c.2.reviewRequestedAt = none ∧ c.2.sellerRespondedAt = none ∧
    ∃ t ∈ c.2.sellerDeadlineAt, t ≤ now

instance (d : Db) (now orderId : ℕ) : Decidable (d.sellerOverdue now orderId) := by
  unfold Db.sellerOverdue
  infer_instance

/-- The condition of `dispute_abandonment_job` on an order and its open case. -/
def Db.abandoned (d : Db) (now orderId : ℕ) (order : Order) : Prop :=
  (∃ c ∈ d.openDispute orderId, c.2.reviewRequestedAt = none ∧ c.2.resolutionDeadlineAt = none ∧
    ¬d.hasRemedy c.1) ∧ ∃ e ∈ order.escrowExpiresAt, e ≤ now

instance (d : Db) (now orderId : ℕ) (order : Order) : Decidable (d.abandoned now orderId order) := by
  unfold Db.abandoned
  infer_instance

namespace DisputeJob

/-- The transaction of one order. -/
def settle (cfg : Settings) : DisputeJob → ℕ → Order → Tx Unit
  | resolutionTimeout => disputeResolutionTimeout cfg
  | sellerTimeout => disputeSellerTimeout cfg
  | abandonment => disputeAbandonment cfg

/-- The orders the job selects, as its session will hold them. -/
def dueOrders (now : ℕ) (d : Db) : DisputeJob → List (ℕ × Order)
  | resolutionTimeout => d.overdueOrders now
  | sellerTimeout => d.orders.rows.filter fun r => d.sellerOverdue now r.1
  | abandonment => d.orders.rows.filter fun r => d.abandoned now r.1 r.2

/-- The loop of the job. An order whose case is not open any more is passed over; `faulty` names the
orders whose iteration raises for a reason outside the books. -/
def loop (cfg : Settings) (faulty : ℕ → Bool) (j : DisputeJob) :
    Batch Db RowKey Abort (ℕ × Order) where
  skip r d := (d.openDispute r.1).isNone
  step r := j.settle cfg r.1 r.2
  faulty r := faulty r.1

/-- The job, for a batch it selected: the rows locked by other sessions are not in it, and
its order is the database's. -/
def run (cfg : Settings) (faulty : ℕ → Bool) (j : DisputeJob) (batch : List (ℕ × Order)) (d : Db) :
    Ending Db :=
  (j.loop cfg faulty).run false batch d

/-- The job settles and commits every case whose settlement does not raise, and ends
without an exception. -/
def SettlesOthers (cfg : Settings) (faulty : ℕ → Bool) (j : DisputeJob) (batch : List (ℕ × Order))
    (d : Db) : Prop :=
  j.run cfg faulty batch d = .finished ((j.loop cfg faulty).settleEach batch d)

end DisputeJob

/-- **Which batches a job gets through.** A job settles every case that can be settled, and ends
without an exception, exactly when no case but the last of its batch raises. -/
theorem dispute_jobs_settle_others (cfg : Settings) (faulty : ℕ → Bool) (j : DisputeJob)
    (batch : List (ℕ × Order)) (d : Db) :
    j.SettlesOthers cfg faulty batch d ↔ (j.loop cfg faulty).OnlyLastFails batch d :=
  (j.loop cfg faulty).run_eq_finished_iff batch d

/-- An order of buyer 2, delivered at moment 0. -/
def sampleDelivered (sellerId : ℕ) : Order where
  buyerId := 2
  sellerId := sellerId
  variantId := none
  productId := some 1
  providerId := none
  quantity := 1
  totalAmount := 50000
  refundedAmount := 0
  stockHeld := 0
  promoCode := none
  discountAmount := 0
  status := .delivered
  escrowExpiresAt := some 100
  deliveredAt := some 0
  deliveredData := some "key"
  cancelReason := none
  createdAt := 0
  isSeeded := false

/-- A case of buyer 2 whose resolution was offered and not answered. -/
def sampleUnanswered (orderId : ℕ) : Dispute where
  orderId := orderId
  buyerId := 2
  status := .open_
  sellerNote := some "ok"
  createdAt := 10
  resolutionOfferedAt := some 20
  resolutionDeadlineAt := some 30
  reviewRequestedAt := none
  resolvedAt := none
  sellerDeadlineAt := none
  sellerRespondedAt := some 20

/-- Two overdue cases; the seller of the first has no wallet. -/
def sampleOverdue : Db :=
  { Db.empty with
    accounts := ⟨[(1, ⟨true, false, true, false, none, none⟩),
      (2, ⟨false, false, true, false, none, none⟩),
      (3, ⟨true, false, true, false, none, none⟩)], by decide⟩
    wallets := ⟨[(0, ⟨0, 0⟩), (2, ⟨0, 0⟩), (3, ⟨0, 0⟩)], by decide⟩
    orders := ⟨[(1, sampleDelivered 1), (2, sampleDelivered 3)], by decide⟩
    disputes := ⟨[(1, sampleUnanswered 1), (2, sampleUnanswered 2)], by decide⟩ }

/-- **A failing case blocks the ones after it.** The settlement of order 1 raises because its seller
has no wallet. Order 2 could be settled, but the job raises when it reads its number. -/
theorem failing_case_blocks_others :
    DisputeJob.resolutionTimeout.dueOrders 50 sampleOverdue =
        [(1, sampleDelivered 1), (2, sampleDelivered 3)] ∧
      DisputeJob.resolutionTimeout.run (Settings.sample 50) (fun _ => false)
        (DisputeJob.resolutionTimeout.dueOrders 50 sampleOverdue) sampleOverdue =
          .raised sampleOverdue ∧
      ((DisputeJob.resolutionTimeout.settle (Settings.sample 50) 2 (sampleDelivered 3)).exec
        sampleOverdue).openDispute 2 = none ∧
      ¬DisputeJob.resolutionTimeout.SettlesOthers (Settings.sample 50) (fun _ => false)
        (DisputeJob.resolutionTimeout.dueOrders 50 sampleOverdue) sampleOverdue := by
  refine ⟨rfl, rfl, rfl, fun h => ?_⟩
  rw [DisputeJob.SettlesOthers] at h
  exact absurd h (by rintro ⟨⟩)

end Marketplace
