import Marketplace.Orders.Moving

/-!
# The affiliate budget

Who works with the budget of the affiliate programme: the settlements, which pay commissions out of it, the
refunds in full, which put them back, and the administrators who top it up. `fundMachine` runs
them all at once under one configuration, a `Programme`.

A commission carries the moment its transaction began (`created_at` is filled in by the database), while
the daily cap is counted from the moment of the count. `Programme.delay` bounds the time
between the two. `PayoutsSound` is what is to hold of the books in every committed state; its cap is
about windows of 24 hours less that delay.
-/

namespace Marketplace

open Sql

/-- `resolve_rate`. -/
def resolveRate (productRate categoryRate accountRate : Option ℚ) (defaultRate : ℚ) : Option ℚ :=
  let explicit := match productRate with
    | some rate => some rate
    | none => categoryRate
  if ∃ rate ∈ explicit, rate ≤ 0 then none
  else
    let rate := match accountRate with
      | some rate => rate
      | none => explicit.getD defaultRate
    if rate ≤ 0 ∨ 100 < rate then none else some rate

theorem resolveRate_mem {productRate categoryRate accountRate : Option ℚ} {defaultRate rate : ℚ}
    (h : resolveRate productRate categoryRate accountRate defaultRate = some rate) :
    0 < rate ∧ rate ≤ 100 := by
  simp only [resolveRate, Option.ite_none_left_eq_some, Option.some.injEq] at h
  obtain ⟨-, hrate, rfl⟩ := h
  push Not at hrate
  exact hrate

/-- `topup_fund`. Commits. -/
def topupFund (amount : ℤ) (note : Option String) : Tx Unit := do
  Tx.require (0 < amount) (.http 400 "Số tiền phải lớn hơn 0")
  let _ ← Tx.lock .fund Db.fundBalance
  Tx.modify (Db.addFundBalance amount)
  Tx.modify (Db.addFundEntry ⟨amount, .topup, none, note⟩)

/-! ### Who works with the budget -/

/-- The configuration a call runs under. -/
def OrderCall.settings : OrderCall → Settings
  | .createOrder cfg .. => cfg
  | .createOrderWithAdapter cfg .. => cfg
  | .provisionPendingOrder cfg .. => cfg
  | .confirmOrder cfg .. => cfg
  | .acceptOrder cfg .. => cfg
  | .deliverOrder cfg .. => cfg
  | .releaseOrder cfg .. => cfg
  | .refundOrder cfg .. => cfg
  | .extendEscrow cfg .. => cfg
  | .escrowRelease cfg .. => cfg
  | .slaCheck cfg .. => cfg
  | .provisionSweep cfg .. => cfg
  | .updateTask cfg .. => cfg
  | .createDispute cfg .. => cfg
  | .appendClaimBatch cfg .. => cfg
  | .acceptDisputeResolution cfg .. => cfg
  | .withdrawDispute cfg .. => cfg
  | .requestMarketplaceReview cfg .. => cfg
  | .sellerRespondDispute cfg .. => cfg
  | .sellerResolveResources cfg .. => cfg
  | .sellerResolveProxies cfg .. => cfg
  | .adminRefundProxies cfg .. => cfg
  | .refundDispute cfg .. => cfg
  | .rejectDispute cfg .. => cfg
  | .partialRefundDispute cfg .. => cfg
  | .replaceDispute cfg .. => cfg
  | .extendWarrantyDispute cfg .. => cfg
  | .disputeResolutionTimeout cfg .. => cfg
  | .disputeSellerTimeout cfg .. => cfg
  | .disputeAbandonment cfg .. => cfg

/-- The calls that settle an order or refund it in full. -/
def OrderCall.Settles : OrderCall → Prop
  | .confirmOrder .. | .releaseOrder .. | .escrowRelease .. | .refundOrder ..
  | .acceptDisputeResolution .. | .withdrawDispute .. | .sellerResolveResources ..
  | .sellerResolveProxies .. | .adminRefundProxies .. | .refundDispute .. | .rejectDispute ..
  | .partialRefundDispute .. | .disputeResolutionTimeout .. | .disputeSellerTimeout ..
  | .disputeAbandonment .. => True
  | _ => False

/-- The affiliate programme during a run. -/
structure Programme where
  /-- `platform_account_id`. -/
  platformAccountId : ℕ
  /-- `max_commissions_per_day`. -/
  maxCommissionsPerDay : ℕ
  /-- The longest a transaction takes from its beginning to the count of commissions. -/
  delay : ℕ

/-- A call under the configuration of the programme. -/
structure Settings.Runs (cfg : Settings) (p : Programme) : Prop where
  platform : cfg.platformAccountId = p.platformAccountId
  cap : cfg.maxCommissionsPerDay = p.maxCommissionsPerDay
  clock : cfg.now ≤ cfg.startedAt + p.delay
  rate : ∃ productRate categoryRate accountRate defaultRate,
    cfg.commissionRate = resolveRate productRate categoryRate accountRate defaultRate

/-- Who works with the budget. -/
inductive FundClient (p : Programme)
  /-- A settlement or a refund. -/
  | settle (c : OrderCall) (hsettles : c.Settles) (hruns : c.settings.Runs p)
  /-- An administrator. -/
  | topupFund (amount : ℤ) (note : Option String)

variable {p : Programme}

/-- The transaction itself. -/
def FundClient.code : FundClient p → Tx Unit
  | .settle c _ _ => c.code
  | .topupFund amount note => Marketplace.topupFund amount note

/-- All of them at once. -/
def fundMachine (p : Programme) : Machine Db RowKey Abort Unit (FundClient p) :=
  Machine.ofCode FundClient.code

/-! ### What is to hold of the books -/

/-- The commissions of the referrer that were not clawed back, created from a moment on until `length`
seconds after it. -/
def Db.paidWithin (d : Db) (affiliateId since length : ℕ) : ℕ :=
  d.commissions.sum fun _ c =>
    if c.affiliateAccountId = affiliateId ∧ c.clawedBackAt = none ∧ since ≤ c.createdAt ∧
        c.createdAt ≤ since + length then 1 else 0

/-- The entries of the budget's ledger that pay the commission of an order. -/
def Db.commissionEntries (d : Db) (orderId : ℕ) : List AffiliateFundEntry :=
  d.fundEntries.filter fun e => e.kind = .commission ∧ e.referenceId = some (affiliateReference orderId)

/-- **The payouts respect the fund and the cap.** -/
structure PayoutsSound (p : Programme) (d : Db) : Prop where
  /-- The balance is what the entries add up to. -/
  balance : d.fundBalance = (d.fundEntries.map AffiliateFundEntry.amount).sum
  nonneg : 0 ≤ d.fundBalance
  /-- A commission is a part of the platform's fee. -/
  part : ∀ o v, d.commissions.get? o = some v → 0 < v.amount ∧ v.amount ≤ v.feeBaseAmount
  /-- The fund pays an order its one commission, once. -/
  once : ∀ o, (d.commissionEntries o).map AffiliateFundEntry.amount =
    (d.commissions.get? o).toList.map fun v => -v.amount
  /-- In any window of 24 hours, less the delay, a referrer earns no more often than the cap says. -/
  cap : ∀ affiliateId since length, length + p.delay ≤ 86400 →
    d.paidWithin affiliateId since length ≤ p.maxCommissionsPerDay

end Marketplace
