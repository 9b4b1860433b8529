import Marketplace.Wallet.Service

/-!
# Affiliate commissions

`affiliate/service.py`: what a referrer earned, what of it may be withdrawn, and the two
operations that pay a commission and take it back. Both run inside the settlement (or
refund) transaction of an order and are idempotent per order.

`withdrawableCommission` is the cap of a withdrawal by an account that is not a seller; it is
recomputed from three aggregates, and nothing stores it.
-/

namespace Marketplace

open Sql Arith

/-! ### Aggregates -/

/-- `earned_commission`: credited to the account and not clawed back, all time. -/
def Db.earnedCommission (d : Db) (accountId : ℕ) : ℤ :=
  d.commissions.sum fun _ c =>
    if c.affiliateAccountId = accountId ∧ c.clawedBackAt = none then c.amount else 0

/-- The withdrawals the account asked for and that were not rejected. -/
def Db.requestedWithdrawals (d : Db) (accountId : ℕ) : ℤ :=
  d.withdrawRequests.sum fun _ r =>
    if r.accountId = accountId ∧ r.status ≠ .rejected then r.amount else 0

/-- `withdrawable_commission`. -/
def Db.withdrawableCommission (d : Db) (accountId : ℕ) : ℤ :=
  let available := ((d.wallets.get? accountId).map Wallet.availableBalance).getD 0
  max 0 (min (d.earnedCommission accountId - d.requestedWithdrawals accountId) available)

/-- The commissions of the referrer since a moment that were not clawed back. -/
def Db.recentCommissions (d : Db) (accountId since : ℕ) : ℕ :=
  d.commissions.sum fun _ c =>
    if c.affiliateAccountId = accountId ∧ since ≤ c.createdAt ∧ c.clawedBackAt = none then 1 else 0

/-! ### What a sale owes -/

/-- `order_fee_percent`: an internal seller's sale settles without a fee. -/
def orderFeePercent (cfg : Settings) (seller : Option Account) : ℚ :=
  if (seller.map Account.isInternal).getD false then 0 else cfg.platformFeePercent

/-- `escrow_settlement` of an order, with the `ValueError` it raises. -/
def settlement (cfg : Settings) (order : Order) (seller : Option Account) : Tx (ℤ × ℤ) :=
  Tx.getOrElse
    (escrowSettlement order.totalAmount order.refundedAmount (orderFeePercent cfg seller))
    (.valueError "Invalid order refund totals")

/-- `order_referrer`: the referrer whose promo code the order used, else the buyer's. -/
def Db.orderReferrer (d : Db) (orderId : ℕ) (buyer : Account) : Option ℕ :=
  match (d.redemptions.get? orderId).bind PromotionRedemption.affiliateAccountId with
  | some affiliateId => some affiliateId
  | none => buyer.referredById

/-- `_commission_quote`: rate, fee base and amount, or nothing. -/
def commissionQuote (cfg : Settings) (order : Order) (affiliateId : ℕ) (affiliate : Account) :
    Tx (Option (ℚ × ℤ × ℤ)) := do
  if affiliate.isActive = false ∨ affiliateId = order.buyerId ∨ affiliateId = order.sellerId ∨
      cfg.referralEligible = false then pure none
  else
    match cfg.commissionRate with
    | none => pure none
    | some rate => do
      let seller ← Tx.read fun d => d.accounts.get? order.sellerId
      let (_, feeBase) ← settlement cfg order seller
      let amount := roundDiv (feeBase * rate.num) (100 * rate.den)
      if amount ≤ 0 then pure none else pure (some (rate, feeBase, amount))

/-! ### Paying a commission and taking it back -/

/-- The last part of `apply_affiliate_commission`: the budget, the commission's row and the
referrer's wallet. -/
def payCommission (cfg : Settings) (orderId affiliateId buyerId : ℕ) (rate : ℚ)
    (feeBase amount : ℤ) : Tx Unit := do
  let balance ← Tx.lock .fund Db.fundBalance
  if balance < amount then pure ()
  else do
    insertRow (.commission orderId) (fun d => d.commissions.get? orderId)
      (Db.insertCommission orderId
        { affiliateAccountId := affiliateId, buyerAccountId := buyerId, ratePercent := rate
          feeBaseAmount := feeBase, amount := amount, clawedBackAt := none, createdAt := cfg.startedAt })
    Tx.modify (Db.addFundBalance (-amount))
    Tx.modify (Db.addFundEntry ⟨-amount, .commission, some (affiliateReference orderId), none⟩)
    creditAffiliateCommission cfg affiliateId amount orderId

/-- The part of `apply_affiliate_commission` for a referrer that exists. -/
def applyCommissionTo (cfg : Settings) (orderId : ℕ) (order : Order) (affiliateId : ℕ)
    (affiliate : Account) : Tx Unit := do
  let existing ← Tx.read fun d => (d.commissions.get? orderId).isSome
  if existing then pure ()
  else do
    let quote ← commissionQuote cfg order affiliateId affiliate
    match quote with
    | none => pure ()
    | some (rate, feeBase, amount) => do
      let recent ← Tx.read fun d => d.recentCommissions affiliateId (cfg.now - 86400)
      if cfg.maxCommissionsPerDay ≤ recent then pure ()
      else payCommission cfg orderId affiliateId order.buyerId rate feeBase amount

/-- `apply_affiliate_commission`. -/
def applyAffiliateCommission (cfg : Settings) (orderId : ℕ) (order : Order) : Tx Unit := do
  if cfg.affiliateEnabled = false then pure ()
  else do
    let buyer ← Tx.read fun d => d.accounts.get? order.buyerId
    match buyer with
    | none => pure ()
    | some buyer => do
      let affiliateId ← Tx.read fun d => d.orderReferrer orderId buyer
      match affiliateId with
      | none => pure ()
      | some affiliateId => do
        let affiliate ← Tx.read fun d => d.accounts.get? affiliateId
        match affiliate with
        | none => pure ()
        | some affiliate => applyCommissionTo cfg orderId order affiliateId affiliate

/-- The note of a clawback that the wallet did not cover in full. -/
def clawbackNote (recovered amount : ℤ) : Option String :=
  if recovered = amount then none else some ("wallet_recovered=" ++ toString recovered)

/-- `clawback_commission_for_order`. -/
def clawbackCommissionForOrder (cfg : Settings) (orderId : ℕ) : Tx Unit := do
  let commission ← Tx.lock (.commission orderId) fun d => d.commissions.get? orderId
  match commission with
  | none => pure ()
  | some commission =>
    if commission.clawedBackAt ≠ none then pure ()
    else do
      let _ ← Tx.lock .fund Db.fundBalance
      let recovered ←
        clawbackAffiliateCommission cfg commission.affiliateAccountId commission.amount orderId
      Tx.modify (Db.addFundBalance commission.amount)
      Tx.modify (Db.addFundEntry
        ⟨commission.amount, .clawback, some (affiliateReference orderId),
          clawbackNote recovered commission.amount⟩)
      Tx.modify (Db.modifyCommission orderId fun c => { c with clawedBackAt := some cfg.now })

end Marketplace
