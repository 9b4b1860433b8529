import Marketplace.Wallet.Service

/-!
# Buyer cashback

`buyer_tiers/cashback.py`: a percentage of what the buyer paid, credited when the order
settles without any refund, and taken back when the order is refunded in full
afterwards. The platform funds it, so both rows are money entering and leaving the books.
-/

namespace Marketplace

open Sql Arith

/-- `cashback_amount`: rounded down. -/
def cashbackAmount (paid : ℤ) (ratePercent : ℚ) : ℤ :=
  if paid ≤ 0 ∨ ratePercent ≤ 0 then 0 else percentOf paid ratePercent

/-- The part of `apply_buyer_cashback` that books, for an amount to pay. -/
def payCashback (cfg : Settings) (orderId buyerId : ℕ) (base amount : ℤ) : Tx Unit := do
  let _ ← getWalletByAccount buyerId
  let referenceId := orderReference orderId ""
  let booked ← Tx.read fun d => decide (d.hasTransaction .cashback referenceId)
  if booked then pure ()
  else do
    creditAvailable buyerId amount
    addTransaction ⟨buyerId, .cashback, amount, some referenceId, cfg.startedAt⟩
    insertRow (.cashback orderId) (fun d => d.cashbacks.get? orderId)
      (Db.insertCashback orderId
        { buyerId := buyerId, ratePercent := cfg.cashbackPercent, baseAmount := base
          amount := amount, clawedBackAt := none, clawbackAmount := none })

/-- `apply_buyer_cashback`, for the order as the session has it. -/
def applyBuyerCashback (cfg : Settings) (orderId : ℕ) (order : Order) : Tx Unit := do
  if order.status ≠ .completed ∨ order.isSeeded = true then pure ()
  else if order.refundedAmount ≠ 0 ∨ order.totalAmount ≤ 0 ∨ order.buyerId = order.sellerId then
    pure ()
  else do
    let paid ← Tx.read fun d => (d.cashbacks.get? orderId).isSome
    if paid then pure ()
    else do
      let buyer ← Tx.read fun d => d.accounts.get? order.buyerId
      match buyer with
      | none => pure ()
      | some buyer =>
        if buyer.isSeeded = true then pure ()
        else
          let amount := cashbackAmount order.totalAmount cfg.cashbackPercent
          if amount ≤ 0 then pure ()
          else payCashback cfg orderId order.buyerId order.totalAmount amount

/-- The wallet's part of `clawback_buyer_cashback`: what was recovered. -/
def recoverCashback (cfg : Settings) (orderId buyerId : ℕ) (amount : ℤ) : Tx ℤ := do
  let wallet ← getWalletByAccount buyerId
  let referenceId := orderReference orderId ""
  let already ← Tx.read fun d => decide (d.hasTransaction .cashbackClawback referenceId)
  if already then pure 0
  else
    let recovered := min wallet.availableBalance amount
    if 0 < recovered then do
      creditAvailable buyerId (-recovered)
      addTransaction ⟨buyerId, .cashbackClawback, recovered, some referenceId, cfg.startedAt⟩
      pure recovered
    else pure recovered

/-- `clawback_buyer_cashback`. -/
def clawbackBuyerCashback (cfg : Settings) (orderId : ℕ) : Tx Unit := do
  let cashback ← Tx.lock (.cashback orderId) fun d => d.cashbacks.get? orderId
  match cashback with
  | none => pure ()
  | some cashback =>
    if cashback.clawedBackAt ≠ none then pure ()
    else do
      let recovered ← recoverCashback cfg orderId cashback.buyerId cashback.amount
      Tx.modify (Db.modifyCashback orderId fun c =>
        { c with clawedBackAt := some cfg.now, clawbackAmount := some recovered })

end Marketplace
