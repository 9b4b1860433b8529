import Marketplace.Wallet.Service

/-!
# Deposits by bank transfer

`apply_deposit_paid` of `payments/service.py`, in which every way of crediting a bank transfer ends.
-/

namespace Marketplace

open Sql

/-- Add an amount to the account's wallet, creating the wallet where there is none. -/
def depositToWallet (accountId : ℕ) (paidAmount : ℤ) : Tx Unit := do
  let wallet ← Tx.lock (.wallet accountId) fun d => d.wallets.get? accountId
  match wallet with
  | some _ => creditAvailable accountId paidAmount
  | none =>
    insertRow (.wallet accountId) (fun d => d.wallets.get? accountId)
      (Db.insertWallet accountId ⟨paidAmount, 0⟩)

/-- `apply_deposit_paid`, for a bank transfer. -/
def applyDepositPaid (cfg : Settings) (intentId accountId : ℕ) (paidAmount : ℤ)
    (reference : Option String) : Tx Unit := do
  depositToWallet accountId paidAmount
  addTransaction
    ⟨accountId, .deposit, paidAmount, some (depositReference intentId reference), cfg.startedAt⟩
  Tx.modify (Db.modifyDepositIntent intentId fun i =>
    { i with status := .paid, paidAmount := some paidAmount, sepayReference := reference })

end Marketplace
