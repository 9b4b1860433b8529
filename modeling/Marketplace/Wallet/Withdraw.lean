import Marketplace.Affiliate.Service

/-!
# Withdrawals

The withdrawal part of `wallet/service.py`. A request locks its amount in the wallet
(`requestWithdraw`); an administrator approves it, which books nothing, rejects it, which gives
the amount back, or marks an approved one as paid, which is when the money leaves the platform.

Whether a payout is booked already is not read from the request's status but from the
ledger, `payoutBooked`, with a rule for requests from before the `withdraw-<id>` rows
existed.
-/

namespace Marketplace

open Sql Arith

/-- `withdraw_fee_amount`: fixed and percentage, capped by the amount. -/
def withdrawFeeAmount (cfg : Settings) (amount : ℤ) : ℤ :=
  max 0 (min (cfg.withdrawFeeFixed + percentOf amount cfg.withdrawFeePercent) amount)

theorem withdrawFeeAmount_nonneg (cfg : Settings) (amount : ℤ) :
    0 ≤ withdrawFeeAmount cfg amount := le_max_left _ _

/-- What a request pays out of, after the checks that go with it: a seller's limit per request,
or the commission cap of any other account. -/
def withdrawSource (cfg : Settings) (accountId : ℕ) (amount : ℤ) : Tx WithdrawSource := do
  let account ← Tx.read fun d => d.accounts.get? accountId
  if (account.map Account.isSeller).getD false then do
    Tx.require (∀ limit ∈ cfg.withdrawLimitPerRequest, amount ≤ limit)
      (.http 400 "Vượt hạn mức rút tiền theo cấp độ người bán")
    pure .sellerBalance
  else do
    let cap ← Tx.read fun d => d.withdrawableCommission accountId
    Tx.require (amount ≤ cap) (.api 422 "WITHDRAW_COMMISSION_EXCEEDED")
    pure .affiliateCommission

/-- The request `request_withdraw` creates. -/
def newWithdrawRequest (cfg : Settings) (accountId : ℕ) (amount : ℤ) (source : WithdrawSource) :
    WithdrawRequest where
  accountId := accountId
  amount := amount
  status := .pending
  feeAmount := withdrawFeeAmount cfg amount
  netAmount := amount - withdrawFeeAmount cfg amount
  source := source
  payoutReference := none
  paidAt := none
  rejectReason := none
  createdAt := cfg.startedAt

/-- `request_withdraw`; `reqId` is the new row's number. Commits. -/
def requestWithdraw (cfg : Settings) (reqId accountId : ℕ) (amount : ℤ) : Tx Unit := do
  Tx.require (0 < amount) (.http 400 "Số tiền phải lớn hơn 0")
  -- The wallet row lock serialises the requests of one account.
  let wallet ← getWalletByAccount accountId
  Tx.require (amount ≤ wallet.availableBalance) .insufficientCredit
  let source ← withdrawSource cfg accountId amount
  Tx.require (cfg.withdrawMinAmount ≤ amount) (.api 400 "WITHDRAW_BELOW_MINIMUM")
  Tx.require (0 < amount - withdrawFeeAmount cfg amount) (.api 400 "WITHDRAW_BELOW_MINIMUM")
  Tx.modify (Db.modifyWallet accountId fun w =>
    { availableBalance := w.availableBalance - amount
      lockedBalance := w.lockedBalance + amount })
  insertRow (.withdrawRequest reqId) (fun d => d.withdrawRequests.get? reqId)
    (Db.insertWithdrawRequest reqId (newWithdrawRequest cfg accountId amount source))
  addTransaction ⟨accountId, .withdrawLock, amount, some (withdrawReference reqId), cfg.startedAt⟩

/-- `db.get(WithdrawRequest, req_id, with_for_update=True)`. -/
def lockWithdrawRequest (reqId : ℕ) : Tx WithdrawRequest := do
  let req ← Tx.lock (.withdrawRequest reqId) fun d => d.withdrawRequests.get? reqId
  Tx.getOrElse req (.http 404 "Không tìm thấy yêu cầu rút tiền")

/-- `approve_withdrawal`. Commits. -/
def approveWithdrawal (reqId : ℕ) : Tx Unit := do
  let req ← lockWithdrawRequest reqId
  Tx.require (req.status = .pending) (.http 400 "Yêu cầu đã được xử lý")
  let wallet ← getWalletByAccount req.accountId
  Tx.require (req.amount ≤ wallet.lockedBalance)
    (.http 409 "Số dư đang khoá không đủ cho yêu cầu này")
  Tx.modify (Db.modifyWithdrawRequest reqId fun r => { r with status := .approved })

/-- The types of the rows under the reference of a request. -/
def Db.withdrawRows (d : Db) (reqId : ℕ) : List TransactionType :=
  (d.transactions.filter fun t => t.referenceId = some (withdrawReference reqId)).map
    Transaction.type

/-- The rule for requests approved before `withdraw-<id>` rows existed: an unreferenced payout of
the amount, or of the amount less the fee, from the requester's wallet since the request. -/
def Db.legacyPayout (d : Db) (req : WithdrawRequest) : Prop :=
  ∃ t ∈ d.transactions, t.walletId = req.accountId ∧ t.type = .withdraw ∧
    t.referenceId = none ∧ (t.amount = req.amount ∨ t.amount = req.amount - req.feeAmount) ∧
    req.createdAt ≤ t.createdAt

instance (d : Db) (req : WithdrawRequest) : Decidable (d.legacyPayout req) := by
  unfold Db.legacyPayout
  infer_instance

/-- `_payout_booked`, as the rows say it. -/
def Db.payoutBooked (d : Db) (reqId : ℕ) (req : WithdrawRequest) : Prop :=
  TransactionType.withdraw ∈ d.withdrawRows reqId ∨
    (d.withdrawRows reqId = [] ∧ d.legacyPayout req)

instance (d : Db) (reqId : ℕ) (req : WithdrawRequest) : Decidable (d.payoutBooked reqId req) := by
  unfold Db.payoutBooked
  infer_instance

/-- `_payout_booked`. -/
def payoutBooked (reqId : ℕ) (req : WithdrawRequest) : Tx Bool :=
  Tx.read fun d => decide (d.payoutBooked reqId req)

/-- `reject_withdrawal`. Commits. -/
def rejectWithdrawal (cfg : Settings) (reqId : ℕ) (reason : String) : Tx Unit := do
  let req ← lockWithdrawRequest reqId
  Tx.require (req.status = .pending ∨ req.status = .approved) (.http 400 "Yêu cầu đã được xử lý")
  let booked ← payoutBooked reqId req
  Tx.require (req.status = .approved → booked = false)
    (.http 409 "Yêu cầu này đã ghi sổ chi tiền, không từ chối được nữa")
  let cleaned := reason.trimAscii.toString
  Tx.require (cleaned ≠ "") (.http 400 "Từ chối rút tiền phải kèm lý do")
  let wallet ← getWalletByAccount req.accountId
  Tx.require (req.amount ≤ wallet.lockedBalance)
    (.http 409 "Số dư đang khoá không đủ cho yêu cầu này — tiền có thể đã được chi, kiểm tra sổ trước khi từ chối")
  Tx.modify (Db.modifyWallet req.accountId fun w =>
    { availableBalance := w.availableBalance + req.amount
      lockedBalance := w.lockedBalance - req.amount })
  addTransaction
    ⟨req.accountId, .withdrawUnlock, req.amount, some (withdrawReference reqId), cfg.startedAt⟩
  Tx.modify (Db.modifyWithdrawRequest reqId fun r =>
    { r with status := .rejected, rejectReason := some (String.ofList (cleaned.toList.take 500)) })

/-- `_book_payout`. -/
def bookPayout (cfg : Settings) (reqId : ℕ) (req : WithdrawRequest) : Tx Unit := do
  let wallet ← getWalletByAccount req.accountId
  Tx.require (req.amount ≤ wallet.lockedBalance)
    (.http 409 "Số dư đang khoá không đủ cho yêu cầu này")
  Tx.modify (Db.modifyWallet req.accountId fun w =>
    { w with lockedBalance := w.lockedBalance - req.amount })
  let fee := req.feeAmount
  let net := req.amount - fee
  -- Only the net transfer leaves the platform; the fee stays in the platform wallet.
  addTransaction ⟨req.accountId, .withdraw, net, some (withdrawReference reqId), cfg.startedAt⟩
  Tx.when (0 < fee) do
    addTransaction ⟨req.accountId, .withdrawFee, fee, some (withdrawReference reqId), cfg.startedAt⟩
    let _ ← getWalletByAccount cfg.platformAccountId
    creditAvailable cfg.platformAccountId fee
    addTransaction
      ⟨cfg.platformAccountId, .platformFee, fee, some (withdrawReference reqId), cfg.startedAt⟩

/-- `mark_withdrawal_paid`. Commits. -/
def markWithdrawalPaid (cfg : Settings) (reqId : ℕ) (payoutReference : String) : Tx Unit := do
  let req ← lockWithdrawRequest reqId
  Tx.require (req.status = .approved)
    (.http 400 "Chỉ xác nhận chuyển khoản cho yêu cầu đã duyệt")
  let booked ← payoutBooked reqId req
  Tx.when (booked = false) (bookPayout cfg reqId req)
  Tx.modify (Db.modifyWithdrawRequest reqId fun r =>
    { r with status := .paid, payoutReference := some payoutReference, paidAt := some cfg.now })

end Marketplace
