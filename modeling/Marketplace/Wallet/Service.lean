import Marketplace.Model.Db
import Marketplace.Ledger.Reference
import Marketplace.Arith.Rounding

/-!
# Wallet operations

The functions of `wallet/service.py` that move money: manual credits and debits, the hold of an
order's price (`deductCredit`), the two ends of an escrow (`releaseEscrow`,
`refundEscrow`) and the affiliate's commission. They run inside the caller's
transaction unless they say otherwise, lock the wallet they change, and tell a
repeated booking by its `reference_id`.

What a settlement pays is computed by `escrowSettlement` and `promoSubsidy`;
`escrowSettlement_eq_some` and `promoSubsidy_fee_le` bound it by what is left of
the order.
-/

namespace Marketplace

open Sql Arith

/-! ### Amounts -/

/-- The remaining escrow and the platform fee paid at final settlement; `none` is the
`ValueError` for invalid totals or an invalid percentage. -/
def escrowSettlement (totalAmount refundedAmount : ℤ) (feePercent : ℚ) : Option (ℤ × ℤ) :=
  if totalAmount < 0 ∨ refundedAmount < 0 ∨ totalAmount < refundedAmount then none
  else if feePercent < 0 ∨ 100 < feePercent then none
  else
    let remainingAmount := totalAmount - refundedAmount
    some (remainingAmount, percentOf remainingAmount feePercent)

/-- The share of a promo discount the platform pays at settlement, and the fee on it. -/
def promoSubsidy (discount totalAmount remainingAmount platformFee : ℤ) : ℤ × ℤ :=
  if discount ≤ 0 ∨ remainingAmount ≤ 0 ∨ totalAmount ≤ 0 then (0, 0)
  else
    let share := discount * remainingAmount / totalAmount
    (share, share * platformFee / remainingAmount)

theorem escrowSettlement_eq_some {total refunded : ℤ} {fee : ℚ} {remaining platformFee : ℤ}
    (h : escrowSettlement total refunded fee = some (remaining, platformFee)) :
    remaining = total - refunded ∧ 0 ≤ remaining ∧ 0 ≤ platformFee ∧ platformFee ≤ remaining := by
  rw [escrowSettlement] at h
  split_ifs at h with h1 h2
  push Not at h1 h2
  obtain ⟨rfl, rfl⟩ : total - refunded = remaining ∧
      percentOf (total - refunded) fee = platformFee := by simpa using h
  have hrem : 0 ≤ total - refunded := by omega
  exact ⟨rfl, hrem, percentOf_nonneg hrem h2.1, percentOf_le hrem h2.2⟩

theorem promoSubsidy_nonneg {discount total remaining fee : ℤ} (hfee : 0 ≤ fee) :
    0 ≤ (promoSubsidy discount total remaining fee).2 := by
  rw [promoSubsidy]
  split_ifs with h
  · exact le_refl 0
  · push Not at h
    have hshare : 0 ≤ discount * remaining / total :=
      Int.ediv_nonneg (mul_nonneg h.1.le h.2.1.le) h.2.2.le
    exact Int.ediv_nonneg (mul_nonneg hshare hfee) h.2.1.le

/-- **The subsidy never exceeds the discount it stands for.** -/
theorem promoSubsidy_le {discount total remaining fee : ℤ} (hd : 0 ≤ discount)
    (hrem : remaining ≤ total) : (promoSubsidy discount total remaining fee).1 ≤ discount := by
  rw [promoSubsidy]
  split_ifs with h
  · exact hd
  · push Not at h
    refine Int.ediv_le_of_le_mul h.2.2 ?_
    exact mul_le_mul_of_nonneg_left hrem h.1.le

/-! ### Rows -/

/-- A ledger row of this type already carries the reference. -/
def Db.hasTransaction (d : Db) (type : TransactionType) (reference : String) : Prop :=
  ∃ t ∈ d.transactions, t.type = type ∧ t.referenceId = some reference

instance (d : Db) (type : TransactionType) (reference : String) :
    Decidable (d.hasTransaction type reference) := by
  unfold Db.hasTransaction
  infer_instance

/-- The unique index over `(type, reference_id)`, where there is a reference. -/
def Db.transactionTaken (d : Db) (t : Transaction) : Prop :=
  ∃ u ∈ d.transactions, u.type = t.type ∧ u.referenceId = t.referenceId ∧ u.referenceId ≠ none

instance (d : Db) (t : Transaction) : Decidable (d.transactionTaken t) := by
  unfold Db.transactionTaken
  infer_instance

/-- `db.add(Transaction(…))`, under the table's constraints. -/
def addTransaction (t : Transaction) : Tx Unit := do
  let taken ← Tx.read fun d => decide (d.transactionTaken t)
  Tx.require (taken = false ∧ 0 < t.amount) .integrity
  Tx.modify (Db.addTransaction t)

/-- `get_wallet_by_account(account_id, db, for_update=True)`. -/
def getWalletByAccount (accountId : ℕ) : Tx Wallet := do
  let wallet ← Tx.lock (.wallet accountId) fun d => d.wallets.get? accountId
  Tx.getOrElse wallet (.http 404 "Không tìm thấy ví")

/-- `wallet.available_balance += amount`, on a locked row. -/
def creditAvailable (accountId : ℕ) (amount : ℤ) : Tx Unit :=
  Tx.modify (Db.modifyWallet accountId fun w =>
    { w with availableBalance := w.availableBalance + amount })

section Wp

variable {R : Rely Db RowKey} {I : Db → Prop} {w : Db → Db} {L : List RowKey} {s : List Db}
  {d : Db}

theorem wp_addTransaction {t : Transaction}
    {Q : Unit → (Db → Db) → List RowKey → List Db → Db → Prop} :
    (addTransaction t).wp R I Q w L s d ↔ ∀ d', R.rel L d d' → I d' →
      ¬(w d').transactionTaken t → 0 < t.amount →
        Q () (fun d => Db.addTransaction t (w d)) L (w d' :: s) d' := by
  simp only [addTransaction, Tx.wp_bind, Tx.wp_read, Tx.wp_require, Tx.wp_modify, and_imp,
    decide_eq_false_iff_not]

theorem wp_getWalletByAccount {a : ℕ}
    {Q : Wallet → (Db → Db) → List RowKey → List Db → Db → Prop} :
    (getWalletByAccount a).wp R I Q w L s d ↔ ∀ d', R.rel L d d' → I d' →
      ∀ v, (w d').wallets.get? a = some v → Q v w (.wallet a :: L) (w d' :: s) d' := by
  simp only [getWalletByAccount, Tx.wp_bind, Tx.wp_lock, Tx.wp_getOrElse]

end Wp

/-! ### Manual credits and debits -/

/-- Where a `topup` comes from: an administrator's manual credit carries a reason. -/
inductive TopupSource
  | admin | other
  deriving DecidableEq, Repr

/-- `topup`. Commits. -/
def topup (cfg : Settings) (accountId : ℕ) (amount : ℤ) (source : TopupSource)
    (reason : Option String) : Tx Unit := do
  Tx.require (0 < amount) (.http 400 "Số tiền phải lớn hơn 0")
  let reason := (reason.getD "").trimAscii.toString
  Tx.require (source = .admin → reason ≠ "") (.http 422 "Cần ghi lý do khi cộng tiền thủ công")
  let _ ← getWalletByAccount accountId
  creditAvailable accountId amount
  addTransaction ⟨accountId, .topup, amount, none, cfg.startedAt⟩

/-- `admin_debit`. Commits. -/
def adminDebit (cfg : Settings) (accountId : ℕ) (amount : ℤ) (reason : String) : Tx Unit := do
  Tx.require (0 < amount) (.http 400 "Số tiền phải lớn hơn 0")
  Tx.require (3 ≤ reason.trimAscii.toString.length)
    (.http 422 "Cần ghi lý do khi trừ tiền thủ công")
  let wallet ← getWalletByAccount accountId
  Tx.require (amount ≤ wallet.availableBalance)
    (.http 400 "Số tiền trừ vượt quá số dư khả dụng")
  creditAvailable accountId (-amount)
  addTransaction ⟨accountId, .adjustmentDebit, amount, none, cfg.startedAt⟩

/-! ### Escrow -/

/-- `deduct_credit`. -/
def deductCredit (cfg : Settings) (accountId : ℕ) (amount : ℤ) (referenceId : String) :
    Tx Unit := do
  Tx.require (0 < amount) (.http 400 "Số tiền phải lớn hơn 0")
  let wallet ← getWalletByAccount accountId
  let existing ← Tx.read fun d => decide (d.hasTransaction .purchaseHold referenceId)
  if existing then pure ()
  else do
    Tx.require (amount ≤ wallet.availableBalance) .insufficientCredit
    creditAvailable accountId (-amount)
    addTransaction ⟨accountId, .purchaseHold, amount, some referenceId, cfg.startedAt⟩

/-- The seller's part of `release_escrow`: the payment and, where the order had a discount, the
platform's share of it. -/
def releaseToSeller (cfg : Settings) (sellerId : ℕ) (amount platformFee : ℤ)
    (order : Option Order) (referenceId : String) : Tx Unit := do
  let sellerAmount := amount - platformFee
  Tx.when (0 < sellerAmount) do
    creditAvailable sellerId sellerAmount
    addTransaction ⟨sellerId, .purchaseRelease, sellerAmount, some referenceId, cfg.startedAt⟩
  match order with
  | none => pure ()
  | some order =>
    let (share, shareFee) :=
      promoSubsidy order.discountAmount order.totalAmount amount platformFee
    Tx.when (order.discountAmount ≠ 0 ∧ 0 < share - shareFee) do
      creditAvailable sellerId (share - shareFee)
      addTransaction ⟨sellerId, .promoSubsidy, share - shareFee, some referenceId, cfg.startedAt⟩

/-- The platform's part of `release_escrow`. -/
def releaseToPlatform (cfg : Settings) (platformFee : ℤ) (referenceId : String) : Tx Unit :=
  Tx.when (0 < platformFee) do
    let _ ← getWalletByAccount cfg.platformAccountId
    creditAvailable cfg.platformAccountId platformFee
    addTransaction ⟨cfg.platformAccountId, .platformFee, platformFee, some referenceId, cfg.startedAt⟩

/-- `release_escrow`. -/
def releaseEscrow (cfg : Settings) (orderId sellerId : ℕ) (amount platformFee : ℤ) :
    Tx Unit := do
  Tx.require (0 < amount ∧ 0 ≤ platformFee ∧ platformFee ≤ amount)
    (.http 400 "Giá trị thanh toán ký quỹ không hợp lệ")
  let _ ← getWalletByAccount sellerId
  let referenceId := orderReference orderId ""
  let existing ← Tx.read fun d =>
    decide (d.hasTransaction .purchaseRelease referenceId ∨
      d.hasTransaction .platformFee referenceId)
  if existing then pure ()
  else do
    let order ← Tx.read fun d => d.orders.get? orderId
    releaseToSeller cfg sellerId amount platformFee order referenceId
    releaseToPlatform cfg platformFee referenceId

/-- `db.get(Order, order_id, with_for_update=True)`. -/
def lockOrder (orderId : ℕ) : Tx (Option Order) :=
  Tx.lock (.order orderId) fun d => d.orders.get? orderId

/-- `refund_escrow`. It returns without doing anything when the reference is taken. -/
def refundEscrow (cfg : Settings) (orderId buyerId : ℕ) (amount : ℤ) (referenceSuffix : String) :
    Tx Unit := do
  Tx.require (0 < amount) (.http 400 "Số tiền hoàn phải lớn hơn 0")
  let order ← lockOrder orderId
  let order ← Tx.getOrElse order (.http 400 "Số tiền hoàn vượt quá số dư ký quỹ")
  Tx.require (order.buyerId = buyerId ∧ amount ≤ order.totalAmount - order.refundedAmount)
    (.http 400 "Số tiền hoàn vượt quá số dư ký quỹ")
  let _ ← getWalletByAccount buyerId
  let referenceId := orderReference orderId referenceSuffix
  let existing ← Tx.read fun d => decide (d.hasTransaction .refund referenceId)
  if existing then pure ()
  else do
    Tx.modify (Db.modifyOrder orderId fun o =>
      { o with refundedAmount := o.refundedAmount + amount })
    creditAvailable buyerId amount
    addTransaction ⟨buyerId, .refund, amount, some referenceId, cfg.startedAt⟩

/-! ### Affiliate commissions -/

/-- `credit_affiliate_commission`. -/
def creditAffiliateCommission (cfg : Settings) (affiliateAccountId : ℕ) (amount : ℤ)
    (orderId : ℕ) : Tx Unit := do
  Tx.require (0 < amount) (.http 400 "Hoa hồng phải lớn hơn 0")
  let _ ← getWalletByAccount affiliateAccountId
  let referenceId := affiliateReference orderId
  let existing ← Tx.read fun d => decide (d.hasTransaction .affiliateCommission referenceId)
  if existing then pure ()
  else do
    creditAvailable affiliateAccountId amount
    addTransaction ⟨affiliateAccountId, .affiliateCommission, amount, some referenceId, cfg.startedAt⟩

/-- `clawback_affiliate_commission`: the amount actually taken back. -/
def clawbackAffiliateCommission (cfg : Settings) (affiliateAccountId : ℕ) (amount : ℤ)
    (orderId : ℕ) : Tx ℤ := do
  if amount ≤ 0 then pure 0
  else do
    let wallet ← getWalletByAccount affiliateAccountId
    let referenceId := affiliateReference orderId
    let existing ← Tx.read fun d => decide (d.hasTransaction .affiliateClawback referenceId)
    if existing then pure 0
    else
      let recovered := min wallet.availableBalance amount
      if recovered ≤ 0 then pure 0
      else do
        creditAvailable affiliateAccountId (-recovered)
        addTransaction
          ⟨affiliateAccountId, .affiliateClawback, recovered, some referenceId, cfg.startedAt⟩
        pure recovered

end Marketplace
