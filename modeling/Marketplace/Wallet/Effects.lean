import Marketplace.Affiliate.Service
import Marketplace.BuyerTiers.Cashback
import Marketplace.Payments.Service

/-!
# What the money functions write

The functions that move money inside a larger transaction write a handful of things, whatever
path they take: they add to a wallet's available balance, append to the ledger, raise an
order's refunded total, and keep the rows of cashbacks, commissions and deposits. `WalletWrite`
lists the writes that leave commissions alone, `MoneyWrite` adds the ones of the affiliate programme.

Each function's footprint is proved once here. A frame argument elsewhere then inspects the
list of writes and never the functions.
-/

namespace Marketplace

open Sql

/-- The writes of a money function outside the affiliate programme. Ledger rows are those whose
reference is not a withdrawal's; orders whose refunded total moves are in `S`. -/
inductive WalletWrite (S : ℕ → Prop) : (Db → Db) → Prop
  | credit (a : ℕ) (x : ℤ) : WalletWrite S (Db.modifyWallet a fun w =>
      { w with availableBalance := w.availableBalance + x })
  | newWallet (a : ℕ) (x : ℤ) : WalletWrite S (Db.insertWallet a ⟨x, 0⟩)
  | book (t : Transaction) (h : ∀ r, t.referenceId ≠ some (withdrawReference r)) :
      WalletWrite S (Db.addTransaction t)
  | refunded (o : ℕ) (x : ℤ) (h : S o) : WalletWrite S (Db.modifyOrder o fun v =>
      { v with refundedAmount := v.refundedAmount + x })
  | newCashback (o : ℕ) (v : BuyerCashback) : WalletWrite S (Db.insertCashback o v)
  | cashback (o : ℕ) (f : BuyerCashback → BuyerCashback) : WalletWrite S (Db.modifyCashback o f)
  | deposit (i : ℕ) (f : DepositIntent → DepositIntent) :
      WalletWrite S (Db.modifyDepositIntent i f)

/-- The writes of a money function. -/
inductive MoneyWrite (S : ℕ → Prop) : (Db → Db) → Prop
  | wallet {f : Db → Db} (h : WalletWrite S f) : MoneyWrite S f
  | newCommission (o : ℕ) (v : AffiliateCommission) : MoneyWrite S (Db.insertCommission o v)
  | commission (o : ℕ) (f : AffiliateCommission → AffiliateCommission) :
      MoneyWrite S (Db.modifyCommission o f)
  | fund (x : ℤ) : MoneyWrite S (Db.addFundBalance x)
  | fundEntry (e : AffiliateFundEntry) : MoneyWrite S (Db.addFundEntry e)

/-! ### References that are not a withdrawal's -/

theorem withdrawReference_head (r : ℕ) : (withdrawReference r).toList.head? = some 'w' := by
  simp [withdrawReference, String.toList_append]

theorem orderReference_ne_withdraw (o : ℕ) (s : String) (r : ℕ) :
    some (orderReference o s) ≠ some (withdrawReference r) := by
  intro h
  have hr := withdrawReference_head r
  rw [← Option.some.inj h] at hr
  simp [orderReference, String.toList_append] at hr

theorem depositReference_ne_withdraw (i : ℕ) (s : Option String) (r : ℕ) :
    some (depositReference i s) ≠ some (withdrawReference r) := by
  intro h
  have hr := withdrawReference_head r
  rw [← Option.some.inj h] at hr
  simp [depositReference, String.toList_append] at hr

theorem affiliateReference_ne_withdraw (o r : ℕ) :
    some (affiliateReference o) ≠ some (withdrawReference r) := by
  intro h
  have hr := withdrawReference_head r
  rw [← Option.some.inj h, affiliateReference, Text.toList_toString] at hr
  have hw := Nat.isDigit_of_mem_toDigits (by decide) (by decide) (List.mem_of_mem_head? hr)
  exact absurd hw (by decide)

/-! ### Footprints -/

section Footprints

variable {P : (Db → Db) → Prop} {S : ℕ → Prop}

theorem writes_insertRow {V : Type} {k : RowKey} {row : Db → Option V} {f : Db → Db} (h : P f) :
    (insertRow k row f).Writes P := by
  refine .bind (Tx.writes_lock _ _) fun _ => .bind (Tx.writes_require _ _) fun _ => ?_
  exact Tx.writes_modify.mpr h

theorem writes_getWalletByAccount (a : ℕ) : (getWalletByAccount a).Writes P :=
  .bind (Tx.writes_lock _ _) fun _ => Tx.writes_getOrElse _ _

theorem writes_creditAvailable (a : ℕ) (x : ℤ) : (creditAvailable a x).Writes (WalletWrite S) :=
  Tx.writes_modify.mpr (.credit a x)

theorem writes_addTransaction {t : Transaction} (h : P (Db.addTransaction t)) :
    (addTransaction t).Writes P := by
  refine .bind (Tx.writes_read _) fun _ => .bind (Tx.writes_require _ _) fun _ => ?_
  exact Tx.writes_modify.mpr h

theorem writes_bookOrder (a : ℕ) (type : TransactionType) (x : ℤ) (o : ℕ) (s : String) (now : ℕ) :
    (addTransaction ⟨a, type, x, some (orderReference o s), now⟩).Writes (WalletWrite S) :=
  writes_addTransaction (.book _ (orderReference_ne_withdraw o s))

theorem writes_bookAffiliate (a : ℕ) (type : TransactionType) (x : ℤ) (o now : ℕ) :
    (addTransaction ⟨a, type, x, some (affiliateReference o), now⟩).Writes (WalletWrite S) :=
  writes_addTransaction (.book _ (affiliateReference_ne_withdraw o))

variable (cfg : Settings)

theorem writes_topup (a : ℕ) (x : ℤ) (source : TopupSource) (reason : Option String) :
    (topup cfg a x source reason).Writes (WalletWrite S) := by
  unfold topup
  generalize (reason.getD "").trimAscii.toString = text
  refine .bind (Tx.writes_require _ _) fun _ => .bind (Tx.writes_require _ _) fun _ =>
    .bind (writes_getWalletByAccount a) fun _ => .bind (writes_creditAvailable a x) fun _ => ?_
  exact writes_addTransaction (.book _ (by simp))

theorem writes_adminDebit (a : ℕ) (x : ℤ) (reason : String) :
    (adminDebit cfg a x reason).Writes (WalletWrite S) := by
  unfold adminDebit
  generalize reason.trimAscii.toString.length = n
  refine .bind (Tx.writes_require _ _) fun _ => .bind (Tx.writes_require _ _) fun _ =>
    .bind (writes_getWalletByAccount a) fun _ => .bind (Tx.writes_require _ _) fun _ =>
    .bind (writes_creditAvailable a (-x)) fun _ => ?_
  exact writes_addTransaction (.book _ (by simp))

theorem writes_applyDepositPaid (i a : ℕ) (x : ℤ) (reference : Option String) :
    (applyDepositPaid cfg i a x reference).Writes (WalletWrite S) := by
  refine .bind (.bind (Tx.writes_lock _ _) fun w => ?_) fun _ => .bind ?_ fun _ => ?_
  · cases w with
    | none => exact writes_insertRow (.newWallet a x)
    | some w => exact writes_creditAvailable a x
  · exact writes_addTransaction (.book _ (depositReference_ne_withdraw i reference))
  · exact Tx.writes_modify.mpr (.deposit i _)

theorem writes_deductCredit (a : ℕ) (x : ℤ) (o : ℕ) (s : String) :
    (deductCredit cfg a x (orderReference o s)).Writes (WalletWrite S) := by
  refine .bind (Tx.writes_require _ _) fun _ => .bind (writes_getWalletByAccount a) fun _ =>
    .bind (Tx.writes_read _) fun existing => ?_
  cases existing
  · exact .bind (Tx.writes_require _ _) fun _ => .bind (writes_creditAvailable a (-x)) fun _ =>
      writes_bookOrder a _ x o s cfg.startedAt
  · exact Tx.writes_pure _

theorem writes_releaseToSeller (seller : ℕ) (x fee : ℤ) (order : Option Order) (o : ℕ) :
    (releaseToSeller cfg seller x fee order (orderReference o "")).Writes (WalletWrite S) := by
  refine .bind (Tx.writes_when ?_) fun _ => ?_
  · exact .bind (writes_creditAvailable _ _) fun _ => writes_bookOrder _ _ _ o "" _
  · cases order with
    | none => exact Tx.writes_pure _
    | some v =>
      refine Tx.writes_when ?_
      exact .bind (writes_creditAvailable _ _) fun _ => writes_bookOrder _ _ _ o "" _

theorem writes_releaseToPlatform (fee : ℤ) (o : ℕ) :
    (releaseToPlatform cfg fee (orderReference o "")).Writes (WalletWrite S) := by
  refine Tx.writes_when ?_
  exact .bind (writes_getWalletByAccount _) fun _ => .bind (writes_creditAvailable _ _) fun _ =>
    writes_bookOrder _ _ _ o "" _

theorem writes_releaseEscrow (o seller : ℕ) (x fee : ℤ) :
    (releaseEscrow cfg o seller x fee).Writes (WalletWrite S) := by
  refine .bind (Tx.writes_require _ _) fun _ => .bind (writes_getWalletByAccount _) fun _ =>
    .bind (Tx.writes_read _) fun existing => ?_
  cases existing
  · exact .bind (Tx.writes_read _) fun order =>
      .bind (writes_releaseToSeller cfg seller x fee order o) fun _ =>
        writes_releaseToPlatform cfg fee o
  · exact Tx.writes_pure _

theorem writes_refundEscrow (o buyer : ℕ) (x : ℤ) (s : String) (h : S o) :
    (refundEscrow cfg o buyer x s).Writes (WalletWrite S) := by
  refine .bind (Tx.writes_require _ _) fun _ => .bind (Tx.writes_lock _ _) fun _ =>
    .bind (Tx.writes_getOrElse _ _) fun _ => .bind (Tx.writes_require _ _) fun _ =>
    .bind (writes_getWalletByAccount _) fun _ => .bind (Tx.writes_read _) fun existing => ?_
  cases existing
  · exact .bind (Tx.writes_modify.mpr (.refunded o x h)) fun _ =>
      .bind (writes_creditAvailable _ _) fun _ => writes_bookOrder _ _ _ o s _
  · exact Tx.writes_pure _

theorem writes_creditAffiliateCommission (a : ℕ) (x : ℤ) (o : ℕ) :
    (creditAffiliateCommission cfg a x o).Writes (WalletWrite S) := by
  refine .bind (Tx.writes_require _ _) fun _ => .bind (writes_getWalletByAccount _) fun _ =>
    .bind (Tx.writes_read _) fun existing => ?_
  cases existing
  · exact .bind (writes_creditAvailable _ _) fun _ => writes_bookAffiliate _ _ _ o _
  · exact Tx.writes_pure _

theorem writes_clawbackAffiliateCommission (a : ℕ) (x : ℤ) (o : ℕ) :
    (clawbackAffiliateCommission cfg a x o).Writes (WalletWrite S) := by
  rw [clawbackAffiliateCommission]
  split_ifs
  · exact Tx.writes_pure _
  · refine .bind (writes_getWalletByAccount _) fun w => .bind (Tx.writes_read _) fun existing => ?_
    cases existing
    · change (if min w.availableBalance x ≤ 0 then _ else _ : Tx ℤ).Writes _
      split_ifs
      · exact Tx.writes_pure _
      · exact .bind (writes_creditAvailable _ _) fun _ =>
          .bind (writes_bookAffiliate _ _ _ o _) fun _ => Tx.writes_pure _
    · exact Tx.writes_pure _

theorem writes_applyBuyerCashback (o : ℕ) (order : Order) :
    (applyBuyerCashback cfg o order).Writes (WalletWrite S) := by
  rw [applyBuyerCashback]
  split_ifs
  · exact Tx.writes_pure _
  · exact Tx.writes_pure _
  · refine .bind (Tx.writes_read _) fun paid => ?_
    cases paid
    · refine .bind (Tx.writes_read _) fun buyer => ?_
      cases buyer with
      | none => exact Tx.writes_pure _
      | some buyer =>
        change (if buyer.isSeeded = true then _ else _ : Tx Unit).Writes _
        split_ifs
        · exact Tx.writes_pure _
        · change (if cashbackAmount order.totalAmount cfg.cashbackPercent ≤ 0 then _ else _ :
            Tx Unit).Writes _
          split_ifs
          · exact Tx.writes_pure _
          · refine .bind (writes_getWalletByAccount _) fun _ =>
              .bind (Tx.writes_read _) fun booked => ?_
            cases booked
            · exact .bind (writes_creditAvailable _ _) fun _ =>
                .bind (writes_bookOrder _ _ _ o "" _) fun _ => writes_insertRow (.newCashback o _)
            · exact Tx.writes_pure _
    · exact Tx.writes_pure _

theorem writes_recoverCashback (o buyer : ℕ) (x : ℤ) :
    (recoverCashback cfg o buyer x).Writes (WalletWrite S) := by
  refine .bind (writes_getWalletByAccount _) fun w => .bind (Tx.writes_read _) fun already => ?_
  cases already
  · change (if 0 < min w.availableBalance x then _ else _ : Tx ℤ).Writes _
    split_ifs
    · exact .bind (writes_creditAvailable _ _) fun _ =>
        .bind (writes_bookOrder _ _ _ o "" _) fun _ => Tx.writes_pure _
    · exact Tx.writes_pure _
  · exact Tx.writes_pure _

theorem writes_clawbackBuyerCashback (o : ℕ) :
    (clawbackBuyerCashback cfg o).Writes (WalletWrite S) := by
  refine .bind (Tx.writes_lock _ _) fun cashback => ?_
  cases cashback with
  | none => exact Tx.writes_pure _
  | some v =>
    change (if v.clawedBackAt ≠ none then _ else _ : Tx Unit).Writes _
    split_ifs
    · exact Tx.writes_pure _
    · exact .bind (writes_recoverCashback cfg _ _ _) fun _ =>
        Tx.writes_modify.mpr (.cashback o _)

theorem writes_settlement (order : Order) (seller : Option Account) :
    (settlement cfg order seller).Writes P := Tx.writes_getOrElse _ _

theorem writes_commissionQuote (order : Order) (i : ℕ) (affiliate : Account) :
    (commissionQuote cfg order i affiliate).Writes P := by
  rw [commissionQuote]
  split_ifs
  · exact Tx.writes_pure _
  · cases cfg.commissionRate with
    | none => exact Tx.writes_pure _
    | some rate =>
      refine .bind (Tx.writes_read _) fun seller => .bind (writes_settlement cfg order seller)
        fun r => ?_
      change (if Arith.roundDiv (r.2 * rate.num) (100 * rate.den) ≤ 0 then _ else _ :
        Tx (Option (ℚ × ℤ × ℤ))).Writes _
      split_ifs <;> exact Tx.writes_pure _

theorem writes_payCommission (o a b : ℕ) (rate : ℚ) (base x : ℤ) :
    (payCommission cfg o a b rate base x).Writes (MoneyWrite S) := by
  refine .bind (Tx.writes_lock _ _) fun balance => ?_
  split_ifs
  · exact Tx.writes_pure _
  · exact .bind (writes_insertRow (.newCommission o _)) fun _ =>
      .bind (Tx.writes_modify.mpr (.fund _)) fun _ =>
      .bind (Tx.writes_modify.mpr (.fundEntry _)) fun _ =>
        (writes_creditAffiliateCommission cfg a x o).mono fun _ => .wallet

theorem writes_applyAffiliateCommission (o : ℕ) (order : Order) :
    (applyAffiliateCommission cfg o order).Writes (MoneyWrite S) := by
  rw [applyAffiliateCommission]
  split_ifs
  · exact Tx.writes_pure _
  refine .bind (Tx.writes_read _) fun buyer => ?_
  rcases buyer with _ | buyer
  · exact Tx.writes_pure _
  refine .bind (Tx.writes_read _) fun i => ?_
  rcases i with _ | i
  · exact Tx.writes_pure _
  refine .bind (Tx.writes_read _) fun affiliate => ?_
  rcases affiliate with _ | affiliate
  · exact Tx.writes_pure _
  refine .bind (Tx.writes_read _) fun existing => ?_
  cases existing
  · refine .bind (writes_commissionQuote cfg order i affiliate) fun quote => ?_
    rcases quote with _ | ⟨rate, base, x⟩
    · exact Tx.writes_pure _
    refine .bind (Tx.writes_read _) fun recent => ?_
    split_ifs
    · exact Tx.writes_pure _
    · exact writes_payCommission cfg o i order.buyerId rate base x
  · exact Tx.writes_pure _

theorem writes_clawbackCommissionForOrder (o : ℕ) :
    (clawbackCommissionForOrder cfg o).Writes (MoneyWrite S) := by
  refine .bind (Tx.writes_lock _ _) fun commission => ?_
  rcases commission with _ | v
  · exact Tx.writes_pure _
  change (if v.clawedBackAt ≠ none then _ else _ : Tx Unit).Writes _
  split_ifs
  · exact Tx.writes_pure _
  · exact .bind (Tx.writes_lock _ _) fun _ =>
      .bind ((writes_clawbackAffiliateCommission cfg _ _ _).mono fun _ => .wallet) fun _ =>
      .bind (Tx.writes_modify.mpr (.fund _)) fun _ =>
      .bind (Tx.writes_modify.mpr (.fundEntry _)) fun _ =>
        Tx.writes_modify.mpr (.commission o _)

end Footprints

end Marketplace
