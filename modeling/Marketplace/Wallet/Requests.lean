import Marketplace.Wallet.Withdraw
import Marketplace.Wallet.Effects

/-!
# What a withdrawal request owns

The link between a wallet's one locked balance and the account's many requests is stored
nowhere. `PayoutInv` states it: the locked balance is the sum over the open requests
(`Db.openRequests`), and under a request's reference the ledger holds exactly the rows its
status calls for (`WithdrawRequest.ledger`). The second part also settles `payoutBooked`, which
reads the ledger instead of the status: `PayoutInv.payoutBooked_iff`.

The four operations change the state in four ways, `Db.requested`, `Db.approved`,
`Db.rejected` and `Db.paidOut`. For each the file proves that it keeps the invariant and along
which of the allowed transitions (`WithdrawStatus.Next`) it moves the request. `Quiet` collects
what everything else that moves money leaves alone.
-/

namespace Marketplace

open Sql

/-! ### The quantities -/

/-- The locked balance of an account, `0` where it has no wallet. -/
def Db.lockedBalance (d : Db) (a : ℕ) : ℤ := ((d.wallets.get? a).map Wallet.lockedBalance).getD 0

/-- The available balance of an account, `0` where it has no wallet. -/
def Db.availableBalance (d : Db) (a : ℕ) : ℤ :=
  ((d.wallets.get? a).map Wallet.availableBalance).getD 0

/-- The request still has its amount locked. -/
def WithdrawRequest.IsOpen (q : WithdrawRequest) : Prop :=
  q.status = .pending ∨ q.status = .approved

instance (q : WithdrawRequest) : Decidable q.IsOpen := by
  unfold WithdrawRequest.IsOpen
  infer_instance

/-- What the account's pending and approved requests add up to. -/
def Db.openRequests (d : Db) (a : ℕ) : ℤ :=
  d.withdrawRequests.sum fun _ q => if q.accountId = a ∧ q.IsOpen then q.amount else 0

/-- The rows of the ledger under a request's reference. -/
def Db.withdrawLedger (d : Db) (r : ℕ) : List (TransactionType × ℤ) :=
  (d.transactions.filter fun t => t.referenceId = some (withdrawReference r)).map
    fun t => (t.type, t.amount)

/-- The rows a request in its status calls for. -/
def WithdrawRequest.ledger (q : WithdrawRequest) : List (TransactionType × ℤ) :=
  match q.status with
  | .pending | .approved => [(.withdrawLock, q.amount)]
  | .rejected => [(.withdrawLock, q.amount), (.withdrawUnlock, q.amount)]
  | .paid => [(.withdrawLock, q.amount), (.withdraw, q.netAmount)] ++
      if 0 < q.feeAmount then [(.withdrawFee, q.feeAmount), (.platformFee, q.feeAmount)] else []

/-- The transitions a request may take. -/
inductive WithdrawStatus.Next : WithdrawStatus → WithdrawStatus → Prop
  | approve : Next .pending .approved
  | reject : Next .pending .rejected
  | rejectApproved : Next .approved .rejected
  | pay : Next .approved .paid

/-- No commission of the account was ever clawed back. -/
def Db.NeverClawed (d : Db) (a : ℕ) : Prop :=
  ∀ o c, d.commissions.get? o = some c → c.affiliateAccountId = a → c.clawedBackAt = none

/-- The account does not hold the seller role. -/
def Db.NonSeller (d : Db) (a : ℕ) : Prop :=
  ((d.accounts.get? a).map Account.isSeller).getD false = false

/-- What holds of the withdrawals in every committed state. The accounts in `watch` are ones that
never hold the seller role. -/
structure PayoutInv (watch : ℕ → Prop) (d : Db) : Prop where
  /-- The locked balance is what the open requests add up to. -/
  locked : ∀ a, d.lockedBalance a = d.openRequests a
  /-- The ledger holds the rows the requests call for, and no others under a request's
  reference. -/
  ledger : ∀ r, d.withdrawLedger r = ((d.withdrawRequests.get? r).map WithdrawRequest.ledger).getD []
  /-- The fee leaves something to pay out. -/
  fee : ∀ r q, d.withdrawRequests.get? r = some q →
    0 ≤ q.feeAmount ∧ q.feeAmount < q.amount ∧ q.netAmount = q.amount - q.feeAmount
  commission : ∀ o c, d.commissions.get? o = some c → 0 < c.amount
  nonSeller : ∀ a, watch a → d.NonSeller a
  /-- Where nothing was clawed back, an account that is not a seller asked for no more than it
  earned. -/
  earned : ∀ a, watch a → d.NeverClawed a → d.requestedWithdrawals a ≤ d.earnedCommission a

/-! ### How the quantities move -/

section Moves

variable {d : Db}

@[simp] theorem lockedBalance_modifyWallet (a b : ℕ) (f : Wallet → Wallet) :
    (d.modifyWallet a f).lockedBalance b =
      if b = a then ((d.wallets.get? a).map fun w => (f w).lockedBalance).getD 0
      else d.lockedBalance b := by
  simp only [Db.lockedBalance, Db.modifyWallet_wallets, Table.get?_modify]
  by_cases h : b = a
  · subst h
    simp [Option.map_map, Function.comp_def]
  · simp [h]

@[simp] theorem availableBalance_modifyWallet (a b : ℕ) (f : Wallet → Wallet) :
    (d.modifyWallet a f).availableBalance b =
      if b = a then ((d.wallets.get? a).map fun w => (f w).availableBalance).getD 0
      else d.availableBalance b := by
  simp only [Db.availableBalance, Db.modifyWallet_wallets, Table.get?_modify]
  by_cases h : b = a
  · subst h
    simp [Option.map_map, Function.comp_def]
  · simp [h]

theorem isSome_modifyWallet (a : ℕ) (f : Wallet → Wallet) (b : ℕ)
    (h : (d.wallets.get? b).isSome) : ((d.modifyWallet a f).wallets.get? b).isSome := by
  rw [Db.modifyWallet_wallets, Table.get?_modify]
  split_ifs <;> simp [h]

theorem lockedBalance_of_wallet {a : ℕ} {v : Wallet} (h : d.wallets.get? a = some v) :
    d.lockedBalance a = v.lockedBalance := by simp [Db.lockedBalance, h]

theorem availableBalance_of_wallet {a : ℕ} {v : Wallet} (h : d.wallets.get? a = some v) :
    d.availableBalance a = v.availableBalance := by simp [Db.availableBalance, h]

/-- Appending a row to the ledger appends it under its own reference. -/
theorem withdrawLedger_addTransaction (t : Transaction) (r : ℕ) :
    (d.addTransaction t).withdrawLedger r = d.withdrawLedger r ++
      if t.referenceId = some (withdrawReference r) then [(t.type, t.amount)] else [] := by
  simp only [Db.withdrawLedger, Db.addTransaction_transactions, List.filter_append, List.map_append]
  by_cases h : t.referenceId = some (withdrawReference r) <;> simp [h]

theorem withdrawLedger_book (a : ℕ) (type : TransactionType) (x : ℤ) (q r now : ℕ) :
    (d.addTransaction ⟨a, type, x, some (withdrawReference q), now⟩).withdrawLedger r =
      d.withdrawLedger r ++ if r = q then [(type, x)] else [] := by
  rw [withdrawLedger_addTransaction]
  by_cases h : r = q
  · simp [h]
  · have hne : ¬withdrawReference q = withdrawReference r := fun he =>
      h (withdrawReference_inj.mp he).symm
    simp [h, hne]

variable {r : ℕ} {q : WithdrawRequest} (h : d.withdrawRequests.get? r = some q)
  (f : WithdrawRequest → WithdrawRequest)

include h in
theorem requestedWithdrawals_modify (a : ℕ) :
    (d.modifyWithdrawRequest r f).requestedWithdrawals a +
      (if q.accountId = a ∧ q.status ≠ .rejected then q.amount else 0) =
    d.requestedWithdrawals a +
      if (f q).accountId = a ∧ (f q).status ≠ .rejected then (f q).amount else 0 :=
  Table.sum_modify h f _

theorem openRequests_insert (hr : d.withdrawRequests.get? r = none) (v : WithdrawRequest) (a : ℕ) :
    (d.insertWithdrawRequest r v).openRequests a =
      d.openRequests a + if v.accountId = a ∧ v.IsOpen then v.amount else 0 :=
  Table.sum_insert hr v _

theorem requestedWithdrawals_insert (hr : d.withdrawRequests.get? r = none) (v : WithdrawRequest)
    (a : ℕ) : (d.insertWithdrawRequest r v).requestedWithdrawals a =
      d.requestedWithdrawals a +
        if v.accountId = a ∧ v.status ≠ .rejected then v.amount else 0 :=
  Table.sum_insert hr v _

theorem earnedCommission_insert {o : ℕ} (ho : d.commissions.get? o = none)
    (c : AffiliateCommission) (a : ℕ) : (d.insertCommission o c).earnedCommission a =
      d.earnedCommission a +
        if c.affiliateAccountId = a ∧ c.clawedBackAt = none then c.amount else 0 :=
  Table.sum_insert ho c _

end Moves

/-! ### What leaves the withdrawals alone -/

/-- Two states with the same withdrawals. -/
structure SamePayouts (d d' : Db) : Prop where
  accounts : d'.accounts = d.accounts
  requests : d'.withdrawRequests = d.withdrawRequests
  commissions : d'.commissions = d.commissions
  wallets : ∀ a, (d.wallets.get? a).isSome → (d'.wallets.get? a).isSome
  locked : ∀ a, d'.lockedBalance a = d.lockedBalance a
  ledger : ∀ r, d'.withdrawLedger r = d.withdrawLedger r

/-- A change that leaves the withdrawals alone. -/
def Quiet (g : Db → Db) : Prop := ∀ d, SamePayouts d (g d)

theorem SamePayouts.trans {d₁ d₂ d₃ : Db} (h : SamePayouts d₁ d₂) (h' : SamePayouts d₂ d₃) :
    SamePayouts d₁ d₃ :=
  ⟨h'.accounts.trans h.accounts, h'.requests.trans h.requests,
    h'.commissions.trans h.commissions, fun a ha => h'.wallets a (h.wallets a ha),
    fun a => (h'.locked a).trans (h.locked a), fun r => (h'.ledger r).trans (h.ledger r)⟩

theorem quiet_id : Quiet id := fun _ => ⟨rfl, rfl, rfl, fun _ => id, fun _ => rfl, fun _ => rfl⟩

theorem Quiet.comp {f g : Db → Db} (hf : Quiet f) (hg : Quiet g) : Quiet fun d => g (f d) :=
  fun d => (hf d).trans (hg (f d))

/-- **What the money functions write outside the affiliate programme is quiet.** -/
theorem WalletWrite.quiet {S : ℕ → Prop} {f : Db → Db} (h : WalletWrite S f) : Quiet f := by
  intro d
  cases h with
  | credit a x =>
    refine ⟨rfl, rfl, rfl, isSome_modifyWallet a _, fun b => ?_, fun r => rfl⟩
    rw [lockedBalance_modifyWallet]
    split_ifs with hb
    · rw [hb]
      rfl
    · rfl
  | newWallet a x =>
    refine ⟨rfl, rfl, rfl, fun b => ?_, fun b => ?_, fun r => rfl⟩
    · intro hb
      by_cases hba : b = a
      · subst hba
        obtain ⟨v, hv⟩ := Option.isSome_iff_exists.mp hb
        have hmem : b ∈ d.wallets.rows.map Prod.fst :=
          List.mem_map.mpr ⟨_, Table.get?_eq_some_iff.mp hv, rfl⟩
        simp only [Db.insertWallet_wallets, Table.insert, dif_pos hmem, hv, Option.isSome_some]
      · rwa [Db.insertWallet_wallets, Table.get?_insert_of_ne hba]
    rcases hw : d.wallets.get? a with _ | v
    · simp only [Db.lockedBalance, Db.insertWallet_wallets, Table.get?_insert hw]
      by_cases hb : b = a
      · simp [hb, hw]
      · simp [hb]
    · have hmem : a ∈ d.wallets.rows.map Prod.fst :=
        List.mem_map.mpr ⟨_, Table.get?_eq_some_iff.mp hw, rfl⟩
      simp only [Db.lockedBalance, Db.insertWallet_wallets, Table.insert, dif_pos hmem]
  | book t ht =>
    refine ⟨rfl, rfl, rfl, fun _ => id, fun b => rfl, fun r => ?_⟩
    rw [withdrawLedger_addTransaction, if_neg (ht r), List.append_nil]
  | refunded o x _ => exact ⟨rfl, rfl, rfl, fun _ => id, fun b => rfl, fun r => rfl⟩
  | newCashback o v => exact ⟨rfl, rfl, rfl, fun _ => id, fun b => rfl, fun r => rfl⟩
  | cashback o f => exact ⟨rfl, rfl, rfl, fun _ => id, fun b => rfl, fun r => rfl⟩
  | deposit i f => exact ⟨rfl, rfl, rfl, fun _ => id, fun b => rfl, fun r => rfl⟩

theorem quiet_fund (x : ℤ) : Quiet (Db.addFundBalance x) :=
  fun _ => ⟨rfl, rfl, rfl, fun _ => id, fun _ => rfl, fun _ => rfl⟩

theorem quiet_fundEntry (e : AffiliateFundEntry) : Quiet (Db.addFundEntry e) :=
  fun _ => ⟨rfl, rfl, rfl, fun _ => id, fun _ => rfl, fun _ => rfl⟩

section Same

variable {d d' : Db} (h : SamePayouts d d')

include h

theorem SamePayouts.openRequests (a : ℕ) : d'.openRequests a = d.openRequests a := by
  rw [Db.openRequests, h.requests]
  rfl

theorem SamePayouts.requestedWithdrawals (a : ℕ) :
    d'.requestedWithdrawals a = d.requestedWithdrawals a := by
  rw [Db.requestedWithdrawals, h.requests]
  rfl

theorem SamePayouts.earnedCommission (a : ℕ) : d'.earnedCommission a = d.earnedCommission a := by
  rw [Db.earnedCommission, h.commissions]
  rfl

theorem SamePayouts.neverClawed (a : ℕ) : d'.NeverClawed a ↔ d.NeverClawed a := by
  rw [Db.NeverClawed, h.commissions]
  rfl

theorem SamePayouts.nonSeller (a : ℕ) : d'.NonSeller a ↔ d.NonSeller a := by
  rw [Db.NonSeller, h.accounts]
  rfl

theorem SamePayouts.inv {watch : ℕ → Prop} (hI : PayoutInv watch d) : PayoutInv watch d' where
  locked a := by rw [h.locked, h.openRequests, hI.locked]
  ledger r := by rw [h.ledger, h.requests, hI.ledger]
  fee r q hq := hI.fee r q (h.requests ▸ hq)
  commission o c hc := hI.commission o c (h.commissions ▸ hc)
  nonSeller a ha := (h.nonSeller a).mpr (hI.nonSeller a ha)
  earned a ha hc := by
    rw [h.requestedWithdrawals, h.earnedCommission]
    exact hI.earned a ha ((h.neverClawed a).mp hc)

end Same

/-! ### The four changes -/

/-- What `requestWithdraw` does. -/
def Db.requested (d : Db) (r a : ℕ) (amount : ℤ) (q : WithdrawRequest) (now : ℕ) : Db :=
  Db.addTransaction ⟨a, .withdrawLock, amount, some (withdrawReference r), now⟩
    (Db.insertWithdrawRequest r q (Db.modifyWallet a (fun w =>
      { availableBalance := w.availableBalance - amount
        lockedBalance := w.lockedBalance + amount }) d))

/-- What `approveWithdrawal` does. -/
def Db.approved (d : Db) (r : ℕ) : Db :=
  Db.modifyWithdrawRequest r (fun q => { q with status := .approved }) d

/-- What `rejectWithdrawal` does. -/
def Db.rejected (d : Db) (r : ℕ) (q : WithdrawRequest) (reason : String) (now : ℕ) : Db :=
  Db.modifyWithdrawRequest r (fun q => { q with status := .rejected, rejectReason := some reason })
    (Db.addTransaction
      ⟨q.accountId, .withdrawUnlock, q.amount, some (withdrawReference r), now⟩
      (Db.modifyWallet q.accountId (fun w =>
        { availableBalance := w.availableBalance + q.amount
          lockedBalance := w.lockedBalance - q.amount }) d))

/-- What `bookPayout` does to the requester's own wallet and ledger. -/
def Db.bookedNet (d : Db) (r : ℕ) (q : WithdrawRequest) (now : ℕ) : Db :=
  Db.addTransaction
    ⟨q.accountId, .withdraw, q.amount - q.feeAmount, some (withdrawReference r), now⟩
    (Db.modifyWallet q.accountId (fun w =>
      { w with lockedBalance := w.lockedBalance - q.amount }) d)

/-- What `bookPayout` does with the fee. -/
def Db.bookedFee (d : Db) (r : ℕ) (q : WithdrawRequest) (platform now : ℕ) : Db :=
  Db.addTransaction ⟨platform, .platformFee, q.feeAmount, some (withdrawReference r), now⟩
    (Db.modifyWallet platform (fun w =>
      { w with availableBalance := w.availableBalance + q.feeAmount })
      (Db.addTransaction ⟨q.accountId, .withdrawFee, q.feeAmount, some (withdrawReference r), now⟩ d))

/-- What `bookPayout` does. -/
def Db.booked (d : Db) (r : ℕ) (q : WithdrawRequest) (platform now : ℕ) : Db :=
  if 0 < q.feeAmount then (d.bookedNet r q now).bookedFee r q platform now else d.bookedNet r q now

/-- What `markWithdrawalPaid` does. -/
def Db.paidOut (d : Db) (r : ℕ) (q : WithdrawRequest) (reference : String)
    (platform bookedAt paidAt : ℕ) : Db :=
  Db.modifyWithdrawRequest r (fun q =>
    { q with status := .paid, payoutReference := some reference, paidAt := some paidAt })
    (d.booked r q platform bookedAt)

/-- What booking a payout leaves alone. -/
theorem booked_same {d : Db} (r : ℕ) (q : WithdrawRequest) (platform now : ℕ) :
    (d.booked r q platform now).accounts = d.accounts ∧
      (d.booked r q platform now).withdrawRequests = d.withdrawRequests ∧
      (d.booked r q platform now).commissions = d.commissions ∧
      ∀ b, (d.wallets.get? b).isSome → ((d.booked r q platform now).wallets.get? b).isSome := by
  have hnet : ∀ b, (d.wallets.get? b).isSome → ((d.bookedNet r q now).wallets.get? b).isSome :=
    isSome_modifyWallet q.accountId _
  rw [Db.booked]
  split_ifs
  · exact ⟨rfl, rfl, rfl, fun b hb => isSome_modifyWallet (d := d.bookedNet r q now) platform _ b
      (hnet b hb)⟩
  · exact ⟨rfl, rfl, rfl, hnet⟩

section Changes

variable {watch : ℕ → Prop} {d : Db} (hI : PayoutInv watch d)

include hI

theorem PayoutInv.withdrawRows_eq (r : ℕ) : d.withdrawRows r =
    (((d.withdrawRequests.get? r).map WithdrawRequest.ledger).getD []).map Prod.fst := by
  rw [← hI.ledger r, Db.withdrawLedger, List.map_map]
  rfl

/-- **Whether a payout is booked is decided by the status**: a request's own rows are always
there, so the rule for old requests never applies. -/
theorem PayoutInv.payoutBooked_iff {r : ℕ} {q : WithdrawRequest}
    (h : d.withdrawRequests.get? r = some q) : d.payoutBooked r q ↔ q.status = .paid := by
  have hrows := hI.withdrawRows_eq r
  rw [h] at hrows
  change _ = q.ledger.map Prod.fst at hrows
  rw [Db.payoutBooked, hrows]
  rcases hs : q.status with _ | _ | _ | _ <;> simp [WithdrawRequest.ledger, hs]

/-- Whatever moves a request along with its rows keeps the invariant. -/
theorem PayoutInv.move {d' : Db} {r : ℕ} {q q' : WithdrawRequest}
    (h : d.withdrawRequests.get? r = some q) (hacc : d'.accounts = d.accounts)
    (hcom : d'.commissions = d.commissions)
    (hreq : ∃ f, d'.withdrawRequests = d.withdrawRequests.modify r f ∧ f q = q')
    (hsame : q'.accountId = q.accountId ∧ q'.amount = q.amount ∧ q'.feeAmount = q.feeAmount ∧
      q'.netAmount = q.netAmount)
    (hstatus : q.status ≠ .rejected)
    (hlocked : ∀ a, d'.lockedBalance a + (if q.accountId = a ∧ q.IsOpen then q.amount else 0) =
      d.lockedBalance a + if q.accountId = a ∧ q'.IsOpen then q.amount else 0)
    (hledger : ∀ r', d'.withdrawLedger r' = if r' = r then q'.ledger else d.withdrawLedger r') :
    PayoutInv watch d' := by
  obtain ⟨f, hf, rfl⟩ := hreq
  obtain ⟨hs1, hs2, hs3, hs4⟩ := hsame
  have hpos := hI.fee r q h
  refine ⟨fun a => ?_, fun r' => ?_, fun r' p hp => ?_, fun o c hc => ?_, fun a ha => ?_,
    fun a ha hn => ?_⟩
  · have hsum := Table.sum_modify h f
      (fun _ p => if p.accountId = a ∧ p.IsOpen then p.amount else (0 : ℤ))
    have hopen : d'.openRequests a + (if q.accountId = a ∧ q.IsOpen then q.amount else 0) =
        d.openRequests a + if (f q).accountId = a ∧ (f q).IsOpen then (f q).amount else 0 := by
      rw [Db.openRequests, hf]
      exact hsum
    rw [hs1, hs2] at hopen
    have hl := hlocked a
    have h0 := hI.locked a
    linarith
  · rw [hledger, hf, Table.get?_modify]
    by_cases hr : r' = r
    · simp [hr, h]
    · rw [if_neg hr, if_neg hr]
      exact hI.ledger r'
  · rw [hf, Table.get?_modify] at hp
    by_cases hr : r' = r
    · rw [if_pos hr, hr, h] at hp
      obtain rfl : f q = p := by simpa using hp
      rw [hs2, hs3, hs4]
      exact hpos
    · rw [if_neg hr] at hp
      exact hI.fee r' p hp
  · exact hI.commission o c (hcom ▸ hc)
  · rw [Db.NonSeller, hacc]
    exact hI.nonSeller a ha
  · have hsum := Table.sum_modify h f
      (fun _ p => if p.accountId = a ∧ p.status ≠ .rejected then p.amount else (0 : ℤ))
    have hreq : d'.requestedWithdrawals a +
          (if q.accountId = a ∧ q.status ≠ .rejected then q.amount else 0) =
        d.requestedWithdrawals a +
          if (f q).accountId = a ∧ (f q).status ≠ .rejected then (f q).amount else 0 := by
      rw [Db.requestedWithdrawals, hf]
      exact hsum
    have hold : d.requestedWithdrawals a ≤ d.earnedCommission a := by
      refine hI.earned a ha ?_
      rwa [Db.NeverClawed, hcom] at hn
    have he : d'.earnedCommission a = d.earnedCommission a := by
      rw [Db.earnedCommission, hcom]
      rfl
    rw [he]
    rw [hs1, hs2] at hreq
    have h1 : (if q.accountId = a ∧ (f q).status ≠ .rejected then q.amount else 0) ≤
        if q.accountId = a ∧ q.status ≠ .rejected then q.amount else 0 := by
      by_cases hqa : q.accountId = a
      · simp only [hqa, true_and, if_pos hstatus]
        split_ifs <;> omega
      · simp [hqa]
    linarith

theorem PayoutInv.approved {r : ℕ} {q : WithdrawRequest} (h : d.withdrawRequests.get? r = some q)
    (hs : q.status = .pending) : PayoutInv watch (d.approved r) := by
  refine hI.move h rfl rfl ⟨fun p => { p with status := .approved }, rfl, rfl⟩
    ⟨rfl, rfl, rfl, rfl⟩ (by simp [hs]) (fun a => ?_) fun r' => ?_
  · simp [WithdrawRequest.IsOpen, hs]
    rfl
  · have hl := hI.ledger r
    rw [h] at hl
    by_cases hr : r' = r
    · rw [if_pos hr, hr]
      refine Eq.trans ?_ (hl.trans ?_)
      · rfl
      · simp [WithdrawRequest.ledger, hs]
    · rw [if_neg hr]
      rfl

theorem PayoutInv.rejected {r : ℕ} {q : WithdrawRequest} {v : Wallet}
    (h : d.withdrawRequests.get? r = some q) (hs : q.IsOpen)
    (hv : d.wallets.get? q.accountId = some v) (reason : String) (now : ℕ) :
    PayoutInv watch (d.rejected r q reason now) := by
  refine hI.move h rfl rfl
    ⟨fun p => { p with status := .rejected, rejectReason := some reason }, rfl, rfl⟩
    ⟨rfl, rfl, rfl, rfl⟩ ?_ (fun a => ?_) fun r' => ?_
  · rcases hs with hs | hs <;> simp [hs]
  · have hl : (d.rejected r q reason now).lockedBalance a =
        if a = q.accountId then v.lockedBalance - q.amount else d.lockedBalance a := by
      have hm := lockedBalance_modifyWallet (d := d) q.accountId a fun w =>
        { availableBalance := w.availableBalance + q.amount
          lockedBalance := w.lockedBalance - q.amount }
      rw [hv] at hm
      exact hm
    have hnot : ¬(WithdrawRequest.IsOpen
        { q with status := .rejected, rejectReason := some reason }) := by
      simp [WithdrawRequest.IsOpen]
    rw [hl]
    by_cases ha : a = q.accountId
    · subst ha
      simp [hs, hnot, lockedBalance_of_wallet hv]
    · have ha' : ¬q.accountId = a := fun he => ha he.symm
      simp [ha, ha']
  · have hl := hI.ledger r
    rw [h] at hl
    have hb := withdrawLedger_book (d := Db.modifyWallet q.accountId (fun w =>
        { availableBalance := w.availableBalance + q.amount
          lockedBalance := w.lockedBalance - q.amount }) d) q.accountId .withdrawUnlock q.amount r r' now
    refine Eq.trans hb ?_
    by_cases hr : r' = r
    · subst hr
      rw [if_pos rfl, if_pos rfl]
      have h0 : (Db.modifyWallet q.accountId (fun w =>
        { availableBalance := w.availableBalance + q.amount
          lockedBalance := w.lockedBalance - q.amount }) d).withdrawLedger r' = q.ledger := hl
      rw [h0]
      rcases hs with hs | hs <;> simp [WithdrawRequest.ledger, hs]
    · rw [if_neg hr, if_neg hr, List.append_nil]
      rfl

omit hI in
theorem lockedBalance_booked {r : ℕ} {q : WithdrawRequest} {v : Wallet}
    (hv : d.wallets.get? q.accountId = some v) (platform now a : ℕ) :
    (d.booked r q platform now).lockedBalance a =
      if a = q.accountId then v.lockedBalance - q.amount else d.lockedBalance a := by
  have hnet : (d.bookedNet r q now).lockedBalance a =
      if a = q.accountId then v.lockedBalance - q.amount else d.lockedBalance a := by
    have hm := lockedBalance_modifyWallet (d := d) q.accountId a fun w =>
      { w with lockedBalance := w.lockedBalance - q.amount }
    rw [hv] at hm
    exact hm
  rw [← hnet]
  by_cases hfee : 0 < q.feeAmount
  · rw [Db.booked, if_pos hfee]
    exact ((WalletWrite.credit (S := fun _ => True) platform q.feeAmount).quiet
      (Db.addTransaction _ (d.bookedNet r q now))).locked a
  · rw [Db.booked, if_neg hfee]

omit hI in
theorem withdrawLedger_booked {r : ℕ} (q : WithdrawRequest) (platform now r' : ℕ) :
    (d.booked r q platform now).withdrawLedger r' = d.withdrawLedger r' ++
      if r' = r then
        [(.withdraw, q.amount - q.feeAmount)] ++
          if 0 < q.feeAmount then [(.withdrawFee, q.feeAmount), (.platformFee, q.feeAmount)] else []
      else [] := by
  have hnet : (d.bookedNet r q now).withdrawLedger r' = d.withdrawLedger r' ++
      if r' = r then [(.withdraw, q.amount - q.feeAmount)] else [] :=
    withdrawLedger_book _ _ _ _ _ _
  by_cases hfee : 0 < q.feeAmount
  · rw [Db.booked, if_pos hfee, Db.bookedFee, withdrawLedger_book]
    have hmid := withdrawLedger_book (d := d.bookedNet r q now) q.accountId .withdrawFee
      q.feeAmount r r' now
    refine Eq.trans (congrArg (· ++ _) hmid) ?_
    rw [hnet]
    by_cases hr : r' = r <;> simp [hr, hfee]
  · rw [Db.booked, if_neg hfee, hnet]
    simp [hfee]

theorem PayoutInv.paidOut {r : ℕ} {q : WithdrawRequest} {v : Wallet}
    (h : d.withdrawRequests.get? r = some q) (hs : q.status = .approved)
    (hv : d.wallets.get? q.accountId = some v) (reference : String) (platform bookedAt paidAt : ℕ) :
    PayoutInv watch (d.paidOut r q reference platform bookedAt paidAt) := by
  obtain ⟨hacc, hreq, hcom, -⟩ := booked_same (d := d) r q platform bookedAt
  refine hI.move h ?_ ?_ ⟨fun p =>
      { p with status := .paid, payoutReference := some reference, paidAt := some paidAt }, ?_, rfl⟩
    ⟨rfl, rfl, rfl, rfl⟩ (by simp [hs]) (fun a => ?_) fun r' => ?_
  · exact hacc
  · exact hcom
  · rw [Db.paidOut, Db.modifyWithdrawRequest_withdrawRequests, hreq]
  · have hl := lockedBalance_booked (r := r) hv platform bookedAt a
    have hnot : ¬(WithdrawRequest.IsOpen { q with
        status := .paid, payoutReference := some reference, paidAt := some paidAt }) := by
      simp [WithdrawRequest.IsOpen]
    have hopen : q.IsOpen := Or.inr hs
    change (d.booked r q platform bookedAt).lockedBalance a + _ = _
    rw [hl]
    by_cases ha : a = q.accountId
    · subst ha
      simp [hopen, hnot, lockedBalance_of_wallet hv]
    · have ha' : ¬q.accountId = a := fun he => ha he.symm
      simp [ha, ha']
  · have hl := hI.ledger r
    rw [h] at hl
    change d.withdrawLedger r = q.ledger at hl
    change (d.booked r q platform bookedAt).withdrawLedger r' = _
    rw [withdrawLedger_booked]
    by_cases hr : r' = r
    · subst hr
      rw [if_pos rfl, if_pos rfl, hl]
      have hnet := (hI.fee r' q h).2.2
      simp [WithdrawRequest.ledger, hs, hnet]
    · rw [if_neg hr, if_neg hr, List.append_nil]

theorem PayoutInv.requested {r a : ℕ} {amount : ℤ} {v : Wallet} (cfg : Settings)
    (source : WithdrawSource) (hr : d.withdrawRequests.get? r = none)
    (hv : d.wallets.get? a = some v)
    (hfee : 0 < amount - withdrawFeeAmount cfg amount)
    (hcap : watch a → d.requestedWithdrawals a + amount ≤ d.earnedCommission a) :
    PayoutInv watch (d.requested r a amount (newWithdrawRequest cfg a amount source) cfg.startedAt) := by
  have hfee0 := withdrawFeeAmount_nonneg cfg amount
  have hlocked : ∀ b, (d.requested r a amount (newWithdrawRequest cfg a amount source)
      cfg.startedAt).lockedBalance b = d.lockedBalance b + if b = a then amount else 0 := by
    intro b
    have hm := lockedBalance_modifyWallet (d := d) a b fun w =>
      { availableBalance := w.availableBalance - amount
        lockedBalance := w.lockedBalance + amount }
    rw [hv] at hm
    refine Eq.trans hm ?_
    by_cases hb : b = a
    · simp [hb, lockedBalance_of_wallet hv]
    · simp [hb]
  refine ⟨fun b => ?_, fun r' => ?_, fun r' q hq => ?_, fun o c hc => hI.commission o c hc,
    fun b hb => hI.nonSeller b hb, fun b hb hn => ?_⟩
  · rw [hlocked, hI.locked]
    have ho : (d.requested r a amount (newWithdrawRequest cfg a amount source)
        cfg.startedAt).openRequests b = _ :=
      openRequests_insert (d := Db.modifyWallet a _ d) hr (newWithdrawRequest cfg a amount source) b
    rw [ho]
    by_cases hb : b = a
    · subst hb
      simp [newWithdrawRequest, WithdrawRequest.IsOpen]
      rfl
    · have hb' : ¬a = b := fun he => hb he.symm
      simp [newWithdrawRequest, hb, hb']
      rfl
  · have hl : (d.requested r a amount (newWithdrawRequest cfg a amount source)
        cfg.startedAt).withdrawLedger r' = _ :=
      withdrawLedger_book a .withdrawLock amount r r' cfg.startedAt
    have hg : (d.requested r a amount (newWithdrawRequest cfg a amount source)
        cfg.startedAt).withdrawRequests.get? r' = _ := Table.get?_insert hr _ r'
    rw [hl, hg]
    have hold := hI.ledger r'
    by_cases hr' : r' = r
    · subst hr'
      rw [hr] at hold
      have h0 : (Db.insertWithdrawRequest r' (newWithdrawRequest cfg a amount source)
        (Db.modifyWallet a (fun w =>
          { availableBalance := w.availableBalance - amount
            lockedBalance := w.lockedBalance + amount }) d)).withdrawLedger r' = [] := hold
      rw [h0, if_pos rfl, if_pos rfl]
      simp [WithdrawRequest.ledger, newWithdrawRequest]
    · rw [if_neg hr', if_neg hr', List.append_nil]
      exact hold
  · have hg : (d.requested r a amount (newWithdrawRequest cfg a amount source)
        cfg.startedAt).withdrawRequests.get? r' = _ := Table.get?_insert hr _ r'
    rw [hg] at hq
    by_cases hr' : r' = r
    · rw [if_pos hr'] at hq
      obtain rfl : newWithdrawRequest cfg a amount source = q := by simpa using hq
      exact ⟨hfee0, by simp only [newWithdrawRequest]; omega, rfl⟩
    · rw [if_neg hr'] at hq
      exact hI.fee r' q hq
  · have hreq : (d.requested r a amount (newWithdrawRequest cfg a amount source)
        cfg.startedAt).requestedWithdrawals b = _ :=
      requestedWithdrawals_insert (d := Db.modifyWallet a _ d) hr
        (newWithdrawRequest cfg a amount source) b
    rw [hreq]
    by_cases hab : a = b
    · subst hab
      have hc := hcap hb
      simp [newWithdrawRequest]
      exact hc
    · simp [newWithdrawRequest, hab]
      exact hI.earned b hb hn

end Changes

end Marketplace
