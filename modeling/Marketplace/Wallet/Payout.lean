import Marketplace.Wallet.Requests

/-!
# Withdrawals under concurrency

Any number of sessions ask for withdrawals, approve, reject and pay them, while others move money
in and out of the same wallets, pay commissions and take them back. `PayoutCall` lists the
transactions, `payoutMachine` lets their statements interleave.

What holds the withdrawals together is which rows are locked: a request's row by
everyone who moves it, the wallet's row by everyone who changes what it has locked, what the account
has earned, or what it asked for. `PayoutRel` says so, `payoutMachine_correct` proves it of every
transaction, and the invariant `PayoutInv` of `Marketplace.Wallet.Requests` then
holds in every reachable state.
-/

namespace Marketplace

open Sql

/-! ### The transactions -/

/-- A function that moves money inside a larger transaction. -/
inductive MoneyOp
  | topup (cfg : Settings) (accountId : ℕ) (amount : ℤ) (source : TopupSource)
      (reason : Option String)
  | adminDebit (cfg : Settings) (accountId : ℕ) (amount : ℤ) (reason : String)
  | applyDepositPaid (cfg : Settings) (intentId accountId : ℕ) (paidAmount : ℤ)
      (reference : Option String)
  | deductCredit (cfg : Settings) (accountId : ℕ) (amount : ℤ) (orderId : ℕ) (suffix : String)
  | releaseEscrow (cfg : Settings) (orderId sellerId : ℕ) (amount platformFee : ℤ)
  | refundEscrow (cfg : Settings) (orderId buyerId : ℕ) (amount : ℤ) (suffix : String)
  | applyBuyerCashback (cfg : Settings) (orderId : ℕ) (order : Order)
  | clawbackBuyerCashback (cfg : Settings) (orderId : ℕ)
  | applyAffiliateCommission (cfg : Settings) (orderId : ℕ) (order : Order)
  | clawbackCommissionForOrder (cfg : Settings) (orderId : ℕ)

/-- The function itself. -/
def MoneyOp.code : MoneyOp → Tx Unit
  | .topup cfg a x source reason => Marketplace.topup cfg a x source reason
  | .adminDebit cfg a x reason => Marketplace.adminDebit cfg a x reason
  | .applyDepositPaid cfg i a x reference => Marketplace.applyDepositPaid cfg i a x reference
  | .deductCredit cfg a x o suffix => Marketplace.deductCredit cfg a x (orderReference o suffix)
  | .releaseEscrow cfg o seller x fee => Marketplace.releaseEscrow cfg o seller x fee
  | .refundEscrow cfg o buyer x suffix => Marketplace.refundEscrow cfg o buyer x suffix
  | .applyBuyerCashback cfg o order => Marketplace.applyBuyerCashback cfg o order
  | .clawbackBuyerCashback cfg o => Marketplace.clawbackBuyerCashback cfg o
  | .applyAffiliateCommission cfg o order => Marketplace.applyAffiliateCommission cfg o order
  | .clawbackCommissionForOrder cfg o => Marketplace.clawbackCommissionForOrder cfg o

/-- A transaction that touches withdrawals or what they depend on. -/
inductive PayoutCall
  | requestWithdraw (cfg : Settings) (reqId accountId : ℕ) (amount : ℤ)
  | approveWithdrawal (reqId : ℕ)
  | rejectWithdrawal (cfg : Settings) (reqId : ℕ) (reason : String)
  | markWithdrawalPaid (cfg : Settings) (reqId : ℕ) (payoutReference : String)
  /-- Any composition of the money functions, committed as one. -/
  | book (ops : List MoneyOp)
  /-- An account is changed, its roles included. -/
  | changeAccount (accountId : ℕ) (f : Account → Account)

/-- The transaction itself. -/
def PayoutCall.code : PayoutCall → Tx Unit
  | .requestWithdraw cfg r a x => Marketplace.requestWithdraw cfg r a x
  | .approveWithdrawal r => Marketplace.approveWithdrawal r
  | .rejectWithdrawal cfg r reason => Marketplace.rejectWithdrawal cfg r reason
  | .markWithdrawalPaid cfg r reference => Marketplace.markWithdrawalPaid cfg r reference
  | .book ops => Tx.forEach ops MoneyOp.code
  | .changeAccount a f => Tx.modify (Db.modifyAccount a f)

/-- The change leaves accounts in `watch` without the seller role. -/
def PayoutCall.KeepsNonSellers (watch : ℕ → Prop) : PayoutCall → Prop
  | .changeAccount a f => watch a → ∀ v, v.isSeller = false → (f v).isSeller = false
  | _ => True

/-- All of them at once. The accounts in `watch` never get the seller role; with an empty
`watch` the runs are not restricted at all. -/
def payoutMachine (watch : ℕ → Prop) : Machine Db RowKey Abort Unit PayoutCall where
  code := PayoutCall.code
  allows c _ _ := c.KeepsNonSellers watch

/-! ### What the locks protect -/

/-- What the other sessions may change while the rows `L` are locked. -/
structure PayoutRel (L : List RowKey) (d d' : Db) : Prop where
  request : ∀ r, .withdrawRequest r ∈ L → d'.withdrawRequests.get? r = d.withdrawRequests.get? r
  commission : ∀ o, .commission o ∈ L → d'.commissions.get? o = d.commissions.get? o
  wallet : ∀ a, .wallet a ∈ L → d'.lockedBalance a = d.lockedBalance a ∧
    d'.earnedCommission a = d.earnedCommission a ∧
      d'.requestedWithdrawals a = d.requestedWithdrawals a
  wallets : ∀ a, (d.wallets.get? a).isSome → (d'.wallets.get? a).isSome

theorem PayoutRel.refl (L : List RowKey) (d : Db) : PayoutRel L d d :=
  ⟨fun _ _ => rfl, fun _ _ => rfl, fun _ _ => ⟨rfl, rfl, rfl⟩, fun _ => id⟩

theorem PayoutRel.trans {L : List RowKey} {d₁ d₂ d₃ : Db} (h : PayoutRel L d₁ d₂)
    (h' : PayoutRel L d₂ d₃) : PayoutRel L d₁ d₃ where
  request r hr := (h'.request r hr).trans (h.request r hr)
  commission o ho := (h'.commission o ho).trans (h.commission o ho)
  wallet a ha := by
    obtain ⟨h1, h2, h3⟩ := h.wallet a ha
    obtain ⟨h1', h2', h3'⟩ := h'.wallet a ha
    exact ⟨h1'.trans h1, h2'.trans h2, h3'.trans h3⟩
  wallets a ha := h'.wallets a (h.wallets a ha)

theorem PayoutRel.anti {L L' : List RowKey} {d₁ d₂ : Db} (hL : L ⊆ L') (h : PayoutRel L' d₁ d₂) :
    PayoutRel L d₁ d₂ :=
  ⟨fun r hr => h.request r (hL hr), fun o ho => h.commission o (hL ho),
    fun a ha => h.wallet a (hL ha), h.wallets⟩

/-- The rely of a withdrawal. -/
def payoutRely : Rely Db RowKey := ⟨PayoutRel, PayoutRel.refl, PayoutRel.trans, PayoutRel.anti⟩

theorem SamePayouts.payoutRel {d d' : Db} (h : SamePayouts d d') (L : List RowKey) :
    PayoutRel L d d' :=
  ⟨fun r _ => by rw [h.requests], fun o _ => by rw [h.commissions],
    fun a _ => ⟨h.locked a, h.earnedCommission a, h.requestedWithdrawals a⟩, h.wallets⟩

/-- What one step does to the requests. -/
structure PayoutStep (d d' : Db) : Prop where
  /-- A request stays what it is and moves along an allowed transition. Rejecting it gives the whole
  amount back. -/
  moved : ∀ r q, d.withdrawRequests.get? r = some q → ∃ q', d'.withdrawRequests.get? r = some q' ∧
    q'.accountId = q.accountId ∧ q'.amount = q.amount ∧ q'.feeAmount = q.feeAmount ∧
    q'.netAmount = q.netAmount ∧ (q'.status = q.status ∨ q.status.Next q'.status) ∧
    (q'.status = .rejected → q.status ≠ .rejected →
      d'.availableBalance q.accountId = d.availableBalance q.accountId + q.amount)
  /-- A new request is pending. -/
  created : ∀ r q', d.withdrawRequests.get? r = none → d'.withdrawRequests.get? r = some q' →
    q'.status = .pending

theorem payoutStep_of_eq {d d' : Db} (h : d'.withdrawRequests = d.withdrawRequests) :
    PayoutStep d d' where
  moved r q hq := ⟨q, by rw [h, hq], rfl, rfl, rfl, rfl, Or.inl rfl, fun hr hn => absurd hr hn⟩
  created r q' hn hq' := by
    rw [h, hn] at hq'
    exact absurd hq' (by simp)

/-- A step that moves one request. -/
theorem payoutStep_modify {d d' : Db} {r : ℕ} {q : WithdrawRequest}
    {f : WithdrawRequest → WithdrawRequest} (h : d.withdrawRequests.get? r = some q)
    (hf : d'.withdrawRequests = d.withdrawRequests.modify r f)
    (hsame : (f q).accountId = q.accountId ∧ (f q).amount = q.amount ∧
      (f q).feeAmount = q.feeAmount ∧ (f q).netAmount = q.netAmount)
    (hnext : q.status.Next (f q).status)
    (hback : (f q).status = .rejected →
      d'.availableBalance q.accountId = d.availableBalance q.accountId + q.amount) :
    PayoutStep d d' := by
  obtain ⟨h1, h2, h3, h4⟩ := hsame
  refine ⟨fun r' p hp => ?_, fun r' p' hn hp' => ?_⟩
  · by_cases hr : r' = r
    · subst hr
      obtain rfl : q = p := by simpa [h] using hp
      exact ⟨f q, by rw [hf, Table.get?_modify_self, h, Option.map_some], h1, h2, h3, h4,
        Or.inr hnext, fun hs _ => hback hs⟩
    · exact ⟨p, by rw [hf, Table.get?_modify_of_ne _ hr, hp], rfl, rfl, rfl, rfl, Or.inl rfl,
        fun hs hns => absurd hs hns⟩
  · rw [hf, Table.get?_modify, hn] at hp'
    split_ifs at hp'
    · simp at hp'

/-- What a commit of a call owes: a step of the requests and, where it accepts a request of an
account that never sells, the cap. -/
def PayoutPost (watch : ℕ → Prop) (c : PayoutCall) (_ : Unit) (d d' : Db) : Prop :=
  PayoutStep d d' ∧ ∀ cfg r a x, c = .requestWithdraw cfg r a x → watch a →
    d'.requestedWithdrawals a ≤ d'.earnedCommission a

/-- Moving one request changes nothing another session may rely on. -/
theorem payoutRel_modify {L L' : List RowKey} {d d' : Db} {r : ℕ} {q : WithdrawRequest}
    {f : WithdrawRequest → WithdrawRequest} (hL : LocksDisjoint L L')
    (hr : .withdrawRequest r ∈ L) (ha : .wallet q.accountId ∈ L)
    (h : d.withdrawRequests.get? r = some q)
    (hf : d'.withdrawRequests = d.withdrawRequests.modify r f)
    (hacc : (f q).accountId = q.accountId) (hcom : d'.commissions = d.commissions)
    (hlocked : ∀ b, b ≠ q.accountId → d'.lockedBalance b = d.lockedBalance b)
    (hw : ∀ b, (d.wallets.get? b).isSome → (d'.wallets.get? b).isSome) : PayoutRel L' d d' where
  request r' hr' := by
    have hne : r' ≠ r := fun he => hL _ hr (he ▸ hr')
    rw [hf, Table.get?_modify_of_ne _ hne]
  commission o _ := by rw [hcom]
  wallet b hb := by
    have hne : b ≠ q.accountId := fun he => hL _ ha (he ▸ hb)
    refine ⟨hlocked b hne, ?_, ?_⟩
    · rw [Db.earnedCommission, hcom]
      rfl
    · have hsum := requestedWithdrawals_modify h f b
      rw [hacc, if_neg fun hc => hne hc.1.symm, if_neg fun hc => hne hc.1.symm, add_zero,
        add_zero] at hsum
      rw [← hsum, Db.requestedWithdrawals, hf]
      rfl
  wallets := hw

/-! ### The four operations -/

section Operations

variable {watch : ℕ → Prop}

/-- What a call owes at its commit. -/
abbrev payoutOwes (watch : ℕ → Prop) (c : PayoutCall) :
    Unit → (Db → Db) → List RowKey → List Db → Db → Prop :=
  Commits payoutRely (PayoutInv watch) (payoutMachine watch) (PayoutPost watch) c

/-- `withdrawSource` lets an account that never sells ask only for what it earned. -/
theorem wp_withdrawSource {cfg : Settings} {a : ℕ} {x : ℤ} {L : List RowKey} {s : List Db} {d : Db}
    (hx : 0 < x) :
    (withdrawSource cfg a x).wp payoutRely (PayoutInv watch)
      (fun _ w L' _ d' => w = id ∧ L' = L ∧ PayoutRel L d d' ∧
        (watch a → ∃ d₁, PayoutRel L d₁ d' ∧
          d₁.requestedWithdrawals a + x ≤ d₁.earnedCommission a)) id L s d := by
  simp only [withdrawSource, Tx.wp_bind, Tx.wp_read, Tx.wp_ite, Tx.wp_require, Tx.wp_pure, id]
  refine fun d₁ hd₁ hI₁ => ⟨fun hseller _ => ⟨trivial, trivial, hd₁, fun ha => ?_⟩,
    fun _ d₂ hd₂ hI₂ hcap => ⟨trivial, trivial, PayoutRel.trans hd₁ hd₂, fun _ => ?_⟩⟩
  · exact absurd hseller (by simpa [Db.NonSeller] using hI₁.nonSeller a ha)
  · have hmin : x ≤ d₂.earnedCommission a - d₂.requestedWithdrawals a := by
      rw [Db.withdrawableCommission] at hcap
      omega
    exact ⟨d₂, PayoutRel.refl L d₂, by omega⟩

theorem requestWithdraw_owes (cfg : Settings) (r a : ℕ) (x : ℤ) (d : Db) :
    (requestWithdraw cfg r a x).wp payoutRely (PayoutInv watch)
      (payoutOwes watch (.requestWithdraw cfg r a x)) id [] [] d := by
  simp only [requestWithdraw, Tx.wp_bind, Tx.wp_require, wp_getWalletByAccount]
  intro hx d₁ _ _ v hv _
  refine Tx.wp_mono (wp_withdrawSource hx) ?_
  rintro source w L s d₂ ⟨rfl, rfl, hd₂, hcap⟩
  simp only [Tx.wp_modify, wp_insertRow, wp_addTransaction]
  intro _ hfee d₃ hd₃ _ hfresh d₄ hd₄ _ _ _ d₅ hd₅ hI₅ _
  -- From here on the state is the one the commit lands on.
  have hd : PayoutRel [.wallet a] d₂ d₅ :=
    hd₃.trans (PayoutRel.anti (by simp) (hd₄.trans hd₅))
  have hfresh₅ : d₅.withdrawRequests.get? r = none :=
    ((hd₄.trans hd₅).request r (by simp)).trans hfresh
  have hwallet₅ : ∃ v, d₅.wallets.get? a = some v :=
    Option.isSome_iff_exists.mp ((hd₂.trans hd).wallets a (by simpa using Option.isSome_of_mem hv))
  have hcap₅ : watch a → d₅.requestedWithdrawals a + x ≤ d₅.earnedCommission a := by
    intro ha
    obtain ⟨d₀, hd₀, hle⟩ := hcap ha
    obtain ⟨-, he, hq⟩ := (hd₀.trans hd).wallet a (by simp)
    rwa [he, hq]
  obtain ⟨v₅, hv₅⟩ := hwallet₅
  have hinv := hI₅.requested cfg source hfresh₅ hv₅ hfee hcap₅
  have hreq : ∀ b, (d₅.requested r a x (newWithdrawRequest cfg a x source)
      cfg.startedAt).requestedWithdrawals b = d₅.requestedWithdrawals b + if a = b then x else 0 := by
    intro b
    refine Eq.trans (requestedWithdrawals_insert (d := Db.modifyWallet a _ d₅) hfresh₅
      (newWithdrawRequest cfg a x source) b) ?_
    simp [newWithdrawRequest]
    rfl
  refine ⟨hinv, ⟨⟨fun r' q hq => ?_, fun r' q hn hq => ?_⟩, fun cfg' r' a' x' hc ha => ?_⟩,
    fun L' hL' => ?_⟩
  · have hne : r' ≠ r := by
      rintro rfl
      rw [hfresh₅] at hq
      exact absurd hq (by simp)
    exact ⟨q, (Table.get?_insert_of_ne hne _).trans hq, rfl, rfl, rfl, rfl, Or.inl rfl,
      fun hs hns => absurd hs hns⟩
  · have hg : (d₅.withdrawRequests.insert r (newWithdrawRequest cfg a x source)).get? r' =
        some q := hq
    rw [Table.get?_insert hfresh₅] at hg
    split_ifs at hg
    · obtain rfl : newWithdrawRequest cfg a x source = q := by simpa using hg
      rfl
    · rw [hn] at hg
      exact absurd hg (by simp)
  · obtain ⟨rfl, rfl, rfl, rfl⟩ : cfg = cfg' ∧ r = r' ∧ a = a' ∧ x = x' := by simpa using hc
    refine (hreq a).trans_le ?_
    rw [if_pos rfl]
    exact hcap₅ ha
  · refine ⟨fun r' hr' => ?_, fun o _ => rfl, fun b hb => ?_, isSome_modifyWallet a _⟩
    · have hne : r' ≠ r := fun he => hL' (.withdrawRequest r) (by simp) (he ▸ hr')
      exact Table.get?_insert_of_ne hne _
    · have hne : b ≠ a := fun he => hL' (.wallet a) (by simp) (he ▸ hb)
      refine ⟨?_, rfl, ?_⟩
      · exact (lockedBalance_modifyWallet a b _).trans (if_neg hne)
      · exact (hreq b).trans (by rw [if_neg fun h => hne h.symm, add_zero])

/-- A request whose row is locked is at the commit what it was when it was read. -/
theorem wp_lockWithdrawRequest {r : ℕ} {d : Db}
    {Q : WithdrawRequest → (Db → Db) → List RowKey → List Db → Db → Prop} :
    (lockWithdrawRequest r).wp payoutRely (PayoutInv watch) Q id [] [] d ↔
      ∀ d₁, PayoutRel [] d d₁ → PayoutInv watch d₁ → ∀ q, d₁.withdrawRequests.get? r = some q →
        Q q id [.withdrawRequest r] [d₁] d₁ := by
  simp only [lockWithdrawRequest, Tx.wp_bind, Tx.wp_lock, Tx.wp_getOrElse]
  exact Iff.rfl

theorem PayoutRel.wallet_some {L : List RowKey} {d d' : Db} (h : PayoutRel L d d') {a : ℕ}
    {v : Wallet} (hv : d.wallets.get? a = some v) : ∃ v', d'.wallets.get? a = some v' :=
  Option.isSome_iff_exists.mp (h.wallets a (by rw [hv, Option.isSome_some]))

theorem approveWithdrawal_owes (r : ℕ) (d : Db) :
    (approveWithdrawal r).wp payoutRely (PayoutInv watch)
      (payoutOwes watch (.approveWithdrawal r)) id [] [] d := by
  simp only [approveWithdrawal, Tx.wp_bind, Tx.wp_require, Tx.wp_modify, wp_getWalletByAccount,
    wp_lockWithdrawRequest]
  intro d₁ _ _ q hq hs d₂ hd₂ _ v _ _ d₃ hd₃ hI₃ _
  have hq₃ : d₃.withdrawRequests.get? r = some q := by
    rw [hd₃.request r (by simp), hd₂.request r (by simp), hq]
  have hf : (d₃.approved r).withdrawRequests =
    d₃.withdrawRequests.modify r fun q => { q with status := .approved } := rfl
  refine ⟨hI₃.approved hq₃ hs, ⟨?_, by simp⟩, fun L' hL' => ?_⟩
  · refine payoutStep_modify hq₃ hf ⟨rfl, rfl, rfl, rfl⟩ ?_ (by simp)
    rw [hs]
    exact .approve
  · exact payoutRel_modify hL' (by simp) (by simp) hq₃ hf rfl rfl (fun _ _ => rfl) fun _ => id

theorem rejectWithdrawal_owes (cfg : Settings) (r : ℕ) (reason : String) (d : Db) :
    (rejectWithdrawal cfg r reason).wp payoutRely (PayoutInv watch)
      (payoutOwes watch (.rejectWithdrawal cfg r reason)) id [] [] d := by
  unfold rejectWithdrawal
  generalize reason.trimAscii.toString = cleaned
  simp only [Tx.wp_bind, Tx.wp_require, Tx.wp_modify, wp_getWalletByAccount, payoutBooked,
    Tx.wp_read, wp_addTransaction, wp_lockWithdrawRequest]
  intro d₁ _ _ q hq hs d₂ hd₂ _ _ _ d₃ hd₃ _ v hv _ d₄ hd₄ _ _ _ d₅ hd₅ hI₅ _
  have hq₅ : d₅.withdrawRequests.get? r = some q := by
    rw [hd₅.request r (by simp), hd₄.request r (by simp), hd₃.request r (by simp),
      hd₂.request r (by simp), hq]
  obtain ⟨v₅, hv₅⟩ := PayoutRel.wallet_some (PayoutRel.trans hd₄ hd₅) hv
  have hf : (d₅.rejected r q (String.ofList (cleaned.toList.take 500)) cfg.startedAt).withdrawRequests =
    d₅.withdrawRequests.modify r fun q =>
      { q with
        status := .rejected
        rejectReason := some (String.ofList (cleaned.toList.take 500)) } := rfl
  refine ⟨hI₅.rejected hq₅ hs hv₅ _ cfg.startedAt, ⟨?_, by simp⟩, fun L' hL' => ?_⟩
  · refine payoutStep_modify hq₅ hf ⟨rfl, rfl, rfl, rfl⟩ ?_ fun _ => ?_
    · rcases hs with hs | hs
      · rw [hs]
        exact .reject
      · rw [hs]
        exact .rejectApproved
    · refine (availableBalance_modifyWallet (d := d₅) q.accountId q.accountId _).trans ?_
      rw [if_pos rfl, hv₅, availableBalance_of_wallet hv₅]
      rfl
  · refine payoutRel_modify hL' (by simp) (by simp) hq₅ hf rfl rfl (fun b hb => ?_)
      (isSome_modifyWallet q.accountId _)
    exact (lockedBalance_modifyWallet q.accountId b _).trans (if_neg hb)

/-- What `bookPayout` adds to a transaction that holds the request's row. -/
theorem wp_bookPayout {cfg : Settings} {r : ℕ} {q : WithdrawRequest} {L : List RowKey}
    {s : List Db} {d : Db} : (bookPayout cfg r q).wp payoutRely (PayoutInv watch)
      (fun _ w L' _ d' => (w = fun d => d.booked r q cfg.platformAccountId cfg.startedAt) ∧ L ⊆ L' ∧
        .wallet q.accountId ∈ L' ∧ PayoutRel L d d' ∧ ∃ v, d'.wallets.get? q.accountId = some v)
      id L s d := by
  simp only [bookPayout, Tx.wp_bind, Tx.wp_require, Tx.wp_modify, wp_getWalletByAccount,
    wp_addTransaction, Tx.wp_when, creditAvailable]
  intro d₁ hd₁ _ v hv _ d₂ hd₂ _ _ _
  have hd₁₂ : PayoutRel L d₁ d₂ := PayoutRel.anti (List.subset_cons_self _ _) hd₂
  refine ⟨fun hfee d₃ hd₃ _ _ _ d₄ hd₄ _ _ _ d₅ hd₅ _ _ _ => ?_, fun hfee => ?_⟩
  · have hd₂₅ : PayoutRel L d₂ d₅ := PayoutRel.trans
      (PayoutRel.anti (List.subset_cons_self _ _) (PayoutRel.trans hd₃ hd₄))
      (PayoutRel.anti (fun k hk => by simp [hk]) hd₅)
    refine ⟨?_, fun k hk => by simp [hk], by simp,
      PayoutRel.trans hd₁ (PayoutRel.trans hd₁₂ hd₂₅),
      PayoutRel.wallet_some (PayoutRel.trans hd₁₂ hd₂₅) hv⟩
    funext d
    rw [Db.booked, if_pos hfee]
    rfl
  · refine ⟨?_, fun k hk => by simp [hk], by simp, PayoutRel.trans hd₁ hd₁₂,
      PayoutRel.wallet_some hd₁₂ hv⟩
    funext d
    rw [Db.booked, if_neg hfee]
    rfl

theorem markWithdrawalPaid_owes (cfg : Settings) (r : ℕ) (reference : String) (d : Db) :
    (markWithdrawalPaid cfg r reference).wp payoutRely (PayoutInv watch)
      (payoutOwes watch (.markWithdrawalPaid cfg r reference)) id [] [] d := by
  simp only [markWithdrawalPaid, Tx.wp_bind, Tx.wp_require, Tx.wp_modify, payoutBooked,
    Tx.wp_read, Tx.wp_when, wp_lockWithdrawRequest]
  intro d₁ _ _ q hq hs d₂ hd₂ hI₂
  have hq₂ : d₂.withdrawRequests.get? r = some q := by rw [hd₂.request r (by simp), hq]
  -- The request is approved, so the ledger has no payout of it.
  have hnot : ¬d₂.payoutBooked r q := by
    rw [hI₂.payoutBooked_iff hq₂, hs]
    simp
  refine ⟨fun _ => ?_, fun hbooked => absurd (decide_eq_false hnot) hbooked⟩
  refine Tx.wp_mono wp_bookPayout ?_
  rintro _ w L s d₃ ⟨rfl, hL, ha, hd₃, v, hv⟩ d₄ hd₄ hI₄ _
  have hr : RowKey.withdrawRequest r ∈ L := hL (by simp)
  have hq₄ : d₄.withdrawRequests.get? r = some q := by
    rw [hd₄.request r hr, hd₃.request r (by simp), hq₂]
  obtain ⟨v₄, hv₄⟩ := PayoutRel.wallet_some hd₄ hv
  have hbooked := booked_same (d := d₄) r q cfg.platformAccountId cfg.startedAt
  have hf : (d₄.paidOut r q reference cfg.platformAccountId cfg.startedAt cfg.now).withdrawRequests =
      d₄.withdrawRequests.modify r fun q =>
        { q with status := .paid, payoutReference := some reference, paidAt := some cfg.now } := by
    rw [Db.paidOut, Db.modifyWithdrawRequest_withdrawRequests, hbooked.2.1]
  refine ⟨hI₄.paidOut hq₄ hs hv₄ reference cfg.platformAccountId cfg.startedAt cfg.now, ⟨?_, by simp⟩,
    fun L' hL' => ?_⟩
  · refine payoutStep_modify hq₄ hf ⟨rfl, rfl, rfl, rfl⟩ ?_ (by simp)
    rw [hs]
    exact .pay
  · refine payoutRel_modify hL' hr ha hq₄ hf rfl hbooked.2.2.1 (fun b hb => ?_) hbooked.2.2.2
    exact (lockedBalance_booked hv₄ cfg.platformAccountId cfg.startedAt b).trans (if_neg hb)

/-! ### Bookings -/

/-- What a transaction made of money functions has to keep true of its pending change: wherever it
commits, it keeps the invariant and the requests, and it changes a commission only under
that commission's lock. -/
structure Booked (watch : ℕ → Prop) (w : Db → Db) (L : List RowKey) (d : Db) : Prop where
  commits : ∀ d', PayoutRel L d d' → PayoutInv watch d' → PayoutInv watch (w d') ∧
    (w d').withdrawRequests = d'.withdrawRequests ∧ ∀ L', LocksDisjoint L L' → PayoutRel L' d' (w d')
  /-- The change to a commission's row depends on that row only. -/
  perRow : ∀ o d₁ d₂, d₁.commissions.get? o = d₂.commissions.get? o →
    (w d₁).commissions.get? o = (w d₂).commissions.get? o

/-- More locks, a later state. -/
theorem Booked.later {w : Db → Db} {L L' : List RowKey} {d d' : Db} (h : Booked watch w L d)
    (hL : L ⊆ L') (hd : PayoutRel L d d') : Booked watch w L' d' where
  commits d₁ hd₁ hI := by
    obtain ⟨h1, h2, h3⟩ := h.commits d₁ (hd.trans (hd₁.anti hL)) hI
    exact ⟨h1, h2, fun L₁ hL₁ => h3 L₁ fun k hk => hL₁ k (hL hk)⟩
  perRow := h.perRow

/-- A quiet change on top. -/
theorem Booked.quiet {w g : Db → Db} {L : List RowKey} {d : Db} (h : Booked watch w L d)
    (hg : Quiet g) : Booked watch (fun d => g (w d)) L d where
  commits d' hd' hI := by
    obtain ⟨h1, h2, h3⟩ := h.commits d' hd' hI
    have hsame := hg (w d')
    exact ⟨hsame.inv h1, hsame.requests.trans h2,
      fun L' hL' => (h3 L' hL').trans (hsame.payoutRel L')⟩
  perRow o d₁ d₂ heq := by
    rw [(hg (w d₁)).commissions, (hg (w d₂)).commissions]
    exact h.perRow o d₁ d₂ heq

/-- Paying a commission, under its own lock and the lock of the referrer's wallet. -/
theorem Booked.insertCommission {w : Db → Db} {L : List RowKey} {d : Db} (h : Booked watch w L d)
    {o : ℕ} {c : AffiliateCommission} (ho : .commission o ∈ L)
    (ha : .wallet c.affiliateAccountId ∈ L) (hfresh : (w d).commissions.get? o = none)
    (hpos : 0 < c.amount) :
    Booked watch (fun d => Db.insertCommission o c (w d)) L d where
  commits d' hd' hI := by
    obtain ⟨hI', hreq, hrel⟩ := h.commits d' hd' hI
    have hnone : (w d').commissions.get? o = none := by
      rw [h.perRow o d' d (hd'.commission o ho), hfresh]
    have hearned := earnedCommission_insert (d := w d') hnone c
    refine ⟨⟨hI'.locked, hI'.ledger, hI'.fee, fun o' c' hc' => ?_, hI'.nonSeller,
      fun b hb hn => ?_⟩, hreq, fun L' hL' => ⟨(hrel L' hL').request, fun o' ho' => ?_,
      fun b hb => ?_, (hrel L' hL').wallets⟩⟩
    · have hg : ((w d').commissions.insert o c).get? o' = some c' := hc'
      rw [Table.get?_insert hnone] at hg
      split_ifs at hg
      · obtain rfl : c = c' := by simpa using hg
        exact hpos
      · exact hI'.commission o' c' hg
    · rw [hearned]
      have hold : (w d').requestedWithdrawals b ≤ (w d').earnedCommission b := by
        refine hI'.earned b hb fun o' c' hc' hb' => hn o' c' ?_ hb'
        refine (Table.get?_insert_of_ne ?_ c).trans hc'
        rintro rfl
        rw [hnone] at hc'
        exact absurd hc' (by simp)
      change (w d').requestedWithdrawals b ≤ _
      split_ifs <;> omega
    · have hne : o' ≠ o := fun he => hL' _ ho (he ▸ ho')
      exact (Table.get?_insert_of_ne hne c).trans ((hrel L' hL').commission o' ho')
    · have hne : ¬(c.affiliateAccountId = b ∧ c.clawedBackAt = none) := fun he =>
        hL' _ ha (he.1 ▸ hb)
      obtain ⟨h1, h2, h3⟩ := (hrel L' hL').wallet b hb
      exact ⟨h1, (hearned b).trans (by rw [if_neg hne, add_zero, h2]), h3⟩
  perRow o' d₁ d₂ heq := by
    have hrow := h.perRow o' d₁ d₂ heq
    rw [Db.insertCommission_commissions, Db.insertCommission_commissions, Table.get?_insert_eq,
      Table.get?_insert_eq]
    by_cases ho' : o' = o
    · rw [if_pos ho', if_pos ho', ← ho', hrow]
    · rw [if_neg ho', if_neg ho', hrow]

/-- Taking a commission back, under its own lock and the lock of the referrer's wallet. -/
theorem Booked.clawCommission {w : Db → Db} {L : List RowKey} {d : Db} (h : Booked watch w L d)
    {o now : ℕ} {c : AffiliateCommission} (ho : .commission o ∈ L)
    (ha : .wallet c.affiliateAccountId ∈ L) (hrow : (w d).commissions.get? o = some c) :
    Booked watch (fun d => Db.modifyCommission o
      (fun c => { c with clawedBackAt := some now }) (w d)) L d where
  commits d' hd' hI := by
    obtain ⟨hI', hreq, hrel⟩ := h.commits d' hd' hI
    have hsome : (w d').commissions.get? o = some c := by
      rw [h.perRow o d' d (hd'.commission o ho), hrow]
    have hearned : ∀ b, b ≠ c.affiliateAccountId → (Db.modifyCommission o
        (fun c => { c with clawedBackAt := some now }) (w d')).earnedCommission b =
          (w d').earnedCommission b := by
      intro b hb
      have hsum := Table.sum_modify hsome (fun c => { c with clawedBackAt := some now })
        (fun _ c => if c.affiliateAccountId = b ∧ c.clawedBackAt = none then c.amount else (0 : ℤ))
      have hb' : ¬c.affiliateAccountId = b := fun he => hb he.symm
      simp only [hb', false_and, if_false, add_zero] at hsum
      exact hsum
    refine ⟨⟨hI'.locked, hI'.ledger, hI'.fee, fun o' c' hc' => ?_, hI'.nonSeller,
      fun b hb hn => ?_⟩, hreq, fun L' hL' => ⟨(hrel L' hL').request, fun o' ho' => ?_,
      fun b hb => ?_, (hrel L' hL').wallets⟩⟩
    · have hg : ((w d').commissions.modify o _).get? o' = some c' := hc'
      rw [Table.get?_modify] at hg
      split_ifs at hg with he
      · rw [he, hsome] at hg
        obtain rfl : { c with clawedBackAt := some now } = c' := by simpa using hg
        exact hI'.commission o c hsome
      · exact hI'.commission o' c' hg
    · have hself : (Db.modifyCommission o (fun c => { c with clawedBackAt := some now })
          (w d')).commissions.get? o = some { c with clawedBackAt := some now } := by
        rw [Db.modifyCommission_commissions, Table.get?_modify_self, hsome, Option.map_some]
      have hne : b ≠ c.affiliateAccountId := fun he =>
        absurd (hn o _ hself he.symm) (by simp)
      rw [hearned b hne]
      refine hI'.earned b hb fun o' c' hc' hb' => ?_
      have hoo : o' ≠ o := by
        rintro rfl
        rw [hsome] at hc'
        obtain rfl : c = c' := by simpa using hc'
        exact hne hb'.symm
      exact hn o' c' ((Table.get?_modify_of_ne _ hoo _).trans hc') hb'
    · have hne : o' ≠ o := fun he => hL' _ ho (he ▸ ho')
      exact (Table.get?_modify_of_ne _ hne _).trans ((hrel L' hL').commission o' ho')
    · have hne : b ≠ c.affiliateAccountId := fun he => hL' _ ha (he ▸ hb)
      obtain ⟨h1, h2, h3⟩ := (hrel L' hL').wallet b hb
      exact ⟨h1, (hearned b hne).trans h2, h3⟩
  perRow o' d₁ d₂ heq := by
    have hrow := h.perRow o' d₁ d₂ heq
    rw [Db.modifyCommission_commissions, Db.modifyCommission_commissions, Table.get?_modify,
      Table.get?_modify, hrow]

/-- A function that can be part of a booking. -/
def KeepsBooked (watch : ℕ → Prop) {α : Type} (t : Tx α) : Prop :=
  ∀ w L s d, Booked watch w L d →
    t.wp payoutRely (PayoutInv watch) (fun _ w' L' _ d' => Booked watch w' L' d') w L s d

section Keeps

variable {α β : Type}

theorem keepsBooked_pure (a : α) : KeepsBooked watch (pure a : Tx α) := fun _ _ _ _ h => h

theorem KeepsBooked.bind {t : Tx α} {f : α → Tx β} (ht : KeepsBooked watch t)
    (hf : ∀ a, KeepsBooked watch (f a)) : KeepsBooked watch (t >>= f) := by
  intro w L s d h
  rw [Tx.wp_bind]
  exact Tx.wp_mono (ht w L s d h) fun a w' L' s' d' h' => hf a w' L' s' d' h'

theorem keepsBooked_of_writes {t : Tx α} (ht : t.Writes (WalletWrite fun _ => True)) :
    KeepsBooked watch t := by
  intro w L s d h
  refine Tx.wp_mono (Tx.wp_frame quiet_id (fun f g => Quiet.comp)
    (ht.mono fun _ => WalletWrite.quiet)) ?_
  rintro a w' L' s' d' ⟨g, hg, rfl, hL, -, hd⟩
  exact (h.later hL hd).quiet hg

theorem keepsBooked_forEach {as : List α} {f : α → Tx Unit} (hf : ∀ a, KeepsBooked watch (f a)) :
    KeepsBooked watch (Tx.forEach as f) := by
  induction as with
  | nil => exact keepsBooked_pure ()
  | cons a as ih => exact (hf a).bind fun _ => ih

end Keeps

theorem keepsBooked_payCommission (cfg : Settings) (o a b : ℕ) (rate : ℚ) (base x : ℤ) :
    KeepsBooked watch (payCommission cfg o a b rate base x) := by
  intro w L s d h
  simp only [payCommission, creditAffiliateCommission, Tx.wp_bind, Tx.wp_lock, Tx.wp_ite,
    Tx.wp_pure, wp_insertRow, Tx.wp_modify, Tx.wp_require, wp_getWalletByAccount, Tx.wp_read,
    creditAvailable, wp_addTransaction]
  intro d₁ hd₁ _
  refine ⟨fun _ => h.later (List.subset_cons_self _ _) hd₁, fun _ => ?_⟩
  intro d₂ hd₂ _ hfresh hpos d₃ hd₃ _ v _ d₄ hd₄ _
  have hd₁₂ : PayoutRel L d₁ d₂ := PayoutRel.anti (List.subset_cons_self _ _) hd₂
  have hd₂₃ : PayoutRel L d₂ d₃ := PayoutRel.anti (fun k hk => by simp [hk]) hd₃
  have hd₃₄ : PayoutRel L d₃ d₄ := PayoutRel.anti (fun k hk => by simp [hk]) hd₄
  have hlocked : ∀ d', PayoutRel [.wallet a, .commission o, .fund] d₄ d' →
      PayoutRel L d₄ d' → Booked watch (fun d => Db.insertCommission o
        { affiliateAccountId := a, buyerAccountId := b, ratePercent := rate
          feeBaseAmount := base, amount := x, clawedBackAt := none, createdAt := cfg.startedAt } (w d))
        (.wallet a :: .commission o :: .fund :: L) d' := by
    intro d' hd' hd''
    refine (h.later (fun k hk => by simp [hk])
      (PayoutRel.trans hd₁ (hd₁₂.trans (hd₂₃.trans (hd₃₄.trans hd''))))).insertCommission
      (by simp) (by simp) ?_ hpos
    have hrow : d'.commissions.get? o = d₂.commissions.get? o := by
      rw [hd'.commission o (by simp), hd₄.commission o (by simp), hd₃.commission o (by simp)]
    rw [h.perRow o d' d₂ hrow, hfresh]
  refine ⟨fun _ => ?_, fun _ d₅ hd₅ _ _ _ => ?_⟩
  · exact ((hlocked d₄ (PayoutRel.refl _ _) (PayoutRel.refl _ _)).quiet (quiet_fund _)).quiet
      (quiet_fundEntry _)
  · exact ((((hlocked d₅ (PayoutRel.anti (fun k hk => by simp at hk ⊢; tauto) hd₅)
      (PayoutRel.anti (fun k hk => by simp [hk]) hd₅)).quiet (quiet_fund _)).quiet
      (quiet_fundEntry _)).quiet (WalletWrite.credit (S := fun _ => True) a x).quiet).quiet
      (WalletWrite.book (S := fun _ => True) _ (affiliateReference_ne_withdraw o)).quiet

theorem keepsBooked_applyAffiliateCommission (cfg : Settings) (o : ℕ) (order : Order) :
    KeepsBooked watch (applyAffiliateCommission cfg o order) := by
  rw [applyAffiliateCommission]
  split_ifs
  · exact keepsBooked_pure ()
  refine .bind (keepsBooked_of_writes (Tx.writes_read _)) fun buyer => ?_
  rcases buyer with _ | buyer
  · exact keepsBooked_pure ()
  refine .bind (keepsBooked_of_writes (Tx.writes_read _)) fun i => ?_
  rcases i with _ | i
  · exact keepsBooked_pure ()
  refine .bind (keepsBooked_of_writes (Tx.writes_read _)) fun affiliate => ?_
  rcases affiliate with _ | affiliate
  · exact keepsBooked_pure ()
  refine .bind (keepsBooked_of_writes (Tx.writes_read _)) fun existing => ?_
  cases existing
  · refine .bind (keepsBooked_of_writes (writes_commissionQuote cfg order i affiliate))
      fun quote => ?_
    rcases quote with _ | ⟨rate, base, x⟩
    · exact keepsBooked_pure ()
    refine .bind (keepsBooked_of_writes (Tx.writes_read _)) fun recent => ?_
    split_ifs
    · exact keepsBooked_pure ()
    · exact keepsBooked_payCommission cfg o i order.buyerId rate base x
  · exact keepsBooked_pure ()

/-- Whatever is recovered, the referrer's wallet is locked afterwards. -/
theorem wp_clawbackAffiliateCommission {cfg : Settings} {a o : ℕ} {x : ℤ} (hx : 0 < x)
    {w : Db → Db} {L : List RowKey} {s : List Db} {d : Db} :
    (clawbackAffiliateCommission cfg a x o).wp payoutRely (PayoutInv watch)
      (fun _ w' L' _ d' => ∃ g, Quiet g ∧ (w' = fun d => g (w d)) ∧ L ⊆ L' ∧ .wallet a ∈ L' ∧
        PayoutRel L d d') w L s d := by
  rw [clawbackAffiliateCommission, if_neg (by omega), Tx.wp_bind, wp_getWalletByAccount]
  intro d₁ hd₁ _ v _
  refine Tx.wp_mono (Tx.wp_frame quiet_id (fun f g => Quiet.comp) (P := Quiet) ?_) ?_
  · refine Tx.Writes.mono (fun _ => WalletWrite.quiet (S := fun _ => True)) (.bind (Tx.writes_read _) fun existing => ?_)
    cases existing
    · change (if min v.availableBalance x ≤ 0 then _ else _ : Tx ℤ).Writes _
      split_ifs
      · exact Tx.writes_pure _
      · exact .bind (writes_creditAvailable _ _) fun _ =>
          .bind (writes_bookAffiliate _ _ _ o _) fun _ => Tx.writes_pure _
    · exact Tx.writes_pure _
  · rintro r w' L' s' d' ⟨g, hg, rfl, hL, -, hd⟩
    exact ⟨g, hg, rfl, List.Subset.trans (List.subset_cons_self _ _) hL, hL (by simp),
      PayoutRel.trans hd₁ (PayoutRel.anti (List.subset_cons_self _ _) hd)⟩

theorem keepsBooked_clawbackCommissionForOrder (cfg : Settings) (o : ℕ) :
    KeepsBooked watch (clawbackCommissionForOrder cfg o) := by
  intro w L s d h
  rw [clawbackCommissionForOrder, Tx.wp_bind, Tx.wp_lock]
  intro d₁ hd₁ hI₁
  have h₁ := h.later (List.subset_cons_self (.commission o) L) hd₁
  rcases hrow : (w d₁).commissions.get? o with _ | c
  · exact h₁
  change (if c.clawedBackAt ≠ none then _ else _ : Tx Unit).wp _ _ _ _ _ _ _
  split_ifs with hclawed
  · exact h₁
  -- A commission is never nothing, so its referrer's wallet gets locked.
  have hpos : 0 < c.amount := (h.commits d₁ hd₁ hI₁).1.commission o c hrow
  rw [Tx.wp_bind, Tx.wp_lock]
  intro d₂ hd₂ _
  rw [Tx.wp_bind]
  refine Tx.wp_mono (wp_clawbackAffiliateCommission hpos) ?_
  rintro x w' L' s' d₃ ⟨g, hg, rfl, hL, ha, hd₃⟩
  have hd₁₃ : PayoutRel (.commission o :: L) d₁ d₃ :=
    PayoutRel.trans hd₂ (PayoutRel.anti (List.subset_cons_self _ _) hd₃)
  have h₃ := ((h₁.later (List.Subset.trans (List.subset_cons_self _ _) hL) hd₁₃).quiet hg).quiet
    ((quiet_fund c.amount).comp (quiet_fundEntry
      ⟨c.amount, .clawback, some (affiliateReference o), clawbackNote x c.amount⟩))
  refine h₃.clawCommission (hL (by simp)) ha ?_
  rw [Db.addFundEntry_commissions, Db.addFundBalance_commissions, (hg (w d₃)).commissions,
    h.perRow o d₃ d₁ (hd₁₃.commission o (by simp)), hrow]

/-- **Every money function can be part of a booking.** -/
theorem MoneyOp.keepsBooked (op : MoneyOp) : KeepsBooked watch op.code := by
  cases op with
  | topup cfg a x source reason => exact keepsBooked_of_writes (writes_topup cfg a x source reason)
  | adminDebit cfg a x reason => exact keepsBooked_of_writes (writes_adminDebit cfg a x reason)
  | applyDepositPaid cfg i a x reference =>
    exact keepsBooked_of_writes (writes_applyDepositPaid cfg i a x reference)
  | deductCredit cfg a x o suffix => exact keepsBooked_of_writes (writes_deductCredit cfg a x o suffix)
  | releaseEscrow cfg o seller x fee =>
    exact keepsBooked_of_writes (writes_releaseEscrow cfg o seller x fee)
  | refundEscrow cfg o buyer x suffix =>
    exact keepsBooked_of_writes (writes_refundEscrow cfg o buyer x suffix trivial)
  | applyBuyerCashback cfg o order => exact keepsBooked_of_writes (writes_applyBuyerCashback cfg o order)
  | clawbackBuyerCashback cfg o => exact keepsBooked_of_writes (writes_clawbackBuyerCashback cfg o)
  | applyAffiliateCommission cfg o order => exact keepsBooked_applyAffiliateCommission cfg o order
  | clawbackCommissionForOrder cfg o => exact keepsBooked_clawbackCommissionForOrder cfg o

theorem booked_fresh (d : Db) : Booked watch id [] d where
  commits d' _ hI := ⟨hI, rfl, fun L' _ => PayoutRel.refl L' d'⟩
  perRow _ _ _ h := h

/-! ### All of them together -/

/-- **Every transaction keeps the withdrawals in order, whatever runs next to it.** -/
theorem payoutMachine_correct :
    (payoutMachine watch).Correct payoutRely (PayoutInv watch) (PayoutPost watch) := by
  intro c d _
  cases c with
  | requestWithdraw cfg r a x => exact requestWithdraw_owes cfg r a x d
  | approveWithdrawal r => exact approveWithdrawal_owes r d
  | rejectWithdrawal cfg r reason => exact rejectWithdrawal_owes cfg r reason d
  | markWithdrawalPaid cfg r reference => exact markWithdrawalPaid_owes cfg r reference d
  | book ops =>
    refine Tx.wp_mono (keepsBooked_forEach MoneyOp.keepsBooked id [] [] d (booked_fresh d)) ?_
    rintro _ w L s d₁ h d₂ hd₂ hI₂ _
    obtain ⟨hI, hreq, hrel⟩ := h.commits d₂ hd₂ hI₂
    exact ⟨hI, ⟨payoutStep_of_eq hreq, by simp⟩, hrel⟩
  | changeAccount a f =>
    intro d₁ _ hI hkeeps
    refine ⟨⟨hI.locked, hI.ledger, hI.fee, hI.commission, fun b hb => ?_, hI.earned⟩,
      ⟨payoutStep_of_eq rfl, by simp⟩, fun L' _ =>
        ⟨fun _ _ => rfl, fun _ _ => rfl, fun _ _ => ⟨rfl, rfl, rfl⟩, fun _ => id⟩⟩
    have hold := hI.nonSeller b hb
    rw [Db.NonSeller] at hold ⊢
    simp only [id, Db.modifyAccount_accounts, Table.get?_modify]
    split_ifs with hba
    · subst hba
      rcases hv : d₁.accounts.get? b with _ | v
      · rfl
      · rw [hv] at hold
        exact hkeeps hb v hold
    · exact hold

end Operations

/-! ### Withdrawals, from the first one on -/

/-- Books in which nobody has asked for a withdrawal yet. -/
structure NoPayouts (d : Db) : Prop where
  requests : d.withdrawRequests = .empty
  locked : ∀ a v, d.wallets.get? a = some v → v.lockedBalance = 0
  ledger : ∀ t ∈ d.transactions, ∀ r, t.referenceId ≠ some (withdrawReference r)
  commission : ∀ o c, d.commissions.get? o = some c → 0 < c.amount

/-- What was paid out to the account, fees included. -/
def Db.paidWithdrawals (d : Db) (a : ℕ) : ℤ :=
  d.withdrawRequests.sum fun _ q => if q.accountId = a ∧ q.status = .paid then q.amount else 0

theorem earnedCommission_nonneg {d : Db} (h : ∀ o c, d.commissions.get? o = some c → 0 < c.amount)
    (a : ℕ) : 0 ≤ d.earnedCommission a := by
  refine Table.sum_nonneg fun o c hc => ?_
  have hpos := h o c hc
  split_ifs <;> omega

theorem NoPayouts.inv {watch : ℕ → Prop} {d : Db} (h : NoPayouts d)
    (hwatch : ∀ a, watch a → d.NonSeller a) : PayoutInv watch d where
  locked a := by
    rw [Db.openRequests, h.requests, Table.sum_empty]
    rcases hv : d.wallets.get? a with _ | v
    · simp [Db.lockedBalance, hv]
    · rw [lockedBalance_of_wallet hv, h.locked a v hv]
  ledger r := by
    have hnone : (d.transactions.filter fun t => t.referenceId = some (withdrawReference r)) = [] :=
      List.filter_eq_nil_iff.mpr fun t ht => by simpa using h.ledger t ht r
    rw [Db.withdrawLedger, hnone, h.requests]
    rfl
  fee r q hq := by
    rw [h.requests] at hq
    exact absurd hq (by simp)
  commission := h.commission
  nonSeller := hwatch
  earned a _ _ := by
    rw [Db.requestedWithdrawals, h.requests, Table.sum_empty]
    exact earnedCommission_nonneg h.commission a

theorem PayoutInv.paid_le_requested {watch : ℕ → Prop} {d : Db} (h : PayoutInv watch d) (a : ℕ) :
    d.paidWithdrawals a ≤ d.requestedWithdrawals a := by
  refine Table.sum_le_sum fun r q hq => ?_
  have hfee := h.fee r q hq
  by_cases ha : q.accountId = a
  · rcases hs : q.status with _ | _ | _ | _ <;> simp [ha] <;> omega
  · simp [ha]

theorem payoutMachine_inv {watch : ℕ → Prop} {d : Db} (hd : NoPayouts d)
    (hwatch : ∀ a, watch a → d.NonSeller a) {C : Config Db RowKey Abort Unit PayoutCall ℕ}
    (h : Reachable (payoutMachine watch) d C) : PayoutInv watch C.db :=
  (payoutMachine_correct.reachable (hd.inv hwatch) h).inv

theorem payoutMachine_step {watch : ℕ → Prop} {d : Db} (hd : NoPayouts d)
    (hwatch : ∀ a, watch a → d.NonSeller a) {C C' : Config Db RowKey Abort Unit PayoutCall ℕ}
    {l : Option (PayoutCall × Unit)} (h : Reachable (payoutMachine watch) d C)
    (hstep : Step (payoutMachine watch) C l C') : PayoutStep C.db C'.db := by
  rcases l with _ | ⟨c, a⟩
  · rw [hstep.db_eq]
    exact payoutStep_of_eq rfl
  · exact (payoutMachine_correct.commit (hd.inv hwatch) h hstep).1

/-- **Withdrawal money is locked once and leaves once.** In every reachable state the locked
balance is what the open requests add up to; the ledger has for each request the rows of its
status, and never both a return and a payout; every step moves requests along the allowed
transitions only. -/
theorem withdrawals_locked_and_paid_once {d : Db} (hd : NoPayouts d)
    {C : Config Db RowKey Abort Unit PayoutCall ℕ}
    (h : Reachable (payoutMachine fun _ => False) d C) :
    (∀ a, C.db.lockedBalance a = C.db.openRequests a) ∧
    (∀ r q, C.db.withdrawRequests.get? r = some q → C.db.withdrawLedger r = q.ledger ∧
      q.netAmount + q.feeAmount = q.amount ∧ 0 ≤ q.feeAmount ∧ q.feeAmount < q.amount) ∧
    (∀ r, ¬(.withdrawUnlock ∈ C.db.withdrawRows r ∧ .withdraw ∈ C.db.withdrawRows r)) ∧
    ∀ l C', Step (payoutMachine fun _ => False) C l C' → PayoutStep C.db C'.db := by
  have hI := payoutMachine_inv hd (fun _ hf => hf.elim) h
  refine ⟨hI.locked, fun r q hq => ?_, fun r => ?_, fun l C' => payoutMachine_step hd
    (fun _ hf => hf.elim) h⟩
  · have hl := hI.ledger r
    rw [hq] at hl
    obtain ⟨hf0, hf1, hnet⟩ := hI.fee r q hq
    exact ⟨hl, by omega, hf0, hf1⟩
  · rw [hI.withdrawRows_eq]
    rcases C.db.withdrawRequests.get? r with _ | q
    · simp
    · rcases hs : q.status with _ | _ | _ | _ <;> simp [WithdrawRequest.ledger, hs]

/-- Books with a seller, account 1, and a buyer who earned a commission, account 2. -/
def sampleBooks : Db :=
  { Db.empty with
    accounts := Db.sample.accounts
    wallets := ⟨[(0, ⟨0, 0⟩), (1, ⟨100000, 0⟩), (2, ⟨90000, 0⟩)], by decide⟩
    commissions := ⟨[(7, ⟨2, 5, 10, 600000, 60000, none, 0⟩)], by decide⟩ }

theorem sampleBooks_noPayouts : NoPayouts sampleBooks where
  requests := rfl
  locked a v hv := by
    have hmem := Table.get?_eq_some_iff.mp hv
    simp only [sampleBooks, List.mem_cons, List.not_mem_nil, or_false, Prod.mk.injEq] at hmem
    rcases hmem with ⟨-, rfl⟩ | ⟨-, rfl⟩ | ⟨-, rfl⟩ <;> rfl
  ledger t ht := absurd ht (List.not_mem_nil)
  commission o c hc := by
    have hmem := Table.get?_eq_some_iff.mp hc
    simp only [sampleBooks, List.mem_cons, List.not_mem_nil, or_false, Prod.mk.injEq] at hmem
    rw [hmem.2]
    decide

/-- The books after one of the calls ran alone. -/
def PayoutCall.after (d : Db) (c : PayoutCall) : Db := c.code.exec d

/-- The seller's request is approved and paid: the rows of the ledger are the lock, the net
transfer and both rows of the fee. -/
theorem withdrawals_locked_and_paid_once_sample :
    ∃ C : Config Db RowKey Abort Unit PayoutCall ℕ,
      Reachable (payoutMachine fun _ => False) sampleBooks C ∧
      (∃ q, C.db.withdrawRequests.get? 1 = some q ∧ q.status = .paid) ∧
      C.db.withdrawLedger 1 = [(.withdrawLock, 80000), (.withdraw, 78000), (.withdrawFee, 2000),
        (.platformFee, 2000)] ∧ C.db.lockedBalance 1 = C.db.openRequests 1 := by
  have hrun : Reachable (payoutMachine fun _ => False) sampleBooks
      (Config.idle ([.requestWithdraw (Settings.sample 0) 1 1 80000, .approveWithdrawal 1,
        .markWithdrawalPaid (Settings.sample 5) 1 "FT1"].foldl PayoutCall.after sampleBooks) :
        Config Db RowKey Abort Unit PayoutCall ℕ) :=
    (((reaches_of_code 0 (c := PayoutCall.requestWithdraw (Settings.sample 0) 1 1 80000)
      (fun _ => trivial) rfl).trans
      (reaches_of_code 0 (c := PayoutCall.approveWithdrawal 1) (fun _ => trivial) rfl)).trans
      (reaches_of_code 0 (c := PayoutCall.markWithdrawalPaid (Settings.sample 5) 1 "FT1")
        (fun _ => trivial) rfl))
  obtain ⟨hlocked, hledger, -, -⟩ := withdrawals_locked_and_paid_once sampleBooks_noPayouts hrun
  refine ⟨_, hrun, ⟨_, rfl, rfl⟩, (hledger 1 _ rfl).1.trans ?_, hlocked 1⟩
  decide

/-- **An account that never sells withdraws commission and nothing else.** Whatever else is
credited, a request is accepted only if with it the account has asked for no more than it
earned and kept by then; and where nothing was clawed back, what was paid out to it never exceeds what
it earned. -/
theorem nonSeller_withdrawals_within_commission {a : ℕ} {d : Db} (hd : NoPayouts d)
    (ha : d.NonSeller a) {C : Config Db RowKey Abort Unit PayoutCall ℕ}
    (h : Reachable (payoutMachine (· = a)) d C) :
    (∀ cfg r x C', Step (payoutMachine (· = a)) C (some (.requestWithdraw cfg r a x, ())) C' →
      C'.db.requestedWithdrawals a ≤ C'.db.earnedCommission a) ∧
    (C.db.NeverClawed a → C.db.paidWithdrawals a ≤ C.db.earnedCommission a) := by
  have hwatch : ∀ b, b = a → d.NonSeller b := fun b hb => hb ▸ ha
  have hI := payoutMachine_inv hd hwatch h
  refine ⟨fun cfg r x C' hstep => ?_, fun hn => (hI.paid_le_requested a).trans (hI.earned a rfl hn)⟩
  exact (payoutMachine_correct.commit (hd.inv hwatch) h hstep).2 cfg r a x rfl rfl

/-- The buyer of the example is topped up, withdraws 50000 of the 60000 it earned and is
paid. -/
theorem nonSeller_withdrawals_within_commission_sample :
    ∃ C : Config Db RowKey Abort Unit PayoutCall ℕ,
      Reachable (payoutMachine (· = 2)) sampleBooks C ∧ C.db.availableBalance 2 = 540000 ∧
      C.db.paidWithdrawals 2 = 50000 ∧ C.db.paidWithdrawals 2 ≤ C.db.earnedCommission 2 := by
  have hrun : Reachable (payoutMachine (· = 2)) sampleBooks
      (Config.idle ([.book [.topup (Settings.sample 0) 2 500000 .other none],
        .requestWithdraw (Settings.sample 1) 1 2 50000, .approveWithdrawal 1,
        .markWithdrawalPaid (Settings.sample 5) 1 "FT1"].foldl PayoutCall.after sampleBooks) :
        Config Db RowKey Abort Unit PayoutCall ℕ) :=
    ((((reaches_of_code 0
      (c := PayoutCall.book [.topup (Settings.sample 0) 2 500000 .other none])
      (fun _ => trivial) rfl).trans
      (reaches_of_code 0 (c := PayoutCall.requestWithdraw (Settings.sample 1) 1 2 50000)
        (fun _ => trivial) rfl)).trans
      (reaches_of_code 0 (c := PayoutCall.approveWithdrawal 1) (fun _ => trivial) rfl)).trans
      (reaches_of_code 0 (c := PayoutCall.markWithdrawalPaid (Settings.sample 5) 1 "FT1")
        (fun _ => trivial) rfl))
  have hseller : sampleBooks.NonSeller 2 := rfl
  refine ⟨_, hrun, rfl, by decide, ?_⟩
  refine (nonSeller_withdrawals_within_commission sampleBooks_noPayouts hseller hrun).2 ?_
  intro o c hc _
  have hmem := Table.get?_eq_some_iff.mp hc
  have hrows : (o, c) ∈ sampleBooks.commissions.rows := hmem
  simp only [sampleBooks, List.mem_cons, List.not_mem_nil, or_false, Prod.mk.injEq] at hrows
  rw [hrows.2]

end Marketplace
