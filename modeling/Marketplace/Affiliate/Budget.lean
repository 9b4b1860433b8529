import Marketplace.Affiliate.Fund
import Marketplace.Orders.Terminal

/-!
# The payouts respect the fund and the cap

A settlement counts the referrer's commissions long before it locks the fund, so two settlements of one
referrer could count at the same time. They do not: the commission is a part of the
platform's fee, and a settlement with a fee has locked the platform's wallet before it gets to the
commission. That lock serialises the counts (`FundGuar.live`), except where `releaseEscrow` finds
the order released already and returns early, which an open order rules out (`FundInv.released`).

`Settling` follows a transaction up to the point where it pays, `Settled` from there on.
`payouts_within_fund_and_cap` is the result, `cap_exceeded_over_delay` the run that shows that the delay
cannot be left out.
-/

namespace Marketplace

open Sql Arith

/-! ### Writes beside the budget -/

/-- The escrow of the order has been paid out. -/
def Db.Released (d : Db) (o : ℕ) : Prop :=
  d.hasTransaction .purchaseRelease (orderReference o "") ∨
    d.hasTransaction .platformFee (orderReference o "")

/-- Nothing happens to the budget; escrows are paid out for orders in `S` only. -/
structure SameFund (S : ℕ → Prop) (d d' : Db) : Prop where
  accounts : d'.accounts = d.accounts
  commissions : d'.commissions = d.commissions
  balance : d'.fundBalance = d.fundBalance
  entries : d'.fundEntries = d.fundEntries
  released : ∀ o, d'.Released o → S o ∨ d.Released o

/-- Nothing happens to the status of an order either. -/
structure FundQuiet (S : ℕ → Prop) (d d' : Db) : Prop where
  same : SameFund S d d'
  status : ∀ o v, d.orders.get? o = some v → ∃ v', d'.orders.get? o = some v' ∧ v'.status = v.status

section Quiet

variable {S : ℕ → Prop} {d d₁ d₂ d₃ d' : Db}

theorem SameFund.refl (S : ℕ → Prop) (d : Db) : SameFund S d d := ⟨rfl, rfl, rfl, rfl, fun _ => Or.inr⟩

theorem SameFund.trans (h : SameFund S d₁ d₂) (h' : SameFund S d₂ d₃) : SameFund S d₁ d₃ where
  accounts := h'.accounts.trans h.accounts
  commissions := h'.commissions.trans h.commissions
  balance := h'.balance.trans h.balance
  entries := h'.entries.trans h.entries
  released o ho := (h'.released o ho).elim Or.inl (h.released o)

theorem SameFund.mono {S' : ℕ → Prop} (h : SameFund S d d') (hS : ∀ o, S o → S' o) :
    SameFund S' d d' := { h with released := fun o ho => (h.released o ho).imp_left (hS o) }

theorem FundQuiet.refl (S : ℕ → Prop) (d : Db) : FundQuiet S d d :=
  ⟨SameFund.refl S d, fun _ v hv => ⟨v, hv, rfl⟩⟩

theorem FundQuiet.trans (h : FundQuiet S d₁ d₂) (h' : FundQuiet S d₂ d₃) : FundQuiet S d₁ d₃ := by
  refine ⟨h.same.trans h'.same, fun o v hv => ?_⟩
  obtain ⟨v₂, hv₂, hs₂⟩ := h.status o v hv
  obtain ⟨v₃, hv₃, hs₃⟩ := h'.status o v₂ hv₂
  exact ⟨v₃, hv₃, hs₃.trans hs₂⟩

/-- A write to none of the tables that matter. -/
theorem fundQuiet_of_eq (h1 : d'.accounts = d.accounts) (h2 : d'.commissions = d.commissions)
    (h3 : d'.fundBalance = d.fundBalance) (h4 : d'.fundEntries = d.fundEntries)
    (h5 : d'.transactions = d.transactions) (h6 : d'.orders = d.orders) : FundQuiet S d d' := by
  refine ⟨⟨h1, h2, h3, h4, fun o ho => Or.inr ?_⟩, fun o v hv => ⟨v, by rw [h6, hv], rfl⟩⟩
  rwa [Db.Released, Db.hasTransaction, Db.hasTransaction, h5] at ho

theorem fundQuiet_modifyOrder (o : ℕ) {f : Order → Order} (hf : ∀ v, (f v).status = v.status) :
    FundQuiet S d (d.modifyOrder o f) := by
  refine ⟨⟨rfl, rfl, rfl, rfl, fun _ => Or.inr⟩, fun o' v hv => ?_⟩
  rw [Db.modifyOrder_orders]
  by_cases ho : o' = o
  · exact ⟨f v, by rw [ho, Table.get?_modify_self, ← ho, hv, Option.map_some], hf v⟩
  · exact ⟨v, by rw [Table.get?_modify_of_ne _ ho, hv], rfl⟩

/-- A row of the ledger pays an escrow out if it has one of two types and the order's reference. -/
theorem fundQuiet_addTransaction (t : Transaction)
    (h : ∀ o, t.type = .purchaseRelease ∨ t.type = .platformFee →
      t.referenceId = some (orderReference o "") → S o) : FundQuiet S d (d.addTransaction t) := by
  refine ⟨⟨rfl, rfl, rfl, rfl, ?_⟩, fun o v hv => ⟨v, hv, rfl⟩⟩
  have hone : ∀ o type, type = .purchaseRelease ∨ type = .platformFee →
      (d.addTransaction t).hasTransaction type (orderReference o "") →
        S o ∨ d.hasTransaction type (orderReference o "") := by
    rintro o type hs ⟨u, hu, htype, href⟩
    rw [Db.addTransaction_transactions, List.mem_append, List.mem_singleton] at hu
    rcases hu with hu | rfl
    · exact Or.inr ⟨u, hu, htype, href⟩
    · exact Or.inl (h o (htype ▸ hs) href)
  rintro o (ho | ho)
  · exact (hone o _ (Or.inl rfl) ho).imp_right Or.inl
  · exact (hone o _ (Or.inr rfl) ho).imp_right Or.inr

end Quiet

/-! ### Footprints -/

section FundFootprints

variable {S : ℕ → Prop} (cfg : Settings) (o : ℕ)

/-- A write of which none of the tables that matter is part. -/
theorem quiet_modify {f : Db → Db} (h : ∀ d, FundQuiet S d (f d)) :
    (Tx.modify f : Tx Unit).Writes fun f => ∀ d, FundQuiet S d (f d) := Tx.writes_modify.mpr h

theorem quiet_creditAvailable (a : ℕ) (x : ℤ) :
    (creditAvailable a x).Writes fun f => ∀ d, FundQuiet S d (f d) :=
  quiet_modify fun _ => fundQuiet_of_eq rfl rfl rfl rfl rfl rfl

theorem quiet_addTransaction (t : Transaction)
    (h : ∀ o, t.type = .purchaseRelease ∨ t.type = .platformFee →
      t.referenceId = some (orderReference o "") → S o) :
    (addTransaction t).Writes fun f => ∀ d, FundQuiet S d (f d) :=
  writes_addTransaction fun _ => fundQuiet_addTransaction t h

theorem quiet_refundEscrow (buyer : ℕ) (x : ℤ) (s : String) :
    (refundEscrow cfg o buyer x s).Writes fun f => ∀ d, FundQuiet S d (f d) := by
  refine .bind (Tx.writes_require _ _) fun _ => .bind (Tx.writes_lock _ _) fun _ =>
    .bind (Tx.writes_getOrElse _ _) fun _ => .bind (Tx.writes_require _ _) fun _ =>
    .bind (writes_getWalletByAccount _) fun _ => .bind (Tx.writes_read _) fun existing => ?_
  cases existing
  · exact .bind (quiet_modify fun _ => fundQuiet_modifyOrder o fun _ => rfl) fun _ =>
      .bind (quiet_creditAvailable _ _) fun _ => quiet_addTransaction _ (by simp)
  · exact Tx.writes_pure _

theorem quiet_creditAffiliateCommission (a : ℕ) (x : ℤ) :
    (creditAffiliateCommission cfg a x o).Writes fun f => ∀ d, FundQuiet S d (f d) := by
  refine .bind (Tx.writes_require _ _) fun _ => .bind (writes_getWalletByAccount _) fun _ =>
    .bind (Tx.writes_read _) fun existing => ?_
  cases existing
  · exact .bind (quiet_creditAvailable _ _) fun _ => quiet_addTransaction _ (by simp)
  · exact Tx.writes_pure _

theorem quiet_clawbackAffiliateCommission (a : ℕ) (x : ℤ) :
    (clawbackAffiliateCommission cfg a x o).Writes fun f => ∀ d, FundQuiet S d (f d) := by
  rw [clawbackAffiliateCommission]
  split_ifs
  · exact Tx.writes_pure _
  · refine .bind (writes_getWalletByAccount _) fun w => .bind (Tx.writes_read _) fun existing => ?_
    cases existing
    · change (if min w.availableBalance x ≤ 0 then _ else _ : Tx ℤ).Writes _
      split_ifs
      · exact Tx.writes_pure _
      · exact .bind (quiet_creditAvailable _ _) fun _ =>
          .bind (quiet_addTransaction _ (by simp)) fun _ => Tx.writes_pure _
    · exact Tx.writes_pure _

theorem quiet_payCashback (buyer : ℕ) (base x : ℤ) :
    (payCashback cfg o buyer base x).Writes fun f => ∀ d, FundQuiet S d (f d) := by
  refine .bind (writes_getWalletByAccount _) fun _ => .bind (Tx.writes_read _) fun booked => ?_
  cases booked
  · exact .bind (quiet_creditAvailable _ _) fun _ => .bind (quiet_addTransaction _ (by simp))
      fun _ => writes_insertRow fun _ => fundQuiet_of_eq rfl rfl rfl rfl rfl rfl
  · exact Tx.writes_pure _

theorem quiet_applyBuyerCashback (order : Order) :
    (applyBuyerCashback cfg o order).Writes fun f => ∀ d, FundQuiet S d (f d) := by
  rw [applyBuyerCashback]
  split_ifs
  · exact Tx.writes_pure _
  · exact Tx.writes_pure _
  · refine .bind (Tx.writes_read _) fun paid => ?_
    cases paid
    · refine .bind (Tx.writes_read _) fun buyer => ?_
      rcases buyer with _ | buyer
      · exact Tx.writes_pure _
      · change (if buyer.isSeeded = true then _ else _ : Tx Unit).Writes _
        split_ifs
        · exact Tx.writes_pure _
        · change (if cashbackAmount order.totalAmount cfg.cashbackPercent ≤ 0 then _ else _ :
            Tx Unit).Writes _
          split_ifs
          · exact Tx.writes_pure _
          · exact quiet_payCashback cfg o _ _ _
    · exact Tx.writes_pure _

theorem quiet_clawbackBuyerCashback :
    (clawbackBuyerCashback cfg o).Writes fun f => ∀ d, FundQuiet S d (f d) := by
  have hrecover : ∀ buyer x, (recoverCashback cfg o buyer x).Writes fun f => ∀ d,
      FundQuiet S d (f d) := by
    intro buyer x
    refine .bind (writes_getWalletByAccount _) fun w => .bind (Tx.writes_read _) fun already => ?_
    cases already
    · change (if 0 < min w.availableBalance x then _ else _ : Tx ℤ).Writes _
      split_ifs
      · exact .bind (quiet_creditAvailable _ _) fun _ =>
          .bind (quiet_addTransaction _ (by simp)) fun _ => Tx.writes_pure _
      · exact Tx.writes_pure _
    · exact Tx.writes_pure _
  refine .bind (Tx.writes_lock _ _) fun cashback => ?_
  rcases cashback with _ | v
  · exact Tx.writes_pure _
  · change (if v.clawedBackAt ≠ none then _ else _ : Tx Unit).Writes _
    split_ifs
    · exact Tx.writes_pure _
    · exact .bind (hrecover _ _) fun _ =>
        quiet_modify fun _ => fundQuiet_of_eq rfl rfl rfl rfl rfl rfl

theorem quiet_releaseToSeller (seller : ℕ) (x fee : ℤ) (order : Option Order) :
    (releaseToSeller cfg seller x fee order (orderReference o "")).Writes fun f => ∀ d,
      FundQuiet (· = o) d (f d) := by
  have hrow : ∀ type y, (addTransaction ⟨seller, type, y, some (orderReference o ""),
      cfg.startedAt⟩).Writes fun f => ∀ d, FundQuiet (· = o) d (f d) := fun type y =>
    quiet_addTransaction _ fun o' _ href =>
      ((orderReference_inj (by decide) (by decide)).mp (Option.some.inj href)).1.symm
  refine .bind (Tx.writes_when ?_) fun _ => ?_
  · exact .bind (quiet_creditAvailable _ _) fun _ => hrow _ _
  · rcases order with _ | v
    · exact Tx.writes_pure _
    · exact Tx.writes_when (.bind (quiet_creditAvailable _ _) fun _ => hrow _ _)

theorem quiet_modifyCase (c : ℕ) (f : Dispute → Dispute) :
    (modifyCase c f).Writes fun f => ∀ d, FundQuiet S d (f d) :=
  quiet_modify fun _ => fundQuiet_of_eq rfl rfl rfl rfl rfl rfl

end FundFootprints

/-! ### What the others leave alone -/

/-- What nobody changes about the budget while the rows `L` are locked. -/
structure FundGuar (p : Programme) (L : List RowKey) (d d' : Db) : Prop where
  accounts : d'.accounts = d.accounts
  balance : .fund ∈ L → d'.fundBalance = d.fundBalance
  commission : ∀ o, .commission o ∈ L → d'.commissions.get? o = d.commissions.get? o
  /-- Who pays a commission has locked the platform's wallet. -/
  live : .wallet p.platformAccountId ∈ L → ∀ o v, d'.commissions.get? o = some v →
    v.clawedBackAt = none → d.commissions.get? o = some v

/-- The rely of a transaction that settles. -/
def fundRely (p : Programme) : Rely Db RowKey where
  rel L d d' := OrderRel L d d' ∧ FundGuar p L d d'
  refl L d := ⟨OrderRel.refl L d, rfl, fun _ => rfl, fun _ _ => rfl, fun _ _ _ hv _ => hv⟩
  trans h h' := ⟨h.1.trans h'.1, h'.2.accounts.trans h.2.accounts,
    fun hL => (h'.2.balance hL).trans (h.2.balance hL),
    fun o hL => (h'.2.commission o hL).trans (h.2.commission o hL),
    fun hL o v hv hn => h.2.live hL o v (h'.2.live hL o v hv hn) hn⟩
  anti hL h := ⟨h.1.anti hL, h.2.accounts, fun h' => h.2.balance (hL h'),
    fun o h' => h.2.commission o (hL h'), fun h' => h.2.live (hL h')⟩

/-- What holds of every committed state. -/
structure FundInv (p : Programme) (d : Db) : Prop where
  orders : OrderInv d
  released : ∀ o, d.Released o → ∃ v, d.orders.get? o = some v ∧ v.status.IsTerminal
  sound : PayoutsSound p d

/-- What a transaction may have done to the budget by its end. -/
structure BooksRight (p : Programme) (w : Db → Db) (L : List RowKey) (d' : Db) : Prop where
  released : ∀ o, (w d').Released o → d'.Released o ∨
    ∃ v, (w d').orders.get? o = some v ∧ v.status.IsTerminal
  sound : PayoutsSound p (w d')
  guar : ∀ L', LocksDisjoint L L' → FundGuar p L' d' (w d')

/-- Wherever the others have moved by then, the books come out right. -/
def KeepsBooks (p : Programme) (w : Db → Db) (L : List RowKey) (d : Db) : Prop :=
  ∀ d', (fundRely p).rel L d d' → FundInv p d' → BooksRight p w L d'

section KeepsBooks

variable {p : Programme} {S : ℕ → Prop} {w g : Db → Db} {L L' : List RowKey} {s : List Db}
  {d d' : Db}

/-- The books of two databases agree. -/
theorem PayoutsSound.congr (h : PayoutsSound p d) (hs : SameFund S d d') : PayoutsSound p d' where
  balance := by rw [hs.balance, hs.entries, h.balance]
  nonneg := by rw [hs.balance]; exact h.nonneg
  part o v := by rw [hs.commissions]; exact h.part o v
  once o := by
    rw [Db.commissionEntries, hs.entries, hs.commissions]
    exact h.once o
  cap a since length := by
    rw [Db.paidWithin, hs.commissions]
    exact h.cap a since length

theorem FundGuar.congr (h : FundGuar p L d d') {d'' : Db} (hs : SameFund S d' d'') :
    FundGuar p L d d'' where
  accounts := hs.accounts.trans h.accounts
  balance hL := hs.balance.trans (h.balance hL)
  commission o hL := by rw [hs.commissions, h.commission o hL]
  live hL o v hv hn := h.live hL o v (hs.commissions ▸ hv) hn

/-- **What comes after the books are right** does not touch them. -/
theorem KeepsBooks.then (h : KeepsBooks p w L d) {α : Type} {t : Tx α}
    (ht : t.Writes fun f => ∀ d, FundQuiet (fun _ => False) d (f d)) :
    t.wp (fundRely p) (FundInv p) (fun _ w L _ d => KeepsBooks p w L d) w L s d := by
  refine Tx.wp_mono (Tx.wp_writes (FundQuiet.refl _) FundQuiet.trans ht) ?_
  rintro _ w' L' s' d₁ ⟨g, hg, rfl, hL, -, hd⟩ d' hd' hI
  have hr := h d' ((fundRely p).trans hd ((fundRely p).anti hL hd')) hI
  have hq := hg (w d')
  refine ⟨fun o ho => ?_, hr.sound.congr hq.same, fun L'' hdisj => ?_⟩
  · rcases hr.released o ((hq.same.released o ho).resolve_left id) with ho | ⟨v, hv, hs⟩
    · exact Or.inl ho
    · obtain ⟨v', hv', hs'⟩ := hq.status o v hv
      exact Or.inr ⟨v', hv', hs' ▸ hs⟩
  · exact (hr.guar L'' fun k hk => hdisj k (hL hk)).congr hq.same

end KeepsBooks

/-! ### Up to the commission -/

/-- A transaction at work on the order `o`, whose locked row reads `v`. It has not
touched the budget; it may have paid the escrow out, and closed the order. -/
structure Settling (o : ℕ) (v : Order) (paid closed : Prop) (w : Db → Db) (L : List RowKey)
    (d : Db) : Prop where
  lock : .order o ∈ L
  row : d.orders.get? o = some v
  effect : ∀ d, SameFund (fun o' => o' = o ∧ paid) d (w d)
  after : ∀ d, (d.orders.get? o).isSome →
    ∃ v', (w d).orders.get? o = some v' ∧ (closed → v'.status.IsTerminal)

section Settling

variable {p : Programme} {o : ℕ} {v : Order} {paid closed : Prop} {w : Db → Db}
  {L L' : List RowKey} {s : List Db} {d d' : Db}

/-- The row has just been read under its lock. -/
theorem settling_start (hv : d.orders.get? o = some v) (hL : .order o ∈ L) :
    Settling o v False False id L d :=
  ⟨hL, hv, SameFund.refl _, fun d h => by
    obtain ⟨v', hv'⟩ := Option.isSome_iff_exists.mp h
    exact ⟨v', hv', False.elim⟩⟩

theorem Settling.stable (h : Settling o v paid closed w L d) (hL : L ⊆ L')
    (hd : (fundRely p).rel L d d') : Settling o v paid closed w L' d' :=
  ⟨hL h.lock, by rw [hd.1.order o h.lock, h.row], h.effect, h.after⟩

/-- One more change. -/
theorem Settling.step {paid' closed' : Prop} (h : Settling o v paid closed w L d) (hL : L ⊆ L')
    (hd : (fundRely p).rel L d d') {g : Db → Db}
    (hg : ∀ d, SameFund (fun o' => o' = o ∧ paid') d (g d)) (hpaid : paid → paid')
    (hrow : ∀ d v, d.orders.get? o = some v → (closed → v.status.IsTerminal) →
      ∃ v', (g d).orders.get? o = some v' ∧ (closed' → v'.status.IsTerminal)) :
    Settling o v paid' closed' (fun d => g (w d)) L' d' := by
  have hs := h.stable hL hd
  refine ⟨hs.lock, hs.row, fun d => ?_, fun d hd => ?_⟩
  · exact ((h.effect d).mono fun _ ho => ⟨ho.1, hpaid ho.2⟩).trans (hg (w d))
  · obtain ⟨v', hv', hc⟩ := h.after d hd
    exact hrow (w d) v' hv' hc

/-- **A part beside the budget.** -/
theorem Settling.then (h : Settling o v paid closed w L d) {α : Type} {t : Tx α}
    (ht : t.Writes fun f => ∀ d, FundQuiet (fun _ => False) d (f d)) :
    t.wp (fundRely p) (FundInv p) (fun _ w L _ d => Settling o v paid closed w L d) w L s d := by
  refine Tx.wp_mono (Tx.wp_writes (FundQuiet.refl _) FundQuiet.trans ht) ?_
  rintro _ w' L' s' d' ⟨g, hg, rfl, hL, -, hd⟩
  refine h.step hL hd (fun d => (hg d).same.mono fun _ => False.elim) id fun d v hv hc => ?_
  obtain ⟨v', hv', hs⟩ := (hg d).status o v hv
  exact ⟨v', hv', fun h => hs ▸ hc h⟩

/-- A part that pays the escrow out. -/
theorem Settling.paying (h : Settling o v paid closed w L d) {α : Type} {t : Tx α}
    (ht : t.Writes fun f => ∀ d, FundQuiet (· = o) d (f d)) :
    t.wp (fundRely p) (FundInv p)
      (fun _ w L' _ d => Settling o v True closed w L' d ∧ L ⊆ L') w L s d := by
  refine Tx.wp_mono (Tx.wp_writes (FundQuiet.refl _) FundQuiet.trans ht) ?_
  rintro _ w' L' s' d' ⟨g, hg, rfl, hL, -, hd⟩
  refine ⟨h.step hL hd (fun d => (hg d).same.mono fun _ ho => ⟨ho, trivial⟩) (fun _ => trivial)
    fun d v hv hc => ?_, hL⟩
  obtain ⟨v', hv', hs⟩ := (hg d).status o v hv
  exact ⟨v', hv', fun h => hs ▸ hc h⟩

/-- The order is closed. -/
theorem Settling.set (h : Settling o v paid closed w L d) (cfg : Settings) {st : OrderStatus}
    (hst : st.IsTerminal) : (setOrderStatus cfg o st).wp (fundRely p) (FundInv p)
      (fun _ w L _ d => Settling o v paid True w L d) w L s d := by
  refine h.step (List.Subset.refl L) ((fundRely p).refl L d)
    (g := Db.modifyOrder o (Order.setStatus cfg st)) (fun d => ⟨rfl, rfl, rfl, rfl, fun _ => Or.inr⟩)
    id fun d v hv _ => ⟨Order.setStatus cfg st v, ?_, fun _ => hst⟩
  rw [Db.modifyOrder_orders, Table.get?_modify_self, hv, Option.map_some]

/-- A settlement that paid no commission. -/
theorem Settling.keepsBooks (h : Settling o v paid closed w L d) (hclosed : paid → closed) :
    KeepsBooks p w L d := by
  intro d' hd' hI
  have hs := h.stable (List.Subset.refl L) hd'
  refine ⟨fun o' ho' => ?_, hI.sound.congr (h.effect d'), fun L' _ =>
    ((fundRely p).refl L' d').2.congr (h.effect d')⟩
  rcases (h.effect d').released o' ho' with ⟨rfl, hp⟩ | ho'
  · obtain ⟨v', hv', hterm⟩ := h.after d' (by rw [hs.row]; rfl)
    exact Or.inr ⟨v', hv', hterm (hclosed hp)⟩
  · exact Or.inl ho'

/-! ### Paying the escrow out -/

/-- Who settled the order with a fee holds the platform's wallet. -/
def Charged (cfg : Settings) (order : Order) (L : List RowKey) (d : Db) : Prop :=
  ∀ remaining fee, escrowSettlement order.totalAmount order.refundedAmount
      (orderFeePercent cfg (d.accounts.get? order.sellerId)) = some (remaining, fee) → 0 < fee →
    .wallet cfg.platformAccountId ∈ L

theorem Charged.stable {cfg : Settings} {order : Order} (h : Charged cfg order L d) (hL : L ⊆ L')
    (hd : (fundRely p).rel L d d') : Charged cfg order L' d' := by
  intro remaining fee hset hfee
  rw [hd.2.accounts] at hset
  exact hL (h remaining fee hset hfee)

/-- **The escrow of an open order is paid out**, and a fee is booked under the lock of the
platform's wallet. -/
theorem Settling.releaseEscrow (h : Settling o v False closed w L d) (hopen : ¬v.status.IsTerminal)
    (cfg : Settings) (seller : ℕ) (amount fee : ℤ) :
    (Marketplace.releaseEscrow cfg o seller amount fee).wp (fundRely p) (FundInv p)
      (fun _ w L _ d => Settling o v True closed w L d ∧
        (0 < fee → .wallet cfg.platformAccountId ∈ L)) w L s d := by
  rw [Marketplace.releaseEscrow, Tx.wp_bind, Tx.wp_require]
  intro _
  rw [Tx.wp_bind, wp_getWalletByAccount]
  intro d₁ hd₁ _ _ _
  rw [Tx.wp_bind, Tx.wp_read]
  intro d₂ hd₂ hI₂
  have h := (h.stable (List.subset_cons_self _ _) hd₁).stable (List.Subset.refl _) hd₂
  rw [Tx.wp_ite]
  refine ⟨fun hreleased => ?_, fun _ => ?_⟩
  · -- The early return: the escrow of an open order has not been paid out before.
    have hdone : (w d₂).hasTransaction .purchaseRelease (orderReference o "") ∨
        (w d₂).hasTransaction .platformFee (orderReference o "") := of_decide_eq_true hreleased
    obtain ⟨v', hv', hterm⟩ := hI₂.released o
      (((h.effect d₂).released o hdone).resolve_left fun h => h.2)
    obtain rfl : v = v' := by simpa [h.row] using hv'
    exact absurd hterm hopen
  · rw [Tx.wp_bind, Tx.wp_read]
    intro d₃ hd₃ _
    have h := h.stable (List.Subset.refl _) hd₃
    rw [Tx.wp_bind]
    refine Tx.wp_mono (h.paying (quiet_releaseToSeller cfg o _ _ _ _)) ?_
    rintro _ w L s d ⟨h, -⟩
    rw [releaseToPlatform, Tx.wp_when]
    refine ⟨fun _ => ?_, fun hfee => ⟨h, fun hpos => absurd hpos hfee⟩⟩
    rw [Tx.wp_bind, wp_getWalletByAccount]
    intro d₄ hd₄ _ _ _
    have h := h.stable (List.subset_cons_self (.wallet cfg.platformAccountId) _) hd₄
    refine Tx.wp_mono (h.paying (.bind (quiet_creditAvailable _ _) fun _ =>
      quiet_addTransaction _ fun o' _ href => ?_)) ?_
    · exact ((orderReference_inj (by decide) (by decide)).mp (Option.some.inj href)).1.symm
    · rintro _ w L s d ⟨h, hL⟩
      exact ⟨h, fun _ => hL List.mem_cons_self⟩

theorem Settling.payOut (h : Settling o v False closed w L d) (hopen : ¬v.status.IsTerminal)
    (cfg : Settings) (order : Order) : (Marketplace.payOut cfg o order).wp (fundRely p) (FundInv p)
      (fun _ w L _ d => Settling o v True closed w L d ∧ Charged cfg order L d) w L s d := by
  rw [Marketplace.payOut, Tx.wp_bind, Tx.wp_read]
  intro d₁ hd₁ _
  have h := h.stable (List.Subset.refl _) hd₁
  rw [Tx.wp_bind, settlement, Tx.wp_getOrElse]
  rintro ⟨remaining, fee⟩ hset
  rw [(h.effect d₁).accounts] at hset
  have hcharged : ∀ {L : List RowKey} {d : Db}, d.accounts = d₁.accounts →
      (0 < fee → .wallet cfg.platformAccountId ∈ L) → Charged cfg order L d := by
    intro L d hd hfee remaining' fee' hset' hpos
    rw [hd, hset] at hset'
    obtain ⟨rfl, rfl⟩ : remaining = remaining' ∧ fee = fee' := by simpa using hset'
    exact hfee hpos
  refine Tx.wp_when.mpr ⟨fun _ => ?_, fun hzero => ⟨?_, hcharged rfl fun hpos => ?_⟩⟩
  · refine Tx.wp_mono (Tx.wp_and (h.releaseEscrow hopen cfg order.sellerId remaining fee)
      (Tx.wp_moves _)) ?_
    rintro _ w L s d ⟨⟨h, hfee⟩, -, hd⟩
    exact ⟨h, hcharged hd.2.accounts hfee⟩
  · exact ⟨h.lock, h.row, fun d => (h.effect d).mono fun _ ho => ⟨ho.1, trivial⟩, h.after⟩
  · obtain ⟨-, -, -, hle⟩ := escrowSettlement_eq_some hset
    push Not at hzero
    omega

end Settling

/-! ### The commission -/

/-- The budget's books once a commission is paid. -/
def Db.payBooks (o : ℕ) (v : AffiliateCommission) (d : Db) : Db :=
  Db.addFundEntry ⟨-v.amount, .commission, some (affiliateReference o), none⟩
    (Db.addFundBalance (-v.amount) (Db.insertCommission o v d))

/-- The budget's books once a commission is taken back. -/
def Db.clawBooks (o : ℕ) (x : ℤ) (note : Option String) (moment : ℕ) (d : Db) : Db :=
  Db.modifyCommission o (fun c => { c with clawedBackAt := some moment })
    (Db.addFundEntry ⟨x, .clawback, some (affiliateReference o), note⟩ (Db.addFundBalance x d))

section Commission

variable {p : Programme} {o : ℕ} {v : AffiliateCommission} {d d' : Db} {w : Db → Db}
  {L : List RowKey} {s : List Db}

theorem SameFund.payBooks {S : ℕ → Prop} (h : SameFund S d d') (o : ℕ) (v : AffiliateCommission) :
    SameFund S (d.payBooks o v) (d'.payBooks o v) where
  accounts := h.accounts
  commissions := congrArg (fun t => t.insert o v) h.commissions
  balance := congrArg (fun x => x + -v.amount) h.balance
  entries := congrArg (fun l => l ++ [_]) h.entries
  released := h.released

theorem SameFund.clawBooks {S : ℕ → Prop} (h : SameFund S d d') (o : ℕ) (x : ℤ)
    (note : Option String) (moment : ℕ) :
    SameFund S (d.clawBooks o x note moment) (d'.clawBooks o x note moment) where
  accounts := h.accounts
  commissions := by
    simp only [Db.clawBooks, Db.modifyCommission_commissions, Db.addFundEntry_commissions,
      Db.addFundBalance_commissions, h.commissions]
  balance := congrArg (fun y => y + x) h.balance
  entries := congrArg (fun l => l ++ [_]) h.entries
  released := h.released

theorem affiliateReference_inj {m n : ℕ} : affiliateReference m = affiliateReference n ↔ m = n :=
  Text.toString_inj

/-- **A commission is paid** out of a budget that covers it, by a settlement whose count is not too
old. -/
theorem PayoutsSound.pay (h : PayoutsSound p d) {now : ℕ} (hnone : d.commissions.get? o = none)
    (hpart : 0 < v.amount ∧ v.amount ≤ v.feeBaseAmount) (hcovered : v.amount ≤ d.fundBalance)
    (hcount : d.recentCommissions v.affiliateAccountId (now - 86400) < p.maxCommissionsPerDay)
    (hclock : now ≤ v.createdAt + p.delay) : PayoutsSound p (d.payBooks o v) where
  balance := by
    simp only [Db.payBooks, Db.addFundEntry_fundBalance, Db.addFundBalance_fundBalance,
      Db.insertCommission_fundBalance, Db.addFundEntry_fundEntries, Db.addFundBalance_fundEntries,
      Db.insertCommission_fundEntries, List.map_append, List.sum_append, h.balance]
    simp
  nonneg := by
    simp only [Db.payBooks, Db.addFundEntry_fundBalance, Db.addFundBalance_fundBalance,
      Db.insertCommission_fundBalance]
    omega
  part o' v' hv' := by
    change (d.commissions.insert o v).get? o' = some v' at hv'
    by_cases ho : o' = o
    · obtain rfl : v = v' := by simpa [ho, Table.get?_insert_self hnone] using hv'
      exact hpart
    · rw [Table.get?_insert_of_ne ho] at hv'
      exact h.part o' v' hv'
  once o' := by
    have hentries : (d.payBooks o v).commissionEntries o' = d.commissionEntries o' ++
        if o' = o then [⟨-v.amount, .commission, some (affiliateReference o), none⟩] else [] := by
      rw [Db.commissionEntries, Db.commissionEntries, Db.payBooks, Db.addFundEntry_fundEntries,
        List.filter_append]
      by_cases ho : o' = o
      · simp [ho]
      · have hne : affiliateReference o ≠ affiliateReference o' := fun he =>
          ho (affiliateReference_inj.mp he).symm
        simp [ho, hne]
    have hold := h.once o'
    change _ = (((d.commissions.insert o v).get? o').toList.map fun v => -v.amount)
    rw [hentries, List.map_append, hold]
    by_cases ho : o' = o
    · simp [ho, hnone, Table.get?_insert_self hnone]
    · simp [ho, Table.get?_insert_of_ne ho]
  cap a since length hlength := by
    have hpaid : (d.payBooks o v).paidWithin a since length = d.paidWithin a since length +
        if v.affiliateAccountId = a ∧ v.clawedBackAt = none ∧ since ≤ v.createdAt ∧
          v.createdAt ≤ since + length then 1 else 0 := Table.sum_insert hnone v _
    rw [hpaid]
    split_ifs with hnew
    · obtain ⟨rfl, -, hsince, hlast⟩ := hnew
      -- What else is in the window, the settlement has counted.
      have hle : d.paidWithin v.affiliateAccountId since length ≤
          d.recentCommissions v.affiliateAccountId (now - 86400) := by
        refine Table.sum_le_sum fun k c _ => ?_
        by_cases hc : c.affiliateAccountId = v.affiliateAccountId ∧ c.clawedBackAt = none ∧
            since ≤ c.createdAt ∧ c.createdAt ≤ since + length
        · have hrecent : now - 86400 ≤ c.createdAt := by omega
          rw [if_pos hc, if_pos ⟨hc.1, hrecent, hc.2.1⟩]
        · rw [if_neg hc]
          exact Nat.zero_le _
      omega
    · exact h.cap a since length hlength

/-- **A commission is taken back**, whatever of it the wallet still covers. -/
theorem PayoutsSound.clawBack (h : PayoutsSound p d) (hv : d.commissions.get? o = some v)
    (note : Option String) (moment : ℕ) : PayoutsSound p (d.clawBooks o v.amount note moment) where
  balance := by
    simp only [Db.clawBooks, Db.modifyCommission_fundBalance, Db.modifyCommission_fundEntries,
      Db.addFundEntry_fundBalance, Db.addFundBalance_fundBalance, Db.addFundEntry_fundEntries,
      Db.addFundBalance_fundEntries, List.map_append, List.sum_append, h.balance]
    simp
  nonneg := by
    have hpos := (h.part o v hv).1
    have hold := h.nonneg
    simp only [Db.clawBooks, Db.modifyCommission_fundBalance, Db.addFundEntry_fundBalance,
      Db.addFundBalance_fundBalance]
    omega
  part o' v' hv' := by
    change (d.commissions.modify o _).get? o' = some v' at hv'
    by_cases ho : o' = o
    · rw [ho, Table.get?_modify_self, hv, Option.map_some] at hv'
      obtain rfl := Option.some.inj hv'
      exact h.part o v hv
    · rw [Table.get?_modify_of_ne _ ho] at hv'
      exact h.part o' v' hv'
  once o' := by
    have hentries : (d.clawBooks o v.amount note moment).commissionEntries o' =
        d.commissionEntries o' := by
      rw [Db.commissionEntries, Db.commissionEntries, Db.clawBooks, Db.modifyCommission_fundEntries,
        Db.addFundEntry_fundEntries, List.filter_append]
      simp
    have hold := h.once o'
    change _ = (((d.commissions.modify o _).get? o').toList.map fun v => -v.amount)
    rw [hentries, hold]
    by_cases ho : o' = o
    · rw [ho, Table.get?_modify_self, hv]
      rfl
    · rw [Table.get?_modify_of_ne _ ho]
  cap a since length hlength := by
    refine le_trans (Table.sum_le_sum_of_get? (fun _ _ => Nat.zero_le _) fun k c hc => ?_)
      (h.cap a since length hlength)
    change (d.commissions.modify o _).get? k = some c at hc
    by_cases hk : k = o
    · rw [hk, Table.get?_modify_self, hv, Option.map_some] at hc
      obtain rfl := Option.some.inj hc
      exact Or.inl (if_neg (by simp))
    · rw [Table.get?_modify_of_ne _ hk] at hc
      exact Or.inr hc

/-- The referrer may earn a commission: the count said so, and nobody else pays one meanwhile. -/
structure Payable (p : Programme) (affiliateId now : ℕ) (L : List RowKey) (d : Db) : Prop where
  platform : .wallet p.platformAccountId ∈ L
  recent : d.recentCommissions affiliateId (now - 86400) < p.maxCommissionsPerDay

theorem Payable.stable {affiliateId now : ℕ} {L' : List RowKey} (h : Payable p affiliateId now L d)
    (hL : L ⊆ L') (hd : (fundRely p).rel L d d') : Payable p affiliateId now L' d' := by
  refine ⟨hL h.platform, lt_of_le_of_lt ?_ h.recent⟩
  refine Table.sum_le_sum_of_get? (fun _ _ => Nat.zero_le _) fun k c hc => ?_
  by_cases hlive : c.clawedBackAt = none
  · exact Or.inr (hd.2.live h.platform k c hc hlive)
  · exact Or.inl (if_neg fun hcounts => hlive hcounts.2.2)

/-- A settlement that holds what it needs pays the commission. -/
theorem Settling.pays {order : Order} (h : Settling o order True True w L d) {now : ℕ}
    (hpay : Payable p v.affiliateAccountId now L d) (hfund : .fund ∈ L) (hrow : .commission o ∈ L)
    (hnone : d.commissions.get? o = none) (hcovered : v.amount ≤ d.fundBalance)
    (hpart : 0 < v.amount ∧ v.amount ≤ v.feeBaseAmount) (hclock : now ≤ v.createdAt + p.delay) :
    KeepsBooks p (fun d => (w d).payBooks o v) L d := by
  intro d' hd' hI
  have hs := h.stable (List.Subset.refl L) hd'
  have hpay := hpay.stable (List.Subset.refl L) hd'
  rw [← hd'.2.commission o hrow] at hnone
  rw [← hd'.2.balance hfund] at hcovered
  have hguar : ∀ L', LocksDisjoint L L' → FundGuar p L' d' (d'.payBooks o v) := by
    refine fun L' hdisj => ⟨rfl, fun hf => absurd hf (hdisj _ hfund), fun o' ho' => ?_,
      fun hp => absurd hp (hdisj _ hpay.platform)⟩
    have hne : o' ≠ o := by
      rintro rfl
      exact hdisj _ hrow ho'
    exact Table.get?_insert_of_ne hne v
  refine ⟨fun o' ho' => ?_, ?_, fun L' hdisj => (hguar L' hdisj).congr ((h.effect d').payBooks o v)⟩
  · rcases (h.effect d').released o' ho' with ⟨rfl, -⟩ | ho'
    · obtain ⟨v', hv', hterm⟩ := h.after d' (by rw [hs.row]; rfl)
      exact Or.inr ⟨v', hv', hterm trivial⟩
    · exact Or.inl ho'
  · exact (hI.sound.pay hnone hpart hcovered hpay.recent hclock).congr ((h.effect d').payBooks o v)

/-- A transaction that holds what it needs takes the commission back. -/
theorem Settling.clawsBack {order : Order} {paid closed : Prop}
    (h : Settling o order paid closed w L d) (hclosed : paid → closed) (hfund : .fund ∈ L)
    (hrow : .commission o ∈ L) (hv : d.commissions.get? o = some v) (note : Option String)
    (moment : ℕ) : KeepsBooks p (fun d => (w d).clawBooks o v.amount note moment) L d := by
  intro d' hd' hI
  have hs := h.stable (List.Subset.refl L) hd'
  rw [← hd'.2.commission o hrow] at hv
  have hguar : ∀ L', LocksDisjoint L L' →
      FundGuar p L' d' (d'.clawBooks o v.amount note moment) := by
    refine fun L' hdisj => ⟨rfl, fun hf => absurd hf (hdisj _ hfund), fun o' ho' => ?_,
      fun _ o' c hc hlive => ?_⟩
    · refine Table.get?_modify_of_ne _ ?_ _
      rintro rfl
      exact hdisj _ hrow ho'
    · change (d'.commissions.modify o _).get? o' = some c at hc
      by_cases ho : o' = o
      · rw [ho, Table.get?_modify_self, hv, Option.map_some] at hc
        obtain rfl := Option.some.inj hc
        exact absurd hlive (by simp)
      · rwa [Table.get?_modify_of_ne _ ho] at hc
  refine ⟨fun o' ho' => ?_, ?_, fun L' hdisj =>
    (hguar L' hdisj).congr ((h.effect d').clawBooks o v.amount note moment)⟩
  · rcases (h.effect d').released o' ho' with ⟨rfl, hp⟩ | ho'
    · obtain ⟨v', hv', hterm⟩ := h.after d' (by rw [hs.row]; rfl)
      refine Or.inr ⟨v', hv', hterm (hclosed hp)⟩
    · exact Or.inl ho'
  · exact (hI.sound.clawBack hv note moment).congr ((h.effect d').clawBooks o v.amount note moment)

end Commission

/-! ### The programmes of an order -/

section Programmes

variable {p : Programme} {o : ℕ} {v order : Order} {paid closed : Prop} {w : Db → Db}
  {L : List RowKey} {s : List Db} {d : Db} {cfg : Settings}

/-- The quote of a sale: a commission is a part of the fee, and who owes a fee holds the platform's
wallet. -/
theorem Settling.quote (h : Settling o v True True w L d) (hcharged : Charged cfg order L d)
    (hruns : cfg.Runs p) (affiliateId : ℕ) (affiliate : Account) :
    (commissionQuote cfg order affiliateId affiliate).wp (fundRely p) (FundInv p)
      (fun r w L _ d => Settling o v True True w L d ∧ ∀ q ∈ r, 0 < q.2.2 ∧ q.2.2 ≤ q.2.1 ∧
        .wallet p.platformAccountId ∈ L) w L s d := by
  rw [commissionQuote, Tx.wp_ite]
  refine ⟨fun _ => ⟨h, fun q hq => absurd hq (by simp)⟩, fun _ => ?_⟩
  rcases hrate : cfg.commissionRate with _ | rate
  · exact ⟨h, fun q hq => absurd hq (by simp)⟩
  · change (Tx.read _ >>= _ : Tx _).wp _ _ _ _ _ _ _
    rw [Tx.wp_bind, Tx.wp_read]
    intro d₁ hd₁ _
    have h := h.stable (List.Subset.refl _) hd₁
    have hcharged := hcharged.stable (List.Subset.refl _) hd₁
    rw [Tx.wp_bind, settlement, Tx.wp_getOrElse]
    rintro ⟨remaining, fee⟩ hset
    rw [(h.effect d₁).accounts] at hset
    obtain ⟨-, -, hfee, -⟩ := escrowSettlement_eq_some hset
    change (if roundDiv (fee * rate.num) (100 * rate.den) ≤ 0 then _ else _ : Tx _).wp _ _ _ _ _ _ _
    rw [Tx.wp_ite]
    refine ⟨fun _ => ⟨h, fun q hq => absurd hq (by simp)⟩, fun hpos => ⟨h, fun q hq => ?_⟩⟩
    obtain rfl : (rate, fee, roundDiv (fee * rate.num) (100 * rate.den)) = q := by simpa using hq
    obtain ⟨productRate, categoryRate, accountRate, defaultRate, hresolve⟩ := hruns.rate
    obtain ⟨-, hle⟩ := resolveRate_mem (hresolve.symm.trans hrate)
    have hnum : rate.num ≤ 100 * rate.den := by
      have hden : (0 : ℚ) < rate.den := by exact_mod_cast rate.den_pos
      rw [← Rat.num_div_den rate, div_le_iff₀ hden] at hle
      exact_mod_cast hle
    have hn : (0 : ℤ) < 100 * rate.den := by
      have := rate.den_pos
      omega
    refine ⟨not_le.mp hpos, roundDiv_le hfee hnum hn, ?_⟩
    rw [← hruns.platform]
    exact hcharged remaining fee hset (lt_of_le_of_ne hfee fun hzero =>
      hpos ((roundDiv_le hfee hnum hn).trans hzero.ge))

/-- The budget is locked, the commission's row created, and the referrer paid. -/
theorem Settling.payCommission (h : Settling o v True True w L d) (hruns : cfg.Runs p)
    {affiliateId buyerId : ℕ} {rate : ℚ} {feeBase amount : ℤ}
    (hpart : 0 < amount ∧ amount ≤ feeBase) (hpay : Payable p affiliateId cfg.now L d) :
    (Marketplace.payCommission cfg o affiliateId buyerId rate feeBase amount).wp (fundRely p)
      (FundInv p) (fun _ w L _ d => KeepsBooks p w L d) w L s d := by
  rw [Marketplace.payCommission, Tx.wp_bind, Tx.wp_lock]
  intro d₁ hd₁ _
  have hfund : .fund ∈ (.fund :: L : List RowKey) := List.mem_cons_self
  have h := h.stable (List.subset_cons_self .fund L) hd₁
  have hpay := hpay.stable (List.subset_cons_self .fund L) hd₁
  rw [Tx.wp_ite]
  refine ⟨fun _ => h.keepsBooks fun _ => trivial, fun hcovered => ?_⟩
  rw [(h.effect d₁).balance, not_lt] at hcovered
  rw [Tx.wp_bind, wp_insertRow]
  intro d₂ hd₂ _ hnone
  rw [(h.effect d₂).commissions] at hnone
  have hsub : (.fund :: L : List RowKey) ⊆ .commission o :: .fund :: L := List.subset_cons_self _ _
  have h := h.stable hsub hd₂
  have hpay := hpay.stable hsub hd₂
  rw [← hd₂.2.balance hfund] at hcovered
  rw [Tx.wp_bind, Tx.wp_modify, Tx.wp_bind, Tx.wp_modify]
  exact (h.pays (v := ⟨affiliateId, buyerId, rate, feeBase, amount, none, cfg.startedAt⟩) hpay
    (hsub hfund) List.mem_cons_self hnone hcovered hpart hruns.clock).then
    (quiet_creditAffiliateCommission cfg o affiliateId amount)

/-- **A settlement applies the affiliate programme.** -/
theorem Settling.applyAffiliateCommission (h : Settling o v True True w L d)
    (hcharged : Charged cfg order L d) (hruns : cfg.Runs p) :
    (Marketplace.applyAffiliateCommission cfg o order).wp (fundRely p) (FundInv p)
      (fun _ w L _ d => KeepsBooks p w L d) w L s d := by
  have hdone : ∀ {L d}, Settling o v True True w L d → KeepsBooks p w L d :=
    fun h => h.keepsBooks fun _ => trivial
  rw [Marketplace.applyAffiliateCommission, Tx.wp_ite]
  refine ⟨fun _ => hdone h, fun _ => ?_⟩
  rw [Tx.wp_bind, Tx.wp_read]
  intro d₁ hd₁ _
  have h := h.stable (List.Subset.refl L) hd₁
  have hcharged := hcharged.stable (List.Subset.refl L) hd₁
  rcases (w d₁).accounts.get? order.buyerId with _ | buyer
  · exact hdone h
  rw [Tx.wp_bind, Tx.wp_read]
  intro d₂ hd₂ _
  have h := h.stable (List.Subset.refl L) hd₂
  have hcharged := hcharged.stable (List.Subset.refl L) hd₂
  rcases (w d₂).orderReferrer o buyer with _ | affiliateId
  · exact hdone h
  rw [Tx.wp_bind, Tx.wp_read]
  intro d₃ hd₃ _
  have h := h.stable (List.Subset.refl L) hd₃
  have hcharged := hcharged.stable (List.Subset.refl L) hd₃
  rcases (w d₃).accounts.get? affiliateId with _ | affiliate
  · exact hdone h
  change (applyCommissionTo cfg o order affiliateId affiliate).wp _ _ _ _ _ _ _
  rw [applyCommissionTo, Tx.wp_bind, Tx.wp_read]
  intro d₄ hd₄ _
  have h := h.stable (List.Subset.refl L) hd₄
  have hcharged := hcharged.stable (List.Subset.refl L) hd₄
  rw [Tx.wp_ite]
  refine ⟨fun _ => hdone h, fun _ => ?_⟩
  rw [Tx.wp_bind]
  refine Tx.wp_mono (h.quote hcharged hruns affiliateId affiliate) ?_
  rintro (_ | ⟨rate, feeBase, amount⟩) w L s d ⟨h, hq⟩
  · exact h.keepsBooks fun _ => trivial
  obtain ⟨hpos, hle, hplatform⟩ := hq _ rfl
  change (Tx.read _ >>= _ : Tx _).wp _ _ _ _ _ _ _
  rw [Tx.wp_bind, Tx.wp_read]
  intro d₅ hd₅ _
  have h := h.stable (List.Subset.refl L) hd₅
  have hcount : (w d₅).recentCommissions affiliateId (cfg.now - 86400) =
      d₅.recentCommissions affiliateId (cfg.now - 86400) := by
    rw [Db.recentCommissions, Db.recentCommissions, (h.effect d₅).commissions]
  rw [Tx.wp_ite, hcount, hruns.cap, not_le]
  exact ⟨fun _ => h.keepsBooks fun _ => trivial,
    fun hrecent => h.payCommission hruns ⟨hpos, hle⟩ ⟨hplatform, hrecent⟩⟩

/-- What every settlement applies once the escrow is paid out and the order closed. -/
theorem Settling.applyPrograms (h : Settling o v True True w L d)
    (hcharged : Charged cfg order L d) (hruns : cfg.Runs p) :
    (Marketplace.applyPrograms cfg o order).wp (fundRely p) (FundInv p)
      (fun _ w L _ d => KeepsBooks p w L d) w L s d := by
  rw [Marketplace.applyPrograms, Tx.wp_bind]
  refine Tx.wp_mono (h.applyAffiliateCommission hcharged hruns) fun _ w L s d h => ?_
  exact h.then (quiet_applyBuyerCashback cfg o _)

/-- **A refund in full takes the commission back.** -/
theorem Settling.clawbackPrograms (h : Settling o v paid closed w L d) (hclosed : paid → closed) :
    (Marketplace.clawbackPrograms cfg o).wp (fundRely p) (FundInv p)
      (fun _ w L _ d => KeepsBooks p w L d) w L s d := by
  rw [Marketplace.clawbackPrograms, Tx.wp_bind]
  suffices hclaw : (clawbackCommissionForOrder cfg o).wp (fundRely p) (FundInv p)
      (fun _ w L _ d => KeepsBooks p w L d) w L s d from
    Tx.wp_mono hclaw fun _ w L s d h => h.then (quiet_clawbackBuyerCashback cfg o)
  rw [clawbackCommissionForOrder, Tx.wp_bind, Tx.wp_lock]
  intro d₁ hd₁ _
  have h := h.stable (List.subset_cons_self (.commission o) L) hd₁
  rw [(h.effect d₁).commissions]
  rcases hv : d₁.commissions.get? o with _ | c
  · exact h.keepsBooks hclosed
  change (if c.clawedBackAt ≠ none then _ else _ : Tx Unit).wp _ _ _ _ _ _ _
  rw [Tx.wp_ite]
  refine ⟨fun _ => h.keepsBooks hclosed, fun _ => ?_⟩
  rw [Tx.wp_bind, Tx.wp_lock]
  intro d₂ hd₂ _
  have h := h.stable (List.subset_cons_self .fund _) hd₂
  rw [← hd₂.2.commission o List.mem_cons_self] at hv
  rw [Tx.wp_bind]
  refine Tx.wp_mono (Tx.wp_and (h.then (quiet_clawbackAffiliateCommission cfg o _ _))
    (Tx.wp_moves _)) ?_
  rintro recovered w L s d ⟨h, hL, hd⟩
  rw [← hd.2.commission o (by simp)] at hv
  exact h.clawsBack hclosed (hL (by simp)) (hL (by simp)) hv _ _

end Programmes

end Marketplace
