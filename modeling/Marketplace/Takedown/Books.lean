import Marketplace.Sql.FlowRely
import Marketplace.Sql.Zoom
import Marketplace.Takedown.Service

/-!
# The money of a takedown

What the platform has booked for an order: its row, and the refunds that carry its reference
(`Db.books`). Both change under the lock of the order alone, which is all `shopRely` says, and so a
transaction that holds the order knows its books until it changes them.

`MoneyFollows` says which books fit which status of a request. `wp_addHeldOrder` is the transaction that opens
them, and `wp_settleOrder` shows that `_settle_money` moves the books along with the status, if the status
is one that it settles.
-/

namespace Marketplace

open Sql

/-! ### Books -/

/-- The refunds that were booked for an order. -/
def Db.refundsOf (d : Db) (o : ℕ) : List ℤ :=
  (d.transactions.filter fun t => t.type = .refund ∧ t.referenceId = some (orderReference o "")).map
    Transaction.amount

/-- What is booked for an order. -/
def Db.books (d : Db) (o : ℕ) : Option Order × List ℤ := (d.orders.get? o, d.refundsOf o)

/-- No refund is booked for an order there is not. -/
def NoStrayRefund (d : Db) : Prop := ∀ o, d.orders.get? o = none → d.refundsOf o = []

/-- What the others leave alone: the books of the orders one holds. -/
abbrev shopRely : Rely Db RowKey := viewRely RowKey.order fun o d => d.books o

/-- The books that fit a status: the money is held until the last word, then the order is delivered
or all of it refunded. -/
def MoneyFollows (s : TakedownStatus) (b : Option Order × List ℤ) : Prop :=
  ∃ order, b.1 = some order ∧ 0 < order.totalAmount ∧
    if s.IsTerminal then
      if s = .done then order.status = .delivered ∧ order.refundedAmount = 0 ∧ b.2 = []
      else s.Refunds ∧ order.status = .cancelled ∧ order.refundedAmount = order.totalAmount ∧
        b.2 = [order.totalAmount]
    else order.status = .processing ∧ order.refundedAmount = 0 ∧ b.2 = []

/-! ### Changes of the books -/

/-- The change leaves all books alone. -/
def KeepsOrderBooks (f : Db → Db) : Prop := ∀ d o, (f d).books o = d.books o

/-- The change leads from the books `b` of the order to `b'`, and leaves the other books alone. -/
structure MovesBooks (o : ℕ) (b b' : Option Order × List ℤ) (f : Db → Db) : Prop where
  moves : ∀ d, d.books o = b → (f d).books o = b'
  rest : ∀ d o', o' ≠ o → (f d).books o' = d.books o'

section Changes

variable {o : ℕ} {b b' b'' : Option Order × List ℤ} {f g : Db → Db}

theorem keepsBooks_id : KeepsOrderBooks id := fun _ _ => rfl

theorem KeepsOrderBooks.comp (hf : KeepsOrderBooks f) (hg : KeepsOrderBooks g) : KeepsOrderBooks fun d => g (f d) :=
  fun d o => (hg (f d) o).trans (hf d o)

theorem KeepsOrderBooks.movesBooks (hf : KeepsOrderBooks f) : MovesBooks o b b f :=
  ⟨fun d hd => (hf d o).trans hd, fun d o' _ => hf d o'⟩

theorem MovesBooks.comp (hf : MovesBooks o b b' f) (hg : MovesBooks o b' b'' g) :
    MovesBooks o b b'' fun d => g (f d) :=
  ⟨fun d hd => hg.moves (f d) (hf.moves d hd),
    fun d o' ho' => (hg.rest (f d) o' ho').trans (hf.rest d o' ho')⟩

theorem keepsBooks_modifyWallet (a : ℕ) (f : Wallet → Wallet) : KeepsOrderBooks (Db.modifyWallet a f) :=
  fun _ _ => rfl

theorem movesBooks_modifyOrder (f : Order → Order) (order : Order) (l : List ℤ) :
    MovesBooks o (some order, l) (some (f order), l) (Db.modifyOrder o f) := by
  constructor
  · intro d hd
    have hrow : d.orders.get? o = some order := congrArg Prod.fst hd
    have hrefunds : d.refundsOf o = l := congrArg Prod.snd hd
    refine Prod.ext ?_ hrefunds
    change (d.orders.modify o f).get? o = some (f order)
    rw [Table.get?_modify, if_pos rfl, hrow, Option.map_some]
  · intro d o' ho'
    refine Prod.ext ?_ rfl
    change (d.orders.modify o f).get? o' = d.orders.get? o'
    rw [Table.get?_modify, if_neg ho']

theorem refundsOf_addTransaction (t : Transaction) (d : Db) :
    (d.addTransaction t).refundsOf o = d.refundsOf o ++
      if t.type = .refund ∧ t.referenceId = some (orderReference o "") then [t.amount] else [] := by
  rw [Db.refundsOf, Db.addTransaction_transactions, List.filter_append, List.map_append]
  congr 1
  by_cases ht : t.type = .refund ∧ t.referenceId = some (orderReference o "")
  · simp [ht]
  · rw [if_neg ht, List.filter_cons_of_neg (by simpa using ht)]
    rfl

/-- A row of another type is no refund. -/
theorem keepsBooks_addTransaction {t : Transaction} (ht : t.type ≠ .refund) :
    KeepsOrderBooks (Db.addTransaction t) := by
  intro d o
  refine Prod.ext rfl ?_
  change (d.addTransaction t).refundsOf o = d.refundsOf o
  rw [refundsOf_addTransaction, if_neg fun h => ht h.1, List.append_nil]

theorem movesBooks_refund (a : ℕ) (x : ℤ) (now : ℕ) (order : Option Order) (l : List ℤ) :
    MovesBooks o (order, l) (order, l ++ [x])
      (Db.addTransaction ⟨a, .refund, x, some (orderReference o ""), now⟩) := by
  constructor
  · intro d hd
    have hrow : d.orders.get? o = order := congrArg Prod.fst hd
    have hrefunds : d.refundsOf o = l := congrArg Prod.snd hd
    refine Prod.ext hrow ?_
    change (d.addTransaction _).refundsOf o = l ++ [x]
    rw [refundsOf_addTransaction, if_pos ⟨rfl, rfl⟩, hrefunds]
  · intro d o' ho'
    refine Prod.ext rfl ?_
    change (d.addTransaction _).refundsOf o' = d.refundsOf o'
    rw [refundsOf_addTransaction, if_neg, List.append_nil]
    rintro ⟨-, href⟩
    exact ho' ((orderReference_inj (by decide) (by decide)).mp (Option.some.inj href)).1.symm

theorem hasTransaction_refund (d : Db) :
    d.hasTransaction .refund (orderReference o "") ↔ d.refundsOf o ≠ [] := by
  rw [Db.refundsOf, ne_eq, List.map_eq_nil_iff, List.filter_eq_nil_iff]
  simp [Db.hasTransaction]

end Changes

/-! ### Transactions that hold an order -/

/-- A transaction holds the order, whose books are `b`, and has changes pending that lead to `b'`. -/
abbrev HeldBooks (o : ℕ) (b b' : Option Order × List ℤ) (w : Db → Db) (L : List RowKey) (d : Db) : Prop :=
  Holding RowKey.order (fun o d => d.books o) (MovesBooks o b b') o b w L d

section Held

variable {o : ℕ} {b b' b'' : Option Order × List ℤ} {w f : Db → Db} {L : List RowKey} {s : List Db}
  {d d' : Db} {I : Db → Prop} {order : Order}

theorem booked_books (h : HeldBooks o b b' w L d) : (w d).books o = b' := h.pending.moves d h.sees

theorem booked_change (h : HeldBooks o b b' w L d) (hf : MovesBooks o b' b'' f) :
    HeldBooks o b b'' (fun d => f (w d)) L d :=
  ⟨h.pending.comp hf, h.mem, h.sees⟩

theorem booked_keep (h : HeldBooks o b b' w L d) (hf : KeepsOrderBooks f) :
    HeldBooks o b b' (fun d => f (w d)) L d :=
  booked_change h hf.movesBooks

/-- **A refund is booked once**, on an order that has none yet. -/
theorem wp_refundEscrow_held (cfg : Settings) (buyer : ℕ) (amount : ℤ)
    (h : HeldBooks o b (some order, []) w L d) :
    (refundEscrow cfg o buyer amount "").wp shopRely I
      (fun _ w L _ d => HeldBooks o b
        (some { order with refundedAmount := order.refundedAmount + amount }, [amount]) w L d) w L s d := by
  simp only [refundEscrow, lockOrder, Tx.wp_bind, Tx.wp_require, Tx.wp_lock, Tx.wp_getOrElse,
    wp_getWalletByAccount, Tx.wp_read]
  intro _ d₁ hd₁ _ order₁ _ _ d₂ hd₂ _ wallet _ d₃ hd₃ _
  have h₃ := (((h.moves hd₁).lock [_]).moves hd₂ |>.lock [_]).moves hd₃
  have hnone : (w d₃).refundsOf o = [] := congrArg Prod.snd (booked_books h₃)
  have hnew : decide ((w d₃).hasTransaction .refund (orderReference o "")) = false :=
    decide_eq_false fun hhas => (hasTransaction_refund _).mp hhas hnone
  rw [hnew, if_neg Bool.false_ne_true, Tx.wp_bind, Tx.wp_modify, Tx.wp_bind, creditAvailable, Tx.wp_modify, wp_addTransaction]
  intro d₄ hd₄ _ _ _
  have hcounted := booked_change h₃ (movesBooks_modifyOrder
    (fun o => { o with refundedAmount := o.refundedAmount + amount }) order [])
  have hcredited := booked_keep hcounted (keepsBooks_modifyWallet buyer fun v =>
    { v with availableBalance := v.availableBalance + amount })
  exact booked_change (hcredited.moves hd₄) (movesBooks_refund buyer amount cfg.startedAt _ [])

theorem wp_setOrderStatus_held (cfg : Settings) (status : OrderStatus) {l : List ℤ}
    (h : HeldBooks o b (some order, l) w L d) :
    (setOrderStatus cfg o status).wp shopRely I
      (fun _ w L _ d => HeldBooks o b (some (order.setStatus cfg status), l) w L d) w L s d :=
  booked_change h (movesBooks_modifyOrder (Order.setStatus cfg status) order l)

/-- A part that leaves the books alone. -/
theorem wp_keepsBooks {α : Type} {t : Tx α} (ht : t.Writes KeepsOrderBooks) (h : HeldBooks o b b' w L d) :
    t.wp shopRely I (fun _ w L _ d => HeldBooks o b b' w L d) w L s d := by
  refine Tx.wp_mono (Tx.wp_frame keepsBooks_id (fun _ _ => KeepsOrderBooks.comp) ht) ?_
  rintro _ _ L' _ d' ⟨g, hg, rfl, hL, -, hd⟩
  exact ⟨h.pending.comp hg.movesBooks, hL h.mem, (hd o h.mem).trans h.sees⟩

theorem writes_deductCredit_books (cfg : Settings) (a : ℕ) (x : ℤ) (ref : String) :
    (deductCredit cfg a x ref).Writes KeepsOrderBooks := by
  refine .bind (Tx.writes_require _ _) fun _ =>
    .bind (.bind (Tx.writes_lock _ _) fun _ => Tx.writes_getOrElse _ _) fun _ =>
    .bind (Tx.writes_read _) fun existing => ?_
  split_ifs
  · exact Tx.writes_pure _
  · refine .bind (Tx.writes_require _ _) fun _ =>
      .bind (Tx.writes_modify.mpr (keepsBooks_modifyWallet a _)) fun _ =>
      .bind (Tx.writes_read _) fun _ => .bind (Tx.writes_require _ _) fun _ => ?_
    exact Tx.writes_modify.mpr (keepsBooks_addTransaction TransactionType.noConfusion)

theorem movesBooks_insertOrder (order : Order) :
    MovesBooks o (none, []) (some order, []) (Db.insertOrder o order) := by
  constructor
  · intro d hd
    have hrow : d.orders.get? o = none := congrArg Prod.fst hd
    have hrefunds : d.refundsOf o = [] := congrArg Prod.snd hd
    refine Prod.ext ?_ hrefunds
    change (d.orders.insert o order).get? o = some order
    rw [Table.get?_insert hrow, if_pos rfl]
  · intro d o' ho'
    refine Prod.ext ?_ rfl
    change (d.orders.insert o order).get? o' = d.orders.get? o'
    rw [Table.get?_insert_of_ne ho']

/-- **An order is opened with its money held.** -/
theorem wp_addHeldOrder (o : ℕ) (order : Order) (cfg : Settings) (buyer : ℕ) (price : ℤ) (ref : String) :
    (do addOrder o order; deductCredit cfg buyer price ref : Tx Unit).wp shopRely NoStrayRefund
      (fun _ w L _ d => 0 < price ∧ HeldBooks o (none, []) (some order, []) w L d) id L s d := by
  rw [Tx.wp_bind, addOrder, wp_insertRow]
  intro d₁ _ hI hnone
  have hopened : HeldBooks o (none, []) (some order, []) (Db.insertOrder o order) (.order o :: L) d₁ :=
    ⟨movesBooks_insertOrder order, List.mem_cons_self, Prod.ext hnone (hI o hnone)⟩
  refine Tx.wp_and ?_ (wp_keepsBooks (writes_deductCredit_books cfg buyer price ref) hopened)
  rw [deductCredit, Tx.wp_bind, Tx.wp_require]
  exact fun hprice => Tx.wp_mono (Tx.wp_moves _) fun _ _ _ _ _ _ => hprice

/-- **The books follow the status**, if it is one that is settled. -/
theorem wp_settleOrder (cfg : TakedownSettings) (r : TakedownRequest) {old new : TakedownStatus}
    {l : List ℤ} (hnew : new.IsTerminal → new = .done ∨ new.Refunds) (hold : ¬old.IsTerminal)
    (hfollows : MoneyFollows old (some order, l)) (h : HeldBooks o b (some order, l) w L d) :
    (settleOrder cfg r o order new).wp shopRely I
      (fun _ w L _ d => ∃ b', MoneyFollows new b' ∧ HeldBooks o b b' w L d) w L s d := by
  obtain ⟨_, horder, htotal, hbooks⟩ := hfollows
  obtain rfl := Option.some.inj horder
  rw [if_neg hold] at hbooks
  obtain ⟨hprocessing, hrefunded, rfl⟩ := hbooks
  change order.refundedAmount = 0 at hrefunded
  rw [settleOrder, Tx.wp_ite]
  refine ⟨?_, fun hrefunds => ?_⟩
  · -- The rest of the money goes back, which is all of it.
    rintro ⟨hrefunds, -⟩
    have hrest : 0 < order.totalAmount - order.refundedAmount := by omega
    rw [Tx.wp_bind, Tx.wp_when]
    refine ⟨fun _ => Tx.wp_mono (wp_refundEscrow_held cfg.shop order.buyerId _ h) ?_,
      fun hnot => absurd hrest hnot⟩
    intro _ w L s d h
    rw [cancelOrder, Tx.wp_bind]
    refine Tx.wp_mono (wp_setOrderStatus_held cfg.shop .cancelled h) fun _ w L s d h => ?_
    refine ⟨_, ?_, booked_change h (movesBooks_modifyOrder
      (fun o => { o with cancelReason := some (takedownCancelReason new) }) _ _)⟩
    have hterminal : new.IsTerminal ∧ new ≠ .done := by
      rcases hrefunds with rfl | rfl <;> decide
    refine ⟨_, rfl, htotal, ?_⟩
    rw [if_pos hterminal.1, if_neg hterminal.2]
    refine ⟨hrefunds, rfl, ?_, ?_⟩
    · change order.refundedAmount + (order.totalAmount - order.refundedAmount) = order.totalAmount
      omega
    · change [order.totalAmount - order.refundedAmount] = [order.totalAmount]
      rw [hrefunded, sub_zero]
  · rw [Tx.wp_when]
    refine ⟨?_, fun hdone => ?_⟩
    · rintro ⟨rfl, -⟩
      rw [deliverTakedown, Tx.wp_bind]
      refine Tx.wp_mono (wp_setOrderStatus_held cfg.shop .delivered h) fun _ w L s d h => ?_
      refine ⟨_, ?_, booked_change h (movesBooks_modifyOrder (fun o =>
        { o with
          deliveredAt := some cfg.shop.now
          deliveredData := some r.deliveredData
          escrowExpiresAt := some (cfg.shop.now + cfg.escrowDays * 86400) }) _ _)⟩
      exact ⟨_, rfl, htotal, rfl, hrefunded, rfl⟩
    · have hopen : ¬new.IsTerminal := by
        intro hterminal
        rcases hnew hterminal with rfl | hrefund
        · exact hdone ⟨rfl, Or.inr hprocessing⟩
        · exact hrefunds ⟨hrefund, Or.inr hprocessing⟩
      refine ⟨_, ⟨order, rfl, htotal, ?_⟩, h⟩
      rw [if_neg hopen]
      exact ⟨hprocessing, hrefunded, rfl⟩

end Held

end Marketplace
