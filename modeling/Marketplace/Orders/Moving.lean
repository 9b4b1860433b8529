import Marketplace.Orders.Effects
import Marketplace.Scheduler.Disputes
import Marketplace.Tasks.Service

/-!
# Orders under concurrency

Every function that moves an order locks its row and checks the status under the lock, with two
exceptions: the seller's `acceptOrder` and `deliverOrder` check first and lock when they write.
`OrderCall` lists all the transactions, `orderMachine` lets their statements interleave. Its
`allows` lets the sellers' two calls commit only where the status they checked is still the committed
one.

`OrderInv` links orders and cases, `OrderRel` says what a locked row is safe from, and
`OrderPost` what no commit may do: open a closed order again. A transaction at work on one order is
followed by `Working`, step by step, to what it owes at its commit. This file
does so for checkouts, provisioning, settlement and tasks; the dispute functions, which
check the case and not the order, are in `Marketplace.Disputes.Handling`.
-/

namespace Marketplace

open Sql

/-! ### The transactions -/

/-- A transaction that changes orders. -/
inductive OrderCall
  | createOrder (cfg : Settings) (skipped : List ℕ) (orderId : ℕ) (p : Purchase)
  | createOrderWithAdapter (cfg : Settings) (orderId : ℕ) (p : AdapterPurchase)
  | provisionPendingOrder (cfg : Settings) (orderId : ℕ) (provision : Provision)
      (providerId : Option ℕ)
  | confirmOrder (cfg : Settings) (orderId buyerId : ℕ)
  | acceptOrder (cfg : Settings) (orderId sellerId : ℕ)
  | deliverOrder (cfg : Settings) (orderId sellerId : ℕ) (data : String)
  | releaseOrder (cfg : Settings) (orderId : ℕ)
  | refundOrder (cfg : Settings) (orderId : ℕ) (buyerMessage : Option String)
  | extendEscrow (cfg : Settings) (orderId days : ℕ)
  | escrowRelease (cfg : Settings) (orderId : ℕ)
  | slaCheck (cfg : Settings) (orderId : ℕ)
  | provisionSweep (cfg : Settings) (orderId : ℕ) (catalog : Bool)
  | updateTask (cfg : Settings) (memory : List (ℕ × ServiceTask)) (taskId : ℕ) (u : TaskUpdate)
  | createDispute (cfg : Settings) (disputeId orderId buyerId : ℕ) (resourceIds lineNos : List ℕ)
      (idempotencyKey : Option String)
  | appendClaimBatch (cfg : Settings) (orderId buyerId : ℕ) (resourceIds lineNos : List ℕ)
      (idempotencyKey : String)
  | acceptDisputeResolution (cfg : Settings) (orderId buyerId : ℕ)
  | withdrawDispute (cfg : Settings) (orderId buyerId : ℕ)
  | requestMarketplaceReview (cfg : Settings) (orderId accountId : ℕ)
  | sellerRespondDispute (cfg : Settings) (disputeId sellerId : ℕ) (sellerNote : String)
  | sellerResolveResources (cfg : Settings) (skipped : List ℕ) (disputeId sellerId : ℕ)
      (resourceIds : List ℕ) (action : RemedyAction) (replacementIds : Option (List ℕ))
      (idempotencyKey : String) (sellerNote : Option String)
  | sellerResolveProxies (cfg : Settings) (disputeId sellerId : ℕ) (lineNos : List ℕ)
      (idempotencyKey : String) (sellerNote : Option String)
  | adminRefundProxies (cfg : Settings) (disputeId : ℕ) (lineNos : List ℕ)
      (idempotencyKey : String) (note : Option String)
  | refundDispute (cfg : Settings) (disputeId : ℕ)
  | rejectDispute (cfg : Settings) (disputeId : ℕ)
  | partialRefundDispute (cfg : Settings) (disputeId : ℕ) (refundAmount : ℤ)
  | replaceDispute (cfg : Settings) (skipped : List ℕ) (disputeId : ℕ)
  | extendWarrantyDispute (cfg : Settings) (disputeId extraDays : ℕ)
  | disputeResolutionTimeout (cfg : Settings) (orderId : ℕ) (order : Order)
  | disputeSellerTimeout (cfg : Settings) (orderId : ℕ) (order : Order)
  | disputeAbandonment (cfg : Settings) (orderId : ℕ) (order : Order)

/-- The transaction itself. -/
def OrderCall.code : OrderCall → Tx Unit
  | .createOrder cfg skipped o p => Marketplace.createOrder cfg skipped o p
  | .createOrderWithAdapter cfg o p => Marketplace.createOrderWithAdapter cfg o p
  | .provisionPendingOrder cfg o provision providerId =>
    Marketplace.provisionPendingOrder cfg o provision providerId
  | .confirmOrder cfg o b => Marketplace.confirmOrder cfg o b
  | .acceptOrder cfg o seller => Marketplace.acceptOrder cfg o seller
  | .deliverOrder cfg o seller data => Marketplace.deliverOrder cfg o seller data
  | .releaseOrder cfg o => Marketplace.releaseOrder cfg o
  | .refundOrder cfg o message => Marketplace.refundOrder cfg o message
  | .extendEscrow cfg o days => Marketplace.extendEscrow cfg o days
  | .escrowRelease cfg o => Marketplace.escrowRelease cfg o
  | .slaCheck cfg o => Marketplace.slaCheck cfg o
  | .provisionSweep cfg o catalog => Marketplace.provisionSweep cfg o catalog
  | .updateTask cfg memory t u => Marketplace.updateTask cfg memory t u
  | .createDispute cfg c o b resourceIds lineNos key =>
    Marketplace.createDispute cfg c o b resourceIds lineNos key
  | .appendClaimBatch cfg o b resourceIds lineNos key =>
    Marketplace.appendClaimBatch cfg o b resourceIds lineNos key
  | .acceptDisputeResolution cfg o b => Marketplace.acceptDisputeResolution cfg o b
  | .withdrawDispute cfg o b => Marketplace.withdrawDispute cfg o b
  | .requestMarketplaceReview cfg o a => Marketplace.requestMarketplaceReview cfg o a
  | .sellerRespondDispute cfg c seller note => Marketplace.sellerRespondDispute cfg c seller note
  | .sellerResolveResources cfg skipped c seller resourceIds action replacementIds key note =>
    Marketplace.sellerResolveResources cfg skipped c seller resourceIds action replacementIds key note
  | .sellerResolveProxies cfg c seller lineNos key note =>
    Marketplace.sellerResolveProxies cfg c seller lineNos key note
  | .adminRefundProxies cfg c lineNos key note =>
    Marketplace.adminRefundProxies cfg c lineNos key note
  | .refundDispute cfg c => Marketplace.refundDispute cfg c
  | .rejectDispute cfg c => Marketplace.rejectDispute cfg c
  | .partialRefundDispute cfg c x => Marketplace.partialRefundDispute cfg c x
  | .replaceDispute cfg skipped c => Marketplace.replaceDispute cfg skipped c
  | .extendWarrantyDispute cfg c days => Marketplace.extendWarrantyDispute cfg c days
  | .disputeResolutionTimeout cfg o order => Marketplace.disputeResolutionTimeout cfg o order
  | .disputeSellerTimeout cfg o order => Marketplace.disputeSellerTimeout cfg o order
  | .disputeAbandonment cfg o order => Marketplace.disputeAbandonment cfg o order

/-- The status a seller's call checked is still the committed one. -/
def OrderCall.Unmoved (d : Db) : OrderCall → Prop
  | .acceptOrder _ o _ => ∀ v, d.orders.get? o = some v → v.status = .pending
  | .deliverOrder _ o _ _ => ∀ v, d.orders.get? o = some v → v.status = .processing
  | _ => True

/-- All of them at once, where the sellers' calls commit only if the status has not moved. -/
def orderMachine : Machine Db RowKey Abort Unit OrderCall where
  code := OrderCall.code
  allows c _ d := c.Unmoved d

/-! ### Closed orders -/

/-- The statuses that are final. -/
def OrderStatus.IsTerminal (s : OrderStatus) : Prop :=
  s = .cancelled ∨ s = .refunded ∨ s = .completed

instance (s : OrderStatus) : Decidable s.IsTerminal := by
  unfold OrderStatus.IsTerminal
  infer_instance

/-- The order is neither closed nor delivered. -/
def Order.IsWaiting (v : Order) : Prop := ¬v.status.IsTerminal ∧ v.status ≠ .delivered

/-- What holds of orders and cases in every committed state. -/
structure OrderInv (d : Db) : Prop where
  /-- While a case is open its order is delivered. -/
  openCase : ∀ c u, d.disputes.get? c = some u → u.status = .open_ →
    ∃ v, d.orders.get? u.orderId = some v ∧ v.status = .delivered
  /-- An order has one open case at most. -/
  oneCase : ∀ c u c' u', d.disputes.get? c = some u → d.disputes.get? c' = some u' →
    u.status = .open_ → u'.status = .open_ → u.orderId = u'.orderId → c = c'
  /-- An order that was refunded in full is closed or delivered. -/
  unpaid : ∀ o v, d.orders.get? o = some v → v.IsWaiting → v.refundedAmount < v.totalAmount

/-- What the other sessions may change while the rows `L` are locked. -/
structure OrderRel (L : List RowKey) (d d' : Db) : Prop where
  order : ∀ o, .order o ∈ L → d'.orders.get? o = d.orders.get? o
  dispute : ∀ c, .dispute c ∈ L → d'.disputes.get? c = d.disputes.get? c
  kept : ∀ o, (d.orders.get? o).isSome → (d'.orders.get? o).isSome
  /-- Nobody opens a case on a locked order. -/
  openCase : ∀ o, .order o ∈ L → ∀ c u', d'.disputes.get? c = some u' → u'.status = .open_ →
    u'.orderId = o → ∃ u, d.disputes.get? c = some u ∧ u.status = .open_ ∧ u.orderId = o

theorem OrderRel.refl (L : List RowKey) (d : Db) : OrderRel L d d :=
  ⟨fun _ _ => rfl, fun _ _ => rfl, fun _ => id, fun _ _ _ u hu hs ho => ⟨u, hu, hs, ho⟩⟩

theorem OrderRel.trans {L : List RowKey} {d₁ d₂ d₃ : Db} (h : OrderRel L d₁ d₂)
    (h' : OrderRel L d₂ d₃) : OrderRel L d₁ d₃ where
  order o ho := (h'.order o ho).trans (h.order o ho)
  dispute c hc := (h'.dispute c hc).trans (h.dispute c hc)
  kept o ho := h'.kept o (h.kept o ho)
  openCase o ho c u₃ hu₃ hs₃ ho₃ := by
    obtain ⟨u₂, hu₂, hs₂, ho₂⟩ := h'.openCase o ho c u₃ hu₃ hs₃ ho₃
    exact h.openCase o ho c u₂ hu₂ hs₂ ho₂

theorem OrderRel.anti {L L' : List RowKey} {d₁ d₂ : Db} (hL : L ⊆ L') (h : OrderRel L' d₁ d₂) :
    OrderRel L d₁ d₂ :=
  ⟨fun o ho => h.order o (hL ho), fun c hc => h.dispute c (hL hc), h.kept,
    fun o ho => h.openCase o (hL ho)⟩

/-- The rely of an order's transaction. -/
def orderRely : Rely Db RowKey := ⟨OrderRel, OrderRel.refl, OrderRel.trans, OrderRel.anti⟩

/-- What a commit does to closed orders: nothing. An order that was refunded in full is not
delivered any more. -/
structure OrderPost (d d' : Db) : Prop where
  closed : ∀ o v, d.orders.get? o = some v → v.status.IsTerminal →
    ∃ v', d'.orders.get? o = some v' ∧ v'.status = v.status
  refunded : ∀ o v v', d.orders.get? o = some v → d'.orders.get? o = some v' →
    v.refundedAmount = v.totalAmount → v.status ≠ .delivered → v'.status ≠ .delivered

/-- What a call owes at its commit. -/
abbrev orderOwes (c : OrderCall) : Unit → (Db → Db) → List RowKey → List Db → Db → Prop :=
  Commits orderRely OrderInv orderMachine (fun _ _ => OrderPost) c

/-! ### One order moves -/

/-- An order that was refunded in full is closed or delivered, so if it is not delivered it stays
so. -/
theorem OrderInv.post {d d' : Db} (hI : OrderInv d)
    (hclosed : ∀ o v, d.orders.get? o = some v → v.status.IsTerminal →
      ∃ v', d'.orders.get? o = some v' ∧ v'.status = v.status) : OrderPost d d' where
  closed := hclosed
  refunded o v v' hv hv' hfull hne := by
    by_cases ht : v.status.IsTerminal
    · obtain ⟨v'', hv'', hs⟩ := hclosed o v hv ht
      obtain rfl : v' = v'' := by simpa [hv'] using hv''
      rwa [hs]
    · have hlt := hI.unpaid o v hv ⟨ht, hne⟩
      omega

/-- A commit that writes neither orders nor cases. -/
theorem OrderInv.same {d d' : Db} (hI : OrderInv d) (ho : d'.orders = d.orders)
    (hc : d'.disputes = d.disputes) :
    OrderInv d' ∧ OrderPost d d' ∧ ∀ L, OrderRel L d d' := by
  refine ⟨⟨fun c u => ?_, fun c u c' u' => ?_, fun o v => ?_⟩, hI.post fun o v hv _ => ⟨v, by rw [ho, hv],
    rfl⟩, fun L => ⟨fun o _ => by rw [ho], fun c _ => by rw [hc], fun o h => by rwa [ho],
      fun o _ c u hu hs hou => ?_⟩⟩
  · rw [hc, ho]
    exact hI.openCase c u
  · rw [hc]
    exact hI.oneCase c u c' u'
  · rw [ho]
    exact hI.unpaid o v
  · rw [hc] at hu
    exact ⟨u, hu, hs, hou⟩

/-- **One order moves.** It was not closed; if it had an open case it is delivered afterwards, and if
it is still waiting it is not refunded in full. -/
theorem OrderInv.moved {o : ℕ} {Q : Order → Order → Prop} {d d' : Db} (hI : OrderInv d)
    (h : OrderStep o Q d d') {v : Order} (hv : d.orders.get? o = some v)
    (hopen : ¬v.status.IsTerminal)
    (hQ : ∀ v', v'.terms = v.terms → Q v v' →
      (v'.IsWaiting → v'.refundedAmount < v'.totalAmount) ∧
      ((∃ c u, d.disputes.get? c = some u ∧ u.status = .open_ ∧ u.orderId = o) →
        v'.status = .delivered)) :
    OrderInv d' ∧ OrderPost d d' ∧ ∀ L, .order o ∉ L → OrderRel L d d' := by
  obtain ⟨v', hv', ht, hq⟩ := h.row v hv
  obtain ⟨hwait, hcase⟩ := hQ v' ht hq
  refine ⟨⟨fun c u hu hs => ?_, fun c u c' u' => ?_, fun o' w hw => ?_⟩, hI.post fun o' w hw hterm =>
    ?_, fun L hL => ⟨fun o' ho' => ?_, fun c _ => by rw [h.disputes], fun o' hs => ?_,
      fun o' _ c u hu hs hou => ?_⟩⟩
  · rw [h.disputes] at hu
    by_cases ho : u.orderId = o
    · exact ⟨v', ho ▸ hv', hcase ⟨c, u, hu, hs, ho⟩⟩
    · rw [h.others _ ho]
      exact hI.openCase c u hu hs
  · rw [h.disputes]
    exact hI.oneCase c u c' u'
  · by_cases ho : o' = o
    · obtain rfl : v' = w := by simpa [ho, hv'] using hw
      exact hwait
    · rw [h.others _ ho] at hw
      exact hI.unpaid o' w hw
  · by_cases ho : o' = o
    · obtain rfl : v = w := by simpa [ho, hv] using hw
      exact absurd hterm hopen
    · exact ⟨w, by rw [h.others _ ho, hw], rfl⟩
  · exact h.others o' fun he => hL (he ▸ ho')
  · by_cases ho : o' = o
    · rw [ho, hv']
      rfl
    · rwa [h.others _ ho]
  · rw [h.disputes] at hu
    exact ⟨u, hu, hs, hou⟩

/-- The order has no open case. -/
def Db.NoCase (d : Db) (o : ℕ) : Prop :=
  ∀ c u, d.disputes.get? c = some u → u.status = .open_ → u.orderId ≠ o

theorem noCase_of_openDispute {d : Db} {o : ℕ} (h : d.openDispute o = none) : d.NoCase o := by
  intro c u hu hs ho
  have hno := List.find?_eq_none.mp h _ (Table.get?_eq_some_iff.mp hu)
  simp [hs, ho] at hno

/-- What a transaction knows of the committed state, as long as it keeps its locks. -/
def Kept (K : List RowKey → Db → Prop) : Prop :=
  ∀ {L L' d d'}, L ⊆ L' → OrderRel L d d' → K L d → K L' d'

/-- The order's row is locked and reads `v`; where `N` is known the order has no open case. -/
def LockedRow (o : ℕ) (v : Order) (N : Prop) (L : List RowKey) (d : Db) : Prop :=
  .order o ∈ L ∧ d.orders.get? o = some v ∧ (N → d.NoCase o)

theorem kept_lockedRow (o : ℕ) (v : Order) (N : Prop) : Kept (LockedRow o v N) := by
  rintro L L' d d' hL hd ⟨hlock, hv, hn⟩
  refine ⟨hL hlock, by rw [hd.order o hlock, hv], fun hN c u' hu' hs' ho' => ?_⟩
  obtain ⟨u, hu, hs, ho⟩ := hd.openCase o hlock c u' hu' hs' ho'
  exact hn hN c u hu hs ho

/-- A transaction at work on the order `o`: since its changes were `w₀` it has changed the row as `Q`
says, and it knows `K`. -/
structure Working (o : ℕ) (w₀ : Db → Db) (K : List RowKey → Db → Prop) (Q : Order → Order → Prop)
    (w : Db → Db) (L : List RowKey) (d : Db) : Prop where
  kept : Kept K
  known : K L d
  effect : ∃ g : Db → Db, (∀ d, OrderStep o Q d (g d)) ∧ w = fun d => g (w₀ d)

/-- A transaction at work on an order whose row it has locked. -/
abbrev Moving (o : ℕ) (v : Order) (N : Prop) (Q : Order → Order → Prop) (w : Db → Db)
    (L : List RowKey) (d : Db) : Prop := Working o id (LockedRow o v N) Q w L d

/-- The order ends up with this status. -/
def EndsAs (s : OrderStatus) (_ v' : Order) : Prop := v'.status = s

section Working

variable {o : ℕ} {v : Order} {N : Prop} {K : List RowKey → Db → Prop}
  {Q T U : Order → Order → Prop} {w₀ w : Db → Db} {L L' : List RowKey} {s : List Db} {d d' : Db}

theorem Working.stable (h : Working o w₀ K Q w L d) (hL : L ⊆ L') (hd : OrderRel L d d') :
    Working o w₀ K Q w L' d' := ⟨h.kept, h.kept hL hd h.known, h.effect⟩

/-- A transaction gets to work. -/
theorem working_start (hK : Kept K) (h : K L d) : Working o w₀ K (fun v v' => v = v') w₀ L d :=
  ⟨hK, h, id, fun _ => orderStep_of_eq (fun _ => rfl) rfl rfl rfl rfl rfl, rfl⟩

/-- The row has just been read under its lock. -/
theorem moving_of_locked (hv : d.orders.get? o = some v) :
    Moving o v False (fun v v' => v = v') id (.order o :: L) d :=
  working_start (kept_lockedRow o v False) ⟨List.mem_cons_self, hv, fun h => h.elim⟩

/-- The case was looked for and not found. -/
theorem Working.withoutCase (h : Moving o v N Q w L d) (hn : d.openDispute o = none) :
    Moving o v True Q w L d :=
  ⟨kept_lockedRow o v True, ⟨h.known.1, h.known.2.1, fun _ => noCase_of_openDispute hn⟩, h.effect⟩

/-- **A part of the transaction** that changes the row as `T` says. -/
theorem Working.then (h : Working o w₀ K Q w L d) {α : Type} {t : Tx α}
    (ht : t.Writes (OrderWrite o T)) (hrefl : ∀ v, T v v)
    (htrans : ∀ a b c, T a b → T b c → T a c) (hcomp : ∀ a b c, Q a b → T b c → U a c) :
    t.wp orderRely OrderInv (fun _ w L _ d => Working o w₀ K U w L d) w L s d := by
  refine Tx.wp_mono (Tx.wp_writes
    (fun d => orderStep_of_eq hrefl rfl rfl rfl rfl rfl) (fun h h' => h.trans h' htrans)
    (ht.mono fun f hf d => hf.step hrefl d)) ?_
  rintro _ w' L' s' d' ⟨g, hg, rfl, hL, -, hd⟩
  obtain ⟨g₀, hg₀, rfl⟩ := h.effect
  exact ⟨h.kept, h.kept hL hd h.known, fun d => g (g₀ d), fun d => (hg₀ d).trans (hg _) hcomp, rfl⟩

/-- A part after which the status may be anything. -/
theorem Working.any (h : Working o w₀ K Q w L d) {α : Type} {t : Tx α}
    (ht : t.Writes (OrderWrite o AnyChange)) :
    t.wp orderRely OrderInv (fun _ w L _ d => Working o w₀ K AnyChange w L d) w L s d :=
  h.then ht (fun _ => trivial) (fun _ _ _ _ _ => trivial) fun _ _ _ _ _ => trivial

/-- A part that keeps the status the order was given. -/
theorem Working.keep {st : OrderStatus} (h : Working o w₀ K (EndsAs st) w L d) {α : Type}
    {t : Tx α} (ht : t.Writes (OrderWrite o KeepsStatus)) :
    t.wp orderRely OrderInv (fun _ w L _ d => Working o w₀ K (EndsAs st) w L d) w L s d :=
  h.then ht (fun _ => rfl) (fun _ _ _ h h' => Eq.trans h' h) fun _ _ _ h h' => Eq.trans h' h

/-- The order is given a status. -/
theorem Working.set (h : Working o w₀ K Q w L d) (cfg : Settings) (st : OrderStatus) :
    (setOrderStatus cfg o st).wp orderRely OrderInv
      (fun _ w L _ d => Working o w₀ K (EndsAs st) w L d) w L s d := by
  obtain ⟨g, hg, rfl⟩ := h.effect
  refine ⟨h.kept, h.known, fun d => Db.modifyOrder o (Order.setStatus cfg st) (g d), fun d => ?_, rfl⟩
  exact (hg d).trans (orderStep_modifyOrder (Q := EndsAs st) (f := Order.setStatus cfg st)
    (fun _ => rfl) (fun _ => rfl) (g d)) fun _ _ _ _ h => h

/-- The order ends up cancelled. -/
theorem Working.cancel (h : Working o w₀ K Q w L d) (cfg : Settings) (reason : String) :
    (cancelOrder cfg o reason).wp orderRely OrderInv
      (fun _ w L _ d => Working o w₀ K (EndsAs .cancelled) w L d) w L s d := by
  rw [cancelOrder, Tx.wp_bind]
  refine Tx.wp_mono (h.set cfg .cancelled) fun _ w L s d h => ?_
  exact h.keep (writes_order o (fun _ => rfl) fun _ => rfl)

/-- **What a transaction about one order owes** is said by what its row was and may have become. -/
theorem Working.owes (h : Moving o v N Q w L d) (c : OrderCall) (hopen : ¬v.status.IsTerminal)
    (hcase : N ∨ v.status ≠ .delivered ∨ ∀ v', Q v v' → v'.status = .delivered)
    (hwait : v.IsWaiting → v.refundedAmount < v.totalAmount → ∀ v', v'.terms = v.terms → Q v v' →
      v'.IsWaiting → v'.refundedAmount < v'.totalAmount)
    (hdel : v.status = .delivered → ∀ v', Q v v' → ¬v'.IsWaiting) : orderOwes c () w L s d := by
  intro d' hd' hI _
  obtain ⟨hlock, hrow, hno⟩ := (h.stable (List.Subset.refl L) hd').known
  obtain ⟨g, hg, rfl⟩ := h.effect
  obtain ⟨hI', hpost, hrel⟩ := hI.moved (hg d') hrow hopen fun v' ht hq => by
    refine ⟨fun hw' => ?_, ?_⟩
    · by_cases hs : v.status = .delivered
      · exact absurd hw' (hdel hs v' hq)
      · exact hwait ⟨hopen, hs⟩ (hI.unpaid o v hrow ⟨hopen, hs⟩) v' ht hq hw'
    · rintro ⟨c, u, hu, hs, ho⟩
      rcases hcase with hN | hne | hdelivered
      · exact absurd ho (hno hN c u hu hs)
      · obtain ⟨v₀, hv₀, hs₀⟩ := hI.openCase c u hu hs
        rw [ho, hrow] at hv₀
        obtain rfl : v = v₀ := Option.some.inj hv₀
        exact absurd hs₀ hne
      · exact hdelivered v' hq
  exact ⟨hI', hpost, fun L' hdisj => hrel L' (hdisj _ hlock)⟩

/-- An order that was given a final status, or was delivered, is settled. -/
theorem Working.owes_of_endsAs {st : OrderStatus} (h : Moving o v N (EndsAs st) w L d)
    (c : OrderCall) (hopen : ¬v.status.IsTerminal) (hst : st.IsTerminal ∨ st = .delivered)
    (hcase : N ∨ v.status ≠ .delivered ∨ st = .delivered) : orderOwes c () w L s d := by
  have hdone : ∀ v', EndsAs st v v' → ¬v'.IsWaiting := by
    rintro v' hv' ⟨hn, hd⟩
    rw [show v'.status = st from hv'] at hn hd
    rcases hst with hst | hst
    · exact hn hst
    · exact hd hst
  refine h.owes c hopen ?_ (fun _ _ v' _ hq hw => absurd hw (hdone v' hq)) fun _ => hdone
  rcases hcase with hN | hne | rfl
  · exact Or.inl hN
  · exact Or.inr (Or.inl hne)
  · exact Or.inr (Or.inr fun v' hv' => hv')

end Working

/-! ### The transactions about one order -/

section Orders

variable {o : ℕ} {d : Db}

theorem wp_lockOrder {R : Rely Db RowKey} {I : Db → Prop}
    {Q : Option Order → (Db → Db) → List RowKey → List Db → Db → Prop} {w : Db → Db}
    {L : List RowKey} {s : List Db} : (lockOrder o).wp R I Q w L s d ↔
      ∀ d', R.rel L d d' → I d' → Q ((w d').orders.get? o) w (.order o :: L) (w d' :: s) d' :=
  Tx.wp_lock

/-- A check that there is no open case. -/
theorem wp_requireNoOpenDispute {v : Order} {Q : Order → Order → Prop} {L : List RowKey}
    {s : List Db} (h : Moving o v False Q id L d) :
    (requireNoOpenDispute o).wp orderRely OrderInv
      (fun _ w L _ d => w = id ∧ Moving o v True Q id L d) id L s d := by
  simp only [requireNoOpenDispute, Tx.wp_bind, Tx.wp_read, Tx.wp_require, id]
  intro d₁ hd₁ _ hn
  exact ⟨trivial, (h.stable (List.Subset.refl L) hd₁).withoutCase hn⟩

/-- A cancelled order that was not delivered is settled. -/
theorem Working.owes_of_cancelled {v : Order} {N : Prop} {w : Db → Db} {L : List RowKey}
    {s : List Db} (h : Moving o v N (EndsAs .cancelled) w L d) (c : OrderCall) (hw : v.IsWaiting) :
    orderOwes c () w L s d :=
  h.owes_of_endsAs c hw.1 (Or.inl (Or.inl rfl)) (Or.inr (Or.inl hw.2))

/-- What a provision does to an order: it is settled, or goes on waiting with nothing refunded. -/
def Provisions (v v' : Order) : Prop := v'.IsWaiting → v'.refundedAmount = v.refundedAmount

theorem provisions_of_endsAs {st : OrderStatus} (hst : st.IsTerminal ∨ st = .delivered)
    {v v' : Order} (h : EndsAs st v v') : Provisions v v' := by
  rintro ⟨hn, hd⟩
  rw [show v'.status = st from h] at hn hd
  rcases hst with hst | hst
  · exact absurd hst hn
  · exact absurd hst hd

theorem Working.mono {w₀ w : Db → Db} {K : List RowKey → Db → Prop} {Q T : Order → Order → Prop}
    {L : List RowKey} (h : Working o w₀ K Q w L d) (hQ : ∀ v v', Q v v' → T v v') :
    Working o w₀ K T w L d := by
  obtain ⟨g, hg, hw⟩ := h.effect
  refine ⟨h.kept, h.known, g, fun d => ?_, hw⟩
  exact (hg d).trans (orderStep_of_eq (Q := Eq) (fun _ => rfl) rfl rfl rfl rfl rfl)
    fun a b c h h' => h' ▸ hQ a b h

/-- **Provisioning an order** delivers or cancels it, or leaves it waiting with nothing
refunded. -/
theorem wp_applyProvisionResult {cfg : Settings} {order : Order} {providerId : Option ℕ}
    {result : ProvisionResult} {w₀ w : Db → Db} {K : List RowKey → Db → Prop} {L : List RowKey}
    {s : List Db} (h : Working o w₀ K (fun v v' => v = v') w L d) :
    (applyProvisionResult cfg o order providerId result).wp orderRely OrderInv
      (fun _ w L _ d => Working o w₀ K Provisions w L d) w L s d := by
  have hks : ∀ v v', KeepsStatus v v' → KeepsStatus v v' := fun _ _ => id
  let T : Order → Order → Prop := fun v v' => v'.refundedAmount = v.refundedAmount
  have htrans : ∀ a b c, T a b → T b c → T a c := fun _ _ _ h h' => Eq.trans h' h
  rw [applyProvisionResult, Tx.wp_ite]
  refine ⟨fun _ => ?_, fun _ => ?_⟩
  · rw [Tx.wp_bind]
    refine Tx.wp_mono (h.then (T := T) (U := T) (writes_order o (fun _ => rfl) fun _ => rfl)
      (fun _ => rfl) htrans fun _ _ _ h h' => h ▸ h') fun _ w L s d h => ?_
    rw [Tx.wp_ite]
    refine ⟨fun _ => ?_, fun _ => ?_⟩
    · rw [Tx.wp_bind]
      refine Tx.wp_mono (h.then (T := T) (U := T) (writes_order o (fun _ => rfl) fun _ => rfl)
        (fun _ => rfl) htrans htrans) fun _ w L s d h => ?_
      exact Tx.wp_mono (h.then (T := T) (U := T) (writes_order o (fun _ => rfl) fun _ => rfl)
        (fun _ => rfl) htrans htrans) fun _ w L s d h => h.mono fun _ _ h _ => h
    · rw [deliverProvision, Tx.wp_bind]
      refine Tx.wp_mono (h.set cfg .delivered) fun _ w L s d h => ?_
      refine Tx.wp_mono (h.keep ?_) fun _ w L s d h =>
        h.mono fun _ _ => provisions_of_endsAs (Or.inr rfl)
      exact .bind (writes_order o (fun _ => rfl) fun _ => rfl) fun _ =>
        .bind (Tx.writes_when (writes_refund cfg o hks _ _ _)) fun _ =>
        .bind (writes_order o (fun _ => rfl) fun _ => rfl) fun _ => .bind (Tx.writes_read _)
        fun _ => .bind (Tx.writes_read _) fun _ =>
        .bind (writes_finalizeOrderLines o hks _ _ _) fun _ =>
          Tx.writes_when (writes_refund cfg o hks _ _ _)
  · rw [Tx.wp_bind]
    refine Tx.wp_mono (h.any (writes_refund cfg o (fun _ _ _ => trivial) _ _ _))
      fun _ w L s d h => ?_
    exact Tx.wp_mono (h.cancel cfg _) fun _ w L s d h =>
      h.mono fun _ _ => provisions_of_endsAs (Or.inl (Or.inl rfl))

theorem waiting_of_pending {v : Order} (h : v.status = .pending) : v.IsWaiting := by
  simp [Order.IsWaiting, OrderStatus.IsTerminal, h]

theorem waiting_of_processing {v : Order} (h : v.status = .processing) : v.IsWaiting := by
  simp [Order.IsWaiting, OrderStatus.IsTerminal, h]

theorem open_of_delivered {v : Order} (h : v.status = .delivered) : ¬v.status.IsTerminal := by
  simp [OrderStatus.IsTerminal, h]

theorem provisionPendingOrder_owes (cfg : Settings) (o : ℕ) (provision : Provision)
    (providerId : Option ℕ) (c : OrderCall) (d : Db) :
    (provisionPendingOrder cfg o provision providerId).wp orderRely OrderInv (orderOwes c) id [] []
      d := by
  simp only [provisionPendingOrder, Tx.wp_bind, wp_lockOrder, Tx.wp_getOrElse, Tx.wp_require]
  intro d₁ _ _ v hv hs
  have hw := waiting_of_pending hs
  refine Tx.wp_mono ((moving_of_locked hv).then (T := fun v v' => v = v')
    (U := fun v v' => v = v') (writes_provision cfg o v provision) (fun _ => rfl)
    (fun _ _ _ => Eq.trans) fun _ _ _ => Eq.trans) fun result w L s d h => ?_
  refine Tx.wp_mono (wp_applyProvisionResult h) fun _ w L s d h => ?_
  refine h.owes c hw.1 (Or.inr (Or.inl hw.2)) (fun _ hlt v' ht hq hw' => ?_)
    fun hs => absurd hs hw.2
  have htotal : v'.totalAmount = v.totalAmount := congrArg (fun t => t.2.2.1) ht
  rw [htotal, hq hw']
  exact hlt

/-- Settling a delivered order that has no open case. -/
theorem Working.settle {v order : Order} {w : Db → Db} {L : List RowKey} {s : List Db}
    {Q : Order → Order → Prop} (h : Moving o v True Q w L d) (cfg : Settings) (c : OrderCall)
    (hs : v.status = .delivered) : (do
      payOut cfg o order
      setOrderStatus cfg o .completed
      applyPrograms cfg o order : Tx Unit).wp orderRely OrderInv (orderOwes c) w L s d := by
  simp only [Tx.wp_bind]
  refine Tx.wp_mono (h.any (writes_payOut cfg o order)) fun _ w L s d h => ?_
  refine Tx.wp_mono (h.set cfg .completed) fun _ w L s d h => ?_
  refine Tx.wp_mono (h.keep (writes_applyPrograms cfg o order)) fun _ w L s d h => ?_
  exact h.owes_of_endsAs c (open_of_delivered hs) (Or.inl (Or.inr (Or.inr rfl))) (Or.inl trivial)

theorem confirmOrder_owes (cfg : Settings) (o b : ℕ) (c : OrderCall) (d : Db) :
    (confirmOrder cfg o b).wp orderRely OrderInv (orderOwes c) id [] [] d := by
  simp only [confirmOrder, Tx.wp_bind, wp_lockOrder, Tx.wp_getOrElse, Tx.wp_require, Tx.wp_read, id]
  intro d₁ _ _ v hv _ hs d₂ hd₂ _ hn
  have h := ((moving_of_locked hv).stable (List.Subset.refl _) hd₂).withoutCase hn
  refine Tx.wp_mono (h.set cfg .completed) fun _ w L s d h => ?_
  refine Tx.wp_mono (h.keep (writes_payOut cfg o v)) fun _ w L s d h => ?_
  refine Tx.wp_mono (h.keep (writes_applyPrograms cfg o v)) fun _ w L s d h => ?_
  exact h.owes_of_endsAs c (open_of_delivered hs) (Or.inl (Or.inr (Or.inr rfl))) (Or.inl trivial)

theorem releaseOrder_owes (cfg : Settings) (o : ℕ) (c : OrderCall) (d : Db) :
    (releaseOrder cfg o).wp orderRely OrderInv (orderOwes c) id [] [] d := by
  rw [releaseOrder, Tx.wp_bind, wp_lockOrderRow]
  intro d₁ _ _ v hv
  rw [Tx.wp_bind, Tx.wp_require]
  intro hs
  rw [Tx.wp_bind]
  refine Tx.wp_mono (wp_requireNoOpenDispute (moving_of_locked hv)) ?_
  rintro _ w L s d₂ ⟨rfl, h⟩
  exact h.settle cfg c hs

theorem escrowRelease_owes (cfg : Settings) (o : ℕ) (c : OrderCall) (d : Db) :
    (escrowRelease cfg o).wp orderRely OrderInv (orderOwes c) id [] [] d := by
  rw [escrowRelease, Tx.wp_bind, wp_lockDueOrder]
  intro d₁ _ _ v hv hdue
  simp only [Bool.and_eq_true, decide_eq_true_eq, Option.isNone_iff_eq_none] at hdue
  exact ((moving_of_locked hv).withoutCase hdue.2).settle cfg c hdue.1.1

theorem refundOrder_owes (cfg : Settings) (o : ℕ) (message : Option String) (c : OrderCall)
    (d : Db) : (refundOrder cfg o message).wp orderRely OrderInv (orderOwes c) id [] [] d := by
  unfold refundOrder
  generalize message.map (fun m => m.trimAscii.toString) = text
  rw [Tx.wp_bind, wp_lockOrderRow]
  intro d₁ _ _ v hv
  rw [Tx.wp_bind, Tx.wp_require]
  intro hs
  rw [Tx.wp_bind]
  refine Tx.wp_mono (wp_requireNoOpenDispute (moving_of_locked hv)) ?_
  rintro _ w L s d₂ ⟨rfl, h⟩
  have hopen : ¬v.status.IsTerminal := by
    rcases hs with hs | hs | hs <;> simp [OrderStatus.IsTerminal, hs]
  rw [Tx.wp_bind, Tx.wp_require]
  intro _
  rw [Tx.wp_bind]
  refine Tx.wp_mono (h.any (writes_refund cfg o (fun _ _ _ => trivial) _ _ _)) fun _ w L s d h => ?_
  rw [Tx.wp_bind]
  refine Tx.wp_mono (h.set cfg _) fun _ w L s d h => ?_
  refine Tx.wp_mono (h.keep ?_) fun _ w L s d h => h.owes_of_endsAs c hopen ?_ (Or.inl trivial)
  · exact .bind (Tx.writes_when (writes_releaseManualStock o (fun _ _ => rfl) v)) fun _ =>
      .bind (writes_order o (fun _ => rfl) fun _ => rfl) fun _ => writes_clawbackPrograms cfg o
  · by_cases hdel : v.status = .delivered <;> simp [hdel, OrderStatus.IsTerminal]

theorem slaCheck_owes (cfg : Settings) (o : ℕ) (c : OrderCall) (d : Db) :
    (slaCheck cfg o).wp orderRely OrderInv (orderOwes c) id [] [] d := by
  rw [slaCheck, Tx.wp_bind, wp_lockDueOrder]
  intro d₁ _ _ v hv hdue
  simp only [Bool.and_eq_true, decide_eq_true_eq] at hdue
  have hw := waiting_of_pending hdue.1
  rw [Tx.wp_bind]
  refine Tx.wp_mono ((moving_of_locked hv).any (writes_refund cfg o (fun _ _ _ => trivial) _ _ _))
    fun _ w L s d h => ?_
  rw [Tx.wp_bind]
  refine Tx.wp_mono (h.any (writes_releaseManualStock o (fun _ _ => trivial) v))
    fun _ w L s d h => ?_
  exact Tx.wp_mono (h.cancel cfg _) fun _ w L s d h => h.owes_of_cancelled c hw

theorem provisionSweep_owes (cfg : Settings) (o : ℕ) (catalog : Bool) (c : OrderCall) (d : Db) :
    (provisionSweep cfg o catalog).wp orderRely OrderInv (orderOwes c) id [] [] d := by
  rw [provisionSweep, Tx.wp_bind, wp_lockDueOrder]
  intro d₁ _ _ v hv hdue
  simp only [Bool.and_eq_true, decide_eq_true_eq] at hdue
  have hw := waiting_of_pending hdue.1.1.1
  rw [Tx.wp_bind]
  refine Tx.wp_mono ((moving_of_locked hv).any (writes_refund cfg o (fun _ _ _ => trivial) _ _ _))
    fun _ w L s d h => ?_
  exact Tx.wp_mono (h.cancel cfg _) fun _ w L s d h => h.owes_of_cancelled c hw

theorem extendEscrow_owes (cfg : Settings) (o days : ℕ) (c : OrderCall) (d : Db) :
    (extendEscrow cfg o days).wp orderRely OrderInv (orderOwes c) id [] [] d := by
  rw [extendEscrow, Tx.wp_bind, wp_lockOrderRow]
  intro d₁ _ _ v hv
  rw [Tx.wp_bind, Tx.wp_require]
  intro hs
  refine Tx.wp_mono ((moving_of_locked hv).then (T := KeepsStatus) (U := KeepsStatus)
    (writes_order o (fun _ => rfl) fun _ => rfl) (fun _ => rfl) (fun _ _ _ h h' => Eq.trans h' h)
    fun _ _ _ h h' => h ▸ h') fun _ w L s d h => ?_
  refine h.owes c (open_of_delivered hs) (Or.inr (Or.inr fun v' hq => Eq.trans hq hs))
    (fun hw => absurd hs hw.2) fun _ v' hq hw => hw.2 (Eq.trans hq hs)

/-! ### The seller's two calls -/

/-- The rest of a call that checked the status without a lock. -/
theorem wp_lateWrite {v₀ : Order} {s : List Db} {t : Tx Unit} {c : OrderCall}
    (h₀ : d.orders.get? o = some v₀)
    (ht : ∀ v L s d', Moving o v False (fun v v' => v = v') id L d' →
      t.wp orderRely OrderInv (orderOwes c) id L s d') :
    (do
      let _ ← lockOrder o
      t : Tx Unit).wp orderRely OrderInv (orderOwes c) id [] s d := by
  rw [Tx.wp_bind, wp_lockOrder]
  intro d₁ hd₁ _
  obtain ⟨v, hv⟩ := Option.isSome_iff_exists.mp (hd₁.kept o (by rw [h₀]; rfl))
  exact ht v _ _ d₁ (moving_of_locked hv)

/-- Under the condition that the status has not moved, what a late write owes. -/
theorem Working.owes_of_unmoved {v : Order} {Q : Order → Order → Prop} {w : Db → Db}
    {L : List RowKey} {s : List Db} {c : OrderCall} {st : OrderStatus}
    (h : Moving o v False Q w L d)
    (hst : st = .pending ∨ st = .processing)
    (hallow : ∀ d, c.Unmoved d → ∀ v, d.orders.get? o = some v → v.status = st)
    (hwait : v.IsWaiting → v.refundedAmount < v.totalAmount → ∀ v', v'.terms = v.terms → Q v v' →
      v'.IsWaiting → v'.refundedAmount < v'.totalAmount) : orderOwes c () w L s d := by
  by_cases hv : v.status = st
  · have hw : v.IsWaiting := by
      rcases hst with rfl | rfl
      · exact waiting_of_pending hv
      · exact waiting_of_processing hv
    exact h.owes c hw.1 (Or.inr (Or.inl hw.2)) hwait fun hs => absurd hs hw.2
  · -- The status moved in between: the commit is not let through.
    intro d' hd' _ hunmoved
    have hrow := (h.stable (List.Subset.refl L) hd').known.2.1
    exact absurd (hallow d' hunmoved v hrow) hv

theorem acceptOrder_owes (cfg : Settings) (o seller : ℕ) (d : Db) :
    (acceptOrder cfg o seller).wp orderRely OrderInv (orderOwes (.acceptOrder cfg o seller)) id [] []
      d := by
  simp only [acceptOrder, Tx.wp_bind, Tx.wp_read, Tx.wp_getOrElse, Tx.wp_require, id]
  intro d₁ _ _ v₀ hv₀ _ _
  refine wp_lateWrite hv₀ fun v L s d h => ?_
  let T : Order → Order → Prop := fun v v' => v'.refundedAmount = v.refundedAmount
  refine Tx.wp_mono (h.then (T := T) (U := T) (writes_order o (fun _ => rfl) fun _ => rfl)
    (fun _ => rfl) (fun _ _ _ h h' => Eq.trans h' h) fun _ _ _ h h' => h ▸ h') fun _ w L s d h => ?_
  refine h.owes_of_unmoved (Or.inl rfl) (fun _ h => h) fun _ hlt v' ht hq _ => ?_
  have htotal : v'.totalAmount = v.totalAmount := congrArg (fun t => t.2.2.1) ht
  rw [htotal, hq]
  exact hlt

theorem deliverOrder_owes (cfg : Settings) (o seller : ℕ) (data : String) (d : Db) :
    (deliverOrder cfg o seller data).wp orderRely OrderInv
      (orderOwes (.deliverOrder cfg o seller data)) id [] [] d := by
  simp only [deliverOrder, Tx.wp_bind, Tx.wp_read, Tx.wp_getOrElse, Tx.wp_require, id]
  intro d₁ _ _ v₀ hv₀ _ _ _
  simp only [← Tx.wp_bind]
  refine wp_lateWrite hv₀ fun v L s d h => ?_
  rw [Tx.wp_bind]
  refine Tx.wp_mono (h.set cfg .delivered) fun _ w L s d h => ?_
  refine Tx.wp_mono (h.keep (writes_order o (fun _ => rfl) fun _ => rfl)) fun _ w L s d h => ?_
  refine h.owes_of_unmoved (Or.inr rfl) (fun _ h => h) fun _ _ v' _ hq hw' => ?_
  exact absurd hq hw'.2

/-! ### Tasks -/

/-- A transaction that moved neither orders nor cases. -/
theorem owes_of_same {w : Db → Db} (hw : ∀ d, (w d).orders = d.orders ∧ (w d).disputes = d.disputes)
    (c : OrderCall) {L : List RowKey} {s : List Db} : orderOwes c () w L s d := by
  intro d' _ hI _
  obtain ⟨hI', hpost, hrel⟩ := hI.same (hw d').1 (hw d').2
  exact ⟨hI', hpost, fun L' _ => hrel L'⟩

theorem wp_closeTasks {cfg : Settings} {v order : Order} {tasks : List (ℕ × ServiceTask)}
    {w : Db → Db} {L : List RowKey} {s : List Db} {Q : Order → Order → Prop}
    (h : Moving o v False Q w L d) (c : OrderCall) (hw : v.IsWaiting) :
    (closeTasks cfg o order tasks).wp orderRely OrderInv (orderOwes c) w L s d := by
  rw [closeTasks, Tx.wp_bind]
  refine Tx.wp_mono (h.any (writes_order o (fun _ => rfl) fun _ => trivial)) fun _ w L s d h => ?_
  rw [Tx.wp_ite]
  refine ⟨fun _ => ?_, fun _ => ?_⟩
  · rw [Tx.wp_bind]
    refine Tx.wp_mono (h.any (writes_refund cfg o (fun _ _ _ => trivial) _ _ _))
      fun _ w L s d h => ?_
    exact Tx.wp_mono (h.set cfg .cancelled) fun _ w L s d h => h.owes_of_cancelled c hw
  · rw [Tx.wp_bind]
    refine Tx.wp_mono (h.any (Tx.writes_when (writes_refund cfg o (fun _ _ _ => trivial) _ _ _)))
      fun _ w L s d h => ?_
    rw [Tx.wp_bind]
    refine Tx.wp_mono (h.set cfg .delivered) fun _ w L s d h => ?_
    refine Tx.wp_mono (h.keep (writes_order o (fun _ => rfl) fun _ => rfl)) fun _ w L s d h => ?_
    exact h.owes_of_endsAs c hw.1 (Or.inr rfl) (Or.inr (Or.inl hw.2))

theorem updateTask_owes (cfg : Settings) (memory : List (ℕ × ServiceTask)) (t : ℕ) (u : TaskUpdate)
    (c : OrderCall) (d : Db) :
    (updateTask cfg memory t u).wp orderRely OrderInv (orderOwes c) id [] [] d := by
  simp only [updateTask, Tx.wp_bind, Tx.wp_read, Tx.wp_getOrElse, Tx.wp_modify, syncOrderStatus,
    wp_lockOrder, id]
  intro d₁ _ _ task _ d₂ _ _
  have hsame : ∀ d : Db, (d.modifyTask t (u.write task)).orders = d.orders ∧
      (d.modifyTask t (u.write task)).disputes = d.disputes := fun _ => ⟨rfl, rfl⟩
  rcases hv : (d₂.modifyTask t (u.write task)).orders.get? task.orderId with _ | v
  · exact owes_of_same hsame c
  simp only [Tx.wp_ite, Tx.wp_bind, Tx.wp_read]
  refine ⟨fun _ => owes_of_same hsame c, fun hs d₃ hd₃ _ => ⟨fun _ => owes_of_same hsame c,
    fun _ => ?_⟩⟩
  have hp : v.status = .processing := by simpa using hs
  have h : Moving task.orderId v False (fun v v' => v = v') (Db.modifyTask t (u.write task))
      (.order task.orderId :: []) d₂ :=
    ⟨kept_lockedRow _ v False, ⟨List.mem_cons_self, hv, fun h => h.elim⟩,
      Db.modifyTask t (u.write task),
      fun _ => orderStep_of_eq (fun _ => rfl) rfl rfl rfl rfl rfl, rfl⟩
  exact wp_closeTasks (h.stable (List.Subset.refl _) hd₃) c (waiting_of_processing hp)

/-! ### Checkouts -/

/-- A change that leaves orders and cases alone. -/
def KeepsOrders (f : Db → Db) : Prop := ∀ d, (f d).orders = d.orders ∧ (f d).disputes = d.disputes

/-- A checkout has placed its order, whose row is `v` up to what `S` allows. -/
structure Opened (o : ℕ) (S : Order → Prop) (w : Db → Db) (L : List RowKey) (d : Db) : Prop where
  lock : .order o ∈ L
  fresh : d.orders.get? o = none
  disputes : ∀ d, (w d).disputes = d.disputes
  others : ∀ d o', o' ≠ o → (w d).orders.get? o' = d.orders.get? o'
  row : ∀ d, d.orders.get? o = none → ∃ v, (w d).orders.get? o = some v ∧ S v

/-- The new order's number is locked and unused. -/
def FreshRow (o : ℕ) (L : List RowKey) (d : Db) : Prop := .order o ∈ L ∧ d.orders.get? o = none

theorem kept_freshRow (o : ℕ) : Kept (FreshRow o) :=
  fun hL hd h => ⟨hL h.1, by rw [hd.order o h.1, h.2]⟩

section Opened

variable {S : Order → Prop} {w : Db → Db} {L L' : List RowKey} {s : List Db} {d' : Db}

theorem Opened.frame (h : Opened o S w L d) {α : Type} {t : Tx α} (ht : t.Writes KeepsOrders) :
    t.wp orderRely OrderInv (fun _ w L _ d => Opened o S w L d) w L s d := by
  refine Tx.wp_mono (Tx.wp_frame (fun _ => ⟨rfl, rfl⟩) (fun f g hf hg d =>
    ⟨(hg (f d)).1.trans (hf d).1, (hg (f d)).2.trans (hf d).2⟩) ht) ?_
  rintro _ w' L' s' d' ⟨g, hg, rfl, hL, -, hd⟩
  obtain ⟨hlock, hfresh⟩ := kept_freshRow o hL hd ⟨h.lock, h.fresh⟩
  refine ⟨hlock, hfresh, fun d => (hg (w d)).2.trans (h.disputes d), fun d o' ho => ?_,
    fun d hn => ?_⟩
  · rw [(hg (w d)).1]
    exact h.others d o' ho
  · rw [(hg (w d)).1]
    exact h.row d hn

/-- Work on the order that was placed. -/
theorem Opened.working (h : Opened o S w L d) :
    Working o w (FreshRow o) (fun v v' => v = v') w L d :=
  working_start (kept_freshRow o) ⟨h.lock, h.fresh⟩

theorem Opened.worked {T : Order → Order → Prop} {U : Order → Prop} {w' : Db → Db}
    {L' : List RowKey} {d' : Db} (h : Opened o S w L d)
    (hw : Working o w (FreshRow o) T w' L' d')
    (hS : ∀ v v', S v → v'.terms = v.terms → T v v' → U v') : Opened o U w' L' d' := by
  obtain ⟨g, hg, rfl⟩ := hw.effect
  refine ⟨hw.known.1, hw.known.2, fun d => (hg (w d)).disputes.trans (h.disputes d),
    fun d o' ho => ((hg (w d)).others o' ho).trans (h.others d o' ho), fun d hn => ?_⟩
  obtain ⟨v, hv, hs⟩ := h.row d hn
  obtain ⟨v', hv', ht, hq⟩ := (hg (w d)).row v hv
  exact ⟨v', hv', hS v v' hs ht hq⟩

/-- **What a checkout owes**: an order that is waiting is not refunded in full. -/
theorem Opened.owes (h : Opened o S w L d) (c : OrderCall)
    (hS : ∀ v, S v → v.IsWaiting → v.refundedAmount < v.totalAmount) : orderOwes c () w L s d := by
  intro d' hd' hI _
  obtain ⟨hlock, hfresh⟩ := kept_freshRow o (List.Subset.refl L) hd' ⟨h.lock, h.fresh⟩
  obtain ⟨v, hv, hs⟩ := h.row d' hfresh
  have hne : ∀ o' v', d'.orders.get? o' = some v' → o' ≠ o := by
    rintro o' v' hv' rfl
    rw [hfresh] at hv'
    exact absurd hv' (by simp)
  refine ⟨⟨fun c u hu hs => ?_, fun c u c' u' => ?_, fun o' v' hv' => ?_⟩,
    hI.post fun o' v' hv' _ => ⟨v', (h.others d' o' (hne o' v' hv')).trans hv', rfl⟩,
    fun L' hdisj => ⟨fun o' ho' => h.others d' o' fun he => hdisj _ hlock (he ▸ ho'),
      fun c _ => by rw [h.disputes], fun o' ho' => ?_, fun o' _ c u hu hs ho => ?_⟩⟩
  · rw [h.disputes] at hu
    obtain ⟨v', hv', hdel⟩ := hI.openCase c u hu hs
    exact ⟨v', (h.others d' _ (hne _ v' hv')).trans hv', hdel⟩
  · rw [h.disputes]
    exact hI.oneCase c u c' u'
  · by_cases ho : o' = o
    · obtain rfl : v = v' := by simpa [ho, hv] using hv'
      exact hS v hs
    · rw [h.others d' o' ho] at hv'
      exact hI.unpaid o' v' hv'
  · obtain ⟨v', hv'⟩ := Option.isSome_iff_exists.mp ho'
    rw [h.others d' o' (hne o' v' hv'), hv']
    rfl
  · rw [h.disputes] at hu
    exact ⟨u, hu, hs, ho⟩

end Opened

theorem wp_addOrder_opened {v : Order} {L : List RowKey} {s : List Db} :
    (addOrder o v).wp orderRely OrderInv (fun _ w L _ d => Opened o (· = v) w L d) id L s d := by
  rw [addOrder, wp_insertRow]
  intro d' _ _ hfresh
  exact ⟨List.mem_cons_self, hfresh, fun _ => rfl, fun d o' ho => Table.get?_insert_of_ne ho v,
    fun d hn => ⟨v, Table.get?_insert_self hn v, rfl⟩⟩

/-- The functions about an order that leave its row alone keep all orders. -/
theorem keepsOrders_of_money {f : Db → Db} (h : MoneyWrite (fun _ => False) f) : KeepsOrders f := by
  intro d
  cases h with
  | wallet h =>
    cases h with
    | refunded o x h => exact h.elim
    | _ => exact ⟨rfl, rfl⟩
  | _ => exact ⟨rfl, rfl⟩

theorem writes_recordRedemption (cfg : Settings) (a : AppliedPromo) (b : ℕ) :
    (recordRedemption cfg a o b).Writes KeepsOrders :=
  writes_redeem cfg o (fun _ _ _ => ⟨rfl, rfl⟩) (fun _ _ _ => ⟨rfl, rfl⟩)
    (fun _ _ _ => ⟨rfl, rfl⟩) a b

theorem wp_chargeOrder_opened {S : Order → Prop} {w : Db → Db} {L : List RowKey} {s : List Db}
    {cfg : Settings} {b : ℕ} {x : ℤ} {promo : Option AppliedPromo} (h : Opened o S w L d) :
    (chargeOrder cfg o b x promo).wp orderRely OrderInv
      (fun _ w L _ d => 0 < x ∧ Opened o S w L d) w L s d := by
  have hpos : (deductCredit cfg b x (orderReference o "")).wp orderRely OrderInv
      (fun _ _ _ _ _ => 0 < x) w L s d := by
    rw [deductCredit, Tx.wp_bind, Tx.wp_require]
    exact fun hx => Tx.wp_of_forall (fun _ _ _ _ _ => hx) _
  unfold chargeOrder
  rw [Tx.wp_bind]
  refine Tx.wp_mono (Tx.wp_and hpos (h.frame ((writes_deductCredit cfg b x o "").mono fun _ hf =>
    keepsOrders_of_money (.wallet hf)))) ?_
  rintro _ w L s d ⟨hx, h⟩
  rcases promo with _ | a
  · exact ⟨hx, h⟩
  · exact Tx.wp_mono (h.frame (writes_recordRedemption cfg a b)) fun _ w L s d h => ⟨hx, h⟩

theorem wp_reads_id {α : Type} {t : Tx α} (ht : t.Writes (· = id)) {L : List RowKey} {s : List Db} :
    t.wp orderRely OrderInv (fun _ w _ _ _ => w = id) id L s d := by
  refine Tx.wp_mono (Tx.wp_frame (P := (· = id)) rfl (fun f g hf hg => by rw [hf, hg]; rfl) ht) ?_
  rintro _ w L' s' d' ⟨g, rfl, rfl, -, -, -⟩
  rfl

/-- Provisioning the order a checkout has just placed. -/
theorem wp_provisionNewOrder {cfg : Settings} {order : Order} {p : AdapterPurchase} {w₀ w : Db → Db}
    {K : List RowKey → Db → Prop} {L : List RowKey} {s : List Db}
    (h : Working o w₀ K (fun v v' => v = v') w L d) :
    (provisionNewOrder cfg o order p).wp orderRely OrderInv
      (fun _ w L _ d => Working o w₀ K Provisions w L d) w L s d := by
  have hfail : (do
      refundEscrow cfg o p.buyerId order.totalAmount ""
      cancelOrder cfg o (buyerCancelReason none) : Tx Unit).wp orderRely OrderInv
        (fun _ w L _ d => Working o w₀ K Provisions w L d) w L s d := by
    rw [Tx.wp_bind]
    refine Tx.wp_mono (h.any (writes_refund cfg o (fun _ _ _ => trivial) _ _ _))
      fun _ w L s d h => ?_
    exact Tx.wp_mono (h.cancel cfg _) fun _ w L s d h =>
      h.mono fun _ _ => provisions_of_endsAs (Or.inl (Or.inl rfl))
  rw [provisionNewOrder]
  simp only [Tx.wp_ite, Tx.wp_pure]
  refine ⟨fun _ => hfail, fun _ => ⟨fun _ => h.mono fun v v' hv _ => by rw [hv], fun _ => ?_⟩⟩
  rcases p.provision with _ | provision
  · exact hfail
  · rw [Tx.wp_bind]
    refine Tx.wp_mono (h.then (T := Eq) (U := Eq) (writes_provision cfg o order provision)
      (fun _ => rfl) (fun _ _ _ => Eq.trans) fun _ _ _ => Eq.trans) fun result w L s d h => ?_
    exact wp_applyProvisionResult h

theorem createOrder_owes (cfg : Settings) (skipped : List ℕ) (o : ℕ) (p : Purchase) (c : OrderCall)
    (d : Db) : (createOrder cfg skipped o p).wp orderRely OrderInv (orderOwes c) id [] [] d := by
  rw [createOrder, Tx.wp_bind]
  refine Tx.wp_mono (wp_reads_id (writes_variantForPurchase p)) ?_
  rintro ⟨variant, product⟩ w L s d₁ rfl
  simp only [Tx.wp_bind, Tx.wp_ite]
  refine Tx.wp_mono (wp_reads_id (writes_applyPromo cfg _ _ _)) ?_
  rintro promo w L s d₂ rfl
  refine ⟨fun _ => ?_, fun _ => ?_⟩
  · simp only [createInstantOrder, Tx.wp_bind]
    refine Tx.wp_mono wp_addOrder_opened fun _ w L s d h => ?_
    refine Tx.wp_mono (wp_chargeOrder_opened h) fun _ w L s d ⟨_, h⟩ => ?_
    refine Tx.wp_mono (h.working.then (T := Eq) (U := Eq) (writes_claimResources cfg o _ _ _ _)
      (fun _ => rfl) (fun _ _ _ => Eq.trans) fun _ _ _ => Eq.trans) fun ids w' L s d hw => ?_
    refine Tx.wp_mono (hw.then (T := Eq) (U := Eq) (writes_setCaps o ids _) (fun _ => rfl)
      (fun _ _ _ => Eq.trans) fun _ _ _ => Eq.trans) fun _ w' L s d hw => ?_
    refine (h.worked hw fun v v' hv _ hq => hq ▸ hv).owes c fun v hv hwait => ?_
    rw [hv] at hwait
    exact absurd rfl hwait.2
  · simp only [createManualOrder, Tx.wp_bind]
    refine Tx.wp_mono wp_addOrder_opened fun _ w L s d h => ?_
    let T : Order → Order → Prop := fun v v' => v'.refundedAmount = v.refundedAmount
    refine Tx.wp_mono (h.working.then (T := T) (U := T)
      (writes_takeManualStock o (fun _ _ => rfl) _ _ _) (fun _ => rfl)
      (fun _ _ _ h h' => Eq.trans h' h) fun _ _ _ h h' => h ▸ h') fun _ w' L s d hw => ?_
    have h' := h.worked (U := fun v => v.refundedAmount = 0 ∧ v.totalAmount =
        variant.price * p.quantity - discountOf promo) hw fun v v' hv ht hq => by
      subst hv
      exact ⟨hq, congrArg (fun t => t.2.2.1) ht⟩
    refine Tx.wp_mono (wp_chargeOrder_opened h') fun _ w L s d ⟨hpos, h⟩ => ?_
    refine h.owes c fun v hv _ => ?_
    rw [hv.1, hv.2]
    exact hpos

theorem createOrderWithAdapter_owes (cfg : Settings) (o : ℕ) (p : AdapterPurchase) (c : OrderCall)
    (d : Db) : (createOrderWithAdapter cfg o p).wp orderRely OrderInv (orderOwes c) id [] [] d := by
  rw [createOrderWithAdapter, Tx.wp_bind]
  refine Tx.wp_mono (wp_reads_id (writes_productForPurchase p)) ?_
  rintro product w L s d₁ rfl
  simp only [Tx.wp_bind]
  refine Tx.wp_mono (wp_reads_id (writes_applyPromo cfg _ _ _)) ?_
  rintro promo w L s d₂ rfl
  refine Tx.wp_mono wp_addOrder_opened fun _ w L s d h => ?_
  refine Tx.wp_mono (wp_chargeOrder_opened h) fun _ w L s d ⟨hpos, h⟩ => ?_
  refine Tx.wp_mono (wp_provisionNewOrder h.working) fun _ w L s d hw => ?_
  refine (h.worked (U := fun v => v.IsWaiting → v.refundedAmount < v.totalAmount) hw
    fun v v' hv ht hq hwait => ?_).owes c fun v hv => hv
  subst hv
  have htotal : v'.totalAmount = p.quoteAmount - discountOf promo := congrArg (fun t => t.2.2.1) ht
  rw [hq hwait, htotal]
  exact hpos

end Orders

end Marketplace
