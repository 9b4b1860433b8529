import Marketplace.Disputes.Handling
import Marketplace.Lines.Footprints
import Marketplace.Sql.Derived

/-!
# Transactions that leave the units of a package alone

What an order says about the units it took off its package is its `unitRow`. Most transactions on orders
touch neither that nor the packages, and none of them makes an order wait again that was delivered or
closed. `StockQuiet` is what they keep; the footprints say that each of them does. A refund is among them:
money that goes back to the buyer moves no units.
-/

namespace Marketplace

open Sql

/-! ### What most transactions keep -/

/-- What the row of an order says about the units it took. -/
def Order.unitRow (v : Order) : Option ℕ × ℕ × ℕ × Bool :=
  (v.variantId, v.quantity, v.stockHeld, v.deliveredAt.isSome)

/-- The packages and the units of every order stay, and no order waits again. What is read off
the units only is what it was. -/
structure StockQuiet (d d' : Db) : Prop where
  variants : d'.variants = d.variants
  units : ∀ {W : Type} (g : Order → Option W), (∀ v v', v'.unitRow = v.unitRow → g v' = g v) →
    d'.orders.filterMap g = d.orders.filterMap g
  waiting : ∀ o v', d'.orders.get? o = some v' → v'.IsWaiting →
    ∃ v, d.orders.get? o = some v ∧ v.IsWaiting

theorem StockQuiet.refl (d : Db) : StockQuiet d d :=
  ⟨rfl, fun _ _ => rfl, fun _ v h hw => ⟨v, h, hw⟩⟩

theorem StockQuiet.trans {d₁ d₂ d₃ : Db} (h : StockQuiet d₁ d₂) (h' : StockQuiet d₂ d₃) :
    StockQuiet d₁ d₃ where
  variants := h'.variants.trans h.variants
  units g hg := (h'.units g hg).trans (h.units g hg)
  waiting o v₃ hv₃ hw₃ := by
    obtain ⟨v₂, hv₂, hw₂⟩ := h'.waiting o v₃ hv₃ hw₃
    exact h.waiting o v₂ hv₂ hw₂

/-- A write that keeps the units. -/
def QuietWrite (f : Db → Db) : Prop := ∀ d, StockQuiet d (f d)

/-- What a transaction with such writes does, run alone. -/
theorem stockQuiet_of_run {α : Type} {t : Tx α} (ht : t.Writes QuietWrite) {d d' : Db} {a : α}
    (h : t.run d = .ok (a, d')) : StockQuiet d d' :=
  ht.run_rel StockQuiet.refl (fun _ _ _ => StockQuiet.trans) (fun _ hf => hf) h

theorem quietWrite_of_eq {f : Db → Db} (hv : ∀ d, (f d).variants = d.variants)
    (ho : ∀ d, (f d).orders = d.orders) : QuietWrite f := fun d =>
  ⟨hv d, fun _ _ => by rw [ho], fun o v' h hw => ⟨v', by rwa [ho] at h, hw⟩⟩

theorem quietWrite_modifyResource (r : ℕ) (f : Resource → Resource) :
    QuietWrite (Db.modifyResource r f) := quietWrite_of_eq (fun _ => rfl) fun _ => rfl

theorem quietWrite_modifyOrder (o : ℕ) {f : Order → Order} (h : ∀ v, (f v).unitRow = v.unitRow)
    (hw : ∀ v, (f v).IsWaiting → v.IsWaiting) : QuietWrite (Db.modifyOrder o f) := fun d => by
  refine ⟨rfl, fun g hg => ?_, fun o' v' hv' hwait => ?_⟩
  · rw [Db.modifyOrder_orders]
    exact Table.filterMap_modify_self fun v _ => hg v (f v) (h v)
  · rw [Db.modifyOrder_orders, Table.get?_modify] at hv'
    split at hv'
    next ho =>
      obtain ⟨v, hv, rfl⟩ := Option.map_eq_some_iff.mp hv'
      exact ⟨v, hv, hw v hwait⟩
    next => exact ⟨v', hv', hwait⟩

/-- A change of an order that keeps its status and its units. -/
theorem quietWrite_keep (o : ℕ) {f : Order → Order} (h : ∀ v, (f v).unitRow = v.unitRow)
    (hs : ∀ v, (f v).status = v.status) : QuietWrite (Db.modifyOrder o f) :=
  quietWrite_modifyOrder o h fun v hw => by rwa [Order.IsWaiting, hs v] at hw

theorem quietWrite_money {S : ℕ → Prop} {f : Db → Db} (h : MoneyWrite S f) : QuietWrite f := by
  cases h with
  | wallet h =>
    cases h with
    | refunded o x h => exact quietWrite_keep o (fun _ => rfl) fun _ => rfl
    | _ => exact quietWrite_of_eq (fun _ => rfl) fun _ => rfl
  | _ => exact quietWrite_of_eq (fun _ => rfl) fun _ => rfl

/-! ### Functions that leave the units alone -/

section Parts

variable (cfg : Settings) (o : ℕ)

theorem still_refundEscrow (buyer : ℕ) (x : ℤ) (s : String) :
    (refundEscrow cfg o buyer x s).Writes QuietWrite :=
  (writes_refundEscrow (S := fun _ => True) cfg o buyer x s trivial).mono fun _ hf =>
    quietWrite_money (.wallet hf)

theorem still_payOut (order : Order) : (payOut cfg o order).Writes QuietWrite :=
  .bind (Tx.writes_read _) fun seller => .bind (writes_settlement cfg order seller) fun _ =>
    Tx.writes_when ((writes_releaseEscrow (S := fun _ => True) cfg o _ _ _).mono fun _ hf =>
      quietWrite_money (.wallet hf))

theorem still_applyPrograms (order : Order) : (applyPrograms cfg o order).Writes QuietWrite :=
  .bind ((writes_applyAffiliateCommission (S := fun _ => True) cfg o order).mono fun _ =>
      quietWrite_money) fun _ =>
    (writes_applyBuyerCashback (S := fun _ => True) cfg o _).mono fun _ hf =>
      quietWrite_money (.wallet hf)

theorem still_clawbackPrograms : (clawbackPrograms cfg o).Writes QuietWrite :=
  .bind ((writes_clawbackCommissionForOrder (S := fun _ => True) cfg o).mono fun _ =>
      quietWrite_money) fun _ =>
    (writes_clawbackBuyerCashback (S := fun _ => True) cfg o).mono fun _ hf =>
      quietWrite_money (.wallet hf)

/-- An order that is closed without a delivery keeps its units. -/
theorem still_setOrderStatus {status : OrderStatus} (h : status.IsTerminal) :
    (setOrderStatus cfg o status).Writes QuietWrite := by
  have hne : status ≠ .delivered := by rintro rfl; simp [OrderStatus.IsTerminal] at h
  refine Tx.writes_modify.mpr (quietWrite_modifyOrder o (fun v => ?_) fun v hw => absurd h hw.1)
  rw [Order.unitRow, Order.setStatus, if_neg fun h => hne h.1]
  rfl

theorem still_reason (reason : String) :
    (Tx.modify (Db.modifyOrder o fun v => { v with cancelReason := some reason }) : Tx Unit).Writes
      QuietWrite :=
  Tx.writes_modify.mpr (quietWrite_keep o (fun _ => rfl) fun _ => rfl)

theorem still_cancelOrder (reason : String) : (cancelOrder cfg o reason).Writes QuietWrite :=
  .bind (still_setOrderStatus cfg o (.inl rfl)) fun _ => still_reason o reason

theorem still_modifyCase (c : ℕ) (f : Dispute → Dispute) : (modifyCase c f).Writes QuietWrite :=
  Tx.writes_modify.mpr (quietWrite_of_eq (fun _ => rfl) fun _ => rfl)

/-- The order is paid out and closed. -/
theorem still_settle (order : Order) :
    (do setOrderStatus cfg o .completed
        payOut cfg o order
        applyPrograms cfg o order : Tx Unit).Writes QuietWrite :=
  .bind (still_setOrderStatus cfg o (.inr (.inr rfl))) fun _ => .bind (still_payOut cfg o order)
    fun _ => still_applyPrograms cfg o order

theorem still_payThenClose (order : Order) :
    (do payOut cfg o order
        setOrderStatus cfg o .completed
        applyPrograms cfg o order : Tx Unit).Writes QuietWrite :=
  .bind (still_payOut cfg o order) fun _ => .bind (still_setOrderStatus cfg o (.inr (.inr rfl)))
    fun _ => still_applyPrograms cfg o order

theorem still_finalizeDispute (c : ℕ) (order : Order) (status : DisputeStatus) :
    (finalizeDispute cfg c o order status).Writes QuietWrite := by
  refine .bind (still_modifyCase c _) fun _ => .bind (still_setOrderStatus cfg o ?_) fun _ =>
    .bind (still_payOut cfg o order) fun _ => ?_
  · split_ifs
    · exact .inr (.inl rfl)
    · exact .inr (.inr rfl)
  · split_ifs
    · exact still_clawbackPrograms cfg o
    · exact still_applyPrograms cfg o order

theorem still_closeRemedy (c : ℕ) (order : Order) :
    (closeRemedy cfg c o order).Writes QuietWrite := by
  refine .bind (Tx.writes_read _) fun order => ?_
  split_ifs
  · exact still_finalizeDispute cfg o c order _
  · exact .bind (Tx.writes_read _) fun _ => Tx.writes_when (still_modifyCase c _)

theorem still_chargeOrder (b : ℕ) (x : ℤ) (promo : Option AppliedPromo) :
    (chargeOrder cfg o b x promo).Writes QuietWrite := by
  refine .bind ((writes_deductCredit (S := fun _ => True) cfg b x o "").mono fun _ hf =>
    quietWrite_money (.wallet hf)) fun _ => ?_
  rcases promo with _ | a
  · exact Tx.writes_pure _
  · exact writes_redeem cfg o (fun _ _ => quietWrite_of_eq (fun _ => rfl) fun _ => rfl)
      (fun _ _ => quietWrite_of_eq (fun _ => rfl) fun _ => rfl)
      (fun _ _ => quietWrite_of_eq (fun _ => rfl) fun _ => rfl) a b

theorem still_recordResourceAction (c : ℕ) (key : String) (action : RemedyAction)
    (original : ℕ × Resource) (replacement : Option ℕ) :
    (recordResourceAction c key action original replacement).Writes QuietWrite :=
  .bind (Tx.writes_modify.mpr (quietWrite_modifyResource _ _)) fun _ => .bind (Tx.writes_read _) fun _ =>
    .bind (Tx.writes_require _ _) fun _ =>
      Tx.writes_modify.mpr (quietWrite_of_eq (fun _ => rfl) fun _ => rfl)

theorem still_remedyResources (skipped : List ℕ) (c seller : ℕ) (order : Order) (variantId : ℕ)
    (variant : ProductVariant) (originals : List (ℕ × Resource)) (ids : Option (List ℕ))
    (key : String) (action : RemedyAction) :
    (remedyResources cfg skipped c o seller order variantId variant originals ids key action).Writes
      QuietWrite := by
  cases action with
  | replace =>
    exact .bind (writes_choose cfg o quietWrite_modifyResource _ _ _ _ _ _) fun _ =>
      .bind (Tx.writes_forEach fun _ => Tx.writes_modify.mpr (quietWrite_modifyResource _ _)) fun _ =>
      Tx.writes_forEach fun _ => still_recordResourceAction c _ _ _ _
  | refund =>
    exact .bind (Tx.writes_when (still_refundEscrow cfg o _ _ _)) fun _ =>
      Tx.writes_forEach fun _ => still_recordResourceAction c _ _ _ _

theorem still_refundProxyLines (c : ℕ) (order : Order) (lineNos : List ℕ) (key : String)
    (role : ActorRole) (note : Option String) :
    (refundProxyLines cfg c o order lineNos key role note).Writes QuietWrite := by
  refine .bind (writes_refundableLines c o lineNos role) fun lines =>
    .bind (Tx.writes_when (still_refundEscrow cfg o _ _ _)) fun _ =>
    .bind (Tx.writes_forEach fun a => ?_) fun _ => .bind ?_ fun _ =>
    .bind (Tx.writes_when (still_modifyCase c _)) fun _ => still_closeRemedy cfg o c order
  · exact .bind (Tx.writes_modify.mpr (quietWrite_of_eq (fun _ => rfl) fun _ => rfl)) fun _ =>
      .bind (Tx.writes_read _) fun _ => .bind (Tx.writes_require _ _) fun _ =>
        Tx.writes_modify.mpr (quietWrite_of_eq (fun _ => rfl) fun _ => rfl)
  · exact .bind (Tx.writes_read _) fun _ =>
      Tx.writes_when (Tx.writes_modify.mpr (quietWrite_keep o (fun _ => rfl) fun _ => rfl))

end Parts

section Calls

variable (cfg : Settings) (o : ℕ)

theorem still_confirmOrder (b : ℕ) : (confirmOrder cfg o b).Writes QuietWrite :=
  .bind (lineWrites_lockOrder o) fun _ => .bind (Tx.writes_getOrElse _ _) fun _ =>
    .bind (Tx.writes_require _ _) fun _ => .bind (Tx.writes_require _ _) fun _ =>
    .bind (Tx.writes_read _) fun _ => .bind (Tx.writes_require _ _) fun _ => still_settle cfg o _

theorem still_releaseOrder : (releaseOrder cfg o).Writes QuietWrite :=
  .bind (lineWrites_lockOrderRow o) fun _ => .bind (Tx.writes_require _ _) fun _ =>
    .bind (writes_requireNoOpenDispute o) fun _ => still_payThenClose cfg o _

theorem still_extendEscrow (days : ℕ) : (extendEscrow cfg o days).Writes QuietWrite :=
  .bind (lineWrites_lockOrderRow o) fun _ => .bind (Tx.writes_require _ _) fun _ =>
    Tx.writes_modify.mpr (quietWrite_keep o (fun _ => rfl) fun _ => rfl)

theorem still_escrowRelease : (escrowRelease cfg o).Writes QuietWrite :=
  .bind (lineWrites_lockDueOrder o _) fun _ => still_payThenClose cfg o _

theorem still_provisionSweep (catalog : Bool) : (provisionSweep cfg o catalog).Writes QuietWrite :=
  .bind (lineWrites_lockDueOrder o _) fun _ => .bind (still_refundEscrow cfg o _ _ _) fun _ =>
    still_cancelOrder cfg o _

theorem still_addClaims (c : ℕ) (resourceIds lineNos : List ℕ) (batchKey : String) :
    (addClaims cfg c o resourceIds lineNos batchKey).Writes QuietWrite :=
  writes_addClaims cfg c o resourceIds lineNos batchKey
    (fun _ => quietWrite_of_eq (fun _ => rfl) fun _ => rfl)
    fun _ => quietWrite_of_eq (fun _ => rfl) fun _ => rfl

theorem still_createDispute (c b : ℕ) (resourceIds lineNos : List ℕ) (key : Option String) :
    (createDispute cfg c o b resourceIds lineNos key).Writes QuietWrite := by
  refine .bind (lineWrites_lockBuyerOrder o b) fun _ => .bind (Tx.writes_read _) fun existing => ?_
  rcases existing with _ | ⟨e, u⟩
  · refine .bind (Tx.writes_require _ _) fun _ => .bind (Tx.writes_require _ _) fun _ =>
      .bind (Tx.writes_require _ _) fun _ => .bind ?_ fun _ => still_addClaims cfg o c _ _ _
    exact .bind (Tx.writes_read _) fun _ => .bind (Tx.writes_require _ _) fun _ =>
      writes_insertRow (quietWrite_of_eq (fun _ => rfl) fun _ => rfl)
  · exact .bind (Tx.writes_read _) fun _ => Tx.writes_throw _

theorem still_appendClaimBatch (b : ℕ) (resourceIds lineNos : List ℕ) (key : String) :
    (appendClaimBatch cfg o b resourceIds lineNos key).Writes QuietWrite :=
  .bind (lineWrites_lockBuyerOrder o b) fun _ => .bind (Tx.writes_require _ _) fun _ =>
    .bind (lineWrites_lockOpenDispute o) fun _ => .bind (Tx.writes_read _) fun _ =>
    .bind (Tx.writes_require _ _) fun _ => .bind (still_addClaims cfg o _ _ _ _) fun _ =>
      still_modifyCase _ _

theorem still_acceptDisputeResolution (b : ℕ) :
    (acceptDisputeResolution cfg o b).Writes QuietWrite :=
  .bind (lineWrites_lockBuyerOrder o b) fun _ => .bind (lineWrites_lockOpenDispute o) fun _ =>
    .bind (Tx.writes_read _) fun _ => .bind (Tx.writes_require _ _) fun _ =>
    .bind (Tx.writes_require _ _) fun _ => .bind (Tx.writes_read _) fun _ =>
      still_finalizeDispute cfg o _ _ _

theorem still_withdrawDispute (b : ℕ) : (withdrawDispute cfg o b).Writes QuietWrite :=
  .bind (lineWrites_lockBuyerOrder o b) fun _ => .bind (lineWrites_lockOpenDispute o) fun _ =>
    .bind (Tx.writes_read _) fun _ => .bind (Tx.writes_require _ _) fun _ =>
    .bind (still_modifyCase _ _) fun _ => Tx.writes_when (still_payThenClose cfg o _)

theorem still_requestMarketplaceReview (a : ℕ) :
    (requestMarketplaceReview cfg o a).Writes QuietWrite :=
  .bind (lineWrites_lockOrderRow o) fun _ => .bind (Tx.writes_require _ _) fun _ =>
    .bind (lineWrites_lockOpenDispute o) fun _ => Tx.writes_when (still_modifyCase _ _)

theorem still_sellerRespondDispute (c seller : ℕ) (note : String) :
    (sellerRespondDispute cfg c seller note).Writes QuietWrite :=
  .bind (lineWrites_lockOpenCase c) fun _ => .bind (lineWrites_lockOrder _) fun _ =>
    .bind (Tx.writes_getOrElse _ _) fun _ => .bind (Tx.writes_require _ _) fun _ =>
    .bind (Tx.writes_read _) fun _ => still_modifyCase c _

theorem still_sellerResolveResources (skipped : List ℕ) (c seller : ℕ) (resourceIds : List ℕ)
    (action : RemedyAction) (ids : Option (List ℕ)) (key : String) (note : Option String) :
    (sellerResolveResources cfg skipped c seller resourceIds action ids key note).Writes QuietWrite :=
  .bind (lineWrites_lockDispute c) fun _ => .bind (lineWrites_lockOrder _) fun _ =>
    .bind (Tx.writes_getOrElse _ _) fun _ => .bind (Tx.writes_require _ _) fun _ =>
    .bind (still_modifyCase c _) fun _ =>
    .bind (Tx.writes_read _) fun _ => .bind (Tx.writes_require _ _) fun _ =>
    .bind (Tx.writes_require _ _) fun _ => .bind (Tx.writes_read _) fun _ =>
    .bind (Tx.writes_getOrElse _ _) fun ⟨_, _⟩ => .bind (Tx.writes_require _ _) fun _ =>
    .bind (writes_claimedOriginals c _ _) fun _ =>
    .bind (still_remedyResources cfg _ _ _ _ _ _ _ _ _ _ _) fun _ =>
    .bind (Tx.writes_modify.mpr (quietWrite_keep _ (fun _ => rfl) fun _ => rfl)) fun _ =>
    .bind (Tx.writes_when (still_modifyCase c _)) fun _ => still_closeRemedy cfg _ c _

theorem still_sellerResolveProxies (c seller : ℕ) (lineNos : List ℕ) (key : String)
    (note : Option String) :
    (sellerResolveProxies cfg c seller lineNos key note).Writes QuietWrite :=
  .bind (lineWrites_lockDispute c) fun _ => .bind (lineWrites_lockOrder _) fun _ =>
    .bind (Tx.writes_getOrElse _ _) fun _ => .bind (Tx.writes_require _ _) fun _ =>
    .bind (Tx.writes_read _) fun _ => .bind (Tx.writes_require _ _) fun _ =>
    .bind (Tx.writes_require _ _) fun _ => .bind (still_modifyCase c _) fun _ =>
      still_refundProxyLines cfg _ _ _ _ _ _ _

theorem still_adminRefundProxies (c : ℕ) (lineNos : List ℕ) (key : String) (note : Option String) :
    (adminRefundProxies cfg c lineNos key note).Writes QuietWrite :=
  .bind (lineWrites_lockDispute c) fun _ => .bind (lineWrites_lockOrderRow _) fun _ =>
    .bind (Tx.writes_read _) fun _ => .bind (Tx.writes_require _ _) fun _ =>
    .bind (Tx.writes_require _ _) fun _ => still_refundProxyLines cfg _ _ _ _ _ _ _

/-- A refund after the delivery gives no units back. -/
theorem still_refundDispute (c : ℕ) : (refundDispute cfg c).Writes QuietWrite :=
  .bind (lineWrites_lockOpenCase c) fun _ => .bind (lineWrites_lockOrderRow _) fun _ =>
    .bind (still_modifyCase c _) fun _ => .bind (still_setOrderStatus cfg _ (.inr (.inl rfl))) fun _ =>
    .bind (Tx.writes_when (still_refundEscrow cfg _ _ _ _)) fun _ => still_clawbackPrograms cfg _

theorem still_rejectDispute (c : ℕ) : (rejectDispute cfg c).Writes QuietWrite :=
  .bind (lineWrites_lockOpenCase c) fun _ => .bind (lineWrites_lockOrderRow _) fun _ =>
    .bind (still_modifyCase c _) fun _ => still_settle cfg _ _

theorem still_partialRefundDispute (c : ℕ) (x : ℤ) :
    (partialRefundDispute cfg c x).Writes QuietWrite :=
  .bind (lineWrites_lockOpenCase c) fun _ => .bind (lineWrites_lockOrderRow _) fun _ =>
    .bind (Tx.writes_require _ _) fun _ => .bind (still_modifyCase c _) fun _ =>
    .bind (still_setOrderStatus cfg _ (.inr (.inr rfl))) fun _ =>
    .bind (still_refundEscrow cfg _ _ _ _) fun _ => .bind (Tx.writes_read _) fun _ =>
    .bind (still_payOut cfg _ _) fun _ => still_applyPrograms cfg _ _

theorem still_settleDue {resolve : ℕ → Dispute → Tx Unit}
    (h : ∀ c u, (resolve c u).Writes QuietWrite) : (settleDue o resolve).Writes QuietWrite :=
  .bind (lineWrites_lockOpenDispute o) fun _ => .bind (lineWrites_lockOrder o) fun _ => h _ _

theorem still_disputeResolutionTimeout (order : Order) :
    (disputeResolutionTimeout cfg o order).Writes QuietWrite :=
  still_settleDue o fun _ _ => .bind (Tx.writes_require _ _) fun _ =>
    still_finalizeDispute cfg o _ order _

theorem still_disputeAbandonment (order : Order) :
    (disputeAbandonment cfg o order).Writes QuietWrite :=
  still_settleDue o fun _ _ => .bind (Tx.writes_read _) fun _ =>
    .bind (Tx.writes_require _ _) fun _ => still_finalizeDispute cfg o _ order _

theorem still_disputeSellerTimeout (order : Order) :
    (disputeSellerTimeout cfg o order).Writes QuietWrite := by
  refine still_settleDue o fun c u => .bind (Tx.writes_require _ _) fun _ => ?_
  change (if order.totalAmount - order.refundedAmount ≠ 0 then _ else _ : Tx Unit).Writes _
  split_ifs
  · exact .bind (still_refundEscrow cfg o _ _ _) fun _ => .bind (Tx.writes_read _) fun _ =>
      still_finalizeDispute cfg o _ _ _
  · exact still_finalizeDispute cfg o _ order _

end Calls

end Marketplace
