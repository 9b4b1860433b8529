import Marketplace.Disputes.Handling

/-!
# Which functions touch the lines of an order

Most functions about orders write to no stock line and to no proxy line, and most leave the text
that was handed over as it is. `LineWrite Q stock proxies` lists the writes of all of them: `stock` and
`proxies` say whether lines of the two kinds may be written, and `Q` what may happen to the row of an
order.

The footprints are stated for every `stock` and `proxies` a function is good for, so that the
same lemma says that a function leaves the stock alone and that it leaves the proxies alone. Most of
them hold for every `Footprint`, a list of writes that may be about the cases in `E` only, which must
not make them younger.
-/

namespace Marketplace

open Sql

/-- The text that was handed over stays. -/
def KeepsText (v v' : Order) : Prop := v'.deliveredData = v.deliveredData

/-- The writes of the functions about orders. -/
inductive LineWrite (Q : Order → Order → Prop) (stock proxies : Prop) : (Db → Db) → Prop
  | money {f : Db → Db} (h : MoneyWrite (fun _ => False) f) : LineWrite Q stock proxies f
  | newOrder (o : ℕ) (v : Order) : LineWrite Q stock proxies (Db.insertOrder o v)
  | order (o : ℕ) (f : Order → Order) (h : ∀ v, Q v (f v)) :
      LineWrite Q stock proxies (Db.modifyOrder o f)
  | account (a : ℕ) (f : Account → Account) : LineWrite Q stock proxies (Db.modifyAccount a f)
  | variant (v : ℕ) (f : ProductVariant → ProductVariant) :
      LineWrite Q stock proxies (Db.modifyVariant v f)
  | newTask (t : ℕ) (v : ServiceTask) : LineWrite Q stock proxies (Db.insertTask t v)
  | task (t : ℕ) (f : ServiceTask → ServiceTask) : LineWrite Q stock proxies (Db.modifyTask t f)
  | newDispute (c : ℕ) (v : Dispute) : LineWrite Q stock proxies (Db.insertDispute c v)
  | dispute (c : ℕ) (f : Dispute → Dispute) : LineWrite Q stock proxies (Db.modifyDispute c f)
  | claimResource (v : DisputeClaimResource) : LineWrite Q stock proxies (Db.addClaimResource v)
  | claimProxy (v : DisputeClaimProxy) : LineWrite Q stock proxies (Db.addClaimProxy v)
  | resourceAction (v : DisputeResourceAction) : LineWrite Q stock proxies (Db.addResourceAction v)
  | proxyAction (v : DisputeProxyAction) : LineWrite Q stock proxies (Db.addProxyAction v)
  | promotionCode (c : ℕ) (f : PromotionCode → PromotionCode) :
      LineWrite Q stock proxies (Db.modifyPromotionCode c f)
  | redemption (o : ℕ) (v : PromotionRedemption) : LineWrite Q stock proxies (Db.insertRedemption o v)
  | newResource (h : stock) (r : ℕ) (v : Resource) : LineWrite Q stock proxies (Db.insertResource r v)
  | resource (h : stock) (r : ℕ) (f : Resource → Resource) :
      LineWrite Q stock proxies (Db.modifyResource r f)
  | newAllocation (h : proxies) (a : ℕ) (v : ProxyAllocation) :
      LineWrite Q stock proxies (Db.insertAllocation a v)
  | allocation (h : proxies) (a : ℕ) (f : ProxyAllocation → ProxyAllocation) :
      LineWrite Q stock proxies (Db.modifyAllocation a f)

namespace LineWrite

variable {Q : Order → Order → Prop} {stock proxies : Prop} {f : Db → Db}

theorem resources_eq (h : LineWrite Q False proxies f) (d : Db) : (f d).resources = d.resources := by
  cases h with
  | newResource h r v => exact h.elim
  | resource h r f => exact h.elim
  | money h =>
    cases h with
    | wallet h => cases h <;> rfl
    | _ => rfl
  | _ => rfl

end LineWrite

/-! ### Lists of writes -/

/-- A case moves on: what was stamped on it stays. -/
structure CaseAges (u u' : Dispute) : Prop where
  order : u'.orderId = u.orderId
  deadline : u'.sellerDeadlineAt = u.sellerDeadlineAt
  responded : u.sellerRespondedAt ≠ none → u'.sellerRespondedAt ≠ none
  reviewed : u.reviewRequestedAt ≠ none → u'.reviewRequestedAt ≠ none

theorem CaseAges.refl (u : Dispute) : CaseAges u u := ⟨rfl, rfl, id, id⟩

theorem CaseAges.trans {u₁ u₂ u₃ : Dispute} (h : CaseAges u₁ u₂) (h' : CaseAges u₂ u₃) :
    CaseAges u₁ u₃ :=
  ⟨h'.order.trans h.order, h'.deadline.trans h.deadline, fun hr => h'.responded (h.responded hr),
    fun hr => h'.reviewed (h.reviewed hr)⟩

/-- Among the writes in `P` are all that a function about the cases in `E` may need. -/
structure Footprint (Q : Order → Order → Prop) (stock proxies : Prop) (E : ℕ → Prop)
    (P : (Db → Db) → Prop) : Prop where
  money : ∀ {f}, MoneyWrite (fun _ => False) f → P f
  newOrder : ∀ o v, P (Db.insertOrder o v)
  order : ∀ o f, (∀ v, Q v (f v)) → P (Db.modifyOrder o f)
  account : ∀ a f, P (Db.modifyAccount a f)
  variant : ∀ v f, P (Db.modifyVariant v f)
  newTask : ∀ t v, P (Db.insertTask t v)
  task : ∀ t f, P (Db.modifyTask t f)
  case : ∀ c f, E c → (∀ u, CaseAges u (f u)) → P (Db.modifyDispute c f)
  claimResource : ∀ v, P (Db.addClaimResource v)
  claimProxy : ∀ v, P (Db.addClaimProxy v)
  resourceAction : ∀ v, P (Db.addResourceAction v)
  proxyAction : ∀ v, P (Db.addProxyAction v)
  promotionCode : ∀ c f, P (Db.modifyPromotionCode c f)
  redemption : ∀ o v, P (Db.insertRedemption o v)
  newResource : stock → ∀ r v, P (Db.insertResource r v)
  resource : stock → ∀ r f, P (Db.modifyResource r f)
  newAllocation : proxies → ∀ a v, P (Db.insertAllocation a v)
  allocation : proxies → ∀ a f, P (Db.modifyAllocation a f)

theorem lineFootprint {Q : Order → Order → Prop} {stock proxies : Prop} :
    Footprint Q stock proxies (fun _ => True) (LineWrite Q stock proxies) :=
  ⟨.money, .newOrder, .order, .account, .variant, .newTask, .task, fun c f _ _ => .dispute c f,
    .claimResource, .claimProxy, .resourceAction, .proxyAction, .promotionCode, .redemption,
    .newResource, .resource, .newAllocation, .allocation⟩

/-- A write of the money functions. -/
theorem Footprint.of_money {Q : Order → Order → Prop} {stock proxies : Prop} {E : ℕ → Prop}
    {P : (Db → Db) → Prop} (hP : Footprint Q stock proxies E P) {S : ℕ → Prop} {f : Db → Db}
    (hQ : ∀ v v', KeepsText v v' → Q v v') (h : MoneyWrite S f) : P f := by
  cases h with
  | wallet h =>
    cases h with
    | refunded o x h => exact hP.order o _ fun v => hQ v _ rfl
    | credit a x => exact hP.money (.wallet (.credit a x))
    | newWallet a x => exact hP.money (.wallet (.newWallet a x))
    | book t h => exact hP.money (.wallet (.book t h))
    | newCashback o v => exact hP.money (.wallet (.newCashback o v))
    | cashback o f => exact hP.money (.wallet (.cashback o f))
    | deposit i f => exact hP.money (.wallet (.deposit i f))
  | newCommission o v => exact hP.money (.newCommission o v)
  | commission o f => exact hP.money (.commission o f)
  | fund x => exact hP.money (.fund x)
  | fundEntry e => exact hP.money (.fundEntry e)

/-! ### The parts -/

section Reads

variable (cfg : Settings) (o : ℕ)

theorem lineWrites_lockOrder {P : (Db → Db) → Prop} : (lockOrder o).Writes P := Tx.writes_lock _ _

theorem lineWrites_lockOrderRow {P : (Db → Db) → Prop} : (lockOrderRow o).Writes P :=
  .bind (lineWrites_lockOrder o) fun _ => Tx.writes_getOrElse _ _

theorem lineWrites_lockDueOrder {P : (Db → Db) → Prop} (due : Db → Order → Bool) :
    (lockDueOrder o due).Writes P :=
  .bind (Tx.writes_lock _ _) fun _ => Tx.writes_getOrElse _ _

theorem lineWrites_lockDispute {P : (Db → Db) → Prop} (c : ℕ) : (lockDispute c).Writes P :=
  .bind (Tx.writes_lock _ _) fun _ => Tx.writes_getOrElse _ _

theorem lineWrites_lockOpenCase {P : (Db → Db) → Prop} (c : ℕ) : (lockOpenCase c).Writes P :=
  .bind (lineWrites_lockDispute c) fun _ => .bind (Tx.writes_require _ _) fun _ => Tx.writes_pure _

theorem lineWrites_lockOpenDispute {P : (Db → Db) → Prop} : (lockOpenDispute o).Writes P :=
  .bind (fun _ => Tx.writes_pure _) fun _ => Tx.writes_getOrElse _ _

theorem lineWrites_lockBuyerOrder {P : (Db → Db) → Prop} (b : ℕ) : (lockBuyerOrder o b).Writes P :=
  .bind (lineWrites_lockOrderRow o) fun _ => .bind (Tx.writes_require _ _) fun _ => Tx.writes_pure _

/-- The writes of a function that only reads. -/
theorem lineWrites_of_id {α : Type} {t : Tx α} {P : (Db → Db) → Prop} (hP : P id)
    (ht : t.Writes (· = id)) : t.Writes P :=
  ht.mono fun f hf => by rwa [hf]

theorem ages_offerResolutionDeadline (u : Dispute) : CaseAges u (u.offerResolutionDeadline cfg) := by
  rw [Dispute.offerResolutionDeadline]
  split_ifs
  · exact .refl u
  · exact ⟨rfl, rfl, id, id⟩

theorem ages_markSellerResponded (u : Dispute) : CaseAges u (u.markSellerResponded cfg) :=
  ⟨rfl, rfl, fun _ => Option.some_ne_none _, id⟩

end Reads

section Parts

variable {Q : Order → Order → Prop} {stock proxies : Prop} {E : ℕ → Prop} {P : (Db → Db) → Prop}
  (hP : Footprint Q stock proxies E P) (cfg : Settings) (o : ℕ)
include hP

theorem lineWrites_modifyOrder {f : Order → Order} (h : ∀ v, Q v (f v)) :
    (Tx.modify (Db.modifyOrder o f) : Tx Unit).Writes P :=
  Tx.writes_modify.mpr (hP.order o f h)

theorem lineWrites_takeManualStock (hQ : ∀ v v', KeepsText v v' → Q v v') (variantId : ℕ)
    (variant : ProductVariant) (quantity : ℕ) :
    (takeManualStock variantId variant o quantity).Writes P := by
  rw [takeManualStock]
  split_ifs
  · exact Tx.writes_pure _
  · exact .bind (Tx.writes_lock _ _) fun _ => .bind (Tx.writes_require _ _) fun _ =>
      .bind (Tx.writes_modify.mpr (hP.variant _ _)) fun _ =>
        lineWrites_modifyOrder hP o fun _ => hQ _ _ rfl

theorem lineWrites_recordRedemption (a : AppliedPromo) (b : ℕ) :
    (recordRedemption cfg a o b).Writes P :=
  writes_redeem cfg o hP.account hP.redemption hP.promotionCode a b

variable (hQ : ∀ v v', KeepsText v v' → Q v v')
include hQ

theorem lineWrites_refundEscrow (buyer : ℕ) (x : ℤ) (s : String) : (refundEscrow cfg o buyer x s).Writes P :=
  (writes_refundEscrow cfg o buyer x s (S := fun _ => True) trivial).mono fun _ hf =>
    hP.of_money hQ (.wallet hf)

theorem lineWrites_payOut (order : Order) : (payOut cfg o order).Writes P := by
  refine .bind (Tx.writes_read _) fun seller => .bind (writes_settlement cfg order seller)
    fun r => ?_
  exact Tx.writes_when ((writes_releaseEscrow (S := fun _ => True) cfg o _ _ _).mono fun _ hf =>
    hP.of_money hQ (.wallet hf))

theorem lineWrites_applyPrograms (order : Order) : (applyPrograms cfg o order).Writes P :=
  .bind ((writes_applyAffiliateCommission (S := fun _ => True) cfg o order).mono fun _ =>
      hP.of_money hQ) fun _ =>
    (writes_applyBuyerCashback (S := fun _ => True) cfg o _).mono fun _ hf => hP.of_money hQ (.wallet hf)

theorem lineWrites_clawbackPrograms : (clawbackPrograms cfg o).Writes P :=
  .bind ((writes_clawbackCommissionForOrder (S := fun _ => True) cfg o).mono fun _ =>
      hP.of_money hQ) fun _ =>
    (writes_clawbackBuyerCashback (S := fun _ => True) cfg o).mono fun _ hf => hP.of_money hQ (.wallet hf)

theorem lineWrites_setOrderStatus (status : OrderStatus) : (setOrderStatus cfg o status).Writes P :=
  lineWrites_modifyOrder hP o fun _ => hQ _ _ rfl

theorem lineWrites_cancelOrder (reason : String) : (cancelOrder cfg o reason).Writes P :=
  .bind (lineWrites_setOrderStatus hP cfg o hQ _) fun _ => lineWrites_modifyOrder hP o fun _ => hQ _ _ rfl

theorem lineWrites_releaseManualStock (order : Order) :
    (releaseManualStock o order).Writes P := by
  rw [releaseManualStock]
  rcases order.variantId with _ | v
  · exact Tx.writes_pure _
  · exact Tx.writes_when (.bind (Tx.writes_lock _ _) fun _ =>
      .bind (Tx.writes_modify.mpr (hP.variant _ _)) fun _ => lineWrites_modifyOrder hP o fun _ => hQ _ _ rfl)

theorem lineWrites_chargeOrder (b : ℕ) (x : ℤ) (promo : Option AppliedPromo) : (chargeOrder cfg o b x promo).Writes P := by
  refine .bind ((writes_deductCredit (S := fun _ => True) cfg b x o "").mono fun _ hf =>
    hP.of_money hQ (.wallet hf)) fun _ => ?_
  rcases promo with _ | a
  · exact Tx.writes_pure _
  · exact lineWrites_recordRedemption hP cfg o a b

theorem lineWrites_finalizeDispute {c : ℕ} (hE : E c) (order : Order) (status : DisputeStatus) :
    (finalizeDispute cfg c o order status).Writes P := by
  refine .bind (Tx.writes_modify.mpr (hP.case c _ hE fun _ => ⟨rfl, rfl, id, id⟩)) fun _ => .bind (lineWrites_setOrderStatus hP cfg o hQ _)
    fun _ => .bind (lineWrites_payOut hP cfg o hQ order) fun _ => ?_
  split_ifs
  · exact lineWrites_clawbackPrograms hP cfg o hQ
  · exact lineWrites_applyPrograms hP cfg o hQ order

theorem lineWrites_closeRemedy {c : ℕ} (hE : E c) (order : Order) :
    (closeRemedy cfg c o order).Writes P := by
  refine .bind (Tx.writes_read _) fun order => ?_
  split_ifs
  · exact lineWrites_finalizeDispute hP cfg o hQ hE order _
  · exact .bind (Tx.writes_read _) fun _ => Tx.writes_when
      (Tx.writes_modify.mpr (hP.case c _ hE (ages_offerResolutionDeadline cfg)))

end Parts

/-! ### The functions about orders -/

section Calls

variable {Q : Order → Order → Prop} {stock proxies : Prop} {E : ℕ → Prop} {P : (Db → Db) → Prop}
  (hP : Footprint Q stock proxies E P) (cfg : Settings) (o : ℕ)
include hP

/-- The footprint of a function that writes a new text. -/
theorem lineWrites_closeTasks (hQ : ∀ v v', Q v v') (order : Order) (tasks : List (ℕ × ServiceTask)) : (closeTasks cfg o order tasks).Writes P := by
  have hkeep : ∀ v v', KeepsText v v' → Q v v' := fun v v' _ => hQ v v'
  refine .bind (lineWrites_modifyOrder hP o fun _ => hQ _ _) fun _ => ?_
  split_ifs
  · exact .bind (lineWrites_refundEscrow hP cfg o hkeep _ _ _) fun _ =>
      lineWrites_setOrderStatus hP cfg o hkeep _
  · exact .bind (Tx.writes_when (lineWrites_refundEscrow hP cfg o hkeep _ _ _)) fun _ =>
      .bind (lineWrites_setOrderStatus hP cfg o hkeep _) fun _ => lineWrites_modifyOrder hP o fun _ => hQ _ _

theorem lineWrites_updateTask (hQ : ∀ v v', Q v v') (memory : List (ℕ × ServiceTask)) (t : ℕ)
    (u : TaskUpdate) : (updateTask cfg memory t u).Writes P := by
  refine .bind (Tx.writes_read _) fun _ => .bind (Tx.writes_getOrElse _ _) fun task =>
    .bind (Tx.writes_modify.mpr (hP.task _ _)) fun _ => .bind (lineWrites_lockOrder _) fun order => ?_
  rcases order with _ | order
  · exact Tx.writes_pure _
  · change (if order.status ≠ .processing then _ else _ : Tx Unit).Writes _
    split_ifs
    · exact Tx.writes_pure _
    · refine .bind (Tx.writes_read _) fun tasks => ?_
      split_ifs
      · exact Tx.writes_pure _
      · exact lineWrites_closeTasks hP cfg _ hQ _ _

theorem lineWrites_deliverOrder (hQ : ∀ v v', Q v v') (seller : ℕ) (data : String) : (deliverOrder cfg o seller data).Writes P :=
  .bind (Tx.writes_read _) fun _ => .bind (Tx.writes_getOrElse _ _) fun _ =>
    .bind (Tx.writes_require _ _) fun _ => .bind (Tx.writes_require _ _) fun _ =>
    .bind (Tx.writes_require _ _) fun _ => .bind (lineWrites_lockOrder _) fun _ =>
    .bind (lineWrites_setOrderStatus hP cfg o (fun _ _ _ => hQ _ _) _) fun _ =>
      lineWrites_modifyOrder hP o fun _ => hQ _ _

/-- The footprint of a function that writes to the proxy lines. -/
theorem lineWrites_refundProxyLines (hQ : ∀ v v', Q v v') (hp : proxies) {c : ℕ} (hE : E c) (order : Order)
    (lineNos : List ℕ) (key : String) (role : ActorRole) (note : Option String) :
    (refundProxyLines cfg c o order lineNos key role note).Writes P := by
  have hkeep : ∀ v v', KeepsText v v' → Q v v' := fun v v' _ => hQ v v'
  refine .bind (writes_refundableLines c o lineNos role) fun lines =>
    .bind (Tx.writes_when (lineWrites_refundEscrow hP cfg o hkeep _ _ _)) fun _ =>
    .bind (Tx.writes_forEach fun a => ?_) fun _ => .bind ?_ fun _ =>
    .bind (Tx.writes_when (Tx.writes_modify.mpr (hP.case c _ hE fun _ => ⟨rfl, rfl, id, id⟩))) fun _ =>
      lineWrites_closeRemedy hP cfg o hkeep hE order
  · exact .bind (Tx.writes_modify.mpr (hP.allocation hp _ _)) fun _ => .bind (Tx.writes_read _) fun _ =>
      .bind (Tx.writes_require _ _) fun _ => Tx.writes_modify.mpr (hP.proxyAction _)
  · exact .bind (Tx.writes_read _) fun _ => Tx.writes_when (lineWrites_modifyOrder hP o fun _ => hQ _ _)

variable (hQ : ∀ v v', KeepsText v v' → Q v v')
include hQ

theorem lineWrites_settle (status : OrderStatus) (order : Order) :
    (do setOrderStatus cfg o status
        payOut cfg o order
        applyPrograms cfg o order : Tx Unit).Writes P :=
  .bind (lineWrites_setOrderStatus hP cfg o hQ _) fun _ => .bind (lineWrites_payOut hP cfg o hQ _) fun _ =>
    lineWrites_applyPrograms hP cfg o hQ _

theorem lineWrites_payThenClose (status : OrderStatus) (order : Order) :
    (do payOut cfg o order
        setOrderStatus cfg o status
        applyPrograms cfg o order : Tx Unit).Writes P :=
  .bind (lineWrites_payOut hP cfg o hQ _) fun _ => .bind (lineWrites_setOrderStatus hP cfg o hQ _) fun _ =>
    lineWrites_applyPrograms hP cfg o hQ _

theorem lineWrites_confirmOrder (b : ℕ) : (confirmOrder cfg o b).Writes P :=
  .bind (lineWrites_lockOrder o) fun _ => .bind (Tx.writes_getOrElse _ _) fun _ =>
    .bind (Tx.writes_require _ _) fun _ => .bind (Tx.writes_require _ _) fun _ =>
    .bind (Tx.writes_read _) fun _ => .bind (Tx.writes_require _ _) fun _ =>
      lineWrites_settle hP cfg o hQ _ _

theorem lineWrites_acceptOrder (seller : ℕ) : (acceptOrder cfg o seller).Writes P :=
  .bind (Tx.writes_read _) fun _ => .bind (Tx.writes_getOrElse _ _) fun _ =>
    .bind (Tx.writes_require _ _) fun _ => .bind (Tx.writes_require _ _) fun _ =>
    .bind (lineWrites_lockOrder _) fun _ => lineWrites_setOrderStatus hP cfg o hQ _

theorem lineWrites_releaseOrder : (releaseOrder cfg o).Writes P :=
  .bind (lineWrites_lockOrderRow o) fun _ => .bind (Tx.writes_require _ _) fun _ =>
    .bind (writes_requireNoOpenDispute o) fun _ => lineWrites_payThenClose hP cfg o hQ _ _

theorem lineWrites_refundOrder (message : Option String) : (refundOrder cfg o message).Writes P := by
  refine .bind (lineWrites_lockOrderRow o) fun order => .bind (Tx.writes_require _ _) fun _ =>
    .bind (writes_requireNoOpenDispute o) fun _ => .bind (Tx.writes_require _ _) fun _ =>
    .bind (lineWrites_refundEscrow hP cfg o hQ _ _ _) fun _ =>
    .bind (lineWrites_setOrderStatus hP cfg o hQ _) fun _ =>
    .bind (Tx.writes_when (lineWrites_releaseManualStock hP o hQ order)) fun _ =>
    .bind (lineWrites_modifyOrder hP o fun _ => hQ _ _ rfl) fun _ => ?_
  exact lineWrites_clawbackPrograms hP cfg o hQ

theorem lineWrites_extendEscrow (days : ℕ) : (extendEscrow cfg o days).Writes P :=
  .bind (lineWrites_lockOrderRow o) fun _ => .bind (Tx.writes_require _ _) fun _ =>
    lineWrites_modifyOrder hP o fun _ => hQ _ _ rfl

theorem lineWrites_escrowRelease : (escrowRelease cfg o).Writes P :=
  .bind (lineWrites_lockDueOrder o _) fun _ => lineWrites_payThenClose hP cfg o hQ _ _

theorem lineWrites_slaCheck : (slaCheck cfg o).Writes P :=
  .bind (lineWrites_lockDueOrder o _) fun _ => .bind (lineWrites_refundEscrow hP cfg o hQ _ _ _) fun _ =>
    .bind (lineWrites_releaseManualStock hP o hQ _) fun _ => lineWrites_cancelOrder hP cfg o hQ _

theorem lineWrites_provisionSweep (catalog : Bool) : (provisionSweep cfg o catalog).Writes P :=
  .bind (lineWrites_lockDueOrder o _) fun _ => .bind (lineWrites_refundEscrow hP cfg o hQ _ _ _) fun _ =>
    lineWrites_cancelOrder hP cfg o hQ _

end Calls

/-! ### The functions about cases -/

section Cases

variable {Q : Order → Order → Prop} {stock proxies : Prop} (cfg : Settings) (o : ℕ)

theorem lineWrites_id : LineWrite Q stock proxies id := by
  -- An assignment of nothing to a task nobody has.
  have h : Db.modifyTask 0 id = id := by
    funext d
    rw [Db.modifyTask, id]
    have hrows : (d.tasks.modify 0 id) = d.tasks := by
      ext1
      simp [Table.modify]
    rw [hrows]
  rw [← h]
  exact .task 0 id

theorem lineWrites_modifyCase (c : ℕ) (f : Dispute → Dispute) :
    (modifyCase c f).Writes (LineWrite Q stock proxies) := Tx.writes_modify.mpr (.dispute c f)

theorem lineWrites_createDispute (c b : ℕ) (resourceIds lineNos : List ℕ) (key : Option String) :
    (createDispute cfg c o b resourceIds lineNos key).Writes (LineWrite Q stock proxies) := by
  refine .bind (lineWrites_lockBuyerOrder o b) fun _ => .bind (Tx.writes_read _) fun existing => ?_
  rcases existing with _ | ⟨e, u⟩
  · refine .bind (Tx.writes_require _ _) fun _ => .bind (Tx.writes_require _ _) fun _ =>
      .bind (Tx.writes_require _ _) fun _ => .bind ?_ fun _ => ?_
    · exact .bind (Tx.writes_read _) fun _ => .bind (Tx.writes_require _ _) fun _ =>
        writes_insertRow (.newDispute _ _)
    · exact writes_addClaims cfg c o _ _ _ .claimResource .claimProxy
  · exact .bind (Tx.writes_read _) fun _ => Tx.writes_throw _

theorem lineWrites_appendClaimBatch (b : ℕ) (resourceIds lineNos : List ℕ) (key : String) :
    (appendClaimBatch cfg o b resourceIds lineNos key).Writes (LineWrite Q stock proxies) :=
  .bind (lineWrites_lockBuyerOrder o b) fun _ => .bind (Tx.writes_require _ _) fun _ =>
    .bind (lineWrites_lockOpenDispute o) fun _ => .bind (Tx.writes_read _) fun _ =>
    .bind (Tx.writes_require _ _) fun _ =>
    .bind (writes_addClaims cfg _ o _ _ _ .claimResource .claimProxy) fun _ =>
      lineWrites_modifyCase _ _

theorem lineWrites_requestMarketplaceReview (a : ℕ) :
    (requestMarketplaceReview cfg o a).Writes (LineWrite Q stock proxies) :=
  .bind (lineWrites_lockOrderRow o) fun _ => .bind (Tx.writes_require _ _) fun _ =>
    .bind (lineWrites_lockOpenDispute o) fun _ => Tx.writes_when (lineWrites_modifyCase _ _)

theorem lineWrites_sellerRespondDispute (c seller : ℕ) (note : String) :
    (sellerRespondDispute cfg c seller note).Writes (LineWrite Q stock proxies) :=
  .bind (lineWrites_lockOpenCase c) fun _ => .bind (lineWrites_lockOrder _) fun _ =>
    .bind (Tx.writes_getOrElse _ _) fun _ => .bind (Tx.writes_require _ _) fun _ =>
    .bind (Tx.writes_read _) fun _ => lineWrites_modifyCase c _

theorem lineWrites_settleDue {resolve : ℕ → Dispute → Tx Unit}
    (h : ∀ c u, (resolve c u).Writes (LineWrite Q stock proxies)) :
    (settleDue o resolve).Writes (LineWrite Q stock proxies) :=
  .bind (lineWrites_lockOpenDispute o) fun _ => .bind (lineWrites_lockOrder o) fun _ => h _ _

theorem lineWrites_sellerResolveProxies (hQ : ∀ v v', Q v v') (hp : proxies) (c seller : ℕ)
    (lineNos : List ℕ) (key : String) (note : Option String) :
    (sellerResolveProxies cfg c seller lineNos key note).Writes (LineWrite Q stock proxies) :=
  .bind (lineWrites_lockDispute c) fun _ => .bind (lineWrites_lockOrder _) fun _ =>
    .bind (Tx.writes_getOrElse _ _) fun _ => .bind (Tx.writes_require _ _) fun _ =>
    .bind (Tx.writes_read _) fun _ => .bind (Tx.writes_require _ _) fun _ =>
    .bind (Tx.writes_require _ _) fun _ => .bind (lineWrites_modifyCase c _) fun _ =>
      lineWrites_refundProxyLines lineFootprint cfg _ hQ hp trivial _ _ _ _ _

theorem lineWrites_adminRefundProxies (hQ : ∀ v v', Q v v') (hp : proxies) (c : ℕ)
    (lineNos : List ℕ) (key : String) (note : Option String) :
    (adminRefundProxies cfg c lineNos key note).Writes (LineWrite Q stock proxies) :=
  .bind (lineWrites_lockDispute c) fun _ => .bind (lineWrites_lockOrderRow _) fun _ =>
    .bind (Tx.writes_read _) fun _ => .bind (Tx.writes_require _ _) fun _ =>
    .bind (Tx.writes_require _ _) fun _ => lineWrites_refundProxyLines lineFootprint cfg _ hQ hp trivial _ _ _ _ _

variable (hQ : ∀ v v', KeepsText v v' → Q v v')
include hQ

theorem lineWrites_acceptDisputeResolution (b : ℕ) :
    (acceptDisputeResolution cfg o b).Writes (LineWrite Q stock proxies) :=
  .bind (lineWrites_lockBuyerOrder o b) fun _ => .bind (lineWrites_lockOpenDispute o) fun _ =>
    .bind (Tx.writes_read _) fun _ => .bind (Tx.writes_require _ _) fun _ =>
    .bind (Tx.writes_require _ _) fun _ => .bind (Tx.writes_read _) fun _ =>
      lineWrites_finalizeDispute lineFootprint cfg o hQ trivial _ _

theorem lineWrites_withdrawDispute (b : ℕ) :
    (withdrawDispute cfg o b).Writes (LineWrite Q stock proxies) :=
  .bind (lineWrites_lockBuyerOrder o b) fun _ => .bind (lineWrites_lockOpenDispute o) fun _ =>
    .bind (Tx.writes_read _) fun _ => .bind (Tx.writes_require _ _) fun _ =>
    .bind (lineWrites_modifyCase _ _) fun _ => Tx.writes_when (lineWrites_payThenClose lineFootprint cfg o hQ _ _)

theorem lineWrites_refundDispute (c : ℕ) :
    (refundDispute cfg c).Writes (LineWrite Q stock proxies) :=
  .bind (lineWrites_lockOpenCase c) fun _ => .bind (lineWrites_lockOrderRow _) fun _ =>
    .bind (lineWrites_modifyCase c _) fun _ => .bind (lineWrites_setOrderStatus lineFootprint cfg _ hQ _) fun _ =>
    .bind (Tx.writes_when (lineWrites_refundEscrow lineFootprint cfg _ hQ _ _ _)) fun _ =>
      lineWrites_clawbackPrograms lineFootprint cfg _ hQ

theorem lineWrites_rejectDispute (c : ℕ) :
    (rejectDispute cfg c).Writes (LineWrite Q stock proxies) :=
  .bind (lineWrites_lockOpenCase c) fun _ => .bind (lineWrites_lockOrderRow _) fun _ =>
    .bind (lineWrites_modifyCase c _) fun _ => lineWrites_settle lineFootprint cfg _ hQ _ _

theorem lineWrites_partialRefundDispute (c : ℕ) (x : ℤ) :
    (partialRefundDispute cfg c x).Writes (LineWrite Q stock proxies) :=
  .bind (lineWrites_lockOpenCase c) fun _ => .bind (lineWrites_lockOrderRow _) fun _ =>
    .bind (Tx.writes_require _ _) fun _ => .bind (lineWrites_modifyCase c _) fun _ =>
    .bind (lineWrites_setOrderStatus lineFootprint cfg _ hQ _) fun _ =>
    .bind (lineWrites_refundEscrow lineFootprint cfg _ hQ _ _ _) fun _ => .bind (Tx.writes_read _) fun _ =>
    .bind (lineWrites_payOut lineFootprint cfg _ hQ _) fun _ => lineWrites_applyPrograms lineFootprint cfg _ hQ _

theorem lineWrites_extendWarrantyDispute (c days : ℕ) :
    (extendWarrantyDispute cfg c days).Writes (LineWrite Q stock proxies) :=
  .bind (lineWrites_lockOpenCase c) fun _ => .bind (Tx.writes_require _ _) fun _ =>
    .bind (lineWrites_lockOrderRow _) fun _ => .bind (lineWrites_modifyOrder lineFootprint _ fun _ => hQ _ _ rfl)
    fun _ => .bind (lineWrites_setOrderStatus lineFootprint cfg _ hQ _) fun _ => lineWrites_modifyCase c _

theorem lineWrites_disputeResolutionTimeout (order : Order) :
    (disputeResolutionTimeout cfg o order).Writes (LineWrite Q stock proxies) :=
  lineWrites_settleDue o fun _ _ => .bind (Tx.writes_require _ _) fun _ =>
    lineWrites_finalizeDispute lineFootprint cfg o hQ trivial order _

theorem lineWrites_disputeAbandonment (order : Order) :
    (disputeAbandonment cfg o order).Writes (LineWrite Q stock proxies) :=
  lineWrites_settleDue o fun _ _ => .bind (Tx.writes_read _) fun _ =>
    .bind (Tx.writes_require _ _) fun _ => lineWrites_finalizeDispute lineFootprint cfg o hQ trivial order _

theorem lineWrites_disputeSellerTimeout (order : Order) :
    (disputeSellerTimeout cfg o order).Writes (LineWrite Q stock proxies) := by
  refine lineWrites_settleDue o fun c u => .bind (Tx.writes_require _ _) fun _ => ?_
  change (if order.totalAmount - order.refundedAmount ≠ 0 then _ else _ : Tx Unit).Writes _
  split_ifs
  · exact .bind (lineWrites_refundEscrow lineFootprint cfg o hQ _ _ _) fun _ => .bind (Tx.writes_read _) fun _ =>
      lineWrites_finalizeDispute lineFootprint cfg o hQ trivial _ _
  · exact lineWrites_finalizeDispute lineFootprint cfg o hQ trivial order _

end Cases

/-! ### Provisioning -/

section Provisioning

variable {Q : Order → Order → Prop} {stock proxies : Prop} {E : ℕ → Prop} {P : (Db → Db) → Prop}
  (hP : Footprint Q stock proxies E P) (cfg : Settings) (o : ℕ)
include hP

variable (hQ : ∀ v v', Q v v') (hp : proxies)
include hQ hp

theorem lineWrites_finalizeOrderLines (order : Order) (text : Option String)
    (lines : List (ℕ × ProxyAllocation)) :
    (finalizeOrderLines o order text lines).Writes P := by
  rcases lines with _ | ⟨line, lines⟩
  · exact Tx.writes_pure _
  · refine .bind (Tx.writes_forEach fun r => Tx.writes_modify.mpr (hP.allocation hp _ _)) fun _ => ?_
    split
    · exact .bind (lineWrites_modifyOrder hP o fun _ => hQ _ _) fun _ => Tx.writes_pure _
    · exact Tx.writes_pure _

theorem lineWrites_deliverProvision (order : Order) (result : ProvisionResult) : (deliverProvision cfg o order result).Writes P := by
  have hkeep : ∀ v v', KeepsText v v' → Q v v' := fun v v' _ => hQ v v'
  exact .bind (lineWrites_setOrderStatus hP cfg o hkeep _) fun _ =>
    .bind (lineWrites_modifyOrder hP o fun _ => hQ _ _) fun _ =>
    .bind (Tx.writes_when (lineWrites_refundEscrow hP cfg o hkeep _ _ _)) fun _ =>
    .bind (lineWrites_modifyOrder hP o fun _ => hQ _ _) fun _ => .bind (Tx.writes_read _) fun _ =>
    .bind (Tx.writes_read _) fun _ => .bind (lineWrites_finalizeOrderLines hP o hQ hp _ _ _) fun _ =>
      Tx.writes_when (lineWrites_refundEscrow hP cfg o hkeep _ _ _)

theorem lineWrites_applyProvisionResult (order : Order) (providerId : Option ℕ)
    (result : ProvisionResult) : (applyProvisionResult cfg o order providerId result).Writes P := by
  have hkeep : ∀ v v', KeepsText v v' → Q v v' := fun v v' _ => hQ v v'
  rw [applyProvisionResult]
  split_ifs
  · exact .bind (lineWrites_modifyOrder hP o fun _ => hQ _ _) fun _ =>
      .bind (lineWrites_setOrderStatus hP cfg o hkeep _) fun _ => lineWrites_modifyOrder hP o fun _ => hQ _ _
  · exact .bind (lineWrites_modifyOrder hP o fun _ => hQ _ _) fun _ =>
      lineWrites_deliverProvision hP cfg o hQ hp order result
  · exact .bind (lineWrites_refundEscrow hP cfg o hkeep _ _ _) fun _ =>
      lineWrites_cancelOrder hP cfg o hkeep _

end Provisioning

end Marketplace
