import Marketplace.Lines.Footprints

/-!
# The clocks of a dispute case

Three jobs settle an open case that nobody works on any more. `resolve_abandoned_dispute` and
`resolve_dispute_after_response_timeout` pay the seller, `resolve_dispute_after_seller_timeout`
refunds the buyer. `CaseJob.Accepts` is what each of them checks.

An offer stops the clock of an abandoned case, so the first two never accept the same case. The seller's
clock stops when the seller reacts, but the other two do not look at it: a case that the seller never
answered is refunded or paid out, whichever job comes first (`jobs_compete`). `jobs_exclusive_iff` says
at which cases and times this is so.

The second half follows the stamps of a case through all interleavings. A case's row is written only
under its lock, and what was stamped on it stays (`CaseAges`); so a job settles the case as it is when the
settlement commits.
-/

namespace Marketplace

open Sql

/-! ### What the jobs accept -/

/-- The jobs that settle a case. -/
inductive CaseJob
  | abandonment | responseTimeout | sellerTimeout
  deriving DecidableEq, Repr

/-- The seller's time to react is over. -/
def Dispute.SellerSilent (now : ℕ) (u : Dispute) : Prop :=
  u.sellerRespondedAt = none ∧ ∃ t ∈ u.sellerDeadlineAt, t ≤ now

instance (now : ℕ) (u : Dispute) : Decidable (u.SellerSilent now) := by
  unfold Dispute.SellerSilent
  infer_instance

/-- The buyer's time to answer an offer is over. -/
def Dispute.AnswerOverdue (now : ℕ) (u : Dispute) : Prop := ∃ t ∈ u.resolutionDeadlineAt, t ≤ now

instance (now : ℕ) (u : Dispute) : Decidable (u.AnswerOverdue now) := by
  unfold Dispute.AnswerOverdue
  infer_instance

/-- The grace after the escrow and the buyer's last claim is over, and there is neither a remedy nor
an offer. -/
def Db.CaseAbandoned (d : Db) (cfg : Settings) (c : ℕ) (u : Dispute) (order : Order) : Prop :=
  ∃ t ∈ abandonAfterAt cfg order u (d.lastClaimActivity c u) (decide (d.hasRemedy c)), t ≤ cfg.now

instance (d : Db) (cfg : Settings) (c : ℕ) (u : Dispute) (order : Order) :
    Decidable (d.CaseAbandoned cfg c u order) := by
  unfold Db.CaseAbandoned
  infer_instance

/-- What a job looks at besides the status and a review. -/
def CaseJob.Due (cfg : Settings) (d : Db) (c : ℕ) (u : Dispute) (order : Order) :
    CaseJob → Prop
  | .abandonment => d.CaseAbandoned cfg c u order
  | .responseTimeout => u.AnswerOverdue cfg.now
  | .sellerTimeout => u.SellerSilent cfg.now

/-- A job accepts a case. -/
def CaseJob.Accepts (cfg : Settings) (d : Db) (c : ℕ) (u : Dispute) (order : Order)
    (j : CaseJob) : Prop :=
  u.status = .open_ ∧ u.reviewRequestedAt = none ∧ j.Due cfg d c u order

instance (cfg : Settings) (d : Db) (c : ℕ) (u : Dispute) (order : Order) (j : CaseJob) :
    Decidable (j.Accepts cfg d c u order) := by
  unfold CaseJob.Accepts
  cases j <;> unfold CaseJob.Due <;> infer_instance

/-- What a job calls. -/
def CaseJob.resolve (cfg : Settings) (c : ℕ) (u : Dispute) (o : ℕ) (order : Order) :
    CaseJob → Tx Unit
  | .abandonment => resolveAbandonedDispute cfg c u o order
  | .responseTimeout => resolveAfterResponseTimeout cfg c u o order
  | .sellerTimeout => resolveAfterSellerTimeout cfg c u o order

/-- What it answers to a case it does not accept. -/
def CaseJob.refusal : CaseJob → Abort
  | .abandonment => .valueError "Dispute is not eligible for abandonment settlement"
  | .responseTimeout => .valueError "Dispute is not eligible for response-timeout settlement"
  | .sellerTimeout => .valueError "Dispute is not eligible for seller-timeout refund"

/-- What it does with a case it accepts. -/
def CaseJob.settle (cfg : Settings) (c o : ℕ) (order : Order) : CaseJob → Tx Unit
  | .abandonment => finalizeDispute cfg c o order .resolvedAbandoned
  | .responseTimeout => finalizeDispute cfg c o order .resolvedTimeout
  | .sellerTimeout =>
    if order.totalAmount - order.refundedAmount ≠ 0 then do
      refundEscrow cfg o order.buyerId (order.totalAmount - order.refundedAmount)
        (disputeSuffix c "seller-timeout")
      let order ← currentOrder o order
      finalizeDispute cfg c o order .resolvedRefund
    else finalizeDispute cfg c o order .resolvedRefund

/-- **A job settles a case if it accepts it, and refuses it otherwise.** -/
theorem CaseJob.resolve_run (cfg : Settings) (d : Db) (c : ℕ) (u : Dispute) (o : ℕ)
    (order : Order) (j : CaseJob) :
    (j.resolve cfg c u o order).run d =
      if j.Accepts cfg d c u order then (j.settle cfg c o order).run d else .error j.refusal := by
  cases j with
  | abandonment =>
    change (Tx.read _ >>= _).run d = _
    rw [Tx.run_bind, Tx.run_read]
    exact Tx.run_require_bind _ _ _
  | responseTimeout => exact Tx.run_require_bind _ _ _
  | sellerTimeout => exact Tx.run_require_bind _ _ _

/-- At most one job accepts the case. -/
def OneJob (cfg : Settings) (d : Db) (c : ℕ) (u : Dispute) (order : Order) : Prop :=
  ∀ j j' : CaseJob, j.Accepts cfg d c u order → j'.Accepts cfg d c u order → j = j'

instance (cfg : Settings) (d : Db) (c : ℕ) (u : Dispute) (order : Order) :
    Decidable (OneJob cfg d c u order) :=
  decidable_of_iff (∀ j ∈ [CaseJob.abandonment, .responseTimeout, .sellerTimeout],
      ∀ j' ∈ [CaseJob.abandonment, .responseTimeout, .sellerTimeout],
        j.Accepts cfg d c u order → j'.Accepts cfg d c u order → j = j')
    ⟨fun h j j' => h j (by cases j <;> decide) j' (by cases j' <;> decide), fun h j _ j' _ => h j j'⟩

/-- An offer, answered or not, is the end of the abandonment clock. -/
theorem not_abandoned_of_offer {cfg : Settings} {d : Db} {c : ℕ} {u : Dispute} {order : Order}
    (h : u.AnswerOverdue cfg.now) : ¬d.CaseAbandoned cfg c u order := by
  obtain ⟨t, ht, -⟩ := h
  rintro ⟨t', ht', -⟩
  rw [abandonAfterAt, if_pos (Or.inr (Option.ne_none_iff_exists'.mpr ⟨t, ht⟩))] at ht'
  exact absurd ht' (by simp)

/-- **When the jobs compete.** At most one accepts an open case, unless the seller's time is over and
the time of the buyer as well, whichever clock is the buyer's. -/
theorem oneJob_iff {cfg : Settings} {d : Db} {c : ℕ} {u : Dispute} {order : Order}
    (hopen : u.status = .open_) :
    OneJob cfg d c u order ↔ u.reviewRequestedAt ≠ none ∨ ¬u.SellerSilent cfg.now ∨
      ¬(u.AnswerOverdue cfg.now ∨ d.CaseAbandoned cfg c u order) := by
  constructor
  · intro h
    by_contra hno
    push Not at hno
    obtain ⟨hreview, hseller, hbuyer⟩ := hno
    rcases hbuyer with hbuyer | hbuyer
    · exact absurd (h .sellerTimeout .responseTimeout ⟨hopen, hreview, hseller⟩ ⟨hopen, hreview, hbuyer⟩)
        (by decide)
    · exact absurd (h .sellerTimeout .abandonment ⟨hopen, hreview, hseller⟩ ⟨hopen, hreview, hbuyer⟩)
        (by decide)
  · rintro h j j' ⟨-, hreview, hj⟩ ⟨-, -, hj'⟩
    have hclear : ¬(u.SellerSilent cfg.now ∧
        (u.AnswerOverdue cfg.now ∨ d.CaseAbandoned cfg c u order)) := by
      rintro ⟨hseller, hbuyer⟩
      rcases h with h | h | h
      · exact h hreview
      · exact h hseller
      · exact h hbuyer
    cases j <;> cases j'
    · rfl
    · exact absurd hj (not_abandoned_of_offer hj')
    · exact absurd ⟨hj', Or.inr hj⟩ hclear
    · exact absurd hj' (not_abandoned_of_offer hj)
    · rfl
    · exact absurd ⟨hj', Or.inl hj⟩ hclear
    · exact absurd ⟨hj, Or.inr hj'⟩ hclear
    · exact absurd ⟨hj, Or.inl hj'⟩ hclear
    · rfl

/-! ### The stamps of a case -/

/-- A change of the cases in `E` only, none of which gets younger. -/
structure CaseMove (E : ℕ → Prop) (f : Db → Db) : Prop where
  others : ∀ d c, ¬E c → (f d).disputes.get? c = d.disputes.get? c
  ages : ∀ d c u, d.disputes.get? c = some u → ∃ u', (f d).disputes.get? c = some u' ∧ CaseAges u u'

namespace CaseMove

variable {E E' : ℕ → Prop} {f g : Db → Db}

theorem of_eq (h : ∀ d, (f d).disputes = d.disputes) : CaseMove E f :=
  ⟨fun d _ _ => by rw [h d], fun d _ u hu => ⟨u, by rw [h d, hu], .refl u⟩⟩

theorem id : CaseMove E id := of_eq fun _ => rfl

theorem comp (hf : CaseMove E f) (hg : CaseMove E g) : CaseMove E fun d => g (f d) := by
  refine ⟨fun d c hc => (hg.others (f d) c hc).trans (hf.others d c hc), fun d c u hu => ?_⟩
  obtain ⟨u₁, hu₁, h₁⟩ := hf.ages d c u hu
  obtain ⟨u₂, hu₂, h₂⟩ := hg.ages (f d) c u₁ hu₁
  exact ⟨u₂, hu₂, h₁.trans h₂⟩

theorem mono (hE : ∀ c, E c → E' c) (hf : CaseMove E f) : CaseMove E' f :=
  ⟨fun d c hc => hf.others d c fun h => hc (hE c h), hf.ages⟩

theorem case {c : ℕ} (hE : E c) {h : Dispute → Dispute} (hh : ∀ u, CaseAges u (h u)) :
    CaseMove E (Db.modifyDispute c h) := by
  refine ⟨fun d c' hc' => Table.get?_modify_of_ne _ (fun he : c' = c => hc' (he ▸ hE)) h, fun d c' u hu => ?_⟩
  rw [Db.modifyDispute_disputes, Table.get?_modify, hu]
  split_ifs
  · exact ⟨h u, rfl, hh u⟩
  · exact ⟨u, rfl, .refl u⟩

theorem newCase {c : ℕ} (hE : E c) (v : Dispute) : CaseMove E (Db.insertDispute c v) := by
  refine ⟨fun d c' hc' => Table.get?_insert_of_ne (fun he : c' = c => hc' (he ▸ hE)) v, fun d c' u hu => ?_⟩
  rw [Db.insertDispute_disputes, Table.get?_insert_eq]
  split_ifs with hc
  · exact ⟨u, by rw [← hc, hu, Option.getD_some], .refl u⟩
  · exact ⟨u, hu, .refl u⟩

theorem of_money {S : ℕ → Prop} (h : MoneyWrite S f) : CaseMove E f := by
  cases h with
  | wallet h => cases h <;> exact of_eq fun _ => rfl
  | _ => exact of_eq fun _ => rfl

theorem of_order {o : ℕ} {Q : Order → Order → Prop} (h : OrderWrite o Q f) : CaseMove E f := by
  cases h with
  | money h => exact of_money h
  | _ => exact of_eq fun _ => rfl

end CaseMove

/-- Nothing is asked of the rows of orders. -/
theorem caseFootprint {E : ℕ → Prop} :
    Footprint (fun _ _ => True) True True E (CaseMove E) where
  money h := .of_money h
  newOrder _ _ := .of_eq fun _ => rfl
  order _ _ _ := .of_eq fun _ => rfl
  account _ _ := .of_eq fun _ => rfl
  variant _ _ := .of_eq fun _ => rfl
  newTask _ _ := .of_eq fun _ => rfl
  task _ _ := .of_eq fun _ => rfl
  case _ _ hE h := .case hE h
  claimResource _ := .of_eq fun _ => rfl
  claimProxy _ := .of_eq fun _ => rfl
  resourceAction _ := .of_eq fun _ => rfl
  proxyAction _ := .of_eq fun _ => rfl
  promotionCode _ _ := .of_eq fun _ => rfl
  redemption _ _ := .of_eq fun _ => rfl
  newResource _ _ _ := .of_eq fun _ => rfl
  resource _ _ _ := .of_eq fun _ => rfl
  newAllocation _ _ _ := .of_eq fun _ => rfl
  allocation _ _ _ := .of_eq fun _ => rfl

/-- What the other sessions leave alone: the rows of locked cases, and the stamps. -/
structure CaseRel (L : List RowKey) (d d' : Db) : Prop where
  locked : ∀ c, .dispute c ∈ L → d'.disputes.get? c = d.disputes.get? c
  ages : ∀ c u, d.disputes.get? c = some u → ∃ u', d'.disputes.get? c = some u' ∧ CaseAges u u'

/-- What the other sessions leave alone. -/
def caseRely : Rely Db RowKey where
  rel := CaseRel
  refl _ _ := ⟨fun _ _ => rfl, fun _ u hu => ⟨u, hu, .refl u⟩⟩
  trans h h' := by
    refine ⟨fun c hc => (h'.locked c hc).trans (h.locked c hc), fun c u hu => ?_⟩
    obtain ⟨u₁, hu₁, h₁⟩ := h.ages c u hu
    obtain ⟨u₂, hu₂, h₂⟩ := h'.ages c u₁ hu₁
    exact ⟨u₂, hu₂, h₁.trans h₂⟩
  anti hL h := ⟨fun c hc => h.locked c (hL hc), h.ages⟩

/-! ### The commits -/

/-- The case has been stamped by a reaction of the seller or by a review. -/
def Dispute.IsHeard (u : Dispute) : Prop := u.sellerRespondedAt ≠ none ∨ u.reviewRequestedAt ≠ none

instance (u : Dispute) : Decidable u.IsHeard := by
  unfold Dispute.IsHeard
  infer_instance

theorem CaseAges.isHeard {u u' : Dispute} (h : CaseAges u u') (hu : u.IsHeard) : u'.IsHeard :=
  hu.imp h.responded h.reviewed

/-- A reaction of the seller, or a review, leaves its stamp on the case. -/
def OrderCall.Stamps (d' : Db) : OrderCall → Prop
  | .sellerRespondDispute _ c _ _ | .sellerResolveResources _ _ c _ _ _ _ _ _
  | .sellerResolveProxies _ c _ _ _ _ =>
    ∃ u, d'.disputes.get? c = some u ∧ u.sellerRespondedAt ≠ none
  | .requestMarketplaceReview _ o _ =>
    ∃ c u, d'.disputes.get? c = some u ∧ u.orderId = o ∧ u.reviewRequestedAt ≠ none
  | _ => True

/-- An open case of the order, not under review, is closed. -/
def ClosesCase (o : ℕ) (P : Dispute → Prop) (d d' : Db) : Prop :=
  ∃ c u u', d.disputes.get? c = some u ∧ d'.disputes.get? c = some u' ∧ u.orderId = o ∧
    u.status = .open_ ∧ u'.status ≠ .open_ ∧ u.reviewRequestedAt = none ∧ P u

/-- A job closes a case that it accepts in the state it commits onto. -/
def OrderCall.ClosesWhenDue (d d' : Db) : OrderCall → Prop
  | .disputeAbandonment _ o _ => ClosesCase o (fun u => u.resolutionDeadlineAt = none) d d'
  | .disputeResolutionTimeout cfg o _ => ClosesCase o (Dispute.AnswerOverdue cfg.now) d d'
  | .disputeSellerTimeout cfg o _ => ClosesCase o (Dispute.SellerSilent cfg.now) d d'
  | _ => True

/-- What a commit does to the cases. -/
structure CasePost (call : OrderCall) (d d' : Db) : Prop where
  ages : ∀ c u, d.disputes.get? c = some u → ∃ u', d'.disputes.get? c = some u' ∧ CaseAges u u'
  stamps : call.Stamps d'
  settles : call.ClosesWhenDue d d'

/-- What every transaction owes at its commit. -/
def caseOwes (call : OrderCall) : Unit → (Db → Db) → List RowKey → List Db → Db → Prop :=
  Commits caseRely (fun _ => True) (Machine.ofCode OrderCall.code) (fun c _ => CasePost c) call

section Owes

variable {call : OrderCall} {c o : ℕ} {w : Db → Db} {L : List RowKey} {s : List Db} {d : Db}
  {E : ℕ → Prop} {I : Db → Prop} {α : Type}

/-- The cases that are changed are locked. -/
def CaseHeld (w : Db → Db) (L : List RowKey) : Prop := CaseMove (fun c => .dispute c ∈ L) w

/-- **What a transaction owes that changes only cases it has locked.** -/
theorem CaseHeld.owes (h : CaseHeld w L)
    (hpost : ∀ d', caseRely.rel L d d' → call.Stamps (w d') ∧ call.ClosesWhenDue d' (w d')) :
    caseOwes call () w L s d := by
  intro d' hd' _ _
  obtain ⟨hstamps, hsettles⟩ := hpost d' hd'
  exact ⟨trivial, ⟨h.ages d', hstamps, hsettles⟩, fun L' hL' =>
    ⟨fun c hc => h.others d' c fun hin => hL' _ hin hc, h.ages d'⟩⟩

/-- A part of a transaction, which changes the cases in `E`. -/
theorem wp_caseMove {t : Tx α} (ht : t.Writes (CaseMove E)) :
    t.wp caseRely I (fun _ w' L' _ d' => ∃ g, CaseMove E g ∧ (w' = fun d => g (w d)) ∧ L ⊆ L' ∧
      caseRely.rel L d d') w L s d := by
  refine Tx.wp_mono (Tx.wp_frame CaseMove.id (fun _ _ => CaseMove.comp) ht) ?_
  rintro _ w' L' s' d' ⟨g, hg, hw, hL, -, hd⟩
  exact ⟨g, hg, hw, hL, hd⟩

/-- The rest of a transaction once the only case it is about is locked. -/
theorem wp_onCase {t : Tx α} (hc : .dispute c ∈ L) (ht : t.Writes (CaseMove (Eq c))) :
    t.wp caseRely I (fun _ w' L' _ _ => CaseHeld w' L') id L s d := by
  refine Tx.wp_mono (wp_caseMove ht) ?_
  rintro _ w' L' s' d' ⟨g, hg, rfl, hL, -⟩
  exact hg.mono fun c' (hc' : c = c') => hL (hc' ▸ hc)

/-- A transaction that changes no case. -/
theorem owes_noCase {t : Tx Unit} (hcall : ∀ d d', call.Stamps d' ∧ call.ClosesWhenDue d d')
    (ht : t.Writes (CaseMove fun _ => False)) :
    t.wp caseRely (fun _ => True) (caseOwes call) id [] [] d := by
  refine Tx.wp_mono (wp_caseMove ht) ?_
  rintro ⟨⟩ w' L' s' d' ⟨g, hg, rfl, -, -⟩
  exact CaseHeld.owes (hg.mono fun _ => False.elim) fun _ _ => hcall _ _

/-- The rest of a transaction whose commit needs no more than the lock. -/
theorem owes_onCase {t : Tx Unit} (hcall : ∀ d d', call.Stamps d' ∧ call.ClosesWhenDue d d')
    (hc : .dispute c ∈ L) (ht : t.Writes (CaseMove (Eq c))) :
    t.wp caseRely (fun _ => True) (caseOwes call) id L s d :=
  Tx.wp_mono (wp_onCase hc ht) fun _ _ _ _ _ h => h.owes fun _ _ => hcall _ _

/-- A transaction that begins with the lock of its case. -/
theorem owes_lockDispute {t : Dispute → Tx Unit} (hcall : ∀ d d', call.Stamps d' ∧ call.ClosesWhenDue d d')
    (ht : ∀ u, (t u).Writes (CaseMove (Eq c))) :
    (lockDispute c >>= t).wp caseRely (fun _ => True) (caseOwes call) id [] [] d := by
  rw [Tx.wp_bind, wp_lockDispute]
  exact fun _ _ _ u _ => owes_onCase hcall List.mem_cons_self (ht u)

/-- The same for an open case. -/
theorem owes_lockOpenCase {t : Dispute → Tx Unit}
    (hcall : ∀ d d', call.Stamps d' ∧ call.ClosesWhenDue d d')
    (ht : ∀ u, (t u).Writes (CaseMove (Eq c))) :
    (lockOpenCase c >>= t).wp caseRely (fun _ => True) (caseOwes call) id [] [] d := by
  rw [Tx.wp_bind, wp_lockOpenCase]
  exact fun _ _ _ u _ _ => owes_onCase hcall List.mem_cons_self (ht u)

/-- The rest of a transaction of the buyer's, who names the order. -/
theorem owes_lockOpenDispute {t : ℕ × Dispute → Tx Unit}
    (hcall : ∀ d d', call.Stamps d' ∧ call.ClosesWhenDue d d')
    (ht : ∀ c u, (t (c, u)).Writes (CaseMove (Eq c))) :
    (lockOpenDispute o >>= t).wp caseRely (fun _ => True) (caseOwes call) id L s d := by
  rw [Tx.wp_bind, wp_lockOpenDispute]
  rintro _ _ _ ⟨c, u⟩ _
  exact owes_onCase hcall List.mem_cons_self (ht c u)

end Owes

/-! ### The transactions that change no case -/

section NoCase

variable {d : Db} (cfg : Settings) (o : ℕ)

/-- Nothing is asked of the rows of orders. -/
theorem anyRow : ∀ v v', KeepsText v v' → (fun _ _ : Order => True) v v' := fun _ _ _ => trivial

theorem caseMoves_of_id {α : Type} {t : Tx α} {E : ℕ → Prop} (ht : t.Writes (· = id)) :
    t.Writes (CaseMove E) := lineWrites_of_id CaseMove.id ht

theorem createOrder_noCase (skipped : List ℕ) (p : Purchase) :
    (createOrder cfg skipped o p).Writes (CaseMove fun _ => False) := by
  refine .bind (caseMoves_of_id (writes_variantForPurchase p)) fun ⟨variant, product⟩ =>
    .bind (caseMoves_of_id (writes_applyPromo cfg _ _ _)) fun promo => ?_
  change (if _ then _ else _ : Tx Unit).Writes _
  split_ifs
  · exact .bind (writes_insertRow (caseFootprint.newOrder _ _)) fun _ =>
      .bind (lineWrites_chargeOrder caseFootprint cfg o anyRow _ _ _) fun _ =>
      .bind ((writes_claimResources (Q := AnyChange) cfg o _ _ _ _).mono fun _ => .of_order) fun _ =>
        (writes_setCaps (Q := AnyChange) o _ _).mono fun _ => .of_order
  · exact .bind (writes_insertRow (caseFootprint.newOrder _ _)) fun _ =>
      .bind (lineWrites_takeManualStock caseFootprint o anyRow _ _ _) fun _ =>
        lineWrites_chargeOrder caseFootprint cfg o anyRow _ _ _

theorem provision_noCase (order : Order) (p : Provision) (providerId : Option ℕ) :
    (do let result ← p.run cfg o order
        applyProvisionResult cfg o order providerId result : Tx Unit).Writes
      (CaseMove fun _ => False) :=
  .bind ((writes_provision (Q := AnyChange) cfg o order p).mono fun _ => .of_order) fun _ =>
    lineWrites_applyProvisionResult caseFootprint cfg o (fun _ _ => trivial) trivial _ _ _

theorem createOrderWithAdapter_noCase (p : AdapterPurchase) :
    (createOrderWithAdapter cfg o p).Writes (CaseMove fun _ => False) := by
  have hfail : ∀ b x reason, (do
      refundEscrow cfg o b x ""
      cancelOrder cfg o reason : Tx Unit).Writes (CaseMove fun _ => False) := fun _ _ _ =>
    .bind (lineWrites_refundEscrow caseFootprint cfg o anyRow _ _ _) fun _ =>
      lineWrites_cancelOrder caseFootprint cfg o anyRow _
  refine .bind (caseMoves_of_id (writes_productForPurchase p)) fun product =>
    .bind (caseMoves_of_id (writes_applyPromo cfg _ _ _)) fun promo =>
    .bind (writes_insertRow (caseFootprint.newOrder _ _)) fun _ =>
    .bind (lineWrites_chargeOrder caseFootprint cfg o anyRow _ _ _) fun _ => ?_
  rw [provisionNewOrder]
  split_ifs
  · exact hfail _ _ _
  · exact Tx.writes_pure _
  · rcases p.provision with _ | provision
    · exact hfail _ _ _
    · exact provision_noCase cfg o _ provision _

theorem provisionPendingOrder_noCase (provision : Provision) (providerId : Option ℕ) :
    (provisionPendingOrder cfg o provision providerId).Writes (CaseMove fun _ => False) :=
  .bind (lineWrites_lockOrder o) fun _ => .bind (Tx.writes_getOrElse _ _) fun _ =>
    .bind (Tx.writes_require _ _) fun _ => provision_noCase cfg o _ provision providerId

end NoCase

/-! ### The transactions about a case -/

section OnCase

variable {c : ℕ} (cfg : Settings) (o : ℕ)

theorem caseMove_clear : CaseMove (Eq c) (Db.modifyDispute c Dispute.clearResolutionDeadline) :=
  CaseMove.case (c := c) rfl fun _ => ⟨rfl, rfl, id, id⟩

theorem caseMove_resolve (status : DisputeStatus) :
    CaseMove (Eq c) (Db.modifyDispute c (Dispute.resolve cfg status)) :=
  CaseMove.case (c := c) rfl fun _ => ⟨rfl, rfl, id, id⟩

theorem remedyResources_onCase (skipped : List ℕ) (seller : ℕ) (order : Order) (variantId : ℕ)
    (variant : ProductVariant) (originals : List (ℕ × Resource)) (ids : Option (List ℕ)) (key : String)
    (action : RemedyAction) :
    (remedyResources cfg skipped c o seller order variantId variant originals ids key action).Writes
      (CaseMove (Eq c)) := by
  have hrecord : ∀ action r v, (recordResourceAction c key action r v).Writes (CaseMove (Eq c)) :=
    fun _ _ _ => .bind (Tx.writes_modify.mpr (caseFootprint.resource trivial _ _)) fun _ =>
      .bind (Tx.writes_read _) fun _ => .bind (Tx.writes_require _ _) fun _ =>
        Tx.writes_modify.mpr (caseFootprint.resourceAction _)
  cases action with
  | replace =>
    exact .bind ((writes_chooseReplacements (Q := AnyChange) cfg o _ _ _ _ _ _).mono fun _ => .of_order)
      fun _ => .bind (Tx.writes_forEach fun _ =>
        Tx.writes_modify.mpr (caseFootprint.resource trivial _ _)) fun _ =>
      Tx.writes_forEach fun _ => hrecord _ _ _
  | refund =>
    exact .bind (Tx.writes_when (lineWrites_refundEscrow caseFootprint cfg o anyRow _ _ _)) fun _ =>
      Tx.writes_forEach fun _ => hrecord _ _ _

/-- What `sellerResolveResources` does once the case is marked. -/
theorem resolveResources_onCase (skipped : List ℕ) (u : Dispute) (seller : ℕ) (order : Order)
    (resourceIds : List ℕ) (action : RemedyAction) (ids : Option (List ℕ)) (key : String)
    (note : Option String) :
    (do let prior ← Tx.read fun d => decide (∃ a ∈ d.resourceActions,
          a.disputeId = c ∧ a.idempotencyKey = key)
        Tx.require (prior = false) .notCommitted
        Tx.require (u.status = .open_) (.api 400 "DISPUTE_ALREADY_RESOLVED")
        let variant ← Tx.read fun d =>
          order.variantId.bind fun v => (d.variants.get? v).map fun r => (v, r)
        let (variantId, variant) ← Tx.getOrElse variant
          (.http 400 "Account-level remedies require an instant inventory order")
        Tx.require (variant.deliveryMode = .instant)
          (.http 400 "Account-level remedies require an instant inventory order")
        let originals ← claimedOriginals c u.orderId resourceIds
        remedyResources cfg skipped c u.orderId seller order variantId variant originals ids key action
        Tx.modify (Db.modifyOrder u.orderId fun o => { o with deliveredData := none })
        Tx.when (nonempty note ≠ none) (modifyCase c fun c => { c with sellerNote := note })
        closeRemedy cfg c u.orderId order : Tx Unit).Writes (CaseMove (Eq c)) :=
  .bind (Tx.writes_read _) fun _ => .bind (Tx.writes_require _ _) fun _ =>
    .bind (Tx.writes_require _ _) fun _ => .bind (Tx.writes_read _) fun _ =>
    .bind (Tx.writes_getOrElse _ _) fun ⟨_, _⟩ => .bind (Tx.writes_require _ _) fun _ =>
    .bind (writes_claimedOriginals c u.orderId _) fun _ =>
    .bind (remedyResources_onCase cfg _ _ _ _ _ _ _ _ _ _) fun _ =>
    .bind (Tx.writes_modify.mpr (caseFootprint.order _ _ fun _ => trivial)) fun _ =>
    .bind (Tx.writes_when (Tx.writes_modify.mpr (.case rfl fun _ => ⟨rfl, rfl, id, id⟩))) fun _ =>
      lineWrites_closeRemedy caseFootprint cfg _ anyRow rfl _

theorem createDispute_held (b : ℕ) (resourceIds lineNos : List ℕ) (key : Option String) (d : Db) :
    (createDispute cfg c o b resourceIds lineNos key).wp caseRely (fun _ => True)
      (caseOwes (.createDispute cfg c o b resourceIds lineNos key)) id [] [] d := by
  rw [createDispute, Tx.wp_bind, wp_lockBuyerOrder]
  intro d₁ _ _ v _ _
  rw [Tx.wp_bind, Tx.wp_read]
  intro d₂ _ _
  rcases (id d₂).openDispute o with _ | ⟨e, u⟩
  · simp only [addDispute, Tx.wp_bind, Tx.wp_require, Tx.wp_read, wp_insertRow]
    intro _ _ _ d₃ _ _ _ d₄ _ _ _
    refine Tx.wp_mono (wp_caseMove (E := Eq c) (writes_addClaims cfg c o _ _ _
      caseFootprint.claimResource caseFootprint.claimProxy)) ?_
    rintro ⟨⟩ w' L' s' d' ⟨g, hg, rfl, hL, -⟩
    have hmove : ∀ v, CaseMove (Eq c) fun d => g (Db.insertDispute c v d) := fun v =>
      (CaseMove.newCase rfl v).comp hg
    exact CaseHeld.owes ((hmove _).mono fun c' (hc' : c = c') => hL (hc' ▸ List.mem_cons_self))
      fun _ _ => ⟨trivial, trivial⟩
  · rw [Tx.wp_bind, Tx.wp_read]
    intro d₃ _ _
    exact trivial

theorem replaceDispute_onCase (skipped : List ℕ) (u : Dispute) (order : Order) :
    (do let variant ← Tx.read fun d =>
          order.variantId.bind fun v => (d.variants.get? v).map fun r => (v, r)
        let (variantId, variant) ← Tx.getOrElse variant (.api 400 "DISPUTE_REPLACEMENT_UNAVAILABLE")
        Tx.require (variant.deliveryMode = .instant) (.api 400 "DISPUTE_REPLACEMENT_UNAVAILABLE")
        let remedied ← Tx.read fun d => (d.remediedLines c).1
        Tx.require (remedied = [])
          (.http 409 "A case with account-level remedies cannot also receive a full-order replacement")
        let old ← Tx.read fun d =>
          (d.resources.rows.filter fun r => r.2.orderId = some u.orderId).map Prod.fst
        Tx.require (old ≠ []) (.api 400 "DISPUTE_NO_RESOURCES_TO_REPLACE")
        Tx.forEach old fun r => Tx.modify (Db.modifyResource r fun v => { v with status := .error })
        let resources ← claimResources cfg skipped variantId order.quantity u.orderId
          variant.durationDays
        setCaps resources (order.totalAmount - order.refundedAmount)
        Tx.modify (Db.modifyOrder u.orderId fun o =>
          { o with deliveredData := none, escrowExpiresAt := some (escrowUntil cfg) })
        setOrderStatus cfg u.orderId .delivered
        modifyCase c (Dispute.resolve cfg .resolvedReplace) : Tx Unit).Writes (CaseMove (Eq c)) :=
  .bind (Tx.writes_read _) fun _ => .bind (Tx.writes_getOrElse _ _) fun ⟨_, _⟩ =>
    .bind (Tx.writes_require _ _) fun _ => .bind (Tx.writes_read _) fun _ =>
    .bind (Tx.writes_require _ _) fun _ => .bind (Tx.writes_read _) fun _ =>
    .bind (Tx.writes_require _ _) fun _ =>
    .bind (Tx.writes_forEach fun _ => Tx.writes_modify.mpr (caseFootprint.resource trivial _ _)) fun _ =>
    .bind ((writes_claimResources (Q := AnyChange) cfg _ _ _ _ _).mono fun _ => .of_order) fun _ =>
    .bind ((writes_setCaps (Q := AnyChange) 0 _ _).mono fun _ => .of_order) fun _ =>
    .bind (Tx.writes_modify.mpr (caseFootprint.order _ _ fun _ => trivial)) fun _ =>
    .bind (lineWrites_setOrderStatus caseFootprint cfg _ anyRow _) fun _ =>
      Tx.writes_modify.mpr (caseMove_resolve cfg _)

end OnCase

/-! ### The transactions that stamp a case or settle it -/

section Stamping

variable {call : OrderCall} {c o : ℕ} {u : Dispute} {w : Db → Db} {L : List RowKey} {s : List Db}
  {d : Db} (cfg : Settings)

/-- The last write of a transaction is about its case. -/
theorem owes_case {f : Dispute → Dispute} (hc : .dispute c ∈ L) (hu : d.disputes.get? c = some u)
    (hf : ∀ u, CaseAges u (f u))
    (hstamps : ∀ d', d'.disputes.get? c = some (f u) → call.Stamps d')
    (hsettles : ∀ d d', call.ClosesWhenDue d d') :
    caseOwes call () (fun d => Db.modifyDispute c f d) L s d := by
  refine CaseHeld.owes (CaseMove.case hc hf) fun e he => ⟨hstamps _ ?_, hsettles _ _⟩
  rw [Db.modifyDispute_disputes, Table.get?_modify_self, he.locked c hc, hu, Option.map_some]

variable (call) in
/-- A remedy: the case is marked, whatever follows. -/
theorem owes_marked {t : Tx Unit} (hc : .dispute c ∈ L) (hu : d.disputes.get? c = some u)
    (ht : t.Writes (CaseMove (Eq c)))
    (hstamps : ∀ d', (∃ u', d'.disputes.get? c = some u' ∧ u'.sellerRespondedAt ≠ none) →
      call.Stamps d') (hsettles : ∀ d d', call.ClosesWhenDue d d') :
    (modifyCase c (Dispute.markSellerResponded cfg) >>= fun _ => t).wp caseRely (fun _ => True)
      (caseOwes call) id L s d := by
  have hmark : CaseMove (Eq c) (Db.modifyDispute c (Dispute.markSellerResponded cfg)) :=
    CaseMove.case (c := c) rfl (ages_markSellerResponded cfg)
  rw [Tx.wp_bind, modifyCase, Tx.wp_modify]
  refine Tx.wp_mono (wp_caseMove ht) ?_
  rintro ⟨⟩ w' L' s' d' ⟨g, hg, rfl, hL, hd⟩
  refine CaseHeld.owes ((hmark.comp hg).mono fun c' (hc' : c = c') => hL (hc' ▸ hc)) fun e he =>
    ⟨hstamps _ ?_, hsettles _ _⟩
  have hrow : e.disputes.get? c = some u := by rw [he.locked c (hL hc), hd.locked c hc, hu]
  obtain ⟨u', hu', hages⟩ := hg.ages (Db.modifyDispute c (Dispute.markSellerResponded cfg) e) c
    (u.markSellerResponded cfg) (by
      rw [Db.modifyDispute_disputes, Table.get?_modify_self, hrow, Option.map_some])
  exact ⟨u', hu', hages.responded (Option.some_ne_none _)⟩

/-- A settlement closes the case. -/
theorem owes_finalize {P : Dispute → Prop} (order : Order) {status : DisputeStatus}
    (hw : CaseMove (fun _ => False) w) (hc : .dispute c ∈ L) (hu : d.disputes.get? c = some u)
    (ho : u.orderId = o) (hopen : u.status = .open_) (hreview : u.reviewRequestedAt = none) (hP : P u)
    (hstatus : status ≠ .open_) (hstamps : ∀ d', call.Stamps d')
    (hsettles : ∀ d d', ClosesCase o P d d' → call.ClosesWhenDue d d') :
    (finalizeDispute cfg c o order status).wp caseRely (fun _ => True) (caseOwes call) w L s d := by
  rw [finalizeDispute, Tx.wp_bind, modifyCase, Tx.wp_modify]
  -- The rest changes no case.
  refine Tx.wp_mono (wp_caseMove (E := fun _ => False) (.bind
    (lineWrites_setOrderStatus caseFootprint cfg o anyRow _) fun _ =>
      .bind (lineWrites_payOut caseFootprint cfg o anyRow _) fun _ => ?_)) ?_
  · split_ifs
    · exact lineWrites_clawbackPrograms caseFootprint cfg o anyRow
    · exact lineWrites_applyPrograms caseFootprint cfg o anyRow order
  rintro ⟨⟩ w' L' s' d' ⟨g, hg, rfl, hL, hd⟩
  have hrow : ∀ e, caseRely.rel L' d' e → e.disputes.get? c = some u := fun e he => by
    rw [he.locked c (hL hc), hd.locked c hc, hu]
  have hafter : ∀ f e, e.disputes.get? c = some u →
      (g (Db.modifyDispute c f (w e))).disputes.get? c = some (f u) := fun f e he => by
    rw [hg.others _ c not_false, Db.modifyDispute_disputes, Table.get?_modify_self,
      hw.others e c not_false, he, Option.map_some]
  refine CaseHeld.owes (CaseMove.mono (E := Eq c) (fun c' hc' => hL (hc' ▸ hc)) (CaseMove.comp
    ((hw.mono fun _ => False.elim).comp (CaseMove.case (c := c) rfl fun _ => ?_))
    (hg.mono fun _ => False.elim))) fun e he => ⟨hstamps _, hsettles _ _
      ⟨c, u, _, hrow e he, hafter _ e (hrow e he), ho, hopen, ?_, hreview, hP⟩⟩
  · exact ⟨rfl, rfl, id, id⟩
  · change (if _ then _ else _ : DisputeStatus) ≠ _
    split_ifs
    · simp
    · exact hstatus

/-- One order of a job. -/
theorem owes_settleDue {resolve : ℕ → Dispute → Tx Unit}
    (ht : ∀ c u L s d, .dispute c ∈ L → d.disputes.get? c = some u → u.orderId = o →
      u.status = .open_ → (resolve c u).wp caseRely (fun _ => True) (caseOwes call) id L s d) :
    (settleDue o resolve).wp caseRely (fun _ => True) (caseOwes call) id [] [] d := by
  rw [settleDue, Tx.wp_bind, wp_lockOpenDispute]
  rintro d₁ _ _ ⟨c, u⟩ hcu
  obtain ⟨hu, ho, hs⟩ := openDispute_eq_some hcu
  rw [Tx.wp_bind, wp_lockOrder]
  intro d₂ hd₂ _
  refine ht c u _ _ d₂ (List.mem_cons_of_mem _ List.mem_cons_self) ?_ ho hs
  rw [hd₂.locked c List.mem_cons_self]
  exact hu

theorem requestMarketplaceReview_stamps (a : ℕ) :
    (requestMarketplaceReview cfg o a).wp caseRely (fun _ => True)
      (caseOwes (.requestMarketplaceReview cfg o a)) id [] [] d := by
  simp only [requestMarketplaceReview, Tx.wp_bind, wp_lockOrderRow, Tx.wp_require, wp_lockOpenDispute,
    Tx.wp_when]
  rintro d₁ _ _ v _ _ d₂ _ _ ⟨c, u⟩ hcu
  obtain ⟨hu, ho, -⟩ := openDispute_eq_some hcu
  refine ⟨fun _ => ?_, fun hreview => ?_⟩
  · refine owes_case (u := u) List.mem_cons_self hu (fun u' => ?_) (fun e he => ⟨c, _, he, ?_, ?_⟩)
      fun _ _ => trivial
    · split_ifs
      · exact ⟨rfl, rfl, fun _ => Option.some_ne_none _, fun _ => Option.some_ne_none _⟩
      · exact ⟨rfl, rfl, id, fun _ => Option.some_ne_none _⟩
    · split_ifs <;> exact ho
    · split_ifs <;> exact Option.some_ne_none _
  · refine CaseHeld.owes CaseMove.id fun e he => ⟨⟨c, u, ?_, ho, hreview⟩, trivial⟩
    exact (he.locked c List.mem_cons_self).trans hu

theorem sellerRespondDispute_stamps (seller : ℕ) (note : String) :
    (sellerRespondDispute cfg c seller note).wp caseRely (fun _ => True)
      (caseOwes (.sellerRespondDispute cfg c seller note)) id [] [] d := by
  simp only [sellerRespondDispute, Tx.wp_bind, wp_lockOpenCase, wp_lockOrder, Tx.wp_getOrElse,
    Tx.wp_require, Tx.wp_read]
  intro d₁ _ _ u hu _ d₂ hd₂ _ v _ _ d₃ hd₃ _
  have hmem : RowKey.dispute c ∈ [RowKey.order u.orderId, .dispute c] :=
    List.mem_cons_of_mem _ List.mem_cons_self
  refine owes_case (u := u) hmem ?_ (fun u' => ?_) (fun e he => ⟨_, he, ?_⟩) fun _ _ => trivial
  · rw [hd₃.locked c hmem, hd₂.locked c List.mem_cons_self]
    exact hu
  · have hnote : CaseAges u' ({ u' with sellerNote := some note }.markSellerResponded cfg) :=
      ⟨rfl, rfl, fun _ => Option.some_ne_none _, id⟩
    split_ifs
    · exact hnote.trans (ages_offerResolutionDeadline cfg _)
    · exact hnote
  · split_ifs
    · exact (ages_offerResolutionDeadline cfg _).responded (Option.some_ne_none _)
    · exact Option.some_ne_none _

theorem sellerResolveResources_stamps (skipped : List ℕ) (seller : ℕ) (resourceIds : List ℕ)
    (action : RemedyAction) (ids : Option (List ℕ)) (key : String) (note : Option String) :
    (sellerResolveResources cfg skipped c seller resourceIds action ids key note).wp caseRely
      (fun _ => True)
      (caseOwes (.sellerResolveResources cfg skipped c seller resourceIds action ids key note)) id [] []
      d := by
  rw [sellerResolveResources, Tx.wp_bind, wp_lockDispute]
  intro d₁ _ _ u hu
  rw [Tx.wp_bind, wp_lockOrder]
  intro d₂ hd₂ _
  rw [Tx.wp_bind, Tx.wp_getOrElse]
  intro v _
  rw [Tx.wp_bind, Tx.wp_require]
  intro _
  refine owes_marked _ (u := u) cfg (List.mem_cons_of_mem _ List.mem_cons_self) ?_
    (resolveResources_onCase cfg skipped u seller v resourceIds action ids key note) (fun _ h => h)
    fun _ _ => trivial
  rw [hd₂.locked c List.mem_cons_self]
  exact hu

theorem sellerResolveProxies_stamps (seller : ℕ) (lineNos : List ℕ) (key : String)
    (note : Option String) :
    (sellerResolveProxies cfg c seller lineNos key note).wp caseRely (fun _ => True)
      (caseOwes (.sellerResolveProxies cfg c seller lineNos key note)) id [] [] d := by
  simp only [sellerResolveProxies, Tx.wp_bind, wp_lockDispute, wp_lockOrder, Tx.wp_getOrElse,
    Tx.wp_require, Tx.wp_read]
  intro d₁ _ _ u hu d₂ hd₂ _ v _ _ d₃ hd₃ _ _ _
  have hmem : RowKey.dispute c ∈ [RowKey.order u.orderId, .dispute c] :=
    List.mem_cons_of_mem _ List.mem_cons_self
  have hmarked := owes_marked (.sellerResolveProxies cfg c seller lineNos key note)
    (s := id d₃ :: id d₂ :: id d₁ :: []) (d := d₃) (u := u) cfg hmem (by
      rw [hd₃.locked c hmem, hd₂.locked c List.mem_cons_self]
      exact hu)
    (lineWrites_refundProxyLines caseFootprint cfg u.orderId (fun _ _ => trivial) trivial rfl v lineNos
      key .seller note) (fun _ h => h) fun _ _ => trivial
  rw [Tx.wp_bind] at hmarked
  exact hmarked

theorem disputeResolutionTimeout_settles (order : Order) :
    (disputeResolutionTimeout cfg o order).wp caseRely (fun _ => True)
      (caseOwes (.disputeResolutionTimeout cfg o order)) id [] [] d := by
  refine owes_settleDue fun c u L s d hc hu ho hopen => ?_
  rw [resolveAfterResponseTimeout, Tx.wp_bind, Tx.wp_require]
  rintro ⟨-, hreview, hdue⟩
  exact owes_finalize cfg order CaseMove.id hc hu ho hopen hreview hdue (by simp) (fun _ => trivial)
    fun _ _ h => h

theorem disputeAbandonment_settles (order : Order) :
    (disputeAbandonment cfg o order).wp caseRely (fun _ => True)
      (caseOwes (.disputeAbandonment cfg o order)) id [] [] d := by
  refine owes_settleDue fun c u L s d hc hu ho hopen => ?_
  simp only [resolveAbandonedDispute, Tx.wp_bind, Tx.wp_read, Tx.wp_require]
  rintro d₁ hd₁ - ⟨-, hreview, t, ht, -⟩
  have hoffer : u.resolutionDeadlineAt = none := by
    by_contra hne
    rw [abandonAfterAt, if_pos (Or.inr hne)] at ht
    exact absurd ht (by simp)
  exact owes_finalize cfg order CaseMove.id hc (by rw [hd₁.locked c hc, hu]) ho hopen hreview hoffer
    (by simp) (fun _ => trivial) fun _ _ h => h

theorem disputeSellerTimeout_settles (order : Order) :
    (disputeSellerTimeout cfg o order).wp caseRely (fun _ => True)
      (caseOwes (.disputeSellerTimeout cfg o order)) id [] [] d := by
  refine owes_settleDue fun c u L s d hc hu ho hopen => ?_
  rw [resolveAfterSellerTimeout, Tx.wp_bind, Tx.wp_require]
  rintro ⟨-, hreview, hdue⟩
  rw [Tx.wp_ite]
  refine ⟨fun _ => ?_, fun _ => owes_finalize cfg order CaseMove.id hc hu ho hopen hreview hdue (by simp)
    (fun _ => trivial) fun _ _ h => h⟩
  rw [Tx.wp_bind]
  refine Tx.wp_mono (wp_caseMove (E := fun _ => False)
    (lineWrites_refundEscrow caseFootprint cfg o anyRow _ _ _)) ?_
  rintro ⟨⟩ w' L' s' d' ⟨g, hg, rfl, hL, hd⟩
  rw [Tx.wp_bind, currentOrder, Tx.wp_read]
  intro d₁ hd₁ _
  refine owes_finalize cfg _ hg (hL hc) ?_ ho hopen hreview hdue (by simp) (fun _ => trivial)
    fun _ _ h => h
  rw [hd₁.locked c (hL hc), hd.locked c hc, hu]

end Stamping

/-! ### All interleavings -/

/-- Every transaction, in any interleaving. -/
abbrev caseMachine : Machine Db RowKey Abort Unit OrderCall := Machine.ofCode OrderCall.code

theorem caseMachine_correct :
    caseMachine.Correct caseRely (fun _ => True) fun call _ => CasePost call := by
  intro call d _
  have hnone : ∀ {t : Tx Unit} {call : OrderCall}, (∀ d d', call.Stamps d' ∧ call.ClosesWhenDue d d') →
      t.Writes (CaseMove fun _ => False) →
      t.wp caseRely (fun _ => True) (caseOwes call) id [] [] d := owes_noCase
  cases call with
  | createOrder cfg skipped o p =>
    exact hnone (fun _ _ => ⟨trivial, trivial⟩) (createOrder_noCase cfg o skipped p)
  | createOrderWithAdapter cfg o p =>
    exact hnone (fun _ _ => ⟨trivial, trivial⟩) (createOrderWithAdapter_noCase cfg o p)
  | provisionPendingOrder cfg o provision providerId =>
    exact hnone (fun _ _ => ⟨trivial, trivial⟩) (provisionPendingOrder_noCase cfg o provision providerId)
  | confirmOrder cfg o b =>
    exact hnone (fun _ _ => ⟨trivial, trivial⟩) (lineWrites_confirmOrder caseFootprint cfg o anyRow b)
  | acceptOrder cfg o seller =>
    exact hnone (fun _ _ => ⟨trivial, trivial⟩) (lineWrites_acceptOrder caseFootprint cfg o anyRow seller)
  | deliverOrder cfg o seller data =>
    exact hnone (fun _ _ => ⟨trivial, trivial⟩)
      (lineWrites_deliverOrder caseFootprint cfg o (fun _ _ => trivial) seller data)
  | releaseOrder cfg o =>
    exact hnone (fun _ _ => ⟨trivial, trivial⟩) (lineWrites_releaseOrder caseFootprint cfg o anyRow)
  | refundOrder cfg o message =>
    exact hnone (fun _ _ => ⟨trivial, trivial⟩) (lineWrites_refundOrder caseFootprint cfg o anyRow message)
  | extendEscrow cfg o days =>
    exact hnone (fun _ _ => ⟨trivial, trivial⟩) (lineWrites_extendEscrow caseFootprint cfg o anyRow days)
  | escrowRelease cfg o =>
    exact hnone (fun _ _ => ⟨trivial, trivial⟩) (lineWrites_escrowRelease caseFootprint cfg o anyRow)
  | slaCheck cfg o =>
    exact hnone (fun _ _ => ⟨trivial, trivial⟩) (lineWrites_slaCheck caseFootprint cfg o anyRow)
  | provisionSweep cfg o catalog =>
    exact hnone (fun _ _ => ⟨trivial, trivial⟩) (lineWrites_provisionSweep caseFootprint cfg o anyRow catalog)
  | updateTask cfg memory t u =>
    exact hnone (fun _ _ => ⟨trivial, trivial⟩)
      (lineWrites_updateTask caseFootprint cfg (fun _ _ => trivial) memory t u)
  | createDispute cfg c o b resourceIds lineNos key =>
    exact createDispute_held cfg o b resourceIds lineNos key d
  | appendClaimBatch cfg o b resourceIds lineNos key =>
    change (lockBuyerOrder o b >>= _).wp _ _ _ _ _ _ _
    rw [Tx.wp_bind, wp_lockBuyerOrder]
    intro d₁ _ _ v _ _
    rw [Tx.wp_bind, Tx.wp_require]
    exact fun _ => owes_lockOpenDispute (fun _ _ => ⟨trivial, trivial⟩) fun c u =>
      .bind (Tx.writes_read _) fun _ => .bind (Tx.writes_require _ _) fun _ =>
      .bind (writes_addClaims cfg c o _ _ _ caseFootprint.claimResource caseFootprint.claimProxy) fun _ =>
        Tx.writes_modify.mpr caseMove_clear
  | acceptDisputeResolution cfg o b =>
    change (lockBuyerOrder o b >>= _).wp _ _ _ _ _ _ _
    rw [Tx.wp_bind, wp_lockBuyerOrder]
    exact fun d₁ _ _ v _ _ => owes_lockOpenDispute (fun _ _ => ⟨trivial, trivial⟩) fun c u =>
      .bind (Tx.writes_read _) fun _ => .bind (Tx.writes_require _ _) fun _ =>
      .bind (Tx.writes_require _ _) fun _ => .bind (Tx.writes_read _) fun _ =>
        lineWrites_finalizeDispute caseFootprint cfg o anyRow rfl v _
  | withdrawDispute cfg o b =>
    change (lockBuyerOrder o b >>= _).wp _ _ _ _ _ _ _
    rw [Tx.wp_bind, wp_lockBuyerOrder]
    exact fun d₁ _ _ v _ _ => owes_lockOpenDispute (fun _ _ => ⟨trivial, trivial⟩) fun c u =>
      .bind (Tx.writes_read _) fun _ => .bind (Tx.writes_require _ _) fun _ =>
      .bind (Tx.writes_modify.mpr (caseFootprint.case c _ rfl fun _ => ⟨rfl, rfl, id, id⟩)) fun _ =>
        Tx.writes_when (lineWrites_payThenClose caseFootprint cfg o anyRow _ _)
  | requestMarketplaceReview cfg o a => exact requestMarketplaceReview_stamps cfg a
  | sellerRespondDispute cfg c seller note => exact sellerRespondDispute_stamps cfg seller note
  | sellerResolveResources cfg skipped c seller resourceIds action replacementIds key note =>
    exact sellerResolveResources_stamps cfg skipped seller resourceIds action replacementIds key note
  | sellerResolveProxies cfg c seller lineNos key note =>
    exact sellerResolveProxies_stamps cfg seller lineNos key note
  | adminRefundProxies cfg c lineNos key note =>
    change (lockDispute c >>= _).wp _ _ (caseOwes (.adminRefundProxies cfg c lineNos key note)) _ _ _ _
    exact owes_lockDispute (fun _ _ => ⟨trivial, trivial⟩) fun u =>
      .bind (lineWrites_lockOrderRow _) fun _ => .bind (Tx.writes_read _) fun _ =>
      .bind (Tx.writes_require _ _) fun _ => .bind (Tx.writes_require _ _) fun _ =>
        lineWrites_refundProxyLines caseFootprint cfg _ (fun _ _ => trivial) trivial rfl _ _ _ _ _
  | refundDispute cfg c =>
    exact owes_lockOpenCase (fun _ _ => ⟨trivial, trivial⟩) fun u =>
      .bind (lineWrites_lockOrderRow _) fun _ =>
      .bind (Tx.writes_modify.mpr (caseMove_resolve cfg _)) fun _ =>
      .bind (lineWrites_setOrderStatus caseFootprint cfg _ anyRow _) fun _ =>
      .bind (Tx.writes_when (lineWrites_refundEscrow caseFootprint cfg _ anyRow _ _ _)) fun _ =>
        lineWrites_clawbackPrograms caseFootprint cfg _ anyRow
  | rejectDispute cfg c =>
    exact owes_lockOpenCase (fun _ _ => ⟨trivial, trivial⟩) fun u =>
      .bind (lineWrites_lockOrderRow _) fun _ =>
      .bind (Tx.writes_modify.mpr (caseMove_resolve cfg _)) fun _ =>
        lineWrites_settle caseFootprint cfg _ anyRow _ _
  | partialRefundDispute cfg c x =>
    exact owes_lockOpenCase (fun _ _ => ⟨trivial, trivial⟩) fun u =>
      .bind (lineWrites_lockOrderRow _) fun _ => .bind (Tx.writes_require _ _) fun _ =>
      .bind (Tx.writes_modify.mpr (caseMove_resolve cfg _)) fun _ =>
      .bind (lineWrites_setOrderStatus caseFootprint cfg _ anyRow _) fun _ =>
      .bind (lineWrites_refundEscrow caseFootprint cfg _ anyRow _ _ _) fun _ =>
      .bind (Tx.writes_read _) fun _ => .bind (lineWrites_payOut caseFootprint cfg _ anyRow _) fun _ =>
        lineWrites_applyPrograms caseFootprint cfg _ anyRow _
  | replaceDispute cfg skipped c =>
    exact owes_lockOpenCase (fun _ _ => ⟨trivial, trivial⟩) fun u =>
      .bind (lineWrites_lockOrderRow _) fun _ => replaceDispute_onCase cfg skipped u _
  | extendWarrantyDispute cfg c days =>
    exact owes_lockOpenCase (fun _ _ => ⟨trivial, trivial⟩) fun u =>
      .bind (Tx.writes_require _ _) fun _ => .bind (lineWrites_lockOrderRow _) fun _ =>
      .bind (Tx.writes_modify.mpr (caseFootprint.order _ _ fun _ => trivial)) fun _ =>
      .bind (lineWrites_setOrderStatus caseFootprint cfg _ anyRow _) fun _ =>
        Tx.writes_modify.mpr (caseMove_resolve cfg _)
  | disputeResolutionTimeout cfg o order => exact disputeResolutionTimeout_settles cfg order
  | disputeSellerTimeout cfg o order => exact disputeSellerTimeout_settles cfg order
  | disputeAbandonment cfg o order => exact disputeAbandonment_settles cfg order

section Runs

variable {ι : Type} [DecidableEq ι] {d : Db} {C C' : Config Db RowKey Abort Unit OrderCall ι}

/-- What was stamped on a case stays, in every run. -/
theorem ages_along (h : Reachable caseMachine d C)
    (hrun : Relation.ReflTransGen (Steps caseMachine) C C') {c : ℕ} {u : Dispute}
    (hu : C.db.disputes.get? c = some u) :
    ∃ u', C'.db.disputes.get? c = some u' ∧ CaseAges u u' := by
  induction hrun with
  | refl => exact ⟨u, hu, .refl u⟩
  | tail hr hs ih =>
    obtain ⟨u₁, hu₁, h₁⟩ := ih
    obtain ⟨_ | ⟨call, r⟩, hstep⟩ := hs
    · exact ⟨u₁, by rw [hstep.db_eq, hu₁], h₁⟩
    · obtain ⟨u₂, hu₂, h₂⟩ :=
        (caseMachine_correct.commit trivial (h.trans hr) hstep).ages c u₁ hu₁
      exact ⟨u₂, hu₂, h₁.trans h₂⟩

/-- **When the settlements of a case compete.** In every state of every interleaving and at every time,
for every order object a session may hold: at most one job accepts an open case, exactly where no review
keeps all of them off, the seller's time is not over, or neither is the buyer's. Under review none accepts;
once the seller has reacted, or a review was requested, the refund never accepts the case again; and
what a job commits it settles on these terms in the state it commits onto. -/
theorem one_job_settles (h : Reachable caseMachine d C) {c : ℕ} {u : Dispute}
    (hu : C.db.disputes.get? c = some u) :
    (u.status = .open_ → ∀ cfg order, OneJob cfg C.db c u order ↔ u.reviewRequestedAt ≠ none ∨
      ¬u.SellerSilent cfg.now ∨ ¬(u.AnswerOverdue cfg.now ∨ C.db.CaseAbandoned cfg c u order)) ∧
    (u.reviewRequestedAt ≠ none → ∀ cfg order (j : CaseJob), ¬j.Accepts cfg C.db c u order) ∧
    (u.IsHeard → ∀ C', Relation.ReflTransGen (Steps caseMachine) C C' →
      ∀ u', C'.db.disputes.get? c = some u' → ∀ cfg order,
        ¬CaseJob.sellerTimeout.Accepts cfg C'.db c u' order) ∧
    ∀ call r C', Step caseMachine C (some (call, r)) C' →
      OrderCall.Stamps C'.db call ∧ OrderCall.ClosesWhenDue C.db C'.db call := by
  refine ⟨fun hopen cfg order => oneJob_iff hopen, fun hreview cfg order j hj => hreview hj.2.1,
    fun hheard C' hrun u' hu' cfg order hj => ?_, fun call r C' hstep => ?_⟩
  · obtain ⟨u₁, hu₁, hages⟩ := ages_along h hrun hu
    obtain rfl : u₁ = u' := Option.some.inj (hu₁.symm.trans hu')
    rcases hages.isHeard hheard with hr | hr
    · exact hr hj.2.2.1
    · exact hr hj.2.1
  · have hpost := caseMachine_correct.commit trivial h hstep
    exact ⟨hpost.stamps, hpost.settles⟩

end Runs

/-! ### A case the seller never answered -/

/-- A shop with one package made to order, and its buyer. -/
def sampleDisputeShop : Db := .sample

/-- An order is made, delivered and disputed. -/
def sampleDisputeCalls : List OrderCall :=
  [.createOrder (Settings.sample 10) [] 1 ⟨2, 1, 1, none, none⟩,
    .acceptOrder (Settings.sample 20) 1 1, .deliverOrder (Settings.sample 30) 1 1 "key",
    .createDispute (Settings.sample 40) 7 1 2 [] [] none]

/-- The order they leave behind. -/
def sampleHeldOrder : Order where
  buyerId := 2
  sellerId := 1
  variantId := some 1
  productId := some 1
  providerId := none
  quantity := 1
  totalAmount := 50000
  refundedAmount := 0
  stockHeld := 0
  promoCode := none
  discountAmount := 0
  status := .delivered
  escrowExpiresAt := some 259230
  deliveredAt := some 30
  deliveredData := some "key"
  cancelReason := none
  createdAt := 10
  isSeeded := false

/-- The case, which nobody touches any more. -/
def sampleSilentCase : Dispute where
  orderId := 1
  buyerId := 2
  status := .open_
  sellerNote := none
  createdAt := 40
  resolutionOfferedAt := none
  resolutionDeadlineAt := none
  reviewRequestedAt := none
  resolvedAt := none
  sellerDeadlineAt := some 172840
  sellerRespondedAt := none

/-- The database after these calls. -/
def sampleSilent : Db := sampleDisputeCalls.foldl (fun d c => c.code.exec d) sampleDisputeShop

theorem sampleSilent_reachable :
    Reachable caseMachine sampleDisputeShop (Config.idle sampleSilent : Config Db RowKey Abort Unit OrderCall ℕ) :=
  (Runs.exec_list OrderCall.code sampleDisputeCalls sampleDisputeShop).reachable 0

/-- Two days after the case was opened only the seller's time is over: the refund is the one job that
accepts the case. -/
theorem one_job_settles_sample :
    OneJob (Settings.sample 200000) sampleSilent 7 sampleSilentCase sampleHeldOrder ∧
      CaseJob.sellerTimeout.Accepts (Settings.sample 200000) sampleSilent 7 sampleSilentCase
        sampleHeldOrder := by
  have hcase : sampleSilent.disputes.get? 7 = some sampleSilentCase := by decide
  refine ⟨((one_job_settles sampleSilent_reachable hcase).1 rfl _ _).mpr (Or.inr (Or.inr ?_)), ?_⟩
  · decide
  · decide

/-- **The jobs compete for a case.** The jobs were paused until the grace of the escrow was over as well: the
seller's wallet is credited if the abandonment job comes first, the buyer's if the seller's timeout does. -/
theorem jobs_compete :
    ∃ C : Config Db RowKey Abort Unit OrderCall ℕ, Reachable caseMachine sampleDisputeShop C ∧
      (C.db.disputes.get? 7 = some sampleSilentCase ∧ C.db.orders.get? 1 = some sampleHeldOrder) ∧
      ¬OneJob (Settings.sample 1000000) C.db 7 sampleSilentCase sampleHeldOrder ∧
      (∃ C₁, Relation.ReflTransGen (Steps caseMachine) C C₁ ∧
        C₁.db.wallets.rows = [(0, ⟨5000, 0⟩), (1, ⟨45000, 0⟩), (2, ⟨40000, 0⟩)]) ∧
      ∃ C₂, Relation.ReflTransGen (Steps caseMachine) C C₂ ∧
        C₂.db.wallets.rows = [(0, ⟨0, 0⟩), (1, ⟨0, 0⟩), (2, ⟨90000, 0⟩)] := by
  refine ⟨_, sampleSilent_reachable, ⟨by decide, by decide⟩, by decide,
    ⟨_, reaches_of_code 0 (c := .disputeAbandonment (Settings.sample 1000000) 1 sampleHeldOrder)
      (fun _ => trivial) (Tx.run_of_commits (by decide)), by decide⟩,
    ⟨_, reaches_of_code 0 (c := .disputeSellerTimeout (Settings.sample 1000000) 1 sampleHeldOrder)
      (fun _ => trivial) (Tx.run_of_commits (by decide)), by decide⟩⟩

end Marketplace
