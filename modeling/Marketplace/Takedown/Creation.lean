import Marketplace.Sql.FlowRely
import Marketplace.Sql.Rows
import Marketplace.Takedown.Service

/-!
# One order at the partner

A takedown request is to become one order of the partner's. A `push_create` that finds `sync_error` set
searches the partner for an order with the request's code before it creates one; `sync_error` is
written after a call has failed. So a process that dies between the call and its record leaves no trace,
and neither does a call that is still under way: `two_partner_orders` is a run in which a request has two
orders.

`CreateUndisturbed` is the condition that excludes it, and `one_partner_order` what holds of the runs whose
calls meet it.
-/

namespace Marketplace

open Sql

/-! ### The runs -/

/-- An order is created by a `push_create` that has not searched only when the partner has none with the
code, and by one that has searched only when it has none but those it was shown. A `push_create` has seen
the request, and the list after it if it searched. -/
def CreateUndisturbed : FlowEvent PartnerAnswer → List TakedownDb → TakedownDb → Prop
  | .call (.order p v), seen, d => d.partner.orders.get? p = none → Known v seen d
  | .call (.lost _ p v), seen, d => d.partner.orders.get? p = none → Known v seen d
  | _, _, _ => True
where
  /-- The orders of the partner with the same code are known. -/
  Known (v : PartnerOrder) : List TakedownDb → TakedownDb → Prop
    | searched :: _ :: _, d => ∀ r ∈ d.partner.orders.rows,
      codeInReason r.2.reason = codeInReason v.reason → (searched.partner.orders.get? r.1).isSome = true
    | _, d => ∀ r ∈ d.partner.orders.rows, codeInReason r.2.reason ≠ codeInReason v.reason

instance (v : PartnerOrder) (seen : List TakedownDb) (d : TakedownDb) :
    Decidable (CreateUndisturbed.Known v seen d) := by
  unfold CreateUndisturbed.Known
  split <;> infer_instance

instance (e : FlowEvent PartnerAnswer) (seen : List TakedownDb) (d : TakedownDb) :
    Decidable (CreateUndisturbed e seen d) := by
  unfold CreateUndisturbed
  split <;> infer_instance

/-- The system, in the runs in which no creation is overtaken. -/
def createMachine : FlowMachine TakedownDb TakedownKey PartnerAnswer Abort TakedownCall :=
  ⟨TakedownCall.code, fun _ => CreateUndisturbed⟩

/-- The partner has no two orders with one code. -/
def OneOrderEach (d : TakedownDb) : Prop :=
  ∀ p q v v' code, d.partner.orders.get? p = some v → d.partner.orders.get? q = some v' →
    codeInReason v.reason = some code → codeInReason v'.reason = some code → p = q

/-- The partner keeps its orders and their reasons. -/
def ReasonsKept (d d' : TakedownDb) : Prop :=
  ∀ p v, d.partner.orders.get? p = some v →
    ∃ v', d'.partner.orders.get? p = some v' ∧ v'.reason = v.reason

theorem ReasonsKept.refl (d : TakedownDb) : ReasonsKept d d := fun _ v hv => ⟨v, hv, rfl⟩

theorem ReasonsKept.trans {d d' d'' : TakedownDb} (h : ReasonsKept d d') (h' : ReasonsKept d' d'') :
    ReasonsKept d d'' := by
  intro p v hv
  obtain ⟨v', hv', hr⟩ := h p v hv
  obtain ⟨v'', hv'', hr'⟩ := h' p v' hv'
  exact ⟨v'', hv'', hr'.trans hr⟩

/-- What the others leave alone, whatever is locked. -/
def createRely : Rely TakedownDb TakedownKey where
  rel _ := ReasonsKept
  refl _ := ReasonsKept.refl
  trans := ReasonsKept.trans
  anti _ h := h

/-! ### What is done to the partner -/

section Partner

variable {L : List TakedownKey} {d d' : TakedownDb}

/-- The reason of an order is never changed. -/
def SameReason (v v' : PartnerOrder) : Prop := v'.reason = v.reason

theorem sameReason_refl (v : PartnerOrder) : SameReason v v := rfl

theorem owed_of_aged
    (h : d.partner.orders.Aged SameReason d'.partner.orders)
    (hI : OneOrderEach d) : Owed createRely OneOrderEach L d d' := by
  refine ⟨fun p q v v' code hv hv' hc hc' => ?_, fun _ _ p v hv => h.later hv⟩
  obtain ⟨u, hu, hr⟩ := h.earlier hv
  obtain ⟨u', hu', hr'⟩ := h.earlier hv'
  exact hI p q u u' code hu hu' (by rw [← hr, hc]) (by rw [← hr', hc'])

/-- The platform has changed nothing at the partner. -/
def KeepsPartner (w : TakedownDb → TakedownDb) : Prop := ∀ d, (w d).partner = d.partner

theorem KeepsPartner.owed {w : TakedownDb → TakedownDb} (hw : KeepsPartner w) (hI : OneOrderEach d) :
    Owed createRely OneOrderEach L d (w d) := by
  refine owed_of_aged ?_ hI
  rw [hw]
  exact Table.Aged.refl sameReason_refl d.partner.orders

theorem aged_move {p : ℕ} {action : String} {createdAt : Option ℕ} {f : PartnerOrder → PartnerOrder}
    (hf : ∀ v, d.partner.orders.get? p = some v → (f v).reason = v.reason) :
    d.partner.orders.Aged SameReason
      (d.setPartner (Partner.move p action createdAt f)).partner.orders := by
  rw [TakedownDb.setPartner_partner, Partner.move]
  rcases hv : d.partner.orders.get? p with _ | v
  · exact Table.Aged.refl sameReason_refl d.partner.orders
  · intro q
    change Option.Rel _ _ ((d.partner.orders.modify p f).get? q)
    rw [Table.get?_modify]
    by_cases hq : q = p
    · subst hq
      rw [if_pos rfl, hv]
      exact .some (hf v hv)
    · rw [if_neg hq]
      cases d.partner.orders.get? q with
      | none => exact .none
      | some u => exact .some rfl

theorem aged_act {action : MemberAction} {p : ℕ} {v : PartnerOrder} (h : action.act p v d = some d') :
    d.partner.orders.Aged SameReason d'.partner.orders := by
  rw [MemberAction.act] at h
  rcases hu : d.partner.orders.get? p with _ | u
  · simp [hu] at h
  · simp only [hu, Option.ite_none_right_eq_some, Option.some.injEq] at h
    obtain ⟨-, rfl⟩ := h
    exact aged_move fun _ _ => rfl

/-- **A creation that is known to be the first.** -/
theorem owed_create {reason : List Char} {p : ℕ} {v : PartnerOrder} (h : createAct reason p v d = some d')
    (hI : OneOrderEach d) (hnew : ∀ q u, d.partner.orders.get? q = some u →
      codeInReason u.reason ≠ codeInReason v.reason) :
    Owed createRely OneOrderEach L d d' := by
  simp only [createAct, Option.ite_none_right_eq_some, Option.some.injEq] at h
  obtain ⟨⟨hp, rfl⟩, rfl⟩ := h
  have hget : ∀ q, (d.setPartner (Partner.create p reason none)).partner.orders.get? q =
      if q = p then some ⟨reason, .pendingReview, none, none, none⟩ else d.partner.orders.get? q :=
    fun q => Table.get?_insert hp _ q
  refine ⟨fun q q' u u' code hu hu' hc hc' => ?_, fun _ _ q u hu => ?_⟩
  · rw [hget] at hu hu'
    split_ifs at hu hu' with hq hq'
    · rw [hq, hq']
    · obtain rfl := Option.some.inj hu
      exact absurd (hc'.trans hc.symm) (hnew q' u' hu')
    · obtain rfl := Option.some.inj hu'
      exact absurd (hc.trans hc'.symm) (hnew q u hu)
    · exact hI q q' u u' code hu hu' hc hc'
  · refine ⟨u, ?_, rfl⟩
    have hne : q ≠ p := by
      rintro rfl
      rw [hp] at hu
      cases hu
    rw [hget, if_neg hne, hu]

end Partner

/-! ### Programs that keep to one order -/

/-- The program, begun after the states `s` were seen, keeps the partner to one order for each code, and
never has a change of the partner's tables pending. -/
structure OneOrderFlow {α : Type} (t : TakedownFlow α) (s : List TakedownDb) : Prop where
  keeps : ∀ {X : Flow.Post TakedownDb TakedownKey Abort}, (∀ e w L s d, X e w L s d) →
    ∀ w L d, KeepsPartner w →
      t.wp createRely OneOrderEach CreateUndisturbed (fun _ w _ _ _ => KeepsPartner w) X w L s d

section Programs

variable {α β : Type} {s : List TakedownDb}

theorem keepsPartner_id : KeepsPartner id := fun _ => rfl

theorem KeepsPartner.comp {f g : TakedownDb → TakedownDb} (hf : KeepsPartner f) (hg : KeepsPartner g) :
    KeepsPartner fun d => g (f d) := fun d => (hg (f d)).trans (hf d)

namespace OneOrderFlow

theorem pure (a : α) : OneOrderFlow (Pure.pure a) s := ⟨fun _ _ _ _ hw => hw⟩

theorem throw (e : Abort) : OneOrderFlow (Flow.throw e : TakedownFlow α) s :=
  ⟨fun hX _ _ _ _ => hX _ _ _ _ _⟩

theorem bind {t : TakedownFlow α} {f : α → TakedownFlow β} (ht : OneOrderFlow t s)
    (hf : ∀ a s', OneOrderFlow (f a) s') : OneOrderFlow (t >>= f) s := by
  constructor
  intro X hX w L d hw
  rw [Flow.wp_bind]
  exact Flow.wp_imp (ht.keeps hX w L d hw) fun a w' L' s' d' hw' => (hf a s').keeps hX w' L' d' hw'

theorem ite {c : Prop} [Decidable c] {t e : TakedownFlow α} (ht : OneOrderFlow t s)
    (he : OneOrderFlow e s) : OneOrderFlow (if c then t else e) s := by
  split_ifs
  · exact ht
  · exact he

theorem read (f : TakedownDb → α) : OneOrderFlow (Flow.read f) s :=
  ⟨fun _ _ _ _ hw _ _ _ _ => hw⟩

theorem ofTx {t : TakedownTx α} (ht : t.Writes KeepsPartner) : OneOrderFlow (Flow.ofTx t) s :=
  ⟨fun hX _ _ _ hw => Flow.wp_ofTx_pending keepsPartner_id (fun _ _ => KeepsPartner.comp) ht hw hX⟩

/-- After a commit a new transaction begins. -/
theorem save_bind {f : Unit → TakedownFlow β} (hf : OneOrderFlow (f ()) []) :
    OneOrderFlow (Flow.save >>= f) s := by
  constructor
  intro X hX w L d hw
  rw [Flow.wp_bind, Flow.wp_save]
  exact fun d' _ hI _ => ⟨hw.owed hI, hf.keeps hX id [] _ keepsPartner_id⟩

theorem undo_bind {f : Unit → TakedownFlow β} (hf : OneOrderFlow (f ()) []) :
    OneOrderFlow (Flow.undo >>= f) s := by
  constructor
  intro X hX w L d _
  rw [Flow.wp_bind, Flow.wp_undo]
  exact hf.keeps hX id [] d keepsPartner_id

theorem save : OneOrderFlow Flow.save s := save_bind (f := Pure.pure) (pure ())

theorem ask {act : PartnerAnswer → TakedownDb → Option TakedownDb}
    (h : ∀ a d d', act a d = some d' → d.partner.orders.Aged SameReason d'.partner.orders) :
    OneOrderFlow (Flow.ask act) s := by
  constructor
  intro X _ w L d hw
  rw [Flow.wp_ask]
  exact fun d' _ hI a d'' hact _ => ⟨owed_of_aged (h a d' d'' hact) hI, hw⟩

/-- A handler that gives up what was pending. -/
theorem handle {t : TakedownFlow Unit} {h : Abort → TakedownFlow Unit} (ht : OneOrderFlow t s)
    (hh : ∀ e, h e = Flow.undo ∨ h e = Flow.throw e) : OneOrderFlow (t.handle h) s := by
  constructor
  intro X hX w L d hw
  rw [Flow.wp_handle]
  refine Flow.wp_mono (ht.keeps (fun _ _ _ _ _ => trivial) w L d hw) (fun _ _ _ _ _ h => h)
    (X := fun _ _ _ _ _ => True) fun e w' L' s' d' _ => ?_
  rcases hh e with he | he
  · rw [he]
    exact keepsPartner_id
  · rw [he]
    exact hX _ _ _ _ _

theorem inSession {t : TakedownTx Unit} (ht : t.Writes KeepsPartner) :
    OneOrderFlow (Marketplace.inSession t) s := by
  refine handle (bind (ofTx ht) fun _ _ => save) fun e => ?_
  split_ifs
  · exact Or.inl rfl
  · exact Or.inr rfl

end OneOrderFlow

/-! ### The transactions leave the partner alone -/

theorem writes_modifyRequest (i : ℕ) (f : TakedownRequest → TakedownRequest) :
    (Tx.modify (TakedownDb.modifyRequest i f) : TakedownTx Unit).Writes KeepsPartner :=
  Tx.writes_modify.mpr fun _ => rfl

theorem writes_inShop (t : Marketplace.Tx α) : (inShop t).Writes KeepsPartner :=
  Tx.writes_zoom (fun _ _ => rfl) t

variable (cfg : TakedownSettings) (i : ℕ)

theorem writes_lockRequest : (lockRequest i).Writes KeepsPartner := Tx.writes_lock _ _

theorem writes_settleMoney (r : TakedownRequest) (status : TakedownStatus) :
    (settleMoney cfg r status).Writes KeepsPartner := by
  rw [settleMoney]
  split
  · exact Tx.writes_pure _
  · refine .bind (writes_inShop _) fun order => ?_
    split
    · exact Tx.writes_pure _
    · exact writes_inShop _

theorem writes_applyStatus (r : TakedownRequest) (u : PartnerUpdate) :
    (applyStatus cfg i r u).Writes KeepsPartner :=
  .bind (writes_modifyRequest i _) fun _ => Tx.writes_when
    (.bind (writes_modifyRequest i _) fun _ => writes_settleMoney cfg r _)

theorem writes_linkPartnerOrder (p : ℕ) : (linkPartnerOrder i p).Writes KeepsPartner :=
  .bind (Tx.writes_lock _ _) fun _ => .bind (Tx.writes_require _ _) fun _ => writes_modifyRequest i _

theorem writes_applyOrderDict (r : TakedownRequest) (p : ℕ) (v : PartnerOrder) :
    (applyOrderDict cfg i r p v).Writes KeepsPartner :=
  .bind (Tx.writes_when (writes_linkPartnerOrder i p)) fun _ => writes_applyStatus cfg i r _

theorem writes_recordCreated (result : Except PartnerError (ℕ × PartnerOrder)) :
    (recordCreated cfg i result).Writes KeepsPartner := by
  refine .bind (writes_lockRequest i) fun req => .bind (Tx.writes_getOrElse _ _) fun req =>
    .bind (Tx.writes_require _ _) fun _ => ?_
  rcases result with e | ⟨p, v⟩
  · exact writes_modifyRequest i _
  · exact .bind (writes_modifyRequest i _) fun _ => writes_applyOrderDict cfg i req p v

theorem writes_recordAccept (data : Option (ℕ × PartnerOrder)) (error : Option PartnerError) :
    (recordAccept cfg i data error).Writes KeepsPartner := by
  refine .bind (writes_lockRequest i) fun req => .bind (Tx.writes_getOrElse _ _) fun req => ?_
  rcases data with _ | ⟨p, v⟩
  · exact writes_modifyRequest i _
  · exact .bind (writes_applyOrderDict cfg i req p v) fun _ => writes_modifyRequest i _

theorem writes_holdPrice (buyer orderId : ℕ) : (holdPrice cfg buyer i orderId).Writes KeepsPartner := by
  refine .bind (writes_lockRequest i) fun req => .bind (Tx.writes_getOrElse _ _) fun req =>
    .bind (Tx.writes_require _ _) fun _ => .bind (Tx.writes_require _ _) fun _ =>
    .bind (Tx.writes_getOrElse _ _) fun price => .bind (Tx.writes_getOrElse _ _) fun seller =>
    .bind (Tx.writes_require _ _) fun _ => .bind (Tx.writes_read _) fun product => ?_
  exact .bind (writes_inShop _) fun _ => writes_modifyRequest i _

theorem writes_recordSyncError (e : PartnerError) :
    (recordSyncError cfg i e).Writes KeepsPartner :=
  .bind (writes_lockRequest i) fun _ => .bind (Tx.writes_getOrElse _ _) fun _ => writes_modifyRequest i _

theorem writes_recordSync (held : Bool) (p : ℕ) (v : PartnerOrder)
    (evidence : Option (Option String × Option String)) :
    (recordSync cfg i held p v evidence).Writes KeepsPartner :=
  .bind (writes_lockRequest i) fun _ => .bind (Tx.writes_getOrElse _ _) fun req =>
    .bind (writes_applyOrderDict cfg i req p v) fun _ => .bind (writes_modifyRequest i _) fun _ =>
      Tx.writes_pure _

theorem writes_recordAction (p : ℕ) (v : PartnerOrder) :
    (recordAction cfg i p v).Writes KeepsPartner :=
  .bind (writes_lockRequest i) fun _ => .bind (Tx.writes_getOrElse _ _) fun req =>
    .bind (writes_applyOrderDict cfg i req p v) fun _ => writes_modifyRequest i _

theorem writes_eventRequest (e : PartnerEvent) : (eventRequest e).Writes KeepsPartner := by
  refine .bind (fun _ => trivial) fun linked => ?_
  split
  · exact Tx.writes_pure _
  · split
    · exact Tx.writes_pure _
    · refine .bind (fun _ => trivial) fun found => ?_
      split
      · exact Tx.writes_pure _
      · exact .bind (Tx.writes_when (writes_linkPartnerOrder _ _)) fun _ => Tx.writes_pure _

theorem writes_applyEvent (e : PartnerEvent) (r : TakedownRequest) :
    (applyEvent cfg e i r).Writes KeepsPartner := by
  rw [applyEvent]
  split_ifs
  · exact .bind (writes_applyStatus cfg i r _) fun _ =>
      .bind (Tx.writes_when (writes_modifyRequest i _)) fun _ => Tx.writes_pure _
  · exact Tx.writes_pure _
  · exact .bind (writes_modifyRequest i _) fun _ => Tx.writes_pure _

theorem writes_applyEventTo (e : PartnerEvent) (req : Option (ℕ × TakedownRequest)) :
    (applyEventTo cfg e req).Writes KeepsPartner := by
  rcases req with _ | r
  · exact Tx.writes_pure _
  · exact .bind (writes_applyEvent cfg r.1 e r.2) fun _ => Tx.writes_pure _

theorem writes_recordEvent (e : PartnerEvent) : (recordEvent cfg e).Writes KeepsPartner := by
  refine .bind (Tx.writes_read _) fun _ => .bind (Tx.writes_require _ _) fun _ =>
    .bind (Tx.writes_read _) fun _ => .bind (Tx.writes_require _ _) fun _ =>
    .bind (writes_eventRequest e) fun req => .bind (writes_applyEventTo cfg e req) fun _ => ?_
  exact .bind (Tx.writes_lock _ _) fun _ => .bind (Tx.writes_require _ _) fun _ =>
    .bind (Tx.writes_modify.mpr fun _ => rfl) fun _ => Tx.writes_pure _

end Programs

/-! ### `push_create` -/

section Push

variable {X : Flow.Post TakedownDb TakedownKey Abort} {w : TakedownDb → TakedownDb}
  {L : List TakedownKey} {s : List TakedownDb} {d : TakedownDb}

/-- What every part keeps. -/
abbrev KeptPartner (α : Type) : Flow.Post TakedownDb TakedownKey α := fun _ w _ _ _ => KeepsPartner w

theorem createPartnerOrder_keeps {req : TakedownRequest} (hw : KeepsPartner w)
    (hnew : ∀ d' v, ReasonsKept d d' → codeInReason v.reason = some req.code →
      CreateUndisturbed.Known v s d' → ∀ q u, d'.partner.orders.get? q = some u →
        codeInReason u.reason ≠ some req.code) :
    (createPartnerOrder req).wp createRely OneOrderEach CreateUndisturbed (KeptPartner _) X w L s d := by
  rw [createPartnerOrder, Flow.wp_bind, clientCreateOrder, Flow.wp_ask]
  intro d' hd' hI a d'' hact hallow
  have hcreate : ∀ p v, createAct (reasonFor req.code req.note) p v d' = some d'' →
      (d'.partner.orders.get? p = none → CreateUndisturbed.Known v s d') →
      Owed createRely OneOrderEach L d' d'' := by
    intro p v hcreate hknown
    have hp := hcreate
    simp only [createAct, Option.ite_none_right_eq_some] at hp
    obtain ⟨⟨hp, rfl⟩, -⟩ := hp
    have hcode := codeInReason_reasonFor req.code req.note
    refine owed_create hcreate hI fun q u hu => ?_
    rw [show codeInReason _ = some req.code from hcode]
    exact hnew d' _ hd' hcode (hknown hp) q u hu
  refine ⟨?_, ?_⟩
  · cases a with
    | order p v => exact hcreate p v hact hallow
    | lost e p v =>
      simp only [Option.ite_none_right_eq_some] at hact
      exact hcreate p v hact.2 hallow
    | error e =>
      obtain rfl := Option.some.inj hact
      exact Owed.refl hI
    | evidence | reached => cases hact
  · cases a.data with
    | none => exact hw
    | some data => exact hw

/-- **A `push_create` that has searched creates what it did not find.** -/
theorem findOrCreate_keeps (req : TakedownRequest) (x : TakedownDb) (hw : KeepsPartner w) :
    (findOrCreate req).wp createRely OneOrderEach CreateUndisturbed (KeptPartner _) X w L [x] d := by
  rw [findOrCreate, Flow.wp_ite]
  refine ⟨fun _ => ?_, fun _ => ?_⟩
  · rw [Flow.wp_bind, findCreated, Flow.wp_bind, clientReach, Flow.wp_ask]
    intro d₁ _ hI a d₂ hact _
    have hsame : d₂ = d₁ := by
      cases a with
      | reached => exact (Option.some.inj hact).symm
      | error e => exact (Option.some.inj hact).symm
      | order | evidence | lost => cases hact
    subst hsame
    refine ⟨Owed.refl hI, ?_⟩
    rcases a.error? with _ | e
    · rw [Flow.wp_bind, Flow.wp_read]
      intro d₃ _ _ _
      rw [Flow.wp_pure]
      rcases hfind : (w d₃).partner.orders.rows.find? fun r => codeInReason r.2.reason = some req.code with
        _ | data
      · rw [hfind]
        refine createPartnerOrder_keeps hw fun d' v hd' hcode hknown q u hu hqcode => ?_
        -- The order was on the list, and its reason is what it was.
        have hlisted := hknown (q, u) (Table.get?_eq_some_iff.mp hu) (by rw [hqcode, hcode])
        obtain ⟨u₀, hu₀⟩ := Option.isSome_iff_exists.mp hlisted
        have hnot := List.find?_eq_none.mp hfind (q, u₀) (Table.get?_eq_some_iff.mp hu₀)
        rw [hw d₃] at hu₀
        obtain ⟨u', hu', hreason⟩ := hd' q u₀ hu₀
        obtain rfl : u = u' := Option.some.inj (hu.symm.trans hu')
        exact hnot (decide_eq_true (hreason ▸ hqcode))
      · rw [hfind]
        exact hw
    · exact hw
  · refine createPartnerOrder_keeps hw fun d' v _ hcode hknown q u hu hqcode => ?_
    exact hknown (q, u) (Table.get?_eq_some_iff.mp hu) (by rw [hqcode, hcode])

theorem pushCreate_keeps (cfg : TakedownSettings) (i : ℕ) : OneOrderFlow (pushCreate cfg i) [] := by
  constructor
  intro X hX w L d hw
  rw [pushCreate, Flow.wp_bind, Flow.wp_read]
  intro d₁ _ _ _
  rcases (w d₁).requests.get? i with _ | req
  · exact hw
  · change (if _ then _ else _ : TakedownFlow Unit).wp _ _ _ _ _ _ _ _ _
    rw [Flow.wp_ite]
    refine ⟨fun _ => hw, fun _ => ?_⟩
    rw [Flow.wp_bind]
    refine Flow.wp_imp (findOrCreate_keeps req (w d₁) hw) fun result w' L' s' d' hw' => ?_
    exact (OneOrderFlow.inSession (writes_recordCreated cfg i result)).keeps hX w' L' d' hw'

end Push

/-! ### The other programs -/

section Others

variable {s : List TakedownDb} (cfg : TakedownSettings) (i : ℕ)

theorem clientAction_keeps (p : ℕ) (action : MemberAction) : OneOrderFlow (clientAction p action) s := by
  refine .ask fun a d d' hact => ?_
  cases a with
  | order q v =>
    simp only [Option.ite_none_right_eq_some] at hact
    exact aged_act hact.2
  | lost e q v =>
    simp only [Option.ite_none_right_eq_some] at hact
    exact aged_act hact.2
  | error e =>
    obtain rfl := Option.some.inj hact
    exact Table.Aged.refl sameReason_refl d.partner.orders
  | evidence | reached => cases hact

theorem clientGetOrder_keeps (p : ℕ) : OneOrderFlow (clientGetOrder p) s := by
  refine .ask fun a d d' hact => ?_
  have hsame : d = d' := by
    cases a with
    | order q v =>
      simp only [Option.ite_none_right_eq_some, Option.some.injEq] at hact
      exact hact.2
    | error e => exact Option.some.inj hact
    | evidence | reached | lost => cases hact
  subst hsame
  exact Table.Aged.refl sameReason_refl d.partner.orders

theorem clientGetEvidence_keeps : OneOrderFlow clientGetEvidence s := by
  refine .ask fun a d d' hact => ?_
  have hsame : d = d' := by
    cases a with
    | evidence => exact Option.some.inj hact
    | error e => exact Option.some.inj hact
    | order | reached | lost => cases hact
  subst hsame
  exact Table.Aged.refl sameReason_refl d.partner.orders

theorem forwardAccept_keeps : OneOrderFlow (forwardAccept cfg i) s := by
  refine .bind (.read _) fun req _ => ?_
  split
  · exact .pure _
  · split
    · exact .pure _
    · split_ifs
      · exact .pure _
      · refine .bind (.bind (clientAction_keeps _ _) fun answer _ => ?_) fun answer _ =>
          .inSession (writes_recordAccept cfg i _ _)
        split
        · exact .pure _
        · split_ifs
          · exact .pure _
          · exact .bind (clientGetOrder_keeps _) fun _ _ => .pure _

theorem readPartner_keeps (p : ℕ) : OneOrderFlow (readPartner p) s := by
  refine .bind (clientGetOrder_keeps p) fun answer _ => ?_
  split
  · exact .pure _
  · split_ifs
    · refine .bind clientGetEvidence_keeps fun found _ => ?_
      split
      · exact .pure _
      · exact .pure _
    · exact .pure _

theorem syncRequest_keeps : OneOrderFlow (syncRequest cfg i) s := by
  refine .bind (.read _) fun req _ => ?_
  split
  · exact .pure _
  · split
    · exact .undo_bind (pushCreate_keeps cfg i)
    · refine .bind (readPartner_keeps _) fun answer _ => ?_
      split
      · exact .inSession (writes_recordSyncError cfg i _)
      · refine .bind (.ofTx (writes_recordSync cfg i _ _ _ _)) fun pendingAccept _ => .save_bind ?_
        split_ifs
        · exact forwardAccept_keeps cfg i
        · exact .pure _

theorem syncDueRequests_keeps : OneOrderFlow (syncDueRequests cfg) s := by
  refine .bind (.read _) fun ids s' => ?_
  constructor
  intro X hX w L d hw
  refine Flow.wp_imp (Flow.wp_forEach (J := fun w _ _ _ => KeepsPartner w) hw ?_) fun _ _ _ _ _ h => h
  intro i _ w' L' s'' d' hw'
  exact (OneOrderFlow.handle (syncRequest_keeps cfg i) fun _ => Or.inl rfl).keeps hX w' L' d' hw'

theorem memberAction_keeps (buyer : ℕ) (action : MemberAction) :
    OneOrderFlow (memberAction cfg buyer i action) s := by
  refine .bind (.read _) fun req _ => ?_
  split
  · exact .throw _
  · split
    · exact .throw _
    · refine .ite (.throw _) (.undo_bind (.bind (clientAction_keeps _ _) fun answer _ => ?_))
      split
      · exact .ite (.throw _) (.ite (.throw _)
          (.bind (syncRequest_keeps cfg i) fun _ _ => .throw _))
      · split
        · exact .pure _
        · exact .inSession (writes_recordAction cfg i _ _)

theorem handleWebhook_keeps (e : PartnerEvent) : OneOrderFlow (handleWebhook cfg e) s := by
  refine .bind (.ofTx (writes_recordEvent cfg e)) fun refresh _ => .save_bind ?_
  split
  · exact .pure _
  · exact .handle (syncRequest_keeps cfg _) fun _ => Or.inl rfl

theorem partnerStep_keeps (p : ℕ) (action : String) (createdAt : Option ℕ)
    (f : PartnerOrder → PartnerOrder) : OneOrderFlow (partnerStep p action createdAt f) s := by
  refine .bind (.ask fun a d d' hact => ?_) fun _ _ => .pure _
  cases a with
  | reached =>
    obtain ⟨v, hv, hact⟩ := Option.bind_eq_some_iff.mp hact
    simp only [Option.ite_none_right_eq_some, Option.some.injEq] at hact
    obtain ⟨⟨-, hreason, -⟩, rfl⟩ := hact
    refine aged_move fun u hu => ?_
    obtain rfl : v = u := Option.some.inj (hv.symm.trans hu)
    exact hreason
  | order | evidence | error | lost => cases hact

theorem createTakedown_keeps (buyer : ℕ) (code : TakedownCode) (url : String) (note : Option String)
    (service : String) (warrantyHours : ℕ) :
    OneOrderFlow (createTakedown cfg buyer i code url note service warrantyHours) s := by
  refine .bind (.ofTx ?_) fun _ _ => .save_bind (pushCreate_keeps cfg i)
  unfold addRequest
  generalize url.trimAscii.toString = text
  refine .bind (Tx.writes_require _ _) fun _ => .bind (Tx.writes_require _ _) fun _ =>
    .bind (Tx.writes_require _ _) fun _ => .bind (Tx.writes_lock _ _) fun _ =>
    .bind (Tx.writes_require _ _) fun _ => .bind (Tx.writes_lock _ _) fun _ =>
    .bind (Tx.writes_require _ _) fun _ => Tx.writes_modify.mpr fun _ => rfl

end Others

theorem createMachine_correct : createMachine.Correct createRely OneOrderEach := by
  intro c d _
  have hcode : OneOrderFlow c.code [] := by
    cases c with
    | createTakedown cfg buyer i code url note service warrantyHours =>
      exact createTakedown_keeps cfg i buyer code url note service warrantyHours
    | acceptQuote cfg buyer i orderId =>
      exact .bind (.ofTx (writes_holdPrice cfg i buyer orderId)) fun _ _ =>
        .save_bind (forwardAccept_keeps cfg i)
    | memberAction cfg buyer i action => exact memberAction_keeps cfg i buyer action
    | setPrice cfg i price =>
      refine .bind (.ofTx ?_) fun _ _ => .save
      exact .bind (writes_lockRequest i) fun _ => .bind (Tx.writes_getOrElse _ _) fun _ =>
        .bind (Tx.writes_require _ _) fun _ => writes_modifyRequest i _
    | syncRequest cfg i => exact syncRequest_keeps cfg i
    | syncDueRequests cfg => exact syncDueRequests_keeps cfg
    | forwardAccept cfg i => exact forwardAccept_keeps cfg i
    | pushCreate cfg i => exact pushCreate_keeps cfg i
    | handleWebhook cfg e => exact handleWebhook_keeps cfg e
    | partnerStep p action createdAt f => exact partnerStep_keeps p action createdAt f
  exact Flow.wp_imp (hcode.keeps (fun _ _ _ _ _ => trivial) id [] d keepsPartner_id) fun _ _ _ _ _ _ => trivial

/-! ### At most one order -/

/-- The orders at the partner that a code is in. -/
def TakedownDb.ordersWithCode (d : TakedownDb) (code : TakedownCode) : List (ℕ × PartnerOrder) :=
  d.partner.orders.rows.filter fun r => codeInReason r.2.reason = some code

theorem OneOrderEach.ordersWithCode {d : TakedownDb} (h : OneOrderEach d) (code : TakedownCode) :
    (d.ordersWithCode code).length ≤ 1 := by
  have hkeys : ((d.ordersWithCode code).map Prod.fst).Nodup :=
    d.partner.orders.nodup.sublist (List.filter_sublist.map Prod.fst)
  have hsame : ∀ r ∈ d.ordersWithCode code, ∀ r' ∈ d.ordersWithCode code, r.1 = r'.1 := by
    intro r hr r' hr'
    obtain ⟨hr, hc⟩ := List.mem_filter.mp hr
    obtain ⟨hr', hc'⟩ := List.mem_filter.mp hr'
    exact h r.1 r'.1 r.2 r'.2 code (Table.get?_eq_some_iff.mpr hr) (Table.get?_eq_some_iff.mpr hr')
      (of_decide_eq_true hc) (of_decide_eq_true hc')
  rcases hrows : d.ordersWithCode code with _ | ⟨r, _ | ⟨r', rest⟩⟩
  · exact Nat.zero_le 1
  · exact le_rfl
  · rw [hrows] at hkeys hsame
    refine absurd (hsame r (by simp) r' (by simp)) fun heq => ?_
    simp [heq] at hkeys

variable {ι : Type} [DecidableEq ι] {d : TakedownDb}
  {C : FlowConfig TakedownDb TakedownKey PartnerAnswer Abort TakedownCall ι}

section Runs

variable {M : FlowMachine TakedownDb TakedownKey PartnerAnswer Abort TakedownCall}

/-- A `push_create` for a request without an error creates an order; and its process dies. -/
theorem pushCreate_dies {cfg : TakedownSettings} {i p : ℕ} {r : TakedownRequest} {j : ι} {c : TakedownCall}
    (hi : C.task j = some ⟨c, pushCreate cfg i, id, [], []⟩) (hr : C.db.requests.get? i = some r)
    (hlink : r.partnerOrderId = none) (hstatus : ¬r.status.IsTerminal) (herror : r.syncError = none)
    (hp : C.db.partner.orders.get? p = none) (hquery : M.allows c .query [] C.db)
    (hcreate : M.allows c
      (.call (.order p ⟨reasonFor r.code r.note, .pendingReview, none, none, none⟩)) [C.db] C.db) :
    ∃ C', Relation.ReflTransGen (FlowStep M) C C' ∧ C'.task j = none ∧
      C'.db = C.db.setPartner (Partner.create p (reasonFor r.code r.note) none) := by
  obtain ⟨C₁, hread, hdb, htask⟩ := flowStep_read (M := M) hi rfl hquery
  simp only [id, hr] at htask
  rw [if_neg (by simp [hlink, hstatus]), findOrCreate, if_neg (by simp [herror])] at htask
  have hact : createAct (reasonFor r.code r.note) p
      ⟨reasonFor r.code r.note, .pendingReview, none, none, none⟩ C.db =
      some (C.db.setPartner (Partner.create p (reasonFor r.code r.note) none)) :=
    if_pos ⟨hp, rfl⟩
  obtain ⟨C₂, hdies, hdb', hidle⟩ := flowStep_call_dies (M := M)
    (a := .order p ⟨reasonFor r.code r.note, .pendingReview, none, none, none⟩) htask rfl
    (hdb ▸ hcreate) (hdb ▸ hact)
  exact ⟨C₂, .head hread hdies, hidle, hdb ▸ hdb'⟩

/-- `sync_request` of a request that is not linked is a `push_create`. -/
theorem syncRequest_pushes (cfg : TakedownSettings) {i : ℕ} {r : TakedownRequest} {j : ι}
    (hi : C.task j = none) (hr : C.db.requests.get? i = some r) (hlink : r.partnerOrderId = none)
    (hcode : M.code = TakedownCall.code) (hquery : M.allows (.syncRequest cfg i) .query [] C.db) :
    ∃ C', Relation.ReflTransGen (FlowStep M) C C' ∧ C'.db = C.db ∧
      C'.task j = some ⟨.syncRequest cfg i, pushCreate cfg i, id, [], []⟩ := by
  obtain ⟨C₁, hbegin, hdb₁, htask₁⟩ := flowStep_begin (M := M) (.syncRequest cfg i) hi
  rw [FlowMachine.fresh, hcode] at htask₁
  obtain ⟨C₂, hread, hdb₂, htask₂⟩ := flowStep_read (M := M) htask₁ rfl (hdb₁ ▸ hquery)
  simp only [id, hdb₁, hr, hlink] at htask₂
  obtain ⟨C₃, hundo, hdb₃, htask₃⟩ := flowStep_rollback (M := M) htask₂ rfl
  exact ⟨C₃, .head hbegin (.head hread (.single hundo)), hdb₃.trans (hdb₂.trans hdb₁), htask₃⟩

/-- A request that has just been recorded. -/
def sampleLink : TakedownRequest :=
  newRequest 1 ⟨['T', 'D', '-', '0', '0', '0', '0', '0', '0', '0', '1'], by decide⟩ "https://x" none
    "article_copyright" 24

/-- A platform with a request that is not at the partner yet. -/
def sampleTakedown : TakedownDb where
  shop := Db.empty
  requests := ⟨[(1, sampleLink)], by decide⟩
  seenEvents := []
  partner := ⟨.empty, []⟩

/-- Its configuration. -/
def sampleTakedownSettings : TakedownSettings := ⟨Settings.sample 10, true, some 9, none, 7⟩

/-- The sample after a `push_create` whose process died. -/
theorem sample_pushCreate_dies (hcode : M.code = TakedownCall.code)
    (hquery : M.allows (.pushCreate sampleTakedownSettings 1) .query [] sampleTakedown)
    (hcreate : M.allows (.pushCreate sampleTakedownSettings 1)
      (.call (.order 7 ⟨reasonFor sampleLink.code sampleLink.note, .pendingReview, none, none, none⟩))
      [sampleTakedown] sampleTakedown) :
    ∃ C : FlowConfig TakedownDb TakedownKey PartnerAnswer Abort TakedownCall (Fin 1),
      FlowReachable M sampleTakedown C ∧ C.task 0 = none ∧ C.db = sampleTakedown.setPartner
        (Partner.create 7 (reasonFor sampleLink.code sampleLink.note) none) := by
  obtain ⟨C₁, hbegin, hdb, htask⟩ := flowStep_begin (M := M) (i := (0 : Fin 1))
    (C := FlowConfig.idle sampleTakedown) (.pushCreate sampleTakedownSettings 1) rfl
  rw [FlowMachine.fresh, hcode] at htask
  obtain ⟨C₂, hrun, hidle, hdb'⟩ := pushCreate_dies (M := M) (r := sampleLink) (p := 7) htask
    (hdb ▸ rfl) rfl (by decide) rfl (hdb ▸ rfl) (hdb ▸ hquery) (hdb ▸ hcreate)
  exact ⟨C₂, .head hbegin hrun, hidle, by rw [hdb', hdb]; rfl⟩

end Runs

end Marketplace
