import Marketplace.Takedown.Creation
import Marketplace.Takedown.Mirror

/-!
# The partner's last word

What the partner says last decides where the money of a takedown goes. `_settle_money` refunds on `failed`
and `cancelled` and delivers on `done`; the two statuses that stand for the partner's refusals it does not
know. As long as money is taken only for orders the partner has not refused, and the partner refuses
none for which it is held, this is enough (`money_follows_last_word`).

Nothing in the code sees to that: a buyer's `decline_quote` reads the status, and by the time the partner
hears of it `accept_quote` may have taken the money. `refused_money_stays` is such a run.
-/

namespace Marketplace

open Sql

/-! ### The runs -/

/-- The partner refuses no order whose money is held, and no money is taken for an order it has
refused. -/
def RefusalApart : TakedownCall → FlowEvent PartnerAnswer → List TakedownDb → TakedownDb → Prop
  | _, .call (.order p v), _, d => v.status.Refuses → ¬d.Refused p → ¬d.Holds p
  | _, .call (.lost _ p v), _, d => v.status.Refuses → ¬d.Refused p → ¬d.Holds p
  | .partnerStep p _ _ f, .call .reached, _, d =>
    (∃ v ∈ d.partner.orders.get? p, (f v).status.Refuses) → ¬d.Refused p → ¬d.Holds p
  | .acceptQuote _ _ i _, .commit, _, d =>
    ∀ r ∈ d.requests.get? i, r.orderId = none → ∀ p ∈ r.partnerOrderId, ¬d.Refused p
  | _, _, _, _ => True

/-- The system, in the runs in which refusals and money are kept apart. -/
def moneyMachine : FlowMachine TakedownDb TakedownKey PartnerAnswer Abort TakedownCall :=
  ⟨TakedownCall.code, RefusalApart⟩

/-! ### What is done to the partner -/

section Partner

variable {L : List TakedownKey} {d d' : TakedownDb}

/-- A move of the partner owes that it tells of last words only after it said them, and refuses no
order whose money is held. -/
theorem owed_setPartner {f : Partner → Partner} (hI : TakedownInv d)
    (hkept : PartnerKept d.partner (f d.partner))
    (hrefused : ∀ p, (d.setPartner f).Refused p → d.Refused p ∨ ¬d.Holds p)
    (htold : ∀ e ∈ (f d.partner).events, e ∈ d.partner.events ∨
      (e.toStatus.IsFinal → e.action ≠ "create" ∧ (d.setPartner f).Reached e.orderId e.toStatus)) :
    Owed moneyRely TakedownInv L d (d.setPartner f) := by
  refine ⟨⟨fun i r hr => ?_, hI.own, hI.stray, fun e he hfinal => ?_⟩, fun L' _ => ⟨⟨hkept, .refl d⟩, ?_⟩⟩
  · have hok := hI.request i r hr
    refine ⟨hok.money, hok.late, fun hheld => ?_, fun hdone => ?_⟩
    · obtain ⟨p, hp, hnot⟩ := hok.linked hheld
      refine ⟨p, hp, fun h => ?_⟩
      rcases hrefused p h with h | h
      · exact hnot h
      · exact h ⟨(i, r), Table.get?_eq_some_iff.mp hr, hp, hheld⟩
    · obtain ⟨p, hp, hreached⟩ := hok.done hdone
      exact ⟨p, hp, hreached.kept trivial hkept⟩
  · rcases htold e he with h | h
    · exact (hI.told e h hfinal).imp_right fun h => h.kept hfinal hkept
    · exact h hfinal
  · intro k _
    cases k with
    | request j => rfl
    | shop k =>
      cases k with
      | order o => rfl
      | _ => exact trivial
    | _ => exact trivial

theorem get?_move {p : ℕ} {action : String} {createdAt : Option ℕ} {g : PartnerOrder → PartnerOrder}
    {v : PartnerOrder} (hv : d.partner.orders.get? p = some v) (q : ℕ) :
    (Partner.move p action createdAt g d.partner).orders.get? q =
      if q = p then some (g v) else d.partner.orders.get? q := by
  simp only [Partner.move, hv]
  rw [Table.get?_modify]
  split_ifs with hq
  · rw [hq, hv, Option.map_some]
  · rfl

/-- A step of an order owes the same. -/
theorem owed_move {p : ℕ} {action : String} {createdAt : Option ℕ} {g : PartnerOrder → PartnerOrder}
    {v : PartnerOrder} (hI : TakedownInv d) (hv : d.partner.orders.get? p = some v)
    (haction : action ≠ "create") (hfinal : v.status.IsFinal → (g v).status = v.status)
    (hrefuses : (g v).status.Refuses → ¬d.Refused p → ¬d.Holds p) :
    Owed moneyRely TakedownInv L d (d.setPartner (Partner.move p action createdAt g)) := by
  refine owed_setPartner hI ⟨fun q u hu => ?_, fun e he => ?_⟩ (fun q hq => ?_) fun e he => ?_
  · rw [get?_move hv]
    split_ifs with hq
    · subst hq
      obtain rfl := Option.some.inj (hv.symm.trans hu)
      exact ⟨g v, rfl, hfinal⟩
    · exact ⟨u, hu, fun _ => rfl⟩
  · simp only [Partner.move, hv]
    exact List.mem_append_left _ he
  · obtain ⟨u, hu, href⟩ := hq
    change (Partner.move p action createdAt g d.partner).orders.get? q = some u at hu
    rw [get?_move hv] at hu
    split_ifs at hu with hq
    · obtain rfl := Option.some.inj hu
      subst hq
      by_cases h : d.Refused q
      · exact Or.inl h
      · exact Or.inr (hrefuses href h)
    · exact Or.inl ⟨u, hu, href⟩
  · simp only [Partner.move, hv] at he
    rcases List.mem_append.mp he with he | he
    · exact Or.inl he
    · obtain rfl := List.mem_singleton.mp he
      refine Or.inr fun _ => ⟨haction, g v, ?_, rfl⟩
      exact (get?_move hv p).trans (if_pos rfl)

theorem act_eq_some {action : MemberAction} {p : ℕ} {v : PartnerOrder}
    (h : action.act p v d = some d') :
    ∃ u, d.partner.orders.get? p = some u ∧ u.status ∈ action.allowed ∧
      v = { u with status := action.target } ∧
      d' = d.setPartner (Partner.move p action.name none fun u => { u with status := action.target }) := by
  rw [MemberAction.act] at h
  rcases hu : d.partner.orders.get? p with _ | u
  · simp [hu] at h
  · simp only [hu, Option.ite_none_right_eq_some, Option.some.injEq] at h
    exact ⟨u, rfl, h.1.1, h.1.2, h.2.symm⟩

/-- What a member does at the partner. -/
theorem owed_act {action : MemberAction} {p : ℕ} {v : PartnerOrder} (h : action.act p v d = some d')
    (hI : TakedownInv d) (hrefuses : v.status.Refuses → ¬d.Refused p → ¬d.Holds p) :
    Owed moneyRely TakedownInv L d d' ∧ d'.Reached p v.status := by
  obtain ⟨u, hu, hallowed, rfl, rfl⟩ := act_eq_some h
  have hopen : ¬u.status.IsFinal := by
    cases action <;> simp only [MemberAction.allowed, List.mem_cons, List.not_mem_nil, or_false] at hallowed
    · rw [hallowed]; exact id
    · rw [hallowed]; exact id
    · rcases hallowed with h | h | h <;> rw [h] <;> exact id
    · rw [hallowed]; exact id
  refine ⟨owed_move hI hu (by cases action <;> decide) (fun hfinal => absurd hfinal hopen) hrefuses, ?_⟩
  exact ⟨_, (get?_move hu p).trans (if_pos rfl), rfl⟩

/-- A new order is not refused. -/
theorem owed_create_order {reason : List Char} {p : ℕ} {v : PartnerOrder}
    (h : createAct reason p v d = some d') (hI : TakedownInv d) :
    Owed moneyRely TakedownInv L d d' := by
  simp only [createAct, Option.ite_none_right_eq_some, Option.some.injEq] at h
  obtain ⟨⟨hp, -⟩, rfl⟩ := h
  have hget : ∀ q, (Partner.create p reason none d.partner).orders.get? q =
      if q = p then some ⟨reason, .pendingReview, none, none, none⟩ else d.partner.orders.get? q :=
    fun q => Table.get?_insert hp _ q
  refine owed_setPartner hI ⟨fun q u hu => ?_, fun e he => List.mem_append_left _ he⟩ (fun q hq => ?_)
    fun e he => ?_
  · rw [hget, if_neg]
    · exact ⟨u, hu, fun _ => rfl⟩
    · rintro rfl
      exact absurd (hp.symm.trans hu) (by simp)
  · obtain ⟨u, hu, href⟩ := hq
    change (Partner.create p reason none d.partner).orders.get? q = some u at hu
    rw [hget] at hu
    split_ifs at hu
    · obtain rfl := Option.some.inj hu
      exact absurd href (by decide : ¬PartnerStatus.pendingReview.Refuses)
    · exact Or.inl ⟨u, hu, href⟩
  · rcases List.mem_append.mp he with he | he
    · exact Or.inl he
    · obtain rfl := List.mem_singleton.mp he
      exact Or.inr fun hfinal => hfinal.elim

end Partner

/-! ### Between two transactions -/

/-- The program, begun and ended between two transactions: what it needs to know of the committed state,
and what is known of it afterwards. -/
structure RestFlow {α : Type} (c : TakedownCall) (t : TakedownFlow α) (P : TakedownDb → Prop)
    (Q : α → TakedownDb → Prop) : Prop where
  runs : ∀ {X : Flow.Post TakedownDb TakedownKey Abort}, (∀ e w L s d, X e w L s d) → ∀ s d, P d →
    t.wp moneyRely TakedownInv (RefusalApart c) (fun a w L _ d => w = id ∧ L = [] ∧ Q a d) X id [] s d

/-- Nothing is known. -/
abbrev Unknown (α : Type) : α → TakedownDb → Prop := fun _ _ => True

/-- What the others cannot undo. -/
def Lasts (F : TakedownDb → Prop) : Prop := ∀ d d', moneyRely.rel [] d d' → F d → F d'

section Rest

variable {α β : Type} {c : TakedownCall} {P P' F : TakedownDb → Prop} {Q : α → TakedownDb → Prop}
  {Q' : β → TakedownDb → Prop}

namespace RestFlow

theorem pure {a : α} (h : ∀ d, P d → Q a d) : RestFlow c (Pure.pure a) P Q :=
  ⟨fun _ _ d hd => ⟨rfl, rfl, h d hd⟩⟩

theorem throw {e : Abort} : RestFlow c (Flow.throw e : TakedownFlow α) P Q :=
  ⟨fun hX _ _ _ => hX _ _ _ _ _⟩

theorem bind {t : TakedownFlow α} {f : α → TakedownFlow β} (ht : RestFlow c t P Q)
    (hf : ∀ a, RestFlow c (f a) (Q a) Q') : RestFlow c (t >>= f) P Q' := by
  constructor
  intro X hX s d hd
  rw [Flow.wp_bind]
  refine Flow.wp_imp (ht.runs hX s d hd) ?_
  rintro a _ _ s' d' ⟨rfl, rfl, hQ⟩
  exact (hf a).runs hX s' d' hQ

theorem weaken {t : TakedownFlow α} (ht : RestFlow c t P Q) (hP : ∀ d, P' d → P d)
    {Q₁ : α → TakedownDb → Prop} (hQ : ∀ a d, Q a d → Q₁ a d) : RestFlow c t P' Q₁ :=
  ⟨fun hX s d hd => Flow.wp_imp (ht.runs hX s d (hP d hd)) fun a _ _ _ d h =>
    ⟨h.1, h.2.1, hQ a d h.2.2⟩⟩

/-- **What lasts is still known afterwards.** -/
theorem frame {t : TakedownFlow α} (ht : RestFlow c t P Q) (hF : Lasts F) :
    RestFlow c t (fun d => P d ∧ F d) fun a d => Q a d ∧ F d := by
  constructor
  intro X hX s d hd
  refine Flow.wp_imp (Flow.wp_moves (ht.runs hX s d hd.1) (moneyRely.refl [] d)) ?_
  rintro a w L s' d' ⟨⟨hw, hL, hQ⟩, hmoves⟩
  exact ⟨hw, hL, hQ, hF d d' hmoves hd.2⟩

theorem ite {p : Prop} [Decidable p] {t e : TakedownFlow α} (ht : p → RestFlow c t P Q)
    (he : ¬p → RestFlow c e P Q) : RestFlow c (if p then t else e) P Q := by
  split_ifs with h
  · exact ht h
  · exact he h

theorem read {f : TakedownDb → α} (h : ∀ d d', P d → moneyRely.rel [] d d' → TakedownInv d' → Q (f d') d') :
    RestFlow c (Flow.read f) P Q :=
  ⟨fun _ _ d hd d' hd' hI _ => ⟨rfl, rfl, h d d' hd hd' hI⟩⟩

theorem ask {act : PartnerAnswer → TakedownDb → Option TakedownDb}
    {Q : PartnerAnswer → TakedownDb → Prop}
    (h : ∀ s d a d', TakedownInv d → act a d = some d' → RefusalApart c (.call a) s d →
      Owed moneyRely TakedownInv [] d d' ∧ Q a d') :
    RestFlow c (Flow.ask act) P Q := by
  constructor
  intro X _ s d _
  rw [Flow.wp_ask]
  intro d' _ hI a d'' hact hallow
  obtain ⟨howed, hQ⟩ := h s d' a d'' hI hact hallow
  exact ⟨howed, rfl, rfl, hQ⟩

theorem undo : RestFlow c Flow.undo P (Unknown Unit) := ⟨fun _ _ _ _ => ⟨rfl, rfl, trivial⟩⟩

/-- A transaction and its commit, and what follows. -/
theorem record_bind {t : TakedownTx α} {f : α → TakedownFlow β}
    (ht : ∀ s d, P d → t.wp moneyRely TakedownInv (fun _ w L s d => ∀ d', moneyRely.rel L d d' →
      TakedownInv d' → RefusalApart c .commit s d' → Owed moneyRely TakedownInv L d' (w d')) id [] s d)
    (hf : ∀ a, RestFlow c (f a) (fun _ => True) Q') :
    RestFlow c (Flow.ofTx t >>= fun a => Flow.save >>= fun _ => f a) P Q' := by
  constructor
  intro X hX s d hd
  rw [Flow.wp_bind]
  refine Flow.wp_ofTx (Tx.wp_mono (ht s d hd) fun a w L s d h => ?_) hX
  rw [Flow.wp_bind, Flow.wp_save]
  exact fun d' hd' hI hallow => ⟨h d' hd' hI hallow, (hf a).runs hX [] _ trivial⟩

/-- A handler that gives up what was pending. -/
theorem handle {t : TakedownFlow Unit} {h : Abort → TakedownFlow Unit}
    (ht : RestFlow c t P (Unknown Unit)) (hh : ∀ e, h e = Flow.undo ∨ h e = Flow.throw e) :
    RestFlow c (t.handle h) P (Unknown Unit) := by
  constructor
  intro X hX s d hd
  rw [Flow.wp_handle]
  refine Flow.wp_mono (ht.runs (fun _ _ _ _ _ => trivial) s d hd) (fun _ _ _ _ _ h => h)
    (X := fun _ _ _ _ _ => True) fun e w' L' s' d' _ => ?_
  rcases hh e with he | he
  · rw [he]
    exact ⟨rfl, rfl, trivial⟩
  · rw [he]
    exact hX _ _ _ _ _

/-- A transaction in a session of its own. -/
theorem inSession {t : TakedownTx Unit}
    (ht : ∀ s d, P d → t.wp moneyRely TakedownInv (fun _ w L _ d => Committable w L d) id [] s d) :
    RestFlow c (Marketplace.inSession t) P (Unknown Unit) := by
  refine handle ?_ fun e => ?_
  · constructor
    intro X hX s d hd
    rw [Flow.wp_bind]
    refine Flow.wp_ofTx (Tx.wp_mono (ht s d hd) fun a w L s d h => ?_) hX
    rw [Flow.wp_save]
    exact fun d' hd' hI _ => ⟨h d' hd' hI, rfl, rfl, trivial⟩
  · split_ifs
    · exact Or.inl rfl
    · exact Or.inr rfl

end RestFlow

/-- A transaction that records something. -/
theorem committable_of_mirrored {t : TakedownTx α} {i : ℕ} {s : List TakedownDb} {d : TakedownDb}
    (ht : t.wp moneyRely TakedownInv (fun _ w L _ d => Mirrored i w L d) id [] s d) :
    t.wp moneyRely TakedownInv (fun _ w L _ d => Committable w L d) id [] s d :=
  Tx.wp_mono ht fun _ _ _ _ _ h => h.committable

/-- A commit that is always let through. -/
theorem committable_allowed {t : TakedownTx α} {s : List TakedownDb} {d : TakedownDb}
    (ht : t.wp moneyRely TakedownInv (fun _ w L _ d => Committable w L d) id [] s d) :
    t.wp moneyRely TakedownInv (fun _ w L s d => ∀ d', moneyRely.rel L d d' →
      TakedownInv d' → RefusalApart c .commit s d' → Owed moneyRely TakedownInv L d' (w d')) id [] s d :=
  Tx.wp_mono ht fun _ _ _ _ _ h d' hd' hI _ => h d' hd' hI

end Rest

/-! ### The programs -/

section Programs

variable {c : TakedownCall} {P : TakedownDb → Prop} (cfg : TakedownSettings) (i : ℕ)

theorem lasts_links (i p : ℕ) : Lasts fun d => d.Links i p := fun _ _ hd h => h.moves hd

/-- What is known of the order in an answer. -/
def AnswerTells (p : ℕ) (answer : PartnerAnswer) (d : TakedownDb) : Prop :=
  ∀ x, answer.data = some x → x.1 = p ∧ d.Tells x.1 x.2

theorem clientAction_rest (p : ℕ) (action : MemberAction) :
    RestFlow c (clientAction p action) P (AnswerTells p) := by
  refine .ask fun s d a d' hI hact hallow => ?_
  cases a with
  | order q v =>
    simp only [Option.ite_none_right_eq_some] at hact
    obtain ⟨rfl, hact⟩ := hact
    obtain ⟨howed, hreached⟩ := owed_act (L := []) hact hI hallow
    refine ⟨howed, fun x hx => ?_⟩
    obtain rfl := Option.some.inj hx
    exact ⟨rfl, fun _ => hreached⟩
  | lost e q v =>
    simp only [Option.ite_none_right_eq_some] at hact
    obtain ⟨⟨rfl, -⟩, hact⟩ := hact
    exact ⟨(owed_act hact hI hallow).1, fun x hx => by cases hx⟩
  | error e =>
    obtain rfl := Option.some.inj hact
    exact ⟨Owed.refl hI, fun x hx => by cases hx⟩
  | evidence | reached => cases hact

theorem clientGetOrder_rest (p : ℕ) : RestFlow c (clientGetOrder p) P (AnswerTells p) := by
  refine .ask fun s d a d' hI hact _ => ?_
  cases a with
  | order q v =>
    simp only [Option.ite_none_right_eq_some, Option.some.injEq] at hact
    obtain ⟨⟨rfl, hv⟩, rfl⟩ := hact
    refine ⟨Owed.refl hI, fun x hx => ?_⟩
    obtain rfl := Option.some.inj hx
    exact ⟨rfl, fun _ => ⟨v, hv, rfl⟩⟩
  | error e =>
    obtain rfl := Option.some.inj hact
    exact ⟨Owed.refl hI, fun x hx => by cases hx⟩
  | evidence | reached | lost => cases hact

/-- A call that does nothing. -/
theorem ask_idle {act : PartnerAnswer → TakedownDb → Option TakedownDb}
    (h : ∀ a d d', act a d = some d' → d' = d) : RestFlow c (Flow.ask act) P (Unknown PartnerAnswer) :=
  .ask fun _ d a d' hI hact _ => by
    obtain rfl := h a d d' hact
    exact ⟨Owed.refl hI, trivial⟩

theorem clientGetEvidence_rest : RestFlow c clientGetEvidence P (Unknown PartnerAnswer) := by
  refine ask_idle fun a d d' hact => ?_
  cases a with
  | evidence | error => exact (Option.some.inj hact).symm
  | order | reached | lost => cases hact

theorem clientReach_rest : RestFlow c clientReach P (Unknown PartnerAnswer) := by
  refine ask_idle fun a d d' hact => ?_
  cases a with
  | reached | error => exact (Option.some.inj hact).symm
  | order | evidence | lost => cases hact

/-- What is known of an order that was found or created. -/
def ResultTells (result : Except PartnerError (ℕ × PartnerOrder)) (d : TakedownDb) : Prop :=
  ∀ x, result = .ok x → d.Tells x.1 x.2

theorem createPartnerOrder_rest (req : TakedownRequest) :
    RestFlow c (createPartnerOrder req) P ResultTells := by
  refine .bind (Q := fun answer _ => ∀ x, answer.data = some x → x.2.status = .pendingReview)
    (.ask fun s d a d' hI hact _ => ?_) fun answer => ?_
  · cases a with
    | order p v =>
      refine ⟨owed_create_order hact hI, fun x hx => ?_⟩
      obtain rfl := Option.some.inj hx
      simp only [createAct, Option.ite_none_right_eq_some] at hact
      rw [hact.1.2]
    | lost e p v =>
      simp only [Option.ite_none_right_eq_some] at hact
      exact ⟨owed_create_order hact.2 hI, fun x hx => by cases hx⟩
    | error e =>
      obtain rfl := Option.some.inj hact
      exact ⟨Owed.refl hI, fun x hx => by cases hx⟩
    | evidence | reached => cases hact
  · rcases hdata : answer.data with _ | data
    · exact .pure fun d _ x hx => by cases hx
    · refine .pure fun d h x hx hfinal => ?_
      obtain rfl := Except.ok.inj hx
      rw [h data rfl] at hfinal
      exact hfinal.elim

theorem findOrCreate_rest (req : TakedownRequest) :
    RestFlow c (findOrCreate req) P ResultTells := by
  refine .ite (fun _ => ?_) fun _ => createPartnerOrder_rest req
  refine .bind (Q := fun found d => ∀ x, found = .ok (some x) → d.Tells x.1 x.2) ?_ fun found => ?_
  · refine .bind clientReach_rest fun answer => ?_
    rcases answer.error? with _ | e
    · refine .bind (Q := fun rows d => ∀ x ∈ rows, d.Tells x.1 x.2) (.read fun d d' _ _ _ x hx _ => ?_)
        fun rows => .pure fun d h x hx => ?_
      · exact ⟨x.2, Table.get?_eq_some_iff.mpr hx, rfl⟩
      · exact h x (List.mem_of_find?_eq_some (Except.ok.inj hx))
    · exact .pure fun d _ x hx => by cases hx
  · rcases found with e | _ | data
    · exact .pure fun d _ x hx => by cases hx
    · exact createPartnerOrder_rest req
    · refine .pure fun d h x hx => ?_
      obtain rfl := Except.ok.inj hx
      exact h _ rfl

theorem pushCreate_rest : RestFlow c (pushCreate cfg i) P (Unknown Unit) := by
  refine .bind (.read (Q := Unknown _) fun _ _ _ _ _ => trivial) fun req => ?_
  rcases req with _ | req
  · exact .pure fun _ _ => trivial
  · refine .ite (fun _ => .pure fun _ _ => trivial) fun _ => ?_
    refine .bind (findOrCreate_rest req) fun result => .inSession fun s d h => ?_
    exact committable_of_mirrored (wp_recordCreated cfg h)

/-- What is known of the answer to an `accept`. -/
theorem askAccept_rest (p : ℕ) :
    RestFlow c (askAccept p) P fun answer d => ∀ x, answer.1 = some x → x.1 = p ∧ d.Tells x.1 x.2 := by
  refine .bind (clientAction_rest p .accept) fun answer => ?_
  rcases answer.error? with _ | e
  · exact .pure fun d h x hx => h x hx
  · refine .ite (fun _ => .pure fun d _ x hx => by cases hx) fun _ => ?_
    exact .bind (clientGetOrder_rest p) fun again => .pure fun d h x hx => h x hx

theorem forwardAccept_rest : RestFlow c (forwardAccept cfg i) P (Unknown Unit) := by
  refine .bind (.read (Q := fun req d => ∀ r ∈ req, ∀ p ∈ r.partnerOrderId, d.Links i p)
    fun d d' _ _ _ r hr p hp => ⟨r, hr, hp⟩) fun req => ?_
  rcases req with _ | req
  · exact .pure fun _ _ => trivial
  · dsimp only
    rcases hp : req.partnerOrderId with _ | p
    · exact .pure fun _ _ => trivial
    · refine .ite (fun _ => .pure fun _ _ => trivial) fun _ => ?_
      refine .bind (((askAccept_rest (P := fun _ => True) p).frame (lasts_links i p)).weaken
        (fun d h => ⟨trivial, h req rfl p hp⟩) fun _ _ h => h) fun answer => .inSession fun s d h => ?_
      refine committable_of_mirrored (wp_recordAccept cfg fun x hx => ?_)
      obtain ⟨hx₁, hx₂⟩ := h.1 x hx
      exact ⟨hx₂, hx₁ ▸ h.2⟩

theorem readPartner_rest (p : ℕ) :
    RestFlow c (readPartner p) P fun answer d => ∀ x, answer = .ok x → x.1.1 = p ∧ d.Tells x.1.1 x.1.2 := by
  refine .bind (clientGetOrder_rest p) fun answer => ?_
  rcases hdata : answer.data with _ | data
  · exact .pure fun d _ x hx => by cases hx
  · refine .ite (fun _ => ?_) fun _ => .pure fun d h x hx => ?_
    · refine .bind ((clientGetEvidence_rest (P := fun _ => True)).frame
        (F := fun d => data.1 = p ∧ d.Tells data.1 data.2) (fun d d' hd h => ⟨h.1, h.2.moves hd⟩) |>.weaken
        (fun d h => ⟨trivial, h data hdata⟩) fun _ _ h => h) fun found => ?_
      split
      · refine .pure fun d h x hx => ?_
        obtain rfl := Except.ok.inj hx
        exact h.2
      · exact .pure fun d _ x hx => by cases hx
    · obtain rfl := Except.ok.inj hx
      exact h data hdata

theorem syncRequest_rest : RestFlow c (syncRequest cfg i) P (Unknown Unit) := by
  refine .bind (.read (Q := fun req d => ∀ r ∈ req, ∀ p ∈ r.partnerOrderId, d.Links i p)
    fun d d' _ _ _ r hr p hp => ⟨r, hr, hp⟩) fun req => ?_
  rcases req with _ | req
  · exact .pure fun _ _ => trivial
  · dsimp only
    rcases hp : req.partnerOrderId with _ | p
    · exact .bind .undo fun _ => pushCreate_rest cfg i
    · refine .bind (((readPartner_rest (P := fun _ => True) p).frame (lasts_links i p)).weaken
        (fun d h => ⟨trivial, h req rfl p hp⟩) fun _ _ h => h) fun answer => ?_
      rcases answer with e | ⟨⟨q, v⟩, evidence⟩
      · exact .inSession fun s d _ => committable_of_mirrored (wp_recordSyncError cfg e)
      · refine .record_bind (fun s d h => ?_) fun pendingAccept => .ite (fun _ => forwardAccept_rest cfg i)
          fun _ => .pure fun _ _ => trivial
        obtain ⟨rfl, htells⟩ := h.1 _ rfl
        exact committable_allowed (committable_of_mirrored
          (wp_recordSync cfg req.orderId.isSome evidence htells h.2))

theorem syncDueRequests_rest : RestFlow c (syncDueRequests cfg) P (Unknown Unit) := by
  refine .bind (.read (Q := Unknown _) fun _ _ _ _ _ => trivial) fun ids => ?_
  constructor
  intro X hX s d _
  have hround : ∀ i ∈ ids, ∀ (w : TakedownDb → TakedownDb) (L : List TakedownKey) (s : List TakedownDb)
      (d : TakedownDb), w = id ∧ L = [] ∧ True →
      ((syncRequest cfg i).handle fun _ => Flow.undo).wp moneyRely TakedownInv (RefusalApart c)
        (fun _ w L _ _ => w = id ∧ L = [] ∧ True) X w L s d := by
    rintro i - _ _ s d ⟨rfl, rfl, -⟩
    exact (RestFlow.handle (syncRequest_rest (P := fun _ => True) cfg i) fun _ => Or.inl rfl).runs hX s d
      trivial
  exact Flow.wp_forEach (J := fun w L _ _ => w = id ∧ L = [] ∧ True) ⟨rfl, rfl, trivial⟩ hround

theorem memberAction_rest (buyer : ℕ) (action : MemberAction) :
    RestFlow c (memberAction cfg buyer i action) P (Unknown Unit) := by
  refine .bind (.read (Q := fun req d => ∀ r ∈ req, ∀ p ∈ r.partnerOrderId, d.Links i p)
    fun d d' _ _ _ r hr p hp => ⟨r, (Option.filter_eq_some_iff.mp hr).1, hp⟩) fun req => ?_
  rcases req with _ | req
  · exact .throw
  · dsimp only
    rcases hp : req.partnerOrderId with _ | p
    · exact .throw
    · refine .ite (fun _ => .throw) fun _ => ?_
      refine .bind (((RestFlow.undo (P := fun _ => True)).frame (lasts_links i p)).weaken
        (fun d h => ⟨trivial, h req rfl p hp⟩) fun _ _ h => h.2) fun _ => ?_
      refine .bind (((clientAction_rest (P := fun _ => True) p action).frame (lasts_links i p)).weaken
        (fun d h => ⟨trivial, h⟩) fun _ _ h => h) fun answer => ?_
      rcases answer.error? with _ | e
      · rcases hdata : answer.data with _ | ⟨q, v⟩
        · exact .pure fun _ _ => trivial
        · refine .inSession fun s d h => ?_
          obtain ⟨rfl, htells⟩ := h.1 _ hdata
          exact committable_of_mirrored (wp_recordAction cfg htells h.2)
      · exact .ite (fun _ => .throw) fun _ => .ite (fun _ => .throw) fun _ =>
          .bind (syncRequest_rest cfg i) fun _ => .throw

theorem handleWebhook_rest (e : PartnerEvent) :
    RestFlow c (handleWebhook cfg e) P (Unknown Unit) := by
  refine .record_bind (fun s d _ => committable_allowed (wp_recordEvent cfg e)) fun refresh => ?_
  rcases refresh with _ | i
  · exact .pure fun _ _ => trivial
  · exact .handle (syncRequest_rest cfg i) fun _ => Or.inl rfl

theorem createTakedown_rest (buyer : ℕ) (code : TakedownCode) (url : String) (note : Option String)
    (service : String) (warrantyHours : ℕ) :
    RestFlow c (createTakedown cfg buyer i code url note service warrantyHours) P (Unknown Unit) :=
  .record_bind (fun _ _ _ => committable_allowed (wp_addRequest cfg buyer code url note service
    warrantyHours)) fun _ => pushCreate_rest cfg i

end Programs

/-- **Every program keeps the invariant.** -/
theorem moneyMachine_correct : moneyMachine.Correct moneyRely TakedownInv := by
  intro c d _
  suffices h : RestFlow c c.code (fun _ => True) (Unknown Unit) from
    Flow.wp_imp (h.runs (fun _ _ _ _ _ => trivial) [] d trivial) fun _ _ _ _ _ _ => trivial
  cases c with
  | createTakedown cfg buyer i code url note service warrantyHours =>
    exact createTakedown_rest cfg i buyer code url note service warrantyHours
  | acceptQuote cfg buyer i orderId =>
    exact .record_bind (fun s d _ => wp_holdPrice cfg buyer orderId) fun _ => forwardAccept_rest cfg i
  | memberAction cfg buyer i action => exact memberAction_rest cfg i buyer action
  | setPrice cfg i price =>
    exact .record_bind (fun s d _ => committable_allowed (committable_of_mirrored (wp_setPrice cfg price)))
      fun _ => .pure fun _ _ => trivial
  | syncRequest cfg i => exact syncRequest_rest cfg i
  | syncDueRequests cfg => exact syncDueRequests_rest cfg
  | forwardAccept cfg i => exact forwardAccept_rest cfg i
  | pushCreate cfg i => exact pushCreate_rest cfg i
  | handleWebhook cfg e => exact handleWebhook_rest cfg e
  | partnerStep p action createdAt f =>
    refine .bind (Q := Unknown _) (.ask fun s d a d' hI hact hallow => ?_) fun _ => .pure fun _ _ => trivial
    cases a with
    | reached =>
      obtain ⟨v, hv, hact⟩ := Option.bind_eq_some_iff.mp hact
      simp only [Option.ite_none_right_eq_some, Option.some.injEq] at hact
      obtain ⟨⟨haction, -, hfinal⟩, rfl⟩ := hact
      exact ⟨owed_move hI hv haction hfinal fun href => hallow ⟨v, hv, href⟩, trivial⟩
    | order | evidence | error | lost => cases hact

/-! ### The money follows -/

/-- The order was delivered, and nothing of it refunded. -/
def Db.DeliveredWhole (d : Db) (o : ℕ) : Prop :=
  ∃ order ∈ d.orders.get? o, order.status = .delivered ∧ order.refundedAmount = 0 ∧ d.refundsOf o = []

/-- The order was cancelled, and all of it refunded at once. -/
def Db.RefundedWhole (d : Db) (o : ℕ) : Prop :=
  ∃ order ∈ d.orders.get? o, order.status = .cancelled ∧ order.refundedAmount = order.totalAmount ∧
    d.refundsOf o = [order.totalAmount]

/-- Before any money is taken. -/
structure TakedownDb.NothingHeld (d : TakedownDb) : Prop where
  request : ∀ i r, d.requests.get? i = some r → r.orderId = none ∧ r.status ≠ .done
  stray : NoStrayRefund d.shop
  events : ∀ e ∈ d.partner.events, ¬e.toStatus.IsFinal

theorem TakedownDb.NothingHeld.inv {d : TakedownDb} (h : d.NothingHeld) : TakedownInv d := by
  refine ⟨fun i r hr => ?_, fun i j r r' o hr _ ho _ => ?_, h.stray,
    fun e he hfinal => absurd hfinal (h.events e he)⟩
  · obtain ⟨hfree, hopen⟩ := h.request i r hr
    exact ⟨fun o ho => absurd (hfree.symm.trans ho) (by simp), fun hheld => absurd hfree hheld,
      fun hheld => absurd hfree hheld, fun hdone => absurd hdone hopen⟩
  · exact absurd ((h.request i r hr).1.symm.trans ho) (by simp)

variable {ι : Type} [DecidableEq ι] {d : TakedownDb}
  {C : FlowConfig TakedownDb TakedownKey PartnerAnswer Abort TakedownCall ι}

/-- **The money follows the partner's last word**, in every run in which the partner refuses nothing that is
paid for: a request keeps its last status; its order is then delivered if it is done, and otherwise cancelled
and refunded once, in full; and it is done only when the partner has succeeded. -/
theorem money_follows_last_word (hd : d.NothingHeld) (h : FlowReachable moneyMachine d C) :
    (∀ i r, C.db.requests.get? i = some r → r.status.IsTerminal →
      ∀ C', Relation.ReflTransGen (FlowStep moneyMachine) C C' →
        ∃ r', C'.db.requests.get? i = some r' ∧ r'.status = r.status) ∧
    (∀ i r o, C.db.requests.get? i = some r → r.orderId = some o → r.status.IsTerminal →
      (r.status = .done ∧ C.db.shop.DeliveredWhole o) ∨
        (r.status ≠ .done ∧ C.db.shop.RefundedWhole o)) ∧
    ∀ i r, C.db.requests.get? i = some r → r.status = .done →
      ∃ p, r.partnerOrderId = some p ∧ C.db.Reached p .success := by
  have hinv := moneyMachine_correct.reachable hd.inv h
  refine ⟨fun i r hr hterminal C' hrun => ?_, fun i r o hr ho hterminal => ?_,
    fun i r hr => (hinv.request i r hr).done⟩
  · obtain ⟨r', hr', hkept⟩ := (moneyMachine_correct.moves hd.inv h hrun).2.1.2 i r hr
    exact ⟨r', hr', hkept.status hterminal⟩
  · obtain ⟨order, horder, -, hbooks⟩ := (hinv.request i r hr).money o ho
    rw [if_pos hterminal] at hbooks
    split_ifs at hbooks with hdone
    · exact Or.inl ⟨hdone, order, horder, hbooks⟩
    · exact Or.inr ⟨hdone, order, horder, hbooks.2⟩

/-! ### Money that stays -/

instance (d : TakedownDb) (p : ℕ) : Decidable (d.Refused p) :=
  inferInstanceAs (Decidable (∃ v ∈ d.partner.orders.get? p, v.status.Refuses))

instance (d : TakedownDb) (p : ℕ) : Decidable (d.Holds p) :=
  inferInstanceAs (Decidable (∃ r ∈ d.requests.rows, r.2.partnerOrderId = some p ∧ r.2.orderId ≠ none))

/-- `RefusalApart` as a program. -/
def keepsApart : TakedownCall → FlowEvent PartnerAnswer → TakedownDb → Bool
  | _, .call (.order p v), d => decide (v.status.Refuses → ¬d.Refused p → ¬d.Holds p)
  | _, .call (.lost _ p v), d => decide (v.status.Refuses → ¬d.Refused p → ¬d.Holds p)
  | .partnerStep p _ _ f, .call .reached, d =>
    decide ((∃ v ∈ d.partner.orders.get? p, (f v).status.Refuses) → ¬d.Refused p → ¬d.Holds p)
  | .acceptQuote _ _ i _, .commit, d =>
    decide (∀ r ∈ d.requests.get? i, r.orderId = none → ∀ p ∈ r.partnerOrderId, ¬d.Refused p)
  | _, _, _ => true

theorem keepsApart_iff {c : TakedownCall} {e : FlowEvent PartnerAnswer} {s : List TakedownDb} {d : TakedownDb} :
    keepsApart c e d = true ↔ RefusalApart c e s d := by
  rcases e with _ | (_ | _ | _ | _ | _) | _ <;> cases c <;>
    first
    | exact decide_eq_true_iff
    | exact iff_of_true rfl trivial

instance (c : TakedownCall) (e : FlowEvent PartnerAnswer) (s : List TakedownDb) (d : TakedownDb) :
    Decidable (RefusalApart c e s d) :=
  decidable_of_iff _ keepsApart_iff

/-- A request whose price is set. -/
def sampleQuote : TakedownRequest :=
  { sampleLink with
    status := .quoted
    partnerOrderId := some 7
    partnerStatus := some .quoted
    price := some 500 }

/-- The order at the partner, in a status. -/
def sampleAtPartner (s : PartnerStatus) : PartnerOrder :=
  ⟨'[' :: (sampleLink.code.text ++ [']']), s, some 400, none, none⟩

/-- A buyer with money, and the request. -/
def sampleQuoted : TakedownDb where
  shop := { Db.empty with wallets := ⟨[(1, ⟨1000, 0⟩)], by decide⟩ }
  requests := ⟨[(1, sampleQuote)], by decide⟩
  seenEvents := []
  partner := ⟨⟨[(7, sampleAtPartner .quoted)], by decide⟩, []⟩

/-- The buyer accepts. -/
def sampleAccept : TakedownCall := .acceptQuote sampleTakedownSettings 1 1 5

/-- The buyer accepts, and cancels before the work has begun: all of the money comes back. -/
theorem money_follows_last_word_sample :
    ∃ C : FlowConfig TakedownDb TakedownKey PartnerAnswer Abort TakedownCall (Fin 2),
      FlowReachable moneyMachine sampleQuoted C ∧ C.db.shop.RefundedWhole 5 := by
  obtain ⟨C, hC, r, hr, hstatus, horder⟩ := FlowMachine.reaches_of_play (M := moneyMachine) (ι := Fin 2)
    (d := sampleQuoted)
    (P := fun d => ∃ r ∈ d.requests.get? 1, r.status = .cancelled ∧ r.orderId = some 5)
    (fun c e s d => decide (RefusalApart c e s d))
    (.begin 0 sampleAccept :: List.replicate 12 (.step 0) ++
      .call 0 (.order 7 (sampleAtPartner .awaitingPayment)) :: List.replicate 4 (.step 0) ++
      .begin 1 (.memberAction sampleTakedownSettings 1 1 .cancel) :: List.replicate 2 (.step 1) ++
      .call 1 (.order 7 (sampleAtPartner .cancelled)) :: List.replicate 15 (.step 1))
    (fun c e s d h => (of_decide_eq_true h : RefusalApart c e s d)) (by decide)
  have hstart : sampleQuoted.NothingHeld := by
    refine ⟨fun i r hr => ?_, fun _ _ => rfl, fun e he => absurd he List.not_mem_nil⟩
    obtain ⟨-, rfl⟩ : i = 1 ∧ r = sampleQuote := by
      simpa [sampleQuoted, Prod.ext_iff] using Table.get?_eq_some_iff.mp hr
    exact ⟨rfl, TakedownStatus.noConfusion⟩
  rcases (money_follows_last_word hstart hC).2.1 1 r 5 hr horder (hstatus ▸ trivial) with
    ⟨hdone, -⟩ | ⟨-, hrefunded⟩
  · rw [hstatus] at hdone
    cases hdone
  · exact ⟨C, hC, hrefunded⟩

/-- **Money that stays.** The buyer declines, and accepts before the partner has heard of it. The partner
then refuses the order, the request ends, and the money is neither paid out nor given back. -/
theorem refused_money_stays :
    ∃ C : FlowConfig TakedownDb TakedownKey PartnerAnswer Abort TakedownCall (Fin 2),
      FlowReachable (FlowMachine.ofCode TakedownCall.code) sampleQuoted C ∧
        ∃ r ∈ C.db.requests.get? 1, r.status = .rejected ∧ r.orderId = some 5 ∧
          ∃ order ∈ C.db.shop.orders.get? 5, order.status = .processing ∧ order.refundedAmount = 0 :=
  FlowMachine.reaches_of_play (M := FlowMachine.ofCode TakedownCall.code) (ι := Fin 2) (d := sampleQuoted)
    (P := fun d => ∃ r ∈ d.requests.get? 1, r.status = .rejected ∧ r.orderId = some 5 ∧
      ∃ order ∈ d.shop.orders.get? 5, order.status = .processing ∧ order.refundedAmount = 0)
    (fun _ _ _ _ => true)
    (.begin 0 (.memberAction sampleTakedownSettings 1 1 .decline) :: List.replicate 2 (.step 0) ++
      .begin 1 sampleAccept :: List.replicate 11 (.step 1) ++
      .call 0 (.order 7 (sampleAtPartner .quoteRejected)) :: List.replicate 6 (.step 0))
    (fun _ _ _ _ _ => trivial) (by decide)

end Marketplace
