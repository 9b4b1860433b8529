import Marketplace.Orders.Moving

/-!
# Dispute cases under concurrency

The functions of `disputes/service.py` lock the case, check that it is open, and lock the order.
They do not check the order's status: while its case is open an order is delivered, which is
`OrderInv.openCase`, and what keeps it so is that every other function on a delivered order looks
for an open case first.

`Handling` follows a transaction on a case as `Working` follows one on an order. What it
may leave behind is `CaseEnds`: the order's status as it was, or the case closed and the order no
longer waiting.
-/

namespace Marketplace

open Sql

/-! ### What the dispute functions write -/

/-- The writes of a function about the case `c` of the order `o`. -/
inductive CaseWrite (c o : ℕ) (Q : Order → Order → Prop) : (Db → Db) → Prop
  | order {f : Db → Db} (h : OrderWrite o Q f) : CaseWrite c o Q f
  | case (f : Dispute → Dispute) (h : ∀ u, (f u).orderId = u.orderId) :
      CaseWrite c o Q (Db.modifyDispute c f)
  | claimResource (v : DisputeClaimResource) : CaseWrite c o Q (Db.addClaimResource v)
  | claimProxy (v : DisputeClaimProxy) : CaseWrite c o Q (Db.addClaimProxy v)
  | resourceAction (v : DisputeResourceAction) : CaseWrite c o Q (Db.addResourceAction v)
  | proxyAction (v : DisputeProxyAction) : CaseWrite c o Q (Db.addProxyAction v)

/-- One case and its order move as `P` says; the other orders and cases stay. -/
structure CaseStep (c o : ℕ) (P : Dispute → Order → Dispute → Order → Prop) (d d' : Db) :
    Prop where
  orders : ∀ o', o' ≠ o → d'.orders.get? o' = d.orders.get? o'
  disputes : ∀ c', c' ≠ c → d'.disputes.get? c' = d.disputes.get? c'
  row : ∀ u v, d.disputes.get? c = some u → d.orders.get? o = some v →
    ∃ u' v', d'.disputes.get? c = some u' ∧ d'.orders.get? o = some v' ∧
      u'.orderId = u.orderId ∧ v'.terms = v.terms ∧ P u v u' v'

section CaseStep

variable {c o : ℕ} {P P' P'' : Dispute → Order → Dispute → Order → Prop} {d d' d'' : Db}

theorem CaseStep.trans (h : CaseStep c o P d d') (h' : CaseStep c o P' d' d'')
    (hP : ∀ u v u₁ v₁ u₂ v₂, P u v u₁ v₁ → P' u₁ v₁ u₂ v₂ → P'' u v u₂ v₂) :
    CaseStep c o P'' d d'' where
  orders o' ho := (h'.orders o' ho).trans (h.orders o' ho)
  disputes c' hc := (h'.disputes c' hc).trans (h.disputes c' hc)
  row u v hu hv := by
    obtain ⟨u₁, v₁, hu₁, hv₁, hc₁, ht₁, hP₁⟩ := h.row u v hu hv
    obtain ⟨u₂, v₂, hu₂, hv₂, hc₂, ht₂, hP₂⟩ := h'.row u₁ v₁ hu₁ hv₁
    exact ⟨u₂, v₂, hu₂, hv₂, hc₂.trans hc₁, ht₂.trans ht₁, hP u v u₁ v₁ u₂ v₂ hP₁ hP₂⟩

/-- A change that leaves both tables alone. -/
theorem caseStep_of_eq (hP : ∀ u v, P u v u v) (ho : d'.orders = d.orders)
    (hc : d'.disputes = d.disputes) : CaseStep c o P d d' :=
  ⟨fun _ _ => by rw [ho], fun _ _ => by rw [hc],
    fun u v hu hv => ⟨u, v, by rw [hc, hu], by rw [ho, hv], rfl, rfl, hP u v⟩⟩

/-- A change of the order only. -/
theorem OrderStep.caseStep {Q : Order → Order → Prop} (h : OrderStep o Q d d')
    (hP : ∀ u v v', Q v v' → P u v u v') : CaseStep c o P d d' :=
  ⟨h.others, fun _ _ => by rw [h.disputes], fun u v hu hv => by
    obtain ⟨v', hv', ht, hq⟩ := h.row v hv
    exact ⟨u, v', by rw [h.disputes, hu], hv', rfl, ht, hP u v v' hq⟩⟩

/-- A change of the case only. -/
theorem caseStep_modifyDispute {f : Dispute → Dispute} (hf : ∀ u, (f u).orderId = u.orderId)
    (hP : ∀ u v, P u v (f u) v) (d : Db) : CaseStep c o P d (d.modifyDispute c f) :=
  ⟨fun _ _ => rfl, fun _ hc => Table.get?_modify_of_ne _ hc _, fun u v hu hv =>
    ⟨f u, v, by rw [Db.modifyDispute_disputes, Table.get?_modify_self, hu, Option.map_some], hv,
      hf u, rfl, hP u v⟩⟩

theorem CaseWrite.step {Q : Order → Order → Prop} (hQ : ∀ v, Q v v) {f : Db → Db}
    (h : CaseWrite c o Q f) (d : Db) : CaseStep c o (fun _ v _ v' => Q v v') d (f d) := by
  cases h with
  | order h => exact (h.step hQ d).caseStep fun _ _ _ => id
  | case f h => exact caseStep_modifyDispute h (fun _ v => hQ v) d
  | claimResource v => exact caseStep_of_eq (fun _ v => hQ v) rfl rfl
  | claimProxy v => exact caseStep_of_eq (fun _ v => hQ v) rfl rfl
  | resourceAction v => exact caseStep_of_eq (fun _ v => hQ v) rfl rfl
  | proxyAction v => exact caseStep_of_eq (fun _ v => hQ v) rfl rfl

end CaseStep

/-! ### Footprints -/

section Footprints

variable (cfg : Settings) (c o : ℕ) {Q : Order → Order → Prop} {P : (Db → Db) → Prop}

theorem writes_modifyCase {f : Dispute → Dispute} (h : ∀ u, (f u).orderId = u.orderId) :
    (modifyCase c f).Writes (CaseWrite c o Q) := Tx.writes_modify.mpr (.case f h)

theorem writes_lockOrderResources (ids : List ℕ) : (lockOrderResources o ids).Writes P :=
  fun _ => Tx.writes_pure _

theorem writes_lockOrderAllocations (lines : List ℕ) : (lockOrderAllocations o lines).Writes P :=
  fun _ => Tx.writes_pure _

theorem writes_addClaims (resourceIds lineNos : List ℕ) (batchKey : String)
    (hr : ∀ v, P (Db.addClaimResource v)) (hp : ∀ v, P (Db.addClaimProxy v)) :
    (addClaims cfg c o resourceIds lineNos batchKey).Writes P := by
  refine .bind (Tx.writes_when ?_) fun _ => Tx.writes_when ?_
  · exact .bind (writes_lockOrderResources o _) fun _ => .bind (Tx.writes_require _ _) fun _ =>
      .bind (Tx.writes_read _) fun _ => .bind (Tx.writes_require _ _) fun _ =>
      .bind (Tx.writes_require _ _) fun _ => .bind (Tx.writes_read _) fun _ =>
      .bind (Tx.writes_require _ _) fun _ => Tx.writes_forEach fun _ => Tx.writes_modify.mpr (hr _)
  · exact .bind (writes_lockOrderAllocations o _) fun _ => .bind (Tx.writes_require _ _) fun _ =>
      .bind (Tx.writes_read _) fun _ => .bind (Tx.writes_require _ _) fun _ =>
      .bind (Tx.writes_require _ _) fun _ => Tx.writes_forEach fun _ =>
        Tx.writes_modify.mpr (hp _)

/-- Choosing replacements writes to the rows that are chosen only. -/
theorem writes_choose (h : ∀ r f, P (Db.modifyResource r f)) (skipped : List ℕ)
    (seller variantId count : ℕ) (durationDays : Option ℕ) (ids : Option (List ℕ)) :
    (chooseReplacements cfg skipped o seller variantId count durationDays ids).Writes P := by
  rcases ids with _ | ids
  · exact writes_claim cfg o h _ _ _ _
  · exact .bind (Tx.writes_require _ _) fun _ => .bind (fun _ => Tx.writes_pure _) fun _ =>
      .bind (Tx.writes_require _ _) fun _ =>
      .bind (Tx.writes_forEach fun _ => Tx.writes_modify.mpr (h _ _)) fun _ => Tx.writes_pure _

theorem writes_chooseReplacements (skipped : List ℕ) (seller variantId count : ℕ)
    (durationDays : Option ℕ) (ids : Option (List ℕ)) :
    (chooseReplacements cfg skipped o seller variantId count durationDays ids).Writes
      (OrderWrite o Q) :=
  writes_choose cfg o .resource skipped seller variantId count durationDays ids

theorem writes_recordResourceAction (key : String) (action : RemedyAction)
    (original : ℕ × Resource) (replacement : Option ℕ) :
    (recordResourceAction c key action original replacement).Writes (CaseWrite c o Q) :=
  .bind (Tx.writes_modify.mpr (.order (.resource _ _))) fun _ => .bind (Tx.writes_read _) fun _ =>
    .bind (Tx.writes_require _ _) fun _ => Tx.writes_modify.mpr (.resourceAction _)

variable (hQ : ∀ v v', KeepsStatus v v' → Q v v')
include hQ

theorem writes_refundCase (buyer : ℕ) (x : ℤ) (s : String) :
    (refundEscrow cfg o buyer x s).Writes (CaseWrite c o Q) :=
  (writes_refund cfg o hQ buyer x s).mono fun _ => .order

theorem writes_remedyResources (skipped : List ℕ) (seller : ℕ) (order : Order) (variantId : ℕ)
    (variant : ProductVariant) (originals : List (ℕ × Resource)) (ids : Option (List ℕ))
    (key : String) (action : RemedyAction) :
    (remedyResources cfg skipped c o seller order variantId variant originals ids key action).Writes
      (CaseWrite c o Q) := by
  cases action with
  | replace =>
    exact .bind ((writes_chooseReplacements cfg o _ _ _ _ _ _).mono fun _ => .order) fun _ =>
      .bind (Tx.writes_forEach fun _ => Tx.writes_modify.mpr (.order (.resource _ _))) fun _ =>
        Tx.writes_forEach fun _ => writes_recordResourceAction c o _ _ _ _
  | refund =>
    exact .bind (Tx.writes_when (writes_refundCase cfg c o hQ _ _ _)) fun _ =>
      Tx.writes_forEach fun _ => writes_recordResourceAction c o _ _ _ _

theorem writes_rebuildDeliveredData : (rebuildDeliveredData o).Writes (CaseWrite c o Q) :=
  .bind (Tx.writes_read _) fun _ => Tx.writes_when (Tx.writes_modify.mpr
    (.order (.order _ (fun _ => rfl) fun _ => hQ _ _ rfl)))

end Footprints

/-! ### Handling a case -/

/-- The case and its order are locked; the case reads `u`. -/
def LockedCase (c o : ℕ) (u : Dispute) (L : List RowKey) (d : Db) : Prop :=
  .dispute c ∈ L ∧ .order o ∈ L ∧ d.disputes.get? c = some u ∧ u.orderId = o

theorem kept_lockedCase (c o : ℕ) (u : Dispute) : Kept (LockedCase c o u) := by
  rintro L L' d d' hL hd ⟨hc, ho, hu, hou⟩
  exact ⟨hL hc, hL ho, by rw [hd.dispute c hc, hu], hou⟩

/-- A transaction at work on a case, which has changed the case and its order as `P` says. -/
structure Handling (c o : ℕ) (u : Dispute) (P : Dispute → Order → Dispute → Order → Prop)
    (w : Db → Db) (L : List RowKey) (d : Db) : Prop where
  known : LockedCase c o u L d
  effect : ∀ d, CaseStep c o P d (w d)

/-- The order's status is what it was. -/
def OrderKept (_ : Dispute) (v : Order) (_ : Dispute) (v' : Order) : Prop := v'.status = v.status

/-- The case is closed, and the order's status is what it was. -/
def CaseClosed (_ : Dispute) (v : Order) (u' : Dispute) (v' : Order) : Prop :=
  u'.status ≠ .open_ ∧ v'.status = v.status

/-- The order's status is what it was, or the case is closed and the order not waiting. -/
def CaseEnds (_ : Dispute) (v : Order) (u' : Dispute) (v' : Order) : Prop :=
  v'.status = v.status ∨ u'.status ≠ .open_ ∧ ¬v'.IsWaiting

section Handling

variable {c o : ℕ} {u : Dispute} {P P' T : Dispute → Order → Dispute → Order → Prop}
  {Q : Order → Order → Prop} {w : Db → Db} {L L' : List RowKey} {s : List Db} {d d' : Db}

theorem Handling.stable (h : Handling c o u P w L d) (hL : L ⊆ L') (hd : OrderRel L d d') :
    Handling c o u P w L' d' := ⟨kept_lockedCase c o u hL hd h.known, h.effect⟩

/-- Case and order have just been locked. -/
theorem handling_start (h : LockedCase c o u L d) : Handling c o u OrderKept id L d :=
  ⟨h, fun _ => caseStep_of_eq (fun _ _ => rfl) rfl rfl⟩

/-- **A part of the transaction.** -/
theorem Handling.then (h : Handling c o u P w L d) {α : Type} {t : Tx α}
    (ht : t.Writes fun f => ∀ d, CaseStep c o T d (f d)) (hrefl : ∀ u v, T u v u v)
    (htrans : ∀ u v u₁ v₁ u₂ v₂, T u v u₁ v₁ → T u₁ v₁ u₂ v₂ → T u v u₂ v₂)
    (hcomp : ∀ u v u₁ v₁ u₂ v₂, P u v u₁ v₁ → T u₁ v₁ u₂ v₂ → P' u v u₂ v₂) :
    t.wp orderRely OrderInv (fun _ w L _ d => Handling c o u P' w L d) w L s d := by
  refine Tx.wp_mono (Tx.wp_writes (fun d => caseStep_of_eq hrefl rfl rfl)
    (fun h h' => h.trans h' htrans) ht) ?_
  rintro _ w' L' s' d' ⟨g, hg, rfl, hL, -, hd⟩
  exact ⟨kept_lockedCase c o u hL hd h.known, fun d => (h.effect d).trans (hg (w d)) hcomp⟩

/-- A part that keeps the order's status. -/
theorem Handling.keep (h : Handling c o u OrderKept w L d) {α : Type} {t : Tx α}
    (ht : t.Writes (CaseWrite c o KeepsStatus)) :
    t.wp orderRely OrderInv (fun _ w L _ d => Handling c o u OrderKept w L d) w L s d :=
  h.then (T := OrderKept) (ht.mono fun _ hf d => hf.step (Q := KeepsStatus) (fun _ => rfl) d) (fun _ _ => rfl)
    (fun _ _ _ _ _ _ h h' => Eq.trans h' h) fun _ _ _ _ _ _ h h' => Eq.trans h' h

/-- A part about the order that keeps its status and leaves the case as it ended up. -/
theorem Handling.ended (h : Handling c o u CaseEnds w L d) {α : Type} {t : Tx α}
    (ht : t.Writes (OrderWrite o KeepsStatus)) :
    t.wp orderRely OrderInv (fun _ w L _ d => Handling c o u CaseEnds w L d) w L s d := by
  refine h.then (T := fun u v u' v' => u' = u ∧ v'.status = v.status)
    (ht.mono fun _ hf d => (hf.step (Q := KeepsStatus) (fun _ => rfl) d).caseStep fun _ _ _ h => ⟨rfl, h⟩)
    (fun _ _ => ⟨rfl, rfl⟩) (fun _ _ _ _ _ _ h h' => ⟨h'.1.trans h.1, h'.2.trans h.2⟩) ?_
  rintro u v u₁ v₁ u₂ v₂ (hs | ⟨hc, hw⟩) ⟨rfl, hs'⟩
  · exact Or.inl (hs'.trans hs)
  · refine Or.inr ⟨hc, fun hw' => hw ?_⟩
    rwa [Order.IsWaiting, hs'] at hw'

theorem Handling.mono (h : Handling c o u P w L d) (hP : ∀ u v u' v', P u v u' v' → P' u v u' v') :
    Handling c o u P' w L d :=
  ⟨h.known, fun d => (h.effect d).trans
    (caseStep_of_eq (P := fun u v u' v' => u' = u ∧ v' = v) (fun _ _ => ⟨rfl, rfl⟩) rfl rfl)
    fun u v u₁ v₁ _ _ h ⟨hu, hv⟩ => hu ▸ hv ▸ hP u v u₁ v₁ h⟩

/-- The case is closed. -/
theorem Handling.close (h : Handling c o u OrderKept w L d) {f : Dispute → Dispute}
    (hf : ∀ u, (f u).orderId = u.orderId) (hs : ∀ u, (f u).status ≠ .open_) :
    (modifyCase c f).wp orderRely OrderInv
      (fun _ w L _ d => Handling c o u CaseClosed w L d) w L s d :=
  ⟨h.known, fun d => (h.effect d).trans (caseStep_modifyDispute (c := c) (o := o) (f := f)
    (P := CaseClosed) hf (fun u _ => ⟨hs u, rfl⟩) (w d))
    fun _ _ _ _ _ _ h h' => ⟨h'.1, h'.2.trans h⟩⟩

/-- A part about the order between closing the case and closing the order. -/
theorem Handling.closed (h : Handling c o u CaseClosed w L d) {α : Type} {t : Tx α}
    (ht : t.Writes (OrderWrite o KeepsStatus)) :
    t.wp orderRely OrderInv (fun _ w L _ d => Handling c o u CaseClosed w L d) w L s d :=
  h.then (T := fun u v u' v' => u' = u ∧ v'.status = v.status)
    (ht.mono fun _ hf d => (hf.step (Q := KeepsStatus) (fun _ => rfl) d).caseStep fun _ _ _ h => ⟨rfl, h⟩)
    (fun _ _ => ⟨rfl, rfl⟩) (fun _ _ _ _ _ _ h h' => ⟨h'.1.trans h.1, h'.2.trans h.2⟩)
    fun _ _ _ _ _ _ h h' => ⟨h'.1 ▸ h.1, h'.2.trans h.2⟩

/-- The order is given its last status, once the case is closed. -/
theorem Handling.set (h : Handling c o u CaseClosed w L d) (cfg : Settings) {st : OrderStatus}
    (hst : st.IsTerminal ∨ st = .delivered) : (setOrderStatus cfg o st).wp orderRely OrderInv
      (fun _ w L _ d => Handling c o u CaseEnds w L d) w L s d := by
  refine ⟨h.known, fun d => (h.effect d).trans ((orderStep_modifyOrder (Q := EndsAs st)
    (f := Order.setStatus cfg st) (fun _ => rfl) (fun _ => rfl) (w d)).caseStep
    (P := fun u _ u' v' => u' = u ∧ v'.status = st) fun _ _ _ h => ⟨rfl, h⟩) ?_⟩
  rintro u v u₁ v₁ u₂ v₂ ⟨hc, -⟩ ⟨rfl, hs⟩
  refine Or.inr ⟨hc, fun hw => ?_⟩
  rw [Order.IsWaiting, hs] at hw
  rcases hst with hst | hst
  · exact hw.1 hst
  · exact hw.2 hst

/-- **What a transaction on an open case owes.** -/
theorem Handling.owes (h : Handling c o u CaseEnds w L d) (call : OrderCall)
    (hopen : u.status = .open_) : orderOwes call () w L s d := by
  intro d' hd' hI _
  obtain ⟨hc, ho, hu, hou⟩ := kept_lockedCase c o u (List.Subset.refl L) hd' h.known
  obtain ⟨v, hv, hs⟩ := hI.openCase c u hu hopen
  rw [hou] at hv
  have he := h.effect d'
  obtain ⟨u', v', hu', hv', hcase, ht, hends⟩ := he.row u v hu hv
  have hou' : u'.orderId = o := hcase.trans hou
  have hwait : ¬v'.IsWaiting := by
    rcases hends with hs' | ⟨-, hw⟩
    · exact fun hw => hw.2 (hs'.trans hs)
    · exact hw
  -- Another open case of the same order there is not.
  have hother : ∀ c₁ u₁, (w d').disputes.get? c₁ = some u₁ → u₁.status = .open_ →
      u₁.orderId = o → c₁ = c := by
    intro c₁ u₁ hu₁ hs₁ ho₁
    by_contra hne
    rw [he.disputes c₁ hne] at hu₁
    exact hne (hI.oneCase c₁ u₁ c u hu₁ hu hs₁ hopen (ho₁.trans hou.symm))
  refine ⟨⟨fun c₁ u₁ hu₁ hs₁ => ?_, fun c₁ u₁ c₂ u₂ hu₁ hu₂ hs₁ hs₂ h₁₂ => ?_, fun o₁ v₁ hv₁ hw => ?_⟩,
    hI.post fun o₁ v₁ hv₁ hterm => ?_, fun L' hdisj => ⟨fun o₁ ho₁ => ?_, fun c₁ hc₁ => ?_,
      fun o₁ hs₁ => ?_, fun o₁ ho₁ c₁ u₁ hu₁ hs₁ h₁ => ?_⟩⟩
  · by_cases ho₁ : u₁.orderId = o
    · obtain rfl := hother c₁ u₁ hu₁ hs₁ ho₁
      obtain rfl : u' = u₁ := by simpa [hu'] using hu₁
      refine ⟨v', ho₁ ▸ hv', ?_⟩
      rcases hends with hs' | ⟨hclosed, -⟩
      · exact hs'.trans hs
      · exact absurd hs₁ hclosed
    · have hne : c₁ ≠ c := by
        rintro rfl
        obtain rfl : u' = u₁ := by simpa [hu'] using hu₁
        exact ho₁ hou'
      rw [he.disputes c₁ hne] at hu₁
      rw [he.orders _ ho₁]
      exact hI.openCase c₁ u₁ hu₁ hs₁
  · by_cases ho₁ : u₁.orderId = o
    · rw [hother c₁ u₁ hu₁ hs₁ ho₁, hother c₂ u₂ hu₂ hs₂ (h₁₂ ▸ ho₁)]
    · have hne : ∀ c' u₃, (w d').disputes.get? c' = some u₃ → u₃.orderId ≠ o → c' ≠ c := by
        rintro c' u₃ hu₃ ho₃ rfl
        obtain rfl : u' = u₃ := by simpa [hu'] using hu₃
        exact ho₃ hou'
      rw [he.disputes c₁ (hne c₁ u₁ hu₁ ho₁)] at hu₁
      rw [he.disputes c₂ (hne c₂ u₂ hu₂ (h₁₂ ▸ ho₁))] at hu₂
      exact hI.oneCase c₁ u₁ c₂ u₂ hu₁ hu₂ hs₁ hs₂ h₁₂
  · by_cases ho₁ : o₁ = o
    · obtain rfl : v' = v₁ := by simpa [ho₁, hv'] using hv₁
      exact absurd hw hwait
    · rw [he.orders _ ho₁] at hv₁
      exact hI.unpaid o₁ v₁ hv₁ hw
  · by_cases ho₁ : o₁ = o
    · obtain rfl : v = v₁ := by simpa [ho₁, hv] using hv₁
      exact absurd hterm (open_of_delivered hs)
    · exact ⟨v₁, by rw [he.orders _ ho₁, hv₁], rfl⟩
  · exact he.orders o₁ fun h => hdisj _ ho (h ▸ ho₁)
  · exact he.disputes c₁ fun h => hdisj _ hc (h ▸ hc₁)
  · by_cases ho' : o₁ = o
    · rw [ho', hv']
      rfl
    · rwa [he.orders _ ho']
  · have hne : c₁ ≠ c := by
      rintro rfl
      obtain rfl : u' = u₁ := by simpa [hu'] using hu₁
      exact hdisj _ ho (hou'.symm.trans h₁ ▸ ho₁)
    rw [he.disputes c₁ hne] at hu₁
    exact ⟨u₁, hu₁, hs₁, h₁⟩

/-- The order is delivered again and the case closed. -/
theorem Handling.redeliver (h : Handling c o u P w L d) (cfg : Settings) {f : Dispute → Dispute}
    (hf : ∀ u, (f u).orderId = u.orderId) (hs : ∀ u, (f u).status ≠ .open_) : (do
      setOrderStatus cfg o .delivered
      modifyCase c f : Tx Unit).wp orderRely OrderInv
        (fun _ w L _ d => Handling c o u CaseEnds w L d) w L s d := by
  have hdel : ∀ d, CaseStep c o (fun _ _ _ v' => v'.status = .delivered) d
      (d.modifyOrder o (Order.setStatus cfg .delivered)) := fun d =>
    (orderStep_modifyOrder (Q := EndsAs .delivered) (f := Order.setStatus cfg .delivered)
      (fun _ => rfl) (fun _ => rfl) d).caseStep fun _ _ _ h => h
  have hclose : ∀ d, CaseStep c o (fun _ v u' v' => u'.status ≠ .open_ ∧ v' = v) d
      (d.modifyDispute c f) := caseStep_modifyDispute hf fun u _ => ⟨hs u, rfl⟩
  refine ⟨h.known, fun d => (h.effect d).trans ((hdel (w d)).trans (hclose _)
    fun _ _ _ _ _ _ h h' => (⟨h'.1, h'.2 ▸ h⟩ : _ ∧ _)) fun _ _ _ _ u' v' _ h' => ?_⟩
  exact Or.inr ⟨h'.1, fun hw => hw.2 h'.2⟩

/-- A case that only moved on, or was closed with the order as it was. -/
theorem Handling.ends_of_kept (h : Handling c o u OrderKept w L d) :
    Handling c o u CaseEnds w L d := h.mono fun _ _ _ _ => Or.inl

theorem Handling.ends_of_closed (h : Handling c o u CaseClosed w L d) :
    Handling c o u CaseEnds w L d := h.mono fun _ _ _ _ h => Or.inl h.2

theorem Handling.owes_of_kept (h : Handling c o u OrderKept w L d) (call : OrderCall)
    (hopen : u.status = .open_) : orderOwes call () w L s d := h.ends_of_kept.owes call hopen

end Handling

/-! ### Locking a case -/

section Locking

variable {R : Rely Db RowKey} {I : Db → Prop} {w : Db → Db} {L : List RowKey} {s : List Db}
  {d : Db} {c o : ℕ}

theorem wp_lockDispute {Q : Dispute → (Db → Db) → List RowKey → List Db → Db → Prop} :
    (lockDispute c).wp R I Q w L s d ↔ ∀ d', R.rel L d d' → I d' →
      ∀ u, (w d').disputes.get? c = some u → Q u w (.dispute c :: L) (w d' :: s) d' := by
  simp only [lockDispute, Tx.wp_bind, Tx.wp_lock, Tx.wp_getOrElse]

theorem wp_lockOpenCase {Q : Dispute → (Db → Db) → List RowKey → List Db → Db → Prop} :
    (lockOpenCase c).wp R I Q w L s d ↔ ∀ d', R.rel L d d' → I d' →
      ∀ u, (w d').disputes.get? c = some u → u.status = .open_ →
        Q u w (.dispute c :: L) (w d' :: s) d' := by
  simp only [lockOpenCase, Tx.wp_bind, wp_lockDispute, Tx.wp_require, Tx.wp_pure]

theorem openDispute_eq_some {u : Dispute} (h : d.openDispute o = some (c, u)) :
    d.disputes.get? c = some u ∧ u.orderId = o ∧ u.status = .open_ := by
  have hp := List.find?_some h
  simp only [decide_eq_true_eq] at hp
  exact ⟨Table.get?_eq_some_iff.mpr (List.mem_of_find?_eq_some h), hp⟩

theorem wp_lockOpenDispute {Q : ℕ × Dispute → (Db → Db) → List RowKey → List Db → Db → Prop} :
    (lockOpenDispute o).wp R I Q w L s d ↔ ∀ d', R.rel L d d' → I d' →
      ∀ r, (w d').openDispute o = some r → Q r w (.dispute r.1 :: L) (w d' :: s) d' := by
  rw [lockOpenDispute, Tx.wp_bind]
  refine forall_congr' fun d' => forall_congr' fun _ => forall_congr' fun _ => ?_
  refine Tx.wp_getOrElse.trans (forall_congr' fun r => imp_congr_right fun h => ?_)
  simp [h]

/-- A case, then its order. -/
theorem wp_openCaseOfOrder {t : Dispute → Order → Tx Unit}
    {Q : Unit → (Db → Db) → List RowKey → List Db → Db → Prop}
    (ht : ∀ u v L s d, u.status = .open_ → Handling c u.orderId u OrderKept id L d →
      (t u v).wp orderRely OrderInv Q id L s d) : (do
      let dispute ← lockOpenCase c
      let order ← lockOrderRow dispute.orderId
      t dispute order : Tx Unit).wp orderRely OrderInv Q id [] s d := by
  rw [Tx.wp_bind, wp_lockOpenCase]
  intro d₁ _ _ u hu hs
  rw [Tx.wp_bind, wp_lockOrderRow]
  intro d₂ hd₂ _ v _
  refine ht u v _ _ d₂ hs (handling_start ⟨by simp, by simp, ?_, rfl⟩)
  rw [hd₂.dispute c (by simp)]
  exact hu

/-- An order, then its open case. -/
theorem wp_openCaseUnderOrder {t : ℕ × Dispute → Tx Unit}
    {Q : Unit → (Db → Db) → List RowKey → List Db → Db → Prop} (hL : .order o ∈ L)
    (ht : ∀ c u s d, u.status = .open_ → Handling c o u OrderKept id (.dispute c :: L) d →
      (t (c, u)).wp orderRely OrderInv Q id (.dispute c :: L) s d) :
    (lockOpenDispute o >>= t).wp orderRely OrderInv Q id L s d := by
  rw [Tx.wp_bind, wp_lockOpenDispute]
  rintro d₁ _ _ ⟨c, u⟩ hcu
  obtain ⟨hu, ho, hs⟩ := openDispute_eq_some hcu
  exact ht c u _ d₁ hs (handling_start ⟨by simp, by simp [hL], hu, ho⟩)

theorem wp_lockBuyerOrder {b : ℕ} {Q : Order → (Db → Db) → List RowKey → List Db → Db → Prop} :
    (lockBuyerOrder o b).wp R I Q w L s d ↔ ∀ d', R.rel L d d' → I d' →
      ∀ v, (w d').orders.get? o = some v → v.buyerId = b →
        Q v w (.order o :: L) (w d' :: s) d' := by
  simp only [lockBuyerOrder, Tx.wp_bind, wp_lockOrderRow, Tx.wp_require, Tx.wp_pure]

end Locking

/-! ### The functions about a case -/

theorem orderId_offerResolutionDeadline (cfg : Settings) (u : Dispute) :
    (u.offerResolutionDeadline cfg).orderId = u.orderId := by
  rw [Dispute.offerResolutionDeadline]
  split_ifs <;> rfl

section Functions

variable {c o : ℕ} {u : Dispute} {w : Db → Db} {L : List RowKey} {s : List Db} {d : Db}

theorem Handling.finalize (h : Handling c o u OrderKept w L d) (cfg : Settings) (order : Order)
    {status : DisputeStatus} (hstatus : status ≠ .open_) (call : OrderCall)
    (hopen : u.status = .open_) : (finalizeDispute cfg c o order status).wp orderRely OrderInv
      (orderOwes call) w L s d := by
  rw [finalizeDispute, Tx.wp_bind]
  refine Tx.wp_mono (h.close (fun _ => rfl) fun u => ?_) fun _ w L s d h => ?_
  · change (if _ then _ else _ : DisputeStatus) ≠ _
    split_ifs
    · simp
    · exact hstatus
  rw [Tx.wp_bind]
  refine Tx.wp_mono (h.set cfg (Or.inl ?_)) fun _ w L s d h => ?_
  · split_ifs <;> simp [OrderStatus.IsTerminal]
  rw [Tx.wp_bind]
  refine Tx.wp_mono (h.ended (writes_payOut cfg o order)) fun _ w L s d h => ?_
  refine Tx.wp_mono (h.ended ?_) fun _ w L s d h => h.owes call hopen
  split_ifs
  · exact writes_clawbackPrograms cfg o
  · exact writes_applyPrograms cfg o order

theorem Handling.remedied (h : Handling c o u OrderKept w L d) (cfg : Settings) (order : Order)
    (call : OrderCall) (hopen : u.status = .open_) :
    (closeRemedy cfg c o order).wp orderRely OrderInv (orderOwes call) w L s d := by
  simp only [closeRemedy, currentOrder, Tx.wp_bind, Tx.wp_read]
  intro d₁ hd₁ _
  have h := h.stable (List.Subset.refl _) hd₁
  rw [Tx.wp_ite]
  refine ⟨fun _ => h.finalize cfg _ (by simp) call hopen, fun _ => ?_⟩
  rw [Tx.wp_bind, Tx.wp_read]
  intro d₂ hd₂ _
  refine Tx.wp_mono ((h.stable (List.Subset.refl _) hd₂).keep (Tx.writes_when
    (writes_modifyCase c o (orderId_offerResolutionDeadline cfg)))) fun _ w L s d h => ?_
  exact h.owes_of_kept call hopen

theorem acceptDisputeResolution_owes (cfg : Settings) (o b : ℕ) (call : OrderCall) (d : Db) :
    (acceptDisputeResolution cfg o b).wp orderRely OrderInv (orderOwes call) id [] [] d := by
  rw [acceptDisputeResolution, Tx.wp_bind, wp_lockBuyerOrder]
  intro d₁ _ _ v _ _
  refine wp_openCaseUnderOrder List.mem_cons_self fun c u s d hopen h => ?_
  simp only [Tx.wp_bind, Tx.wp_read, Tx.wp_require]
  intro d₂ hd₂ _ _ _ d₃ hd₃ _
  have h := (h.stable (List.Subset.refl _) hd₂).stable (List.Subset.refl _) hd₃
  refine h.finalize cfg v ?_ call hopen
  rw [Db.acceptedOutcome]
  split_ifs <;> simp

theorem withdrawDispute_owes (cfg : Settings) (o b : ℕ) (call : OrderCall) (d : Db) :
    (withdrawDispute cfg o b).wp orderRely OrderInv (orderOwes call) id [] [] d := by
  rw [withdrawDispute, Tx.wp_bind, wp_lockBuyerOrder]
  intro d₁ _ _ v _ _
  refine wp_openCaseUnderOrder List.mem_cons_self fun c u s d hopen h => ?_
  simp only [Tx.wp_bind, Tx.wp_read, Tx.wp_require]
  intro d₂ hd₂ _ _
  refine Tx.wp_mono ((h.stable (List.Subset.refl _) hd₂).close (fun _ => rfl) fun _ => by
    simp [Dispute.resolve, Dispute.clearResolutionDeadline]) fun _ w L s d h => ?_
  rw [Tx.wp_when]
  refine ⟨fun _ => ?_, fun _ => h.ends_of_closed.owes call hopen⟩
  rw [Tx.wp_bind]
  refine Tx.wp_mono (h.closed (writes_payOut cfg o v)) fun _ w L s d h => ?_
  rw [Tx.wp_bind]
  refine Tx.wp_mono (h.set cfg (Or.inl (Or.inr (Or.inr rfl)))) fun _ w L s d h => ?_
  exact Tx.wp_mono (h.ended (writes_applyPrograms cfg o v)) fun _ w L s d h => h.owes call hopen

theorem requestMarketplaceReview_owes (cfg : Settings) (o a : ℕ) (call : OrderCall) (d : Db) :
    (requestMarketplaceReview cfg o a).wp orderRely OrderInv (orderOwes call) id [] [] d := by
  rw [requestMarketplaceReview, Tx.wp_bind, wp_lockOrderRow]
  intro d₁ _ _ v _
  rw [Tx.wp_bind, Tx.wp_require]
  intro _
  refine wp_openCaseUnderOrder List.mem_cons_self fun c u s d hopen h => ?_
  refine Tx.wp_mono (h.keep (Tx.writes_when (writes_modifyCase c o fun u => ?_)))
    fun _ w L s d h => h.owes_of_kept call hopen
  split_ifs <;> rfl

theorem appendClaimBatch_owes (cfg : Settings) (o b : ℕ) (resourceIds lineNos : List ℕ)
    (key : String) (call : OrderCall) (d : Db) :
    (appendClaimBatch cfg o b resourceIds lineNos key).wp orderRely OrderInv (orderOwes call) id []
      [] d := by
  rw [appendClaimBatch, Tx.wp_bind, wp_lockBuyerOrder]
  intro d₁ _ _ v _ _
  rw [Tx.wp_bind, Tx.wp_require]
  intro _
  refine wp_openCaseUnderOrder List.mem_cons_self fun c u s d hopen h => ?_
  refine Tx.wp_mono (h.keep ?_) fun _ w L s d h => h.owes_of_kept call hopen
  exact .bind (Tx.writes_read _) fun _ => .bind (Tx.writes_require _ _) fun _ =>
    .bind (writes_addClaims cfg c o _ _ _ (fun _ => .claimResource _) fun _ => .claimProxy _)
      fun _ => writes_modifyCase c o fun _ => rfl

theorem sellerRespondDispute_owes (cfg : Settings) (c seller : ℕ) (note : String)
    (call : OrderCall) (d : Db) :
    (sellerRespondDispute cfg c seller note).wp orderRely OrderInv (orderOwes call) id [] [] d := by
  rw [sellerRespondDispute, Tx.wp_bind, wp_lockOpenCase]
  intro d₁ _ _ u hu hopen
  simp only [Tx.wp_bind, wp_lockOrder, Tx.wp_getOrElse, Tx.wp_require, Tx.wp_read]
  intro d₂ hd₂ _ v _ _ d₃ hd₃ _
  have h : Handling c u.orderId u OrderKept id (.order u.orderId :: .dispute c :: []) d₂ :=
    handling_start ⟨by simp, by simp, by rw [hd₂.dispute c (by simp)]; exact hu, rfl⟩
  refine Tx.wp_mono ((h.stable (List.Subset.refl _) hd₃).keep (writes_modifyCase c u.orderId
    fun u => ?_)) fun _ w L s d h => h.owes_of_kept call hopen
  split_ifs
  · exact orderId_offerResolutionDeadline cfg _
  · rfl

theorem writes_claimedOriginals (c o : ℕ) (resourceIds : List ℕ) {P : (Db → Db) → Prop} :
    (claimedOriginals c o resourceIds).Writes P :=
  .bind (writes_lockOrderResources o _) fun _ => .bind (Tx.writes_require _ _) fun _ =>
    .bind (Tx.writes_read _) fun _ => .bind (Tx.writes_require _ _) fun _ =>
    .bind (Tx.writes_read _) fun _ => .bind (Tx.writes_require _ _) fun _ =>
    .bind (Tx.writes_require _ _) fun _ => Tx.writes_pure _

theorem writes_refundableLines (c o : ℕ) (lineNos : List ℕ) (role : ActorRole)
    {P : (Db → Db) → Prop} : (refundableLines c o lineNos role).Writes P :=
  .bind (writes_lockOrderAllocations o _) fun _ => .bind (Tx.writes_require _ _) fun _ =>
    .bind (Tx.writes_read _) fun _ => .bind (Tx.writes_read _) fun _ =>
    .bind (Tx.writes_require _ _) fun _ => .bind (Tx.writes_require _ _) fun _ =>
    .bind (Tx.writes_require _ _) fun _ => Tx.writes_pure _

theorem Handling.refundProxyLines (h : Handling c o u OrderKept w L d) (cfg : Settings)
    (order : Order) (lineNos : List ℕ) (key : String) (role : ActorRole) (note : Option String)
    (call : OrderCall) (hopen : u.status = .open_) :
    (Marketplace.refundProxyLines cfg c o order lineNos key role note).wp orderRely OrderInv
      (orderOwes call) w L s d := by
  have hks : ∀ v v', KeepsStatus v v' → KeepsStatus v v' := fun _ _ => id
  rw [Marketplace.refundProxyLines, Tx.wp_bind]
  refine Tx.wp_mono (h.keep (writes_refundableLines c o _ _)) fun lines w L s d h => ?_
  rw [Tx.wp_bind]
  refine Tx.wp_mono (h.keep (Tx.writes_when (writes_refundCase cfg c o hks _ _ _)))
    fun _ w L s d h => ?_
  rw [Tx.wp_bind]
  refine Tx.wp_mono (h.keep (Tx.writes_forEach fun a => ?_)) fun _ w L s d h => ?_
  · exact .bind (Tx.writes_modify.mpr (.order (.allocation _ _))) fun _ =>
      .bind (Tx.writes_read _) fun _ => .bind (Tx.writes_require _ _) fun _ =>
        Tx.writes_modify.mpr (.proxyAction _)
  rw [Tx.wp_bind]
  refine Tx.wp_mono (h.keep (writes_rebuildDeliveredData c o hks)) fun _ w L s d h => ?_
  rw [Tx.wp_bind]
  refine Tx.wp_mono (h.keep (Tx.writes_when (writes_modifyCase c o fun _ => rfl)))
    fun _ w L s d h => ?_
  exact h.remedied cfg order call hopen

/-- A case the seller or an administrator names: it is locked, then its order. -/
theorem handling_named {w : Db → Db} (hw : w = id) {u : Dispute} {d₁ d₂ : Db}
    (hu : (w d₁).disputes.get? c = some u) (hd : OrderRel [.dispute c] d₁ d₂) :
    Handling c u.orderId u OrderKept id (.order u.orderId :: .dispute c :: []) d₂ := by
  subst hw
  exact handling_start ⟨by simp, by simp, by rw [hd.dispute c (by simp)]; exact hu, rfl⟩

theorem sellerResolveResources_owes (cfg : Settings) (skipped : List ℕ) (c seller : ℕ)
    (resourceIds : List ℕ) (action : RemedyAction) (replacementIds : Option (List ℕ)) (key : String)
    (note : Option String) (call : OrderCall) (d : Db) :
    (sellerResolveResources cfg skipped c seller resourceIds action replacementIds key note).wp
      orderRely OrderInv (orderOwes call) id [] [] d := by
  have hks : ∀ v v', KeepsStatus v v' → KeepsStatus v v' := fun _ _ => id
  rw [sellerResolveResources, Tx.wp_bind, wp_lockDispute]
  intro d₁ _ _ u hu
  rw [Tx.wp_bind, wp_lockOrder]
  intro d₂ hd₂ _
  have h := handling_named rfl hu hd₂
  rw [Tx.wp_bind, Tx.wp_getOrElse]
  intro v _
  rw [Tx.wp_bind, Tx.wp_require]
  intro _
  rw [Tx.wp_bind]
  refine Tx.wp_mono (h.keep (writes_modifyCase c u.orderId fun _ => rfl)) fun _ w L s d h => ?_
  rw [Tx.wp_bind]
  refine Tx.wp_mono (h.keep (Tx.writes_read _)) fun prior w L s d h => ?_
  rw [Tx.wp_bind, Tx.wp_require]
  intro _
  rw [Tx.wp_bind, Tx.wp_require]
  intro hopen
  rw [Tx.wp_bind]
  refine Tx.wp_mono (h.keep (Tx.writes_read _)) fun found w L s d h => ?_
  rw [Tx.wp_bind, Tx.wp_getOrElse]
  rintro ⟨variantId, variant⟩ _
  rw [Tx.wp_bind, Tx.wp_require]
  intro _
  rw [Tx.wp_bind]
  refine Tx.wp_mono (h.keep (writes_claimedOriginals c u.orderId _)) fun originals w L s d h => ?_
  rw [Tx.wp_bind]
  refine Tx.wp_mono (h.keep (writes_remedyResources cfg c u.orderId hks _ _ _ _ _ _ _ _ _))
    fun _ w L s d h => ?_
  rw [Tx.wp_bind]
  refine Tx.wp_mono (h.keep (Tx.writes_modify.mpr (.order (.order _ (fun _ => rfl) fun _ => rfl))))
    fun _ w L s d h => ?_
  rw [Tx.wp_bind]
  refine Tx.wp_mono (h.keep (Tx.writes_when (writes_modifyCase c u.orderId fun _ => rfl)))
    fun _ w L s d h => ?_
  exact h.remedied cfg v call hopen

theorem sellerResolveProxies_owes (cfg : Settings) (c seller : ℕ) (lineNos : List ℕ) (key : String)
    (note : Option String) (call : OrderCall) (d : Db) :
    (sellerResolveProxies cfg c seller lineNos key note).wp orderRely OrderInv (orderOwes call) id []
      [] d := by
  rw [sellerResolveProxies, Tx.wp_bind, wp_lockDispute]
  intro d₁ _ _ u hu
  rw [Tx.wp_bind, wp_lockOrder]
  intro d₂ hd₂ _
  have h := handling_named rfl hu hd₂
  rw [Tx.wp_bind, Tx.wp_getOrElse]
  intro v _
  rw [Tx.wp_bind, Tx.wp_require]
  intro _
  rw [Tx.wp_bind]
  refine Tx.wp_mono (h.keep (Tx.writes_read _)) fun prior w L s d h => ?_
  rw [Tx.wp_bind, Tx.wp_require]
  intro _
  rw [Tx.wp_bind, Tx.wp_require]
  intro hopen
  rw [Tx.wp_bind]
  refine Tx.wp_mono (h.keep (writes_modifyCase c u.orderId fun _ => rfl)) fun _ w L s d h => ?_
  exact h.refundProxyLines cfg v lineNos key _ note call hopen

theorem adminRefundProxies_owes (cfg : Settings) (c : ℕ) (lineNos : List ℕ) (key : String)
    (note : Option String) (call : OrderCall) (d : Db) :
    (adminRefundProxies cfg c lineNos key note).wp orderRely OrderInv (orderOwes call) id [] [] d := by
  rw [adminRefundProxies, Tx.wp_bind, wp_lockDispute]
  intro d₁ _ _ u hu
  rw [Tx.wp_bind, wp_lockOrderRow]
  intro d₂ hd₂ _ v _
  have h := handling_named rfl hu hd₂
  rw [Tx.wp_bind]
  refine Tx.wp_mono (h.keep (Tx.writes_read _)) fun prior w L s d h => ?_
  rw [Tx.wp_bind, Tx.wp_require]
  intro _
  rw [Tx.wp_bind, Tx.wp_require]
  intro hopen
  exact h.refundProxyLines cfg v lineNos key _ note call hopen

theorem refundDispute_owes (cfg : Settings) (c : ℕ) (call : OrderCall) (d : Db) :
    (refundDispute cfg c).wp orderRely OrderInv (orderOwes call) id [] [] d := by
  refine wp_openCaseOfOrder fun u v L s d hopen h => ?_
  rw [Tx.wp_bind]
  refine Tx.wp_mono (h.close (fun _ => rfl) fun _ => by simp [Dispute.resolve])
    fun _ w L s d h => ?_
  rw [Tx.wp_bind]
  refine Tx.wp_mono (h.set cfg (Or.inl (Or.inr (Or.inl rfl)))) fun _ w L s d h => ?_
  refine Tx.wp_mono (h.ended ?_) fun _ w L s d h => h.owes call hopen
  exact .bind (Tx.writes_when (writes_refund cfg u.orderId (fun _ _ => id) _ _ _)) fun _ =>
    writes_clawbackPrograms cfg u.orderId

theorem rejectDispute_owes (cfg : Settings) (c : ℕ) (call : OrderCall) (d : Db) :
    (rejectDispute cfg c).wp orderRely OrderInv (orderOwes call) id [] [] d := by
  refine wp_openCaseOfOrder fun u v L s d hopen h => ?_
  rw [Tx.wp_bind]
  refine Tx.wp_mono (h.close (fun _ => rfl) fun _ => by simp [Dispute.resolve])
    fun _ w L s d h => ?_
  rw [Tx.wp_bind]
  refine Tx.wp_mono (h.set cfg (Or.inl (Or.inr (Or.inr rfl)))) fun _ w L s d h => ?_
  refine Tx.wp_mono (h.ended ?_) fun _ w L s d h => h.owes call hopen
  exact .bind (writes_payOut cfg u.orderId v) fun _ => writes_applyPrograms cfg u.orderId v

theorem partialRefundDispute_owes (cfg : Settings) (c : ℕ) (x : ℤ) (call : OrderCall) (d : Db) :
    (partialRefundDispute cfg c x).wp orderRely OrderInv (orderOwes call) id [] [] d := by
  refine wp_openCaseOfOrder fun u v L s d hopen h => ?_
  rw [Tx.wp_bind, Tx.wp_require]
  intro _
  rw [Tx.wp_bind]
  refine Tx.wp_mono (h.close (fun _ => rfl) fun _ => by simp [Dispute.resolve])
    fun _ w L s d h => ?_
  rw [Tx.wp_bind]
  refine Tx.wp_mono (h.set cfg (Or.inl (Or.inr (Or.inr rfl)))) fun _ w L s d h => ?_
  refine Tx.wp_mono (h.ended ?_) fun _ w L s d h => h.owes call hopen
  exact .bind (writes_refund cfg u.orderId (fun _ _ => id) _ _ _) fun _ =>
    .bind (Tx.writes_read _) fun order => .bind (writes_payOut cfg u.orderId order) fun _ =>
      writes_applyPrograms cfg u.orderId order

theorem replaceDispute_owes (cfg : Settings) (skipped : List ℕ) (c : ℕ) (call : OrderCall)
    (d : Db) : (replaceDispute cfg skipped c).wp orderRely OrderInv (orderOwes call) id [] [] d := by
  refine wp_openCaseOfOrder fun u v L s d hopen h => ?_
  rw [Tx.wp_bind]
  refine Tx.wp_mono (h.keep (Tx.writes_read _)) fun found w L s d h => ?_
  rw [Tx.wp_bind, Tx.wp_getOrElse]
  rintro ⟨variantId, variant⟩ _
  rw [Tx.wp_bind, Tx.wp_require]
  intro _
  rw [Tx.wp_bind]
  refine Tx.wp_mono (h.keep (Tx.writes_read _)) fun remedied w L s d h => ?_
  rw [Tx.wp_bind, Tx.wp_require]
  intro _
  rw [Tx.wp_bind]
  refine Tx.wp_mono (h.keep (Tx.writes_read _)) fun old w L s d h => ?_
  rw [Tx.wp_bind, Tx.wp_require]
  intro _
  rw [Tx.wp_bind]
  refine Tx.wp_mono (h.keep (Tx.writes_forEach fun r => Tx.writes_modify.mpr
    (.order (.resource _ _)))) fun _ w L s d h => ?_
  rw [Tx.wp_bind]
  refine Tx.wp_mono (h.keep ((writes_claimResources cfg u.orderId _ _ _ _).mono fun _ => .order))
    fun ids w L s d h => ?_
  rw [Tx.wp_bind]
  refine Tx.wp_mono (h.keep ((writes_setCaps u.orderId ids _).mono fun _ => .order))
    fun _ w L s d h => ?_
  rw [Tx.wp_bind]
  refine Tx.wp_mono (h.keep (Tx.writes_modify.mpr (.order (.order _ (fun _ => rfl) fun _ => rfl))))
    fun _ w L s d h => ?_
  refine Tx.wp_mono (h.redeliver cfg (fun _ => rfl) fun _ => ?_) fun _ w L s d h =>
    h.owes call hopen
  simp [Dispute.resolve]

theorem extendWarrantyDispute_owes (cfg : Settings) (c days : ℕ) (call : OrderCall) (d : Db) :
    (extendWarrantyDispute cfg c days).wp orderRely OrderInv (orderOwes call) id [] [] d := by
  rw [extendWarrantyDispute, Tx.wp_bind, wp_lockOpenCase]
  intro d₁ _ _ u hu hopen
  rw [Tx.wp_bind, Tx.wp_require]
  intro _
  rw [Tx.wp_bind, wp_lockOrderRow]
  intro d₂ hd₂ _ v _
  have h := handling_named rfl hu hd₂
  rw [Tx.wp_bind]
  refine Tx.wp_mono (h.keep (Tx.writes_modify.mpr (.order (.order _ (fun _ => rfl) fun _ => rfl))))
    fun _ w L s d h => ?_
  refine Tx.wp_mono (h.redeliver cfg (fun _ => rfl) fun _ => ?_) fun _ w L s d h =>
    h.owes call hopen
  simp [Dispute.resolve]

/-! ### The jobs -/

/-- An order of a batch, with its open case. -/
theorem wp_settleDue {resolve : ℕ → Dispute → Tx Unit} {call : OrderCall}
    (ht : ∀ c u L s d, u.status = .open_ → Handling c o u OrderKept id L d →
      (resolve c u).wp orderRely OrderInv (orderOwes call) id L s d) :
    (settleDue o resolve).wp orderRely OrderInv (orderOwes call) id [] [] d := by
  rw [settleDue, Tx.wp_bind, wp_lockOpenDispute]
  rintro d₁ _ _ ⟨c, u⟩ hcu
  obtain ⟨hu, ho, hs⟩ := openDispute_eq_some hcu
  subst ho
  rw [Tx.wp_bind, wp_lockOrder]
  intro d₂ hd₂ _
  exact ht c u _ _ d₂ hs (handling_named rfl hu hd₂)

theorem disputeResolutionTimeout_owes (cfg : Settings) (o : ℕ) (order : Order) (call : OrderCall)
    (d : Db) :
    (disputeResolutionTimeout cfg o order).wp orderRely OrderInv (orderOwes call) id [] [] d := by
  refine wp_settleDue fun c u L s d hopen h => ?_
  rw [resolveAfterResponseTimeout, Tx.wp_bind, Tx.wp_require]
  exact fun _ => h.finalize cfg order (by simp) call hopen

theorem disputeAbandonment_owes (cfg : Settings) (o : ℕ) (order : Order) (call : OrderCall)
    (d : Db) :
    (disputeAbandonment cfg o order).wp orderRely OrderInv (orderOwes call) id [] [] d := by
  refine wp_settleDue fun c u L s d hopen h => ?_
  simp only [resolveAbandonedDispute, Tx.wp_bind, Tx.wp_read, Tx.wp_require]
  intro d₁ hd₁ _ _
  exact (h.stable (List.Subset.refl _) hd₁).finalize cfg order (by simp) call hopen

theorem disputeSellerTimeout_owes (cfg : Settings) (o : ℕ) (order : Order) (call : OrderCall)
    (d : Db) :
    (disputeSellerTimeout cfg o order).wp orderRely OrderInv (orderOwes call) id [] [] d := by
  refine wp_settleDue fun c u L s d hopen h => ?_
  rw [resolveAfterSellerTimeout, Tx.wp_bind, Tx.wp_require]
  intro _
  rw [Tx.wp_ite]
  refine ⟨fun _ => ?_, fun _ => h.finalize cfg order (by simp) call hopen⟩
  rw [Tx.wp_bind]
  refine Tx.wp_mono (h.keep (writes_refundCase cfg c o (fun _ _ => id) _ _ _)) fun _ w L s d h => ?_
  rw [Tx.wp_bind]
  refine Tx.wp_mono (h.keep (Tx.writes_read _)) fun order' w L s d h => ?_
  exact h.finalize cfg order' (by simp) call hopen

end Functions

/-! ### Opening a case -/

/-- An order without an open case is locked, delivered, and the case's number is free. -/
def Openable (c o : ℕ) (L : List RowKey) (d : Db) : Prop :=
  (.order o ∈ L ∧ .dispute c ∈ L) ∧ (∃ v, d.orders.get? o = some v ∧ v.status = .delivered) ∧
    d.NoCase o ∧ d.disputes.get? c = none

theorem kept_openable (c o : ℕ) : Kept (Openable c o) := by
  rintro L L' d d' hL hd ⟨⟨ho, hc⟩, ⟨v, hv, hs⟩, hno, hn⟩
  refine ⟨⟨hL ho, hL hc⟩, ⟨v, by rw [hd.order o ho, hv], hs⟩, fun c₁ u₁ hu₁ hs₁ ho₁ => ?_,
    by rw [hd.dispute c hc, hn]⟩
  obtain ⟨u₂, hu₂, hs₂, ho₂⟩ := hd.openCase o ho c₁ u₁ hu₁ hs₁ ho₁
  exact hno c₁ u₂ hu₂ hs₂ ho₂

/-- **What opening a case owes.** -/
theorem owes_of_opened {c o : ℕ} {u : Dispute} {w : Db → Db} {L : List RowKey} {s : List Db} {d : Db}
    (h : Openable c o L d) (hu : u.orderId = o)
    (hw : ∀ d, (w d).orders = d.orders ∧ (w d).disputes = (d.insertDispute c u).disputes)
    (call : OrderCall) : orderOwes call () w L s d := by
  intro d' hd' hI _
  obtain ⟨⟨ho, hc⟩, ⟨v, hv, hs⟩, hno, hn⟩ := kept_openable c o (List.Subset.refl L) hd' h
  obtain ⟨horders, hdisputes⟩ := hw d'
  rw [Db.insertDispute_disputes] at hdisputes
  have hself : (w d').disputes.get? c = some u := by rw [hdisputes, Table.get?_insert_self hn]
  have hother : ∀ c₁, c₁ ≠ c → (w d').disputes.get? c₁ = d'.disputes.get? c₁ := fun c₁ hc₁ => by
    rw [hdisputes, Table.get?_insert_of_ne hc₁]
  refine ⟨⟨fun c₁ u₁ hu₁ hs₁ => ?_, fun c₁ u₁ c₂ u₂ hu₁ hu₂ hs₁ hs₂ h₁₂ => ?_, fun o₁ v₁ => ?_⟩,
    hI.post fun o₁ v₁ hv₁ _ => ⟨v₁, by rw [horders, hv₁], rfl⟩, fun L' hdisj => ⟨fun o₁ _ => by
      rw [horders], fun c₁ hc₁ => hother c₁ fun he => hdisj _ hc (he ▸ hc₁), fun o₁ => ?_,
      fun o₁ ho₁ c₁ u₁ hu₁ hs₁ h₁ => ?_⟩⟩
  · rw [horders]
    by_cases he : c₁ = c
    · obtain rfl : u = u₁ := by simpa [he, hself] using hu₁
      exact ⟨v, hu ▸ hv, hs⟩
    · exact hI.openCase c₁ u₁ (hother c₁ he ▸ hu₁) hs₁
  · -- Another open case is of another order.
    have hold : ∀ c₃ u₃, (w d').disputes.get? c₃ = some u₃ → u₃.status = .open_ → c₃ ≠ c →
        u₃.orderId ≠ o := fun c₃ u₃ h₃ hs₃ hne => hno c₃ u₃ (hother c₃ hne ▸ h₃) hs₃
    have hnew : ∀ u₃, (w d').disputes.get? c = some u₃ → u₃.orderId = o := fun u₃ h₃ => by
      obtain rfl : u = u₃ := by simpa [hself] using h₃
      exact hu
    by_cases he₁ : c₁ = c <;> by_cases he₂ : c₂ = c
    · rw [he₁, he₂]
    · exact absurd (h₁₂ ▸ hnew u₁ (he₁ ▸ hu₁)) (hold c₂ u₂ hu₂ hs₂ he₂)
    · exact absurd (h₁₂ ▸ hnew u₂ (he₂ ▸ hu₂)) (hold c₁ u₁ hu₁ hs₁ he₁)
    · exact hI.oneCase c₁ u₁ c₂ u₂ (hother c₁ he₁ ▸ hu₁) (hother c₂ he₂ ▸ hu₂) hs₁ hs₂ h₁₂
  · rw [horders]
    exact hI.unpaid o₁ v₁
  · rw [horders]
    exact id
  · by_cases he : c₁ = c
    · obtain rfl : u = u₁ := by simpa [he, hself] using hu₁
      exact absurd ho₁ (hdisj _ (h₁ ▸ hu ▸ ho))
    · exact ⟨u₁, hother c₁ he ▸ hu₁, hs₁, h₁⟩

theorem createDispute_owes (cfg : Settings) (c o b : ℕ) (resourceIds lineNos : List ℕ)
    (key : Option String) (call : OrderCall) (d : Db) :
    (createDispute cfg c o b resourceIds lineNos key).wp orderRely OrderInv (orderOwes call) id [] []
      d := by
  rw [createDispute, Tx.wp_bind, wp_lockBuyerOrder]
  intro d₁ _ _ v hv _
  rw [Tx.wp_bind, Tx.wp_read]
  intro d₂ hd₂ _
  have h : Moving o v False (fun v v' => v = v') id (.order o :: []) d₂ :=
    (moving_of_locked hv).stable (List.Subset.refl _) hd₂
  rcases hcase : (id d₂).openDispute o with _ | ⟨e, u⟩
  · have h := h.withoutCase hcase
    simp only [addDispute, Tx.wp_bind, Tx.wp_require, Tx.wp_read, wp_insertRow, id]
    intro hs _ _ d₃ hd₃ _ _ d₄ hd₄ _ hfree
    obtain ⟨hlock, hrow, hno⟩ :=
      ((h.stable (List.Subset.refl _) hd₃).stable (List.Subset.refl _) hd₄).known
    have hopen : Openable c o (.dispute c :: .order o :: []) d₄ :=
      ⟨⟨by simp, by simp⟩, ⟨v, hrow, hs⟩, hno trivial, hfree⟩
    refine Tx.wp_mono (Tx.wp_frame (P := KeepsOrders) (fun _ => ⟨rfl, rfl⟩) (fun f g hf hg d =>
      ⟨(hg (f d)).1.trans (hf d).1, (hg (f d)).2.trans (hf d).2⟩) (writes_addClaims cfg c o _ _ _
        (fun _ _ => ⟨rfl, rfl⟩) fun _ _ => ⟨rfl, rfl⟩)) ?_
    rintro _ w L s d ⟨g, hg, rfl, hL, -, hd⟩
    refine owes_of_opened (kept_openable c o hL hd hopen) ?_ (fun d => hg (d.insertDispute c _)) call
    rfl
  · rw [Tx.wp_bind, Tx.wp_read]
    intro d₃ _ _
    exact trivial

end Marketplace
