import Marketplace.Affiliate.Budget

/-!
# Payouts within the fund and the cap

Every call that settles an order keeps the books of the affiliate programme (`KeepsBooks`), and so do
the administrators' top-ups. `payouts_within_fund_and_cap` is what follows for every run.

The cap holds for windows that are shorter than a day by the time a settlement may take:
`cap_exceeded_over_delay` is a run in which two commissions fall into one day although one a day is
allowed.
-/

namespace Marketplace

open Sql

/-! ### Footprints of the remedies -/

section RemedyFootprints

variable {S : ℕ → Prop} (cfg : Settings) (c o : ℕ)

theorem quiet_modifyResource (r : ℕ) (f : Resource → Resource) :
    (Tx.modify (Db.modifyResource r f) : Tx Unit).Writes fun f => ∀ d, FundQuiet S d (f d) :=
  quiet_modify fun _ => fundQuiet_of_eq rfl rfl rfl rfl rfl rfl

theorem quiet_claimResources (skipped : List ℕ) (variantId quantity : ℕ)
    (durationDays : Option ℕ) :
    (claimResources cfg skipped variantId quantity o durationDays).Writes fun f => ∀ d,
      FundQuiet S d (f d) := by
  refine .bind (.bind (fun _ => Tx.writes_pure _) fun ids => ?_) fun _ => Tx.writes_getOrElse _ _
  split_ifs
  · exact Tx.writes_pure _
  · exact .bind (Tx.writes_forEach fun _ => quiet_modifyResource _ _) fun _ => Tx.writes_pure _

theorem quiet_chooseReplacements (skipped : List ℕ) (seller variantId count : ℕ)
    (durationDays : Option ℕ) (ids : Option (List ℕ)) :
    (chooseReplacements cfg skipped o seller variantId count durationDays ids).Writes fun f => ∀ d,
      FundQuiet S d (f d) := by
  rcases ids with _ | ids
  · exact quiet_claimResources cfg o _ _ _ _
  · exact .bind (Tx.writes_require _ _) fun _ => .bind (fun _ => Tx.writes_pure _) fun _ =>
      .bind (Tx.writes_require _ _) fun _ =>
      .bind (Tx.writes_forEach fun _ => quiet_modifyResource _ _) fun _ => Tx.writes_pure _

theorem quiet_recordResourceAction (key : String) (action : RemedyAction)
    (original : ℕ × Resource) (replacement : Option ℕ) :
    (recordResourceAction c key action original replacement).Writes fun f => ∀ d,
      FundQuiet S d (f d) :=
  .bind (quiet_modifyResource _ _) fun _ => .bind (Tx.writes_read _) fun _ =>
    .bind (Tx.writes_require _ _) fun _ =>
      quiet_modify fun _ => fundQuiet_of_eq rfl rfl rfl rfl rfl rfl

theorem quiet_remedyResources (skipped : List ℕ) (seller : ℕ) (order : Order) (variantId : ℕ)
    (variant : ProductVariant) (originals : List (ℕ × Resource)) (ids : Option (List ℕ))
    (key : String) (action : RemedyAction) :
    (remedyResources cfg skipped c o seller order variantId variant originals ids key action).Writes
      fun f => ∀ d, FundQuiet S d (f d) := by
  cases action with
  | replace =>
    exact .bind (quiet_chooseReplacements cfg o _ _ _ _ _ _) fun _ =>
      .bind (Tx.writes_forEach fun _ => quiet_modifyResource _ _) fun _ =>
        Tx.writes_forEach fun _ => quiet_recordResourceAction c _ _ _ _
  | refund =>
    exact .bind (Tx.writes_when (quiet_refundEscrow cfg o _ _ _)) fun _ =>
      Tx.writes_forEach fun _ => quiet_recordResourceAction c _ _ _ _

theorem quiet_orderRow {f : Order → Order} (hf : ∀ v, (f v).status = v.status) :
    (Tx.modify (Db.modifyOrder o f) : Tx Unit).Writes fun f => ∀ d, FundQuiet S d (f d) :=
  quiet_modify fun _ => fundQuiet_modifyOrder o hf

theorem quiet_rebuildDeliveredData :
    (rebuildDeliveredData o).Writes fun f => ∀ d, FundQuiet S d (f d) :=
  .bind (Tx.writes_read _) fun _ => Tx.writes_when (quiet_orderRow o fun _ => rfl)

theorem quiet_releaseManualStock (order : Order) :
    (releaseManualStock o order).Writes fun f => ∀ d, FundQuiet S d (f d) := by
  rw [releaseManualStock]
  split
  · exact Tx.writes_pure _
  · exact Tx.writes_when (.bind (Tx.writes_lock _ _) fun _ =>
      .bind (quiet_modify fun _ => fundQuiet_of_eq rfl rfl rfl rfl rfl rfl) fun _ =>
        quiet_orderRow o fun _ => rfl)

/-- What `_refund_proxy_lines` does before it closes the remedy. -/
theorem quiet_releaseLines (allocations : List (ℕ × ProxyAllocation)) (key : String)
    (role : ActorRole) : (Tx.forEach allocations fun a => do
      Tx.modify (Db.modifyAllocation a.1 fun v => { v with status := .released })
      addProxyAction ⟨c, a.1, a.2.refundAmountCap.getD 0, key, role⟩ : Tx Unit).Writes
        fun f => ∀ d, FundQuiet S d (f d) :=
  Tx.writes_forEach fun _ => .bind (quiet_modify fun _ => fundQuiet_of_eq rfl rfl rfl rfl rfl rfl)
    fun _ => .bind (Tx.writes_read _) fun _ => .bind (Tx.writes_require _ _) fun _ =>
      quiet_modify fun _ => fundQuiet_of_eq rfl rfl rfl rfl rfl rfl

end RemedyFootprints

/-! ### Locking an order and its case -/

section Locks

variable {p : Programme} {c o : ℕ} {v : Order} {u : Dispute} {L : List RowKey} {s : List Db}
  {d : Db} {Q : Unit → (Db → Db) → List RowKey → List Db → Db → Prop}

/-- While a case is open its order is not closed. -/
theorem OrderInv.open_of_case (hI : OrderInv d) (hu : d.disputes.get? c = some u)
    (hs : u.status = .open_) (hv : d.orders.get? u.orderId = some v) : ¬v.status.IsTerminal := by
  obtain ⟨v', hv', hdelivered⟩ := hI.openCase c u hu hs
  obtain rfl : v = v' := by simpa [hv] using hv'
  exact open_of_delivered hdelivered

/-- A case, then its order. -/
theorem wp_caseThenOrder {t : Dispute → Order → Tx Unit}
    (ht : ∀ u v L s d, Settling u.orderId v False False id L d →
      (u.status = .open_ → ¬v.status.IsTerminal) →
      (t u v).wp (fundRely p) (FundInv p) Q id L s d) {e : Abort} : (do
      let dispute ← lockDispute c
      let order ← lockOrder dispute.orderId
      let order ← Tx.getOrElse order e
      t dispute order : Tx Unit).wp (fundRely p) (FundInv p) Q id [] s d := by
  rw [Tx.wp_bind, wp_lockDispute]
  intro d₁ _ _ u hu
  rw [Tx.wp_bind, wp_lockOrder]
  intro d₂ hd₂ hI₂
  rw [Tx.wp_bind, Tx.wp_getOrElse]
  intro v hv
  have hu' : d₂.disputes.get? c = some u := (hd₂.1.dispute c (by simp)).trans hu
  exact ht u v _ _ d₂ (settling_start hv (by simp)) fun hs => hI₂.orders.open_of_case hu' hs hv

/-- An open case, then its order. -/
theorem wp_openCaseThenOrder {t : Dispute → Order → Tx Unit}
    (ht : ∀ u v L s d, Settling u.orderId v False False id L d → ¬v.status.IsTerminal →
      (t u v).wp (fundRely p) (FundInv p) Q id L s d) : (do
      let dispute ← lockOpenCase c
      let order ← lockOrderRow dispute.orderId
      t dispute order : Tx Unit).wp (fundRely p) (FundInv p) Q id [] s d := by
  rw [Tx.wp_bind, wp_lockOpenCase]
  intro d₁ _ _ u hu hs
  rw [Tx.wp_bind, wp_lockOrderRow]
  intro d₂ hd₂ hI₂ v hv
  have hu' : d₂.disputes.get? c = some u := (hd₂.1.dispute c (by simp)).trans hu
  exact ht u v _ _ d₂ (settling_start hv (by simp)) (hI₂.orders.open_of_case hu' hs hv)

/-- An order, then its open case. -/
theorem Settling.openCase {w : Db → Db} {paid closed : Prop} {t : ℕ × Dispute → Tx Unit}
    (h : Settling o v paid closed w L d) (hw : w = id)
    (ht : ∀ r L s d, Settling o v paid closed w L d → ¬v.status.IsTerminal →
      (t r).wp (fundRely p) (FundInv p) Q w L s d) :
    (lockOpenDispute o >>= t).wp (fundRely p) (FundInv p) Q w L s d := by
  subst hw
  rw [Tx.wp_bind, wp_lockOpenDispute]
  rintro d₁ hd₁ hI₁ ⟨c, u⟩ hcu
  have h := h.stable (List.subset_cons_self (.dispute c) L) hd₁
  obtain ⟨hu, ho, hs⟩ := openDispute_eq_some hcu
  exact ht (c, u) _ _ d₁ h (hI₁.orders.open_of_case hu hs (ho ▸ h.row))

/-- An order of a batch, with its open case. -/
theorem wp_dueCase {resolve : ℕ → Dispute → Tx Unit}
    (ht : ∀ c u v L s d, Settling o v False False id L d → ¬v.status.IsTerminal →
      (resolve c u).wp (fundRely p) (FundInv p) Q id L s d) :
    (settleDue o resolve).wp (fundRely p) (FundInv p) Q id [] s d := by
  rw [settleDue, Tx.wp_bind, wp_lockOpenDispute]
  rintro d₁ _ _ ⟨c, u⟩ hcu
  obtain ⟨hu, ho, hs⟩ := openDispute_eq_some hcu
  subst ho
  rw [Tx.wp_bind, wp_lockOrder]
  intro d₂ hd₂ hI₂
  have hu' : d₂.disputes.get? c = some u := (hd₂.1.dispute c (by simp)).trans hu
  obtain ⟨v, hv, hdelivered⟩ := hI₂.orders.openCase c u hu' hs
  exact ht c u v _ _ d₂ (settling_start hv (by simp)) (open_of_delivered hdelivered)

end Locks

/-! ### The calls -/

section Calls

variable {p : Programme} {c o : ℕ} {v : Order} {w : Db → Db} {L : List RowKey} {s : List Db}
  {d : Db} {cfg : Settings}

/-- The postcondition of a call that settles. -/
abbrev booksKept (p : Programme) : Unit → (Db → Db) → List RowKey → List Db → Db → Prop :=
  fun _ w L _ d => KeepsBooks p w L d

theorem Settling.ends (h : Settling o v False False w L d) : KeepsBooks p w L d :=
  h.keepsBooks False.elim

/-- The order is closed, then settled. -/
theorem Settling.closeAndSettle {closed : Prop} (h : Settling o v False closed w L d)
    (hopen : ¬v.status.IsTerminal) (hruns : cfg.Runs p) (order : Order) : (do
      setOrderStatus cfg o .completed
      Marketplace.payOut cfg o order
      Marketplace.applyPrograms cfg o order : Tx Unit).wp (fundRely p) (FundInv p) (booksKept p)
        w L s d := by
  rw [Tx.wp_bind]
  refine Tx.wp_mono (h.set cfg (Or.inr (Or.inr rfl))) fun _ w L s d h => ?_
  rw [Tx.wp_bind]
  refine Tx.wp_mono (h.payOut hopen cfg order) fun _ w L s d h => ?_
  exact h.1.applyPrograms h.2 hruns

/-- The order is settled, and closed on the way. -/
theorem Settling.settleAndClose (h : Settling o v False False w L d)
    (hopen : ¬v.status.IsTerminal) (hruns : cfg.Runs p) (order : Order) : (do
      Marketplace.payOut cfg o order
      setOrderStatus cfg o .completed
      Marketplace.applyPrograms cfg o order : Tx Unit).wp (fundRely p) (FundInv p) (booksKept p)
        w L s d := by
  rw [Tx.wp_bind]
  refine Tx.wp_mono (h.payOut hopen cfg order) ?_
  rintro _ w L s d ⟨h, hcharged⟩
  rw [Tx.wp_bind]
  refine Tx.wp_mono (Tx.wp_and (h.set cfg (Or.inr (Or.inr rfl))) (Tx.wp_moves _)) ?_
  rintro _ w' L' s' d' ⟨h, hL, hd⟩
  exact h.applyPrograms (hcharged.stable hL hd) hruns

theorem Settling.finalize (h : Settling o v False False w L d) (hopen : ¬v.status.IsTerminal)
    (hruns : cfg.Runs p) (order : Order) (status : DisputeStatus) :
    (finalizeDispute cfg c o order status).wp (fundRely p) (FundInv p) (booksKept p) w L s d := by
  rw [finalizeDispute, Tx.wp_bind]
  refine Tx.wp_mono (h.then (quiet_modifyCase c _)) fun _ w L s d h => ?_
  rw [Tx.wp_bind]
  refine Tx.wp_mono (h.set cfg ?_) fun _ w L s d h => ?_
  · split_ifs <;> simp [OrderStatus.IsTerminal]
  rw [Tx.wp_bind]
  refine Tx.wp_mono (h.payOut hopen cfg order) fun _ w L s d h => ?_
  rw [Tx.wp_ite]
  exact ⟨fun _ => h.1.clawbackPrograms id, fun _ => h.1.applyPrograms h.2 hruns⟩

theorem Settling.remedied (h : Settling o v False False w L d) (hopen : ¬v.status.IsTerminal)
    (hruns : cfg.Runs p) (order : Order) :
    (closeRemedy cfg c o order).wp (fundRely p) (FundInv p) (booksKept p) w L s d := by
  rw [closeRemedy, currentOrder, Tx.wp_bind, Tx.wp_read]
  intro d₁ hd₁ _
  have h := h.stable (List.Subset.refl _) hd₁
  rw [Tx.wp_ite]
  refine ⟨fun _ => h.finalize hopen hruns _ _, fun _ => ?_⟩
  rw [Tx.wp_bind, Tx.wp_read]
  intro d₂ hd₂ _
  exact Tx.wp_mono ((h.stable (List.Subset.refl _) hd₂).then (Tx.writes_when (quiet_modifyCase c _)))
    fun _ w L s d h => h.ends

theorem Settling.refundProxyLines (h : Settling o v False False w L d)
    (hopen : ¬v.status.IsTerminal) (hruns : cfg.Runs p) (order : Order) (lineNos : List ℕ)
    (key : String) (role : ActorRole) (note : Option String) :
    (Marketplace.refundProxyLines cfg c o order lineNos key role note).wp (fundRely p) (FundInv p)
      (booksKept p) w L s d := by
  rw [Marketplace.refundProxyLines, Tx.wp_bind]
  refine Tx.wp_mono (h.then (writes_refundableLines c o _ _)) fun lines w L s d h => ?_
  rw [Tx.wp_bind]
  refine Tx.wp_mono (h.then (Tx.writes_when (quiet_refundEscrow cfg o _ _ _))) fun _ w L s d h => ?_
  rw [Tx.wp_bind]
  refine Tx.wp_mono (h.then (quiet_releaseLines c lines key role)) fun _ w L s d h => ?_
  rw [Tx.wp_bind]
  refine Tx.wp_mono (h.then (quiet_rebuildDeliveredData o)) fun _ w L s d h => ?_
  rw [Tx.wp_bind]
  refine Tx.wp_mono (h.then (Tx.writes_when (quiet_modifyCase c _))) fun _ w L s d h => ?_
  exact h.remedied hopen hruns order

theorem confirmOrder_keepsBooks (o b : ℕ) (hruns : cfg.Runs p) (d : Db) :
    (confirmOrder cfg o b).wp (fundRely p) (FundInv p) (booksKept p) id [] [] d := by
  simp only [confirmOrder]
  rw [Tx.wp_bind, wp_lockOrder]
  intro d₁ _ _
  rw [Tx.wp_bind, Tx.wp_getOrElse]
  intro v hv
  rw [Tx.wp_bind, Tx.wp_require]
  intro _
  rw [Tx.wp_bind, Tx.wp_require]
  intro hs
  rw [Tx.wp_bind, Tx.wp_read]
  intro d₂ hd₂ _
  have h := (settling_start hv List.mem_cons_self).stable (List.Subset.refl _) hd₂
  rw [Tx.wp_bind, Tx.wp_require]
  intro _
  exact h.closeAndSettle (open_of_delivered hs) hruns v

/-- The check for an open case changes nothing. -/
theorem quiet_requireNoOpenDispute (o : ℕ) {S : ℕ → Prop} :
    (requireNoOpenDispute o).Writes fun f => ∀ d, FundQuiet S d (f d) :=
  .bind (Tx.writes_read _) fun _ => Tx.writes_require _ _

theorem releaseOrder_keepsBooks (o : ℕ) (hruns : cfg.Runs p) (d : Db) :
    (releaseOrder cfg o).wp (fundRely p) (FundInv p) (booksKept p) id [] [] d := by
  rw [releaseOrder, Tx.wp_bind, wp_lockOrderRow]
  intro d₁ _ _ v hv
  rw [Tx.wp_bind, Tx.wp_require]
  intro hs
  rw [Tx.wp_bind]
  refine Tx.wp_mono ((settling_start hv List.mem_cons_self).then (quiet_requireNoOpenDispute o))
    fun _ w L s d h => ?_
  exact h.settleAndClose (open_of_delivered hs) hruns v

theorem escrowRelease_keepsBooks (o : ℕ) (hruns : cfg.Runs p) (d : Db) :
    (escrowRelease cfg o).wp (fundRely p) (FundInv p) (booksKept p) id [] [] d := by
  rw [escrowRelease, Tx.wp_bind, wp_lockDueOrder]
  intro d₁ _ _ v hv hdue
  simp only [Bool.and_eq_true, decide_eq_true_eq] at hdue
  exact (settling_start hv List.mem_cons_self).settleAndClose (open_of_delivered hdue.1.1) hruns v

theorem refundOrder_keepsBooks (o : ℕ) (message : Option String) (d : Db) :
    (refundOrder cfg o message).wp (fundRely p) (FundInv p) (booksKept p) id [] [] d := by
  unfold refundOrder
  generalize message.map (fun m => m.trimAscii.toString) = text
  rw [Tx.wp_bind, wp_lockOrderRow]
  intro d₁ _ _ v hv
  rw [Tx.wp_bind, Tx.wp_require]
  intro _
  rw [Tx.wp_bind]
  refine Tx.wp_mono ((settling_start hv List.mem_cons_self).then (quiet_requireNoOpenDispute o))
    fun _ w L s d h => ?_
  rw [Tx.wp_bind, Tx.wp_require]
  intro _
  rw [Tx.wp_bind]
  refine Tx.wp_mono (h.then (quiet_refundEscrow cfg o _ _ _)) fun _ w L s d h => ?_
  rw [Tx.wp_bind]
  refine Tx.wp_mono (h.set cfg ?_) fun _ w L s d h => ?_
  · split_ifs <;> simp [OrderStatus.IsTerminal]
  rw [Tx.wp_bind]
  refine Tx.wp_mono (h.then (Tx.writes_when (quiet_releaseManualStock o v))) fun _ w L s d h => ?_
  rw [Tx.wp_bind]
  refine Tx.wp_mono (h.then (quiet_orderRow o fun _ => rfl)) fun _ w L s d h => ?_
  exact h.clawbackPrograms False.elim

theorem acceptDisputeResolution_keepsBooks (o b : ℕ) (hruns : cfg.Runs p) (d : Db) :
    (acceptDisputeResolution cfg o b).wp (fundRely p) (FundInv p) (booksKept p) id [] [] d := by
  rw [acceptDisputeResolution, Tx.wp_bind, wp_lockBuyerOrder]
  intro d₁ _ _ v hv _
  refine (settling_start hv List.mem_cons_self).openCase rfl fun r L s d h hopen => ?_
  rw [Tx.wp_bind, Tx.wp_read]
  intro d₂ hd₂ _
  have h := h.stable (List.Subset.refl _) hd₂
  rw [Tx.wp_bind, Tx.wp_require]
  intro _
  rw [Tx.wp_bind, Tx.wp_require]
  intro _
  rw [Tx.wp_bind, Tx.wp_read]
  intro d₃ hd₃ _
  exact (h.stable (List.Subset.refl _) hd₃).finalize hopen hruns v _

theorem withdrawDispute_keepsBooks (o b : ℕ) (hruns : cfg.Runs p) (d : Db) :
    (withdrawDispute cfg o b).wp (fundRely p) (FundInv p) (booksKept p) id [] [] d := by
  rw [withdrawDispute, Tx.wp_bind, wp_lockBuyerOrder]
  intro d₁ _ _ v hv _
  refine (settling_start hv List.mem_cons_self).openCase rfl fun r L s d h hopen => ?_
  rw [Tx.wp_bind, Tx.wp_read]
  intro d₂ hd₂ _
  have h := h.stable (List.Subset.refl _) hd₂
  rw [Tx.wp_bind, Tx.wp_require]
  intro _
  rw [Tx.wp_bind]
  refine Tx.wp_mono (h.then (quiet_modifyCase r.1 _)) fun _ w L s d h => ?_
  rw [Tx.wp_when]
  exact ⟨fun _ => h.settleAndClose hopen hruns v, fun _ => h.ends⟩

theorem sellerResolveResources_keepsBooks (skipped : List ℕ) (c seller : ℕ)
    (resourceIds : List ℕ) (action : RemedyAction) (replacementIds : Option (List ℕ)) (key : String)
    (note : Option String) (hruns : cfg.Runs p) (d : Db) :
    (sellerResolveResources cfg skipped c seller resourceIds action replacementIds key note).wp
      (fundRely p) (FundInv p) (booksKept p) id [] [] d := by
  refine wp_caseThenOrder fun u v L s d h hopen => ?_
  rw [Tx.wp_bind, Tx.wp_require]
  intro _
  rw [Tx.wp_bind]
  refine Tx.wp_mono (h.then (quiet_modifyCase c _)) fun _ w L s d h => ?_
  rw [Tx.wp_bind]
  refine Tx.wp_mono (h.then (Tx.writes_read _)) fun prior w L s d h => ?_
  rw [Tx.wp_bind, Tx.wp_require]
  intro _
  rw [Tx.wp_bind, Tx.wp_require]
  intro hs
  rw [Tx.wp_bind]
  refine Tx.wp_mono (h.then (Tx.writes_read _)) fun found w L s d h => ?_
  rw [Tx.wp_bind, Tx.wp_getOrElse]
  rintro ⟨variantId, variant⟩ _
  rw [Tx.wp_bind, Tx.wp_require]
  intro _
  rw [Tx.wp_bind]
  refine Tx.wp_mono (h.then (writes_claimedOriginals c u.orderId _)) fun originals w L s d h => ?_
  rw [Tx.wp_bind]
  refine Tx.wp_mono (h.then (quiet_remedyResources cfg c u.orderId _ _ _ _ _ _ _ _ _))
    fun _ w L s d h => ?_
  rw [Tx.wp_bind]
  refine Tx.wp_mono (h.then (quiet_orderRow u.orderId fun _ => rfl)) fun _ w L s d h => ?_
  rw [Tx.wp_bind]
  refine Tx.wp_mono (h.then (Tx.writes_when (quiet_modifyCase c _))) fun _ w L s d h => ?_
  exact h.remedied (hopen hs) hruns v

theorem sellerResolveProxies_keepsBooks (c seller : ℕ) (lineNos : List ℕ) (key : String)
    (note : Option String) (hruns : cfg.Runs p) (d : Db) :
    (sellerResolveProxies cfg c seller lineNos key note).wp (fundRely p) (FundInv p) (booksKept p)
      id [] [] d := by
  refine wp_caseThenOrder fun u v L s d h hopen => ?_
  rw [Tx.wp_bind, Tx.wp_require]
  intro _
  rw [Tx.wp_bind]
  refine Tx.wp_mono (h.then (Tx.writes_read _)) fun prior w L s d h => ?_
  rw [Tx.wp_bind, Tx.wp_require]
  intro _
  rw [Tx.wp_bind, Tx.wp_require]
  intro hs
  rw [Tx.wp_bind]
  refine Tx.wp_mono (h.then (quiet_modifyCase c _)) fun _ w L s d h => ?_
  exact h.refundProxyLines (hopen hs) hruns v lineNos key _ note

theorem adminRefundProxies_keepsBooks (c : ℕ) (lineNos : List ℕ) (key : String)
    (note : Option String) (hruns : cfg.Runs p) (d : Db) :
    (adminRefundProxies cfg c lineNos key note).wp (fundRely p) (FundInv p) (booksKept p) id [] []
      d := by
  rw [adminRefundProxies, Tx.wp_bind, wp_lockDispute]
  intro d₁ _ _ u hu
  rw [Tx.wp_bind, wp_lockOrderRow]
  intro d₂ hd₂ hI₂ v hv
  have hu' : d₂.disputes.get? c = some u := (hd₂.1.dispute c (by simp)).trans hu
  have h : Settling u.orderId v False False id [.order u.orderId, .dispute c] d₂ :=
    settling_start hv List.mem_cons_self
  rw [Tx.wp_bind]
  refine Tx.wp_mono (h.then (Tx.writes_read _)) fun prior w L s d h => ?_
  rw [Tx.wp_bind, Tx.wp_require]
  intro _
  rw [Tx.wp_bind, Tx.wp_require]
  intro hs
  exact h.refundProxyLines (hI₂.orders.open_of_case hu' hs hv) hruns v lineNos key _ note

theorem refundDispute_keepsBooks (c : ℕ) (d : Db) :
    (refundDispute cfg c).wp (fundRely p) (FundInv p) (booksKept p) id [] [] d := by
  refine wp_openCaseThenOrder fun u v L s d h _ => ?_
  rw [Tx.wp_bind]
  refine Tx.wp_mono (h.then (quiet_modifyCase c _)) fun _ w L s d h => ?_
  rw [Tx.wp_bind]
  refine Tx.wp_mono (h.set cfg (Or.inr (Or.inl rfl))) fun _ w L s d h => ?_
  rw [Tx.wp_bind]
  refine Tx.wp_mono (h.then (Tx.writes_when (quiet_refundEscrow cfg u.orderId _ _ _)))
    fun _ w L s d h => ?_
  exact h.clawbackPrograms False.elim

theorem rejectDispute_keepsBooks (c : ℕ) (hruns : cfg.Runs p) (d : Db) :
    (rejectDispute cfg c).wp (fundRely p) (FundInv p) (booksKept p) id [] [] d := by
  refine wp_openCaseThenOrder fun u v L s d h hopen => ?_
  rw [Tx.wp_bind]
  refine Tx.wp_mono (h.then (quiet_modifyCase c _)) fun _ w L s d h => ?_
  exact h.closeAndSettle hopen hruns v

theorem partialRefundDispute_keepsBooks (c : ℕ) (x : ℤ) (hruns : cfg.Runs p) (d : Db) :
    (partialRefundDispute cfg c x).wp (fundRely p) (FundInv p) (booksKept p) id [] [] d := by
  refine wp_openCaseThenOrder fun u v L s d h hopen => ?_
  rw [Tx.wp_bind, Tx.wp_require]
  intro _
  rw [Tx.wp_bind]
  refine Tx.wp_mono (h.then (quiet_modifyCase c _)) fun _ w L s d h => ?_
  rw [Tx.wp_bind]
  refine Tx.wp_mono (h.set cfg (Or.inr (Or.inr rfl))) fun _ w L s d h => ?_
  rw [Tx.wp_bind]
  refine Tx.wp_mono (h.then (quiet_refundEscrow cfg u.orderId _ _ _)) fun _ w L s d h => ?_
  rw [Tx.wp_bind]
  refine Tx.wp_mono (h.then (Tx.writes_read _)) fun order w L s d h => ?_
  rw [Tx.wp_bind]
  refine Tx.wp_mono (h.payOut hopen cfg order) fun _ w L s d h => ?_
  exact h.1.applyPrograms h.2 hruns

theorem disputeResolutionTimeout_keepsBooks (o : ℕ) (order : Order) (hruns : cfg.Runs p) (d : Db) :
    (disputeResolutionTimeout cfg o order).wp (fundRely p) (FundInv p) (booksKept p) id [] [] d := by
  refine wp_dueCase fun c u v L s d h hopen => ?_
  rw [resolveAfterResponseTimeout, Tx.wp_bind, Tx.wp_require]
  exact fun _ => h.finalize hopen hruns order _

theorem disputeAbandonment_keepsBooks (o : ℕ) (order : Order) (hruns : cfg.Runs p) (d : Db) :
    (disputeAbandonment cfg o order).wp (fundRely p) (FundInv p) (booksKept p) id [] [] d := by
  refine wp_dueCase fun c u v L s d h hopen => ?_
  rw [resolveAbandonedDispute, Tx.wp_bind, Tx.wp_read]
  intro d₁ hd₁ _
  rw [Tx.wp_bind, Tx.wp_require]
  exact fun _ => (h.stable (List.Subset.refl _) hd₁).finalize hopen hruns order _

theorem disputeSellerTimeout_keepsBooks (o : ℕ) (order : Order) (hruns : cfg.Runs p) (d : Db) :
    (disputeSellerTimeout cfg o order).wp (fundRely p) (FundInv p) (booksKept p) id [] [] d := by
  refine wp_dueCase fun c u v L s d h hopen => ?_
  rw [resolveAfterSellerTimeout, Tx.wp_bind, Tx.wp_require]
  intro _
  rw [Tx.wp_ite]
  refine ⟨fun _ => ?_, fun _ => h.finalize hopen hruns order _⟩
  rw [Tx.wp_bind]
  refine Tx.wp_mono (h.then (quiet_refundEscrow cfg o _ _ _)) fun _ w L s d h => ?_
  rw [Tx.wp_bind]
  refine Tx.wp_mono (h.then (Tx.writes_read _)) fun order' w L s d h => ?_
  exact h.finalize hopen hruns order' _

/-- **Every call that settles keeps the books.** -/
theorem OrderCall.keepsBooks {c : OrderCall} (hc : c.Settles) (hruns : c.settings.Runs p) (d : Db) :
    c.code.wp (fundRely p) (FundInv p) (booksKept p) id [] [] d := by
  cases c with
  | confirmOrder cfg o b => exact confirmOrder_keepsBooks o b hruns d
  | releaseOrder cfg o => exact releaseOrder_keepsBooks o hruns d
  | refundOrder cfg o message => exact refundOrder_keepsBooks o message d
  | escrowRelease cfg o => exact escrowRelease_keepsBooks o hruns d
  | acceptDisputeResolution cfg o b => exact acceptDisputeResolution_keepsBooks o b hruns d
  | withdrawDispute cfg o b => exact withdrawDispute_keepsBooks o b hruns d
  | sellerResolveResources cfg skipped c seller resourceIds action replacementIds key note =>
    exact sellerResolveResources_keepsBooks skipped c seller resourceIds action replacementIds key
      note hruns d
  | sellerResolveProxies cfg c seller lineNos key note =>
    exact sellerResolveProxies_keepsBooks c seller lineNos key note hruns d
  | adminRefundProxies cfg c lineNos key note =>
    exact adminRefundProxies_keepsBooks c lineNos key note hruns d
  | refundDispute cfg c => exact refundDispute_keepsBooks c d
  | rejectDispute cfg c => exact rejectDispute_keepsBooks c hruns d
  | partialRefundDispute cfg c x => exact partialRefundDispute_keepsBooks c x hruns d
  | disputeResolutionTimeout cfg o order => exact disputeResolutionTimeout_keepsBooks o order hruns d
  | disputeSellerTimeout cfg o order => exact disputeSellerTimeout_keepsBooks o order hruns d
  | disputeAbandonment cfg o order => exact disputeAbandonment_keepsBooks o order hruns d
  | _ => exact hc.elim

end Calls

/-! ### Every run -/

section Runs

variable {p : Programme}

theorem OrderCall.Settles.unmoved {c : OrderCall} (hc : c.Settles) (d : Db) : c.Unmoved d := by
  cases c with
  | acceptOrder => exact hc.elim
  | deliverOrder => exact hc.elim
  | _ => exact trivial

/-- A top-up adds its entry to the balance. -/
theorem PayoutsSound.topup {d : Db} (h : PayoutsSound p d) {amount : ℤ} (hpos : 0 < amount)
    (note : Option String) :
    PayoutsSound p (Db.addFundEntry ⟨amount, .topup, none, note⟩ (Db.addFundBalance amount d)) where
  balance := by
    rw [Db.addFundEntry_fundBalance, Db.addFundBalance_fundBalance, Db.addFundEntry_fundEntries,
      Db.addFundBalance_fundEntries, List.map_append, List.sum_append, h.balance]
    simp
  nonneg := by
    have hold := h.nonneg
    rw [Db.addFundEntry_fundBalance, Db.addFundBalance_fundBalance]
    omega
  part := h.part
  once o := by
    have hentries : (Db.addFundEntry ⟨amount, .topup, none, note⟩
        (Db.addFundBalance amount d)).commissionEntries o = d.commissionEntries o := by
      simp [Db.commissionEntries]
    exact (congrArg (List.map AffiliateFundEntry.amount) hentries).trans (h.once o)
  cap := h.cap

/-- What a top-up changes: the balance and its ledger. -/
theorem topupFund_owes (amount : ℤ) (note : Option String) (d : Db) :
    (topupFund amount note).wp (fundRely p) (FundInv p)
      (Commits (fundRely p) (FundInv p) (fundMachine p) (fun _ _ _ _ => True)
        (.topupFund amount note)) id [] [] d := by
  rw [topupFund, Tx.wp_bind, Tx.wp_require]
  intro hpos
  rw [Tx.wp_bind, Tx.wp_lock]
  intro d₁ _ _
  rw [Tx.wp_bind, Tx.wp_modify, Tx.wp_modify]
  intro d' _ hI _
  obtain ⟨hO, -, hrel⟩ : OrderInv (Db.addFundEntry ⟨amount, .topup, none, note⟩
      (Db.addFundBalance amount d')) ∧ _ ∧ _ := hI.orders.same rfl rfl
  exact ⟨⟨hO, hI.released, hI.sound.topup hpos note⟩, trivial, fun L' hdisj => ⟨hrel L', rfl,
    fun hf => absurd hf (hdisj _ List.mem_cons_self), fun _ _ => rfl, fun _ _ _ hv _ => hv⟩⟩

theorem fundMachine_correct :
    (fundMachine p).Correct (fundRely p) (FundInv p) fun _ _ _ _ => True := by
  rintro (⟨c, hc, hruns⟩ | ⟨amount, note⟩) d hd
  · have howes : c.code.wp (fundRely p) (FundInv p) (orderOwes c) id [] [] d :=
      Tx.wp_rely (fun L d d' (h : OrderRel L d d' ∧ FundGuar p L d d') => h.1)
        (fun _ (h : FundInv p _) => h.orders) (orderMachine_correct c d hd.orders)
    refine Tx.wp_mono (Tx.wp_and (c.keepsBooks hc hruns d) howes) ?_
    rintro _ w L s d ⟨hbooks, horder⟩ d' hd' hI _
    have hb := hbooks d' hd' hI
    obtain ⟨hO, hpost, hrel⟩ := horder d' hd'.1 hI.orders (hc.unmoved d')
    refine ⟨⟨hO, fun o ho => ?_, hb.sound⟩, trivial, fun L' hdisj => ⟨hrel L' hdisj, hb.guar L' hdisj⟩⟩
    rcases hb.released o ho with ho | hclosed
    · obtain ⟨v, hv, hterm⟩ := hI.released o ho
      obtain ⟨v', hv', hs⟩ := hpost.closed o v hv hterm
      exact ⟨v', hv', hs ▸ hterm⟩
    · exact hclosed
  · exact topupFund_owes amount note d

/-- **Payouts respect the fund and the cap.** In every committed state of every interleaving of
settlements, refunds and top-ups the books of the affiliate programme are sound. -/
theorem payouts_within_fund_and_cap {ι : Type} [DecidableEq ι] {d : Db} (hd : FundInv p d)
    {C : Config Db RowKey Abort Unit (FundClient p) ι} (h : Reachable (fundMachine p) d C) :
    PayoutsSound p C.db :=
  (fundMachine_correct.reachable hd h).inv.sound

end Runs

/-- An order of buyer 2 whose escrow has run out. -/
def sampleMatured : Order where
  buyerId := 2
  sellerId := 1
  variantId := none
  productId := some 1
  providerId := none
  quantity := 1
  totalAmount := 50000
  refundedAmount := 0
  stockHeld := 0
  promoCode := none
  discountAmount := 0
  status := .delivered
  escrowExpiresAt := some 100
  deliveredAt := some 0
  deliveredData := some "key"
  cancelReason := none
  createdAt := 0
  isSeeded := false

/-- A shop with two orders of a buyer whom account 3 referred, and a budget for commissions. -/
def sampleReferred : Db :=
  { Db.empty with
    accounts := ⟨[(1, ⟨true, false, true, false, none, none⟩),
      (2, ⟨false, false, true, false, some 3, none⟩),
      (3, ⟨false, false, true, false, none, none⟩)], by decide⟩
    wallets := ⟨[(0, ⟨0, 0⟩), (1, ⟨0, 0⟩), (2, ⟨0, 0⟩), (3, ⟨0, 0⟩)], by decide⟩
    orders := ⟨[(1, sampleMatured), (2, sampleMatured)], by decide⟩
    fundBalance := 1000
    fundEntries := [⟨1000, .topup, none, none⟩] }

/-- One commission a day; a settlement takes two seconds at most. -/
def sampleProgramme : Programme := ⟨0, 1, 2⟩

/-- The configuration of a settlement that began at `startedAt` and counts at `now`. -/
def Settings.ofProgramme (startedAt now : ℕ) : Settings :=
  { Settings.sample now with startedAt := startedAt, maxCommissionsPerDay := 1 }

theorem Settings.ofProgramme_runs {startedAt now : ℕ} (h : now ≤ startedAt + 2) :
    (Settings.ofProgramme startedAt now).Runs sampleProgramme :=
  ⟨rfl, rfl, h, some 10, none, none, 0, (by decide : some 10 = resolveRate (some 10) none none 0)⟩

/-- The release of an order's escrow. -/
def sampleRelease (o startedAt now : ℕ) (h : now ≤ startedAt + 2) : FundClient sampleProgramme :=
  .settle (.escrowRelease (Settings.ofProgramme startedAt now) o) trivial
    (Settings.ofProgramme_runs h)

theorem fundInv_sampleReferred : FundInv sampleProgramme sampleReferred where
  orders := {
    openCase := fun _ _ hu => absurd hu (by simp [sampleReferred, Db.empty])
    oneCase := fun _ _ _ _ hu => absurd hu (by simp [sampleReferred, Db.empty])
    unpaid := fun o v hv hw => by
      have hrow : (o, v) ∈ [(1, sampleMatured), (2, sampleMatured)] := Table.get?_eq_some_iff.mp hv
      obtain rfl : v = sampleMatured := by
        simp only [List.mem_cons, Prod.mk.injEq, List.not_mem_nil, or_false] at hrow
        rcases hrow with ⟨-, h⟩ | ⟨-, h⟩ <;> exact h
      exact absurd rfl hw.2 }
  released := fun o ho => by
    rcases ho with ⟨t, ht, -⟩ | ⟨t, ht, -⟩ <;> exact absurd ht (by simp [sampleReferred, Db.empty])
  sound := {
    balance := by decide
    nonneg := by decide
    part := fun _ _ hv => absurd hv (by simp [sampleReferred, Db.empty])
    once := fun o => by simp [Db.commissionEntries, sampleReferred, Db.empty]
    cap := fun a since length _ => Nat.zero_le _ }

/-- The referrer earns a commission with the first order. -/
theorem payouts_within_fund_and_cap_sample :
    ∃ C : Config Db RowKey Abort Unit (FundClient sampleProgramme) ℕ,
      Reachable (fundMachine sampleProgramme) sampleReferred C ∧
      PayoutsSound sampleProgramme C.db ∧ C.db.fundBalance = 500 ∧
      C.db.paidWithin 3 100000 86398 = 1 := by
  have hrun : Reachable (fundMachine sampleProgramme) sampleReferred
      (Config.idle ((sampleRelease 1 100000 100001 (by decide)).code.exec sampleReferred) :
        Config Db RowKey Abort Unit (FundClient sampleProgramme) ℕ) :=
    reaches_of_code 0 (c := sampleRelease 1 100000 100001 (by decide)) (fun _ => trivial)
      (Tx.run_of_commits (by decide))
  exact ⟨_, hrun, payouts_within_fund_and_cap fundInv_sampleReferred hrun, by decide,
    by decide⟩

/-- **Two commissions in one day.** A settlement of the second order begins a second before the day is
over, and counts two seconds later, when the first commission is older than a day. -/
theorem cap_exceeded_over_delay :
    ∃ C : Config Db RowKey Abort Unit (FundClient sampleProgramme) ℕ,
      FundInv sampleProgramme sampleReferred ∧
      Reachable (fundMachine sampleProgramme) sampleReferred C ∧
      sampleProgramme.maxCommissionsPerDay < C.db.paidWithin 3 100000 86400 := by
  have hfirst : Reachable (fundMachine sampleProgramme) sampleReferred
      (Config.idle ((sampleRelease 1 100000 100000 (by decide)).code.exec sampleReferred) :
        Config Db RowKey Abort Unit (FundClient sampleProgramme) ℕ) :=
    reaches_of_code 0 (c := sampleRelease 1 100000 100000 (by decide)) (fun _ => trivial)
      (Tx.run_of_commits (by decide))
  have hsecond := hfirst.trans (reaches_of_code 0
    (c := sampleRelease 2 186399 186401 (by decide)) (fun _ => trivial)
    (Tx.run_of_commits (by decide)))
  exact ⟨_, fundInv_sampleReferred, hsecond, by decide⟩

end Marketplace
