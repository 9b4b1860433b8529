import Marketplace.Disputes.Handling

/-!
# Closed orders stay closed

Under every interleaving of the transactions of `OrderCall`, an order that was cancelled,
refunded or completed keeps its status, as long as the seller's `acceptOrder` and
`deliverOrder` commit only where the status they checked is still the committed one.

The code does not make sure of that: `closed_order_reopened` is a run in which the seller's
acceptance is overtaken by the deadline job, so that a cancelled and refunded order goes back to
work and is delivered.
-/

namespace Marketplace

open Sql

theorem orderMachine_correct : orderMachine.Correct orderRely OrderInv fun _ _ => OrderPost := by
  intro c d _
  cases c with
  | createOrder cfg skipped o p => exact createOrder_owes cfg skipped o p _ d
  | createOrderWithAdapter cfg o p => exact createOrderWithAdapter_owes cfg o p _ d
  | provisionPendingOrder cfg o provision providerId =>
    exact provisionPendingOrder_owes cfg o provision providerId _ d
  | confirmOrder cfg o b => exact confirmOrder_owes cfg o b _ d
  | acceptOrder cfg o seller => exact acceptOrder_owes cfg o seller d
  | deliverOrder cfg o seller data => exact deliverOrder_owes cfg o seller data d
  | releaseOrder cfg o => exact releaseOrder_owes cfg o _ d
  | refundOrder cfg o message => exact refundOrder_owes cfg o message _ d
  | extendEscrow cfg o days => exact extendEscrow_owes cfg o days _ d
  | escrowRelease cfg o => exact escrowRelease_owes cfg o _ d
  | slaCheck cfg o => exact slaCheck_owes cfg o _ d
  | provisionSweep cfg o catalog => exact provisionSweep_owes cfg o catalog _ d
  | updateTask cfg memory t u => exact updateTask_owes cfg memory t u _ d
  | createDispute cfg c o b resourceIds lineNos key =>
    exact createDispute_owes cfg c o b resourceIds lineNos key _ d
  | appendClaimBatch cfg o b resourceIds lineNos key =>
    exact appendClaimBatch_owes cfg o b resourceIds lineNos key _ d
  | acceptDisputeResolution cfg o b => exact acceptDisputeResolution_owes cfg o b _ d
  | withdrawDispute cfg o b => exact withdrawDispute_owes cfg o b _ d
  | requestMarketplaceReview cfg o a => exact requestMarketplaceReview_owes cfg o a _ d
  | sellerRespondDispute cfg c seller note => exact sellerRespondDispute_owes cfg c seller note _ d
  | sellerResolveResources cfg skipped c seller resourceIds action replacementIds key note =>
    exact sellerResolveResources_owes cfg skipped c seller resourceIds action replacementIds key note
      _ d
  | sellerResolveProxies cfg c seller lineNos key note =>
    exact sellerResolveProxies_owes cfg c seller lineNos key note _ d
  | adminRefundProxies cfg c lineNos key note =>
    exact adminRefundProxies_owes cfg c lineNos key note _ d
  | refundDispute cfg c => exact refundDispute_owes cfg c _ d
  | rejectDispute cfg c => exact rejectDispute_owes cfg c _ d
  | partialRefundDispute cfg c x => exact partialRefundDispute_owes cfg c x _ d
  | replaceDispute cfg skipped c => exact replaceDispute_owes cfg skipped c _ d
  | extendWarrantyDispute cfg c days => exact extendWarrantyDispute_owes cfg c days _ d
  | disputeResolutionTimeout cfg o order => exact disputeResolutionTimeout_owes cfg o order _ d
  | disputeSellerTimeout cfg o order => exact disputeSellerTimeout_owes cfg o order _ d
  | disputeAbandonment cfg o order => exact disputeAbandonment_owes cfg o order _ d

/-! ### Runs -/

theorem OrderPost.refl (d : Db) : OrderPost d d where
  closed _ v hv _ := ⟨v, hv, rfl⟩
  refunded _ v v' hv hv' _ hne := by
    obtain rfl : v = v' := by simpa [hv] using hv'
    exact hne

theorem orderMachine_step {ι : Type} [DecidableEq ι] {d : Db} (hd : OrderInv d)
    {C C' : Config Db RowKey Abort Unit OrderCall ι} (h : Reachable orderMachine d C)
    (hstep : Steps orderMachine C C') : OrderPost C.db C'.db := by
  obtain ⟨_ | ⟨c, a⟩, hl⟩ := hstep
  · rw [hl.db_eq]
    exact OrderPost.refl _
  · exact orderMachine_correct.commit hd h hl

/-- What the orders of a database that has it keep in every later one. -/
structure ClosedFor (o : ℕ) (v : Order) (d : Db) : Prop where
  status : v.status.IsTerminal → ∃ v', d.orders.get? o = some v' ∧ v'.status = v.status
  delivery : v.refundedAmount = v.totalAmount → v.status ≠ .delivered →
    ∀ v', d.orders.get? o = some v' → v'.status ≠ .delivered

/-- A full refund of an order that is not delivered has closed it. -/
theorem OrderInv.terminal_of_refunded {d : Db} (hI : OrderInv d) {o : ℕ} {v : Order}
    (hv : d.orders.get? o = some v) (hfull : v.refundedAmount = v.totalAmount)
    (hne : v.status ≠ .delivered) : v.status.IsTerminal := by
  by_contra hopen
  have hlt := hI.unpaid o v hv ⟨hopen, hne⟩
  omega

/-- **Closed orders stay closed.** In every run in which the sellers' calls commit only onto the
status they checked, an order that was closed keeps its status, and an order that was refunded in
full without being delivered is never delivered. -/
theorem closed_orders_stay_closed {ι : Type} [DecidableEq ι] {d : Db} (hd : OrderInv d)
    {C C' : Config Db RowKey Abort Unit OrderCall ι} (h : Reachable orderMachine d C)
    (h' : Relation.ReflTransGen (Steps orderMachine) C C') {o : ℕ} {v : Order}
    (hv : C.db.orders.get? o = some v) : ClosedFor o v C'.db := by
  have hI := (orderMachine_correct.reachable hd h).inv
  have hclosed : v.status.IsTerminal →
      ∃ v', C'.db.orders.get? o = some v' ∧ v'.status = v.status := by
    intro hterm
    induction h' with
    | refl => exact ⟨v, hv, rfl⟩
    | tail hrun hstep ih =>
      obtain ⟨v₁, hv₁, hs₁⟩ := ih
      obtain ⟨v₂, hv₂, hs₂⟩ :=
        (orderMachine_step hd (h.trans hrun) hstep).closed o v₁ hv₁ (hs₁ ▸ hterm)
      exact ⟨v₂, hv₂, hs₂.trans hs₁⟩
  refine ⟨hclosed, fun hfull hne v' hv' => ?_⟩
  obtain ⟨v₂, hv₂, hs₂⟩ := hclosed (hI.terminal_of_refunded hv hfull hne)
  obtain rfl : v₂ = v' := by simpa [hv₂] using hv'
  rwa [hs₂]

/-- A shop with one package made to order. -/
def sampleShop : Db := .sample

/-- A database without orders and cases. -/
theorem orderInv_of_empty {d : Db} (ho : d.orders = .empty) (hc : d.disputes = .empty) :
    OrderInv d where
  openCase c u hu := by
    rw [hc] at hu
    exact absurd hu (by simp)
  oneCase c u c' u' hu := by
    rw [hc] at hu
    exact absurd hu (by simp)
  unpaid o v hv := by
    rw [ho] at hv
    exact absurd hv (by simp)

/-- The order of buyer 2. -/
def samplePlaced : OrderCall := .createOrder (Settings.sample 10) [] 1 ⟨2, 1, 1, none, none⟩

/-- The seller misses the deadline: the order is cancelled and refunded, and stays so, whatever the
other calls do after that. -/
theorem closed_orders_stay_closed_sample :
    ∃ C C' : Config Db RowKey Abort Unit OrderCall ℕ, Reachable orderMachine sampleShop C ∧
      Relation.ReflTransGen (Steps orderMachine) C C' ∧
      (∃ v, C.db.orders.get? 1 = some v ∧ v.status = .cancelled ∧ ClosedFor 1 v C'.db) ∧
      C'.db.orders.get? 2 ≠ none := by
  have hrun : Reachable orderMachine sampleShop
      (Config.idle ([samplePlaced, .slaCheck (Settings.sample 90000) 1].foldl
        (fun d c => c.code.exec d) sampleShop) : Config Db RowKey Abort Unit OrderCall ℕ) :=
    (reaches_of_code 0 (c := samplePlaced) (fun _ => trivial) rfl).trans
      (reaches_of_code 0 (c := OrderCall.slaCheck (Settings.sample 90000) 1) (fun _ => trivial) rfl)
  have hmore : Relation.ReflTransGen (Steps orderMachine)
      (Config.idle ([samplePlaced, .slaCheck (Settings.sample 90000) 1].foldl
        (fun d c => c.code.exec d) sampleShop) : Config Db RowKey Abort Unit OrderCall ℕ)
      (Config.idle ([samplePlaced, .slaCheck (Settings.sample 90000) 1,
        .createOrder (Settings.sample 90001) [] 2 ⟨2, 1, 1, none, none⟩].foldl
        (fun d c => c.code.exec d) sampleShop)) :=
    reaches_of_code 0 (c := OrderCall.createOrder (Settings.sample 90001) [] 2 ⟨2, 1, 1, none, none⟩)
      (fun _ => trivial) rfl
  exact ⟨_, _, hrun, hmore, ⟨_, rfl, rfl,
    closed_orders_stay_closed (orderInv_of_empty rfl rfl) hrun hmore rfl⟩, by decide⟩

/-- **A closed order is reopened.** The seller's `acceptOrder` reads a pending order; the deadline job
cancels and refunds it and commits; the acceptance goes on and writes `processing`; the seller delivers. -/
theorem closed_order_reopened :
    ∃ (C C' : Config Db RowKey Abort Unit OrderCall ℕ) (v v' : Order), OrderInv sampleShop ∧
      Reachable (Machine.ofCode OrderCall.code) sampleShop C ∧
      Relation.ReflTransGen (Steps (Machine.ofCode OrderCall.code)) C C' ∧
      (C.db.orders.get? 1 = some v ∧ v.status = .cancelled ∧ v.refundedAmount = v.totalAmount) ∧
      (C'.db.orders.get? 1 = some v' ∧ v'.status = .delivered ∧ v'.deliveredData = some "key") ∧
      ¬ClosedFor 1 v C'.db := by
  have hplaced : Reachable (Machine.ofCode OrderCall.code) sampleShop
      (Config.idle (samplePlaced.code.exec sampleShop) : Config Db RowKey Abort Unit OrderCall ℕ) :=
    reaches_of_code 0 (c := samplePlaced) (fun _ => trivial) rfl
  obtain ⟨C, hC, hcancelled, hreopened⟩ := reaches_overtaken (i := 0) (j := 1) (by decide)
    (M := Machine.ofCode OrderCall.code) (d := samplePlaced.code.exec sampleShop)
    (c := .acceptOrder (Settings.sample 20) 1 1) (b := .slaCheck (Settings.sample 90000) 1)
    (fun _ _ _ => trivial) rfl rfl rfl rfl
  have hdelivered := hreopened.trans (reaches_of_code 0
    (c := OrderCall.deliverOrder (Settings.sample 90010) 1 1 "key") (fun _ => trivial) rfl)
  refine ⟨C, _, _, _, orderInv_of_empty rfl rfl, hplaced.trans hcancelled, hdelivered,
    ⟨by rw [hC]; rfl, rfl, rfl⟩, ⟨rfl, rfl, rfl⟩, fun h => ?_⟩
  obtain ⟨v', hv', hs⟩ := h.status (Or.inl rfl)
  obtain rfl := Option.some.inj hv'
  exact absurd hs (by decide)

end Marketplace
