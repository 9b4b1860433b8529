import Marketplace.Orders.AdminCase

/-!
# Dispute cases

`disputes/service.py`: the buyer opens a case and names the lines it is about, the seller remedies
them line by line, and one of a dozen functions ends the case. While it is open the order stays
`delivered` and its escrow is held.

A remedy that moves money names the refund by `disputeSuffix`: the case and the caller's
idempotency key. Every function that ends a case through the money still held calls
`finalizeDispute`, or does the same steps in its own order.

Functions take the case and the order under their identifiers and, where the source passes an object
around, the object as well: that object is what the session loaded, which need not be what the row
says by now.
-/

namespace Marketplace

open Sql

/-! ### The case's own clock -/

/-- `_mark_seller_responded`. -/
def Dispute.markSellerResponded (cfg : Settings) (c : Dispute) : Dispute :=
  { c with sellerRespondedAt := some (c.sellerRespondedAt.getD cfg.now) }

/-- `_clear_resolution_deadline`. -/
def Dispute.clearResolutionDeadline (c : Dispute) : Dispute :=
  { c with resolutionOfferedAt := none, resolutionDeadlineAt := none }

/-- `_offer_resolution_deadline`. -/
def Dispute.offerResolutionDeadline (cfg : Settings) (c : Dispute) : Dispute :=
  if c.reviewRequestedAt ≠ none ∨ c.resolutionDeadlineAt ≠ none then c
  else
    { c with
      resolutionOfferedAt := some cfg.now
      resolutionDeadlineAt := some (cfg.now + cfg.disputeResolutionTimeoutHours * 3600) }

/-- A terminal status. -/
def Dispute.resolve (cfg : Settings) (status : DisputeStatus) (c : Dispute) : Dispute :=
  { c with status := status, resolvedAt := some cfg.now }

/-- `dispute_open_until`. -/
def disputeOpenUntil (order : Order) (windowHours : ℕ) : Option ℕ :=
  match order.deliveredAt with
  | some deliveredAt =>
    if 0 < windowHours then
      some (match order.escrowExpiresAt with
        | some until_ => min until_ (deliveredAt + windowHours * 3600)
        | none => deliveredAt + windowHours * 3600)
    else order.escrowExpiresAt
  | none => order.escrowExpiresAt

/-! ### Claims and remedies of a case -/

/-- The lines the buyer claimed in the case and the lines remedied in it. -/
def Db.claimedLines (d : Db) (disputeId : ℕ) : List ℕ × List ℕ :=
  ((d.claimResources.filter fun c => c.disputeId = disputeId).map DisputeClaimResource.resourceId,
    (d.claimProxies.filter fun c => c.disputeId = disputeId).map DisputeClaimProxy.allocationId)

/-- The lines remedied in the case. -/
def Db.remediedLines (d : Db) (disputeId : ℕ) : List ℕ × List ℕ :=
  ((d.resourceActions.filter fun a => a.disputeId = disputeId).map
      DisputeResourceAction.originalResourceId,
    (d.proxyActions.filter fun a => a.disputeId = disputeId).map DisputeProxyAction.allocationId)

/-- The buyer claimed something in the case. -/
def Db.hasClaims (d : Db) (disputeId : ℕ) : Prop :=
  (d.claimedLines disputeId).1 ≠ [] ∨ (d.claimedLines disputeId).2 ≠ []

instance (d : Db) (disputeId : ℕ) : Decidable (d.hasClaims disputeId) := by
  unfold Db.hasClaims
  infer_instance

/-- Every line claimed in the case is remedied in it. -/
def Db.claimsRemedied (d : Db) (disputeId : ℕ) : Prop :=
  (∀ r ∈ (d.claimedLines disputeId).1, r ∈ (d.remediedLines disputeId).1) ∧
    ∀ a ∈ (d.claimedLines disputeId).2, a ∈ (d.remediedLines disputeId).2

instance (d : Db) (disputeId : ℕ) : Decidable (d.claimsRemedied disputeId) := by
  unfold Db.claimsRemedied
  infer_instance

/-- `_has_any_remedy`. -/
def Db.hasRemedy (d : Db) (disputeId : ℕ) : Prop :=
  (d.remediedLines disputeId).1 ≠ [] ∨ (d.remediedLines disputeId).2 ≠ []

instance (d : Db) (disputeId : ℕ) : Decidable (d.hasRemedy disputeId) := by
  unfold Db.hasRemedy
  infer_instance

/-- `_claim_batch_exists`. -/
def Db.claimBatchExists (d : Db) (disputeId : ℕ) (batchKey : String) : Prop :=
  (∃ c ∈ d.claimResources, c.disputeId = disputeId ∧ c.batchKey = batchKey) ∨
    ∃ c ∈ d.claimProxies, c.disputeId = disputeId ∧ c.batchKey = batchKey

instance (d : Db) (disputeId : ℕ) (batchKey : String) :
    Decidable (d.claimBatchExists disputeId batchKey) := by
  unfold Db.claimBatchExists
  infer_instance

/-- The line a replacement stands for in the case. -/
def Db.replacementParent (d : Db) (disputeId resourceId : ℕ) : Option ℕ :=
  ((d.resourceActions.reverse.find? fun a =>
    a.disputeId = disputeId ∧ a.replacementResourceId = some resourceId)).map
      DisputeResourceAction.originalResourceId

/-- The loop of `replacement_generation`, with the lines it has seen. -/
def generationFrom (parent : ℕ → Option ℕ) : ℕ → List ℕ → ℕ → ℕ
  | 0, _, _ => 0
  | fuel + 1, seen, current =>
    match parent current with
    | none => 0
    | some next => if current ∈ seen then 0 else 1 + generationFrom parent fuel (current :: seen) next

/-- `replacement_generation`. -/
def Db.replacementGeneration (d : Db) (disputeId resourceId : ℕ) : ℕ :=
  generationFrom (d.replacementParent disputeId) (d.resourceActions.length + 1) [] resourceId

/-- `_LIVE_PROXY_STATUSES`. -/
def ProxyAllocation.IsLive (a : ProxyAllocation) : Prop :=
  a.status = .allocated ∨ a.status = .offline

instance (a : ProxyAllocation) : Decidable a.IsLive := by
  unfold ProxyAllocation.IsLive
  infer_instance

/-! ### Looking rows up -/

/-- `db.get(Dispute, dispute_id, with_for_update=True)`. -/
def lockDispute (disputeId : ℕ) : Tx Dispute := do
  let dispute ← Tx.lock (.dispute disputeId) fun d => d.disputes.get? disputeId
  Tx.getOrElse dispute (.api 404 "DISPUTE_NOT_FOUND")

/-- The case, locked, while it is open. -/
def lockOpenCase (disputeId : ℕ) : Tx Dispute := do
  let dispute ← lockDispute disputeId
  Tx.require (dispute.status = .open_) (.api 400 "DISPUTE_ALREADY_RESOLVED")
  pure dispute

/-- `select(Dispute).where(order_id == …, status == open).with_for_update()`. -/
def lockOpenDispute (orderId : ℕ) : Tx (ℕ × Dispute) := do
  let dispute ← Sql.Tx.stmt
    (fun d => (d.openDispute orderId).toList.map fun r => RowKey.dispute r.1)
    fun d => .pure (d.openDispute orderId)
  Tx.getOrElse dispute (.api 404 "DISPUTE_NOT_FOUND")

/-- The buyer's own order, locked. -/
def lockBuyerOrder (orderId buyerId : ℕ) : Tx Order := do
  let order ← lockOrderRow orderId
  Tx.require (order.buyerId = buyerId) (.api 403 "NOT_ORDER_OWNER")
  pure order

/-- The order as the session has it now. -/
def currentOrder (orderId : ℕ) (order : Order) : Tx Order :=
  Tx.read fun d => (d.orders.get? orderId).getD order

/-- A change to the case's row. -/
def modifyCase (disputeId : ℕ) (f : Dispute → Dispute) : Tx Unit := Tx.modify (Db.modifyDispute disputeId f)

/-- The stock lines of an order among the ones named, locked. -/
def lockOrderResources (orderId : ℕ) (resourceIds : List ℕ) : Tx (List (ℕ × Resource)) :=
  .stmt
    (fun d => (d.resources.rows.filter fun r =>
      r.1 ∈ resourceIds ∧ r.2.orderId = some orderId).map fun r => RowKey.resource r.1)
    fun d => .pure (d.resources.rows.filter fun r =>
      r.1 ∈ resourceIds ∧ r.2.orderId = some orderId)

/-- The proxy lines of an order among the ones named, locked, in line order. -/
def lockOrderAllocations (orderId : ℕ) (lineNos : List ℕ) : Tx (List (ℕ × ProxyAllocation)) :=
  .stmt
    (fun d => ((d.orderAllocations orderId).filter fun r => r.2.lineNo ∈ lineNos).map fun r =>
      RowKey.allocation r.1)
    fun d => .pure ((d.orderAllocations orderId).filter fun r => r.2.lineNo ∈ lineNos)

/-! ### Ending a case -/

/-- `_finalize_dispute`. -/
def finalizeDispute (cfg : Settings) (disputeId orderId : ℕ) (order : Order)
    (statusValue : DisputeStatus) : Tx Unit := do
  let fullyRefunded := order.refundedAmount = order.totalAmount
  modifyCase disputeId fun c =>
    (c.resolve cfg (if fullyRefunded then .resolvedRefund else statusValue)).clearResolutionDeadline
  setOrderStatus cfg orderId (if fullyRefunded then .refunded else .completed)
  payOut cfg orderId order
  if fullyRefunded then clawbackPrograms cfg orderId else applyPrograms cfg orderId order

/-! ### The buyer -/

/-- `_add_claim_resources`. -/
def addClaimResources (cfg : Settings) (disputeId orderId : ℕ) (resourceIds : List ℕ)
    (batchKey : String) : Tx Unit := do
  let resources ← lockOrderResources orderId resourceIds
  Tx.require (resources.length = resourceIds.length)
    (.http 400 "Every selected account must belong to this order")
  let claimed ← Tx.read fun d => (d.claimedLines disputeId).1
  Tx.require (∀ r ∈ resourceIds, r ∉ claimed)
    (.http 409 "A selected account is already in this dispute")
  Tx.require (∀ r ∈ resources, r.2.status = .assigned) (.api 400 "DISPUTE_RESOURCE_NOT_CLAIMABLE")
  let generations ← Tx.read fun d => resourceIds.map (d.replacementGeneration disputeId)
  Tx.require (∀ n ∈ generations, n ≤ 1) (.api 409 "DISPUTE_WARRANTY_LIMIT")
  Tx.forEach resourceIds fun r =>
    Tx.modify (Db.addClaimResource ⟨disputeId, r, batchKey, cfg.startedAt⟩)

/-- `_add_claim_proxies`. -/
def addClaimProxies (cfg : Settings) (disputeId orderId : ℕ) (lineNos : List ℕ)
    (batchKey : String) : Tx Unit := do
  let allocations ← lockOrderAllocations orderId lineNos
  Tx.require (allocations.length = lineNos.dedup.length)
    (.api 400 "DISPUTE_PROXY_LINE_NOT_CLAIMABLE")
  let claimed ← Tx.read fun d => (d.claimedLines disputeId).2
  Tx.require (∀ a ∈ allocations, a.1 ∉ claimed) (.api 409 "DISPUTE_PROXY_LINE_NOT_CLAIMABLE")
  Tx.require (∀ a ∈ allocations, a.2.IsLive ∧ a.2.refundAmountCap ≠ none)
    (.api 400 "DISPUTE_PROXY_LINE_NOT_CLAIMABLE")
  Tx.forEach allocations fun a =>
    Tx.modify (Db.addClaimProxy ⟨disputeId, a.1, batchKey, cfg.startedAt⟩)

/-- The lines a claim batch names. -/
def addClaims (cfg : Settings) (disputeId orderId : ℕ) (resourceIds lineNos : List ℕ)
    (batchKey : String) : Tx Unit := do
  Tx.when (resourceIds ≠ []) (addClaimResources cfg disputeId orderId resourceIds batchKey)
  Tx.when (lineNos ≠ []) (addClaimProxies cfg disputeId orderId lineNos batchKey)

/-- `db.add(Dispute(…))` and the flush: one open case per order. -/
def addDispute (cfg : Settings) (disputeId orderId buyerId : ℕ) : Tx Unit := do
  let taken ← Tx.read fun d => (d.openDispute orderId).isSome
  Tx.require (taken = false) .integrity
  insertRow (.dispute disputeId) (fun d => d.disputes.get? disputeId)
    (Db.insertDispute disputeId
      { orderId := orderId, buyerId := buyerId, status := .open_, sellerNote := none
        createdAt := cfg.startedAt, resolutionOfferedAt := none, resolutionDeadlineAt := none
        reviewRequestedAt := none, resolvedAt := none
        sellerDeadlineAt :=
          if 0 < cfg.disputeSellerResponseHours then
            some (cfg.now + cfg.disputeSellerResponseHours * 3600)
          else none
        sellerRespondedAt := none })

/-- `create_dispute`. Commits. -/
def createDispute (cfg : Settings) (disputeId orderId buyerId : ℕ) (resourceIds lineNos : List ℕ)
    (idempotencyKey : Option String) : Tx Unit := do
  let order ← lockBuyerOrder orderId buyerId
  let existing ← Tx.read fun d => d.openDispute orderId
  match existing with
  | some (existingId, _) => do
    let retried ← Tx.read fun d => decide (∃ key ∈ idempotencyKey, d.claimBatchExists existingId key)
    Tx.throw (if retried then .notCommitted else .api 400 "DISPUTE_ALREADY_OPEN")
  | none => do
    Tx.require (order.status = .delivered) (.api 400 "DISPUTE_ONLY_DELIVERED")
    Tx.require (∀ e ∈ order.escrowExpiresAt, cfg.now ≤ e) (.api 400 "DISPUTE_ESCROW_EXPIRED")
    Tx.require (∀ e ∈ disputeOpenUntil order cfg.disputeOpenWindowHours, cfg.now ≤ e)
      (.api 400 "DISPUTE_WINDOW_CLOSED")
    addDispute cfg disputeId orderId buyerId
    addClaims cfg disputeId orderId resourceIds lineNos
      (idempotencyKey.getD ("open-" ++ toString disputeId))

/-- `append_claim_batch`. Commits. -/
def appendClaimBatch (cfg : Settings) (orderId buyerId : ℕ) (resourceIds lineNos : List ℕ)
    (idempotencyKey : String) : Tx Unit := do
  let order ← lockBuyerOrder orderId buyerId
  Tx.require (order.status = .delivered) (.api 400 "DISPUTE_ONLY_DELIVERED")
  let (disputeId, _) ← lockOpenDispute orderId
  let retried ← Tx.read fun d => decide (d.claimBatchExists disputeId idempotencyKey)
  Tx.require (retried = false) .notCommitted
  addClaims cfg disputeId orderId resourceIds lineNos idempotencyKey
  modifyCase disputeId Dispute.clearResolutionDeadline

/-- What an accepted resolution is called: `outcome` in `accept_dispute_resolution`. -/
def Db.acceptedOutcome (d : Db) (disputeId : ℕ) : DisputeStatus :=
  if (∃ a ∈ d.proxyActions, a.disputeId = disputeId) ∨
      ∃ a ∈ d.resourceActions, a.disputeId = disputeId ∧ a.action = .refund then .resolvedPartialRefund
  else if ∃ a ∈ d.resourceActions, a.disputeId = disputeId then .resolvedReplace
  else .resolvedReject

/-- `accept_dispute_resolution`. Commits. -/
def acceptDisputeResolution (cfg : Settings) (orderId buyerId : ℕ) : Tx Unit := do
  let order ← lockBuyerOrder orderId buyerId
  let (disputeId, dispute) ← lockOpenDispute orderId
  let claims ← Tx.read fun d => (decide (d.hasClaims disputeId), decide (d.claimsRemedied disputeId))
  Tx.require (claims.1 = true → claims.2 = true)
    (.http 409 "Every claimed account must be remedied before acceptance")
  Tx.require (claims.1 = false → nonempty dispute.sellerNote ≠ none)
    (.http 409 "The seller has not responded yet")
  let outcome ← Tx.read fun d => d.acceptedOutcome disputeId
  finalizeDispute cfg disputeId orderId order outcome

/-- `withdraw_dispute`. Commits. -/
def withdrawDispute (cfg : Settings) (orderId buyerId : ℕ) : Tx Unit := do
  let order ← lockBuyerOrder orderId buyerId
  let (disputeId, _) ← lockOpenDispute orderId
  let remedied ← Tx.read fun d => decide (d.hasRemedy disputeId)
  Tx.require (remedied = false) (.api 409 "DISPUTE_WITHDRAWAL_NOT_ALLOWED")
  modifyCase disputeId fun c => (c.resolve cfg .withdrawnByBuyer).clearResolutionDeadline
  -- If the escrow ran out while the case was open, it settles now.
  Tx.when (order.status = .delivered ∧ ∀ e ∈ order.escrowExpiresAt, e ≤ cfg.now) do
    payOut cfg orderId order
    setOrderStatus cfg orderId .completed
    applyPrograms cfg orderId order

/-- `request_marketplace_review`, by a party to the order. Commits. -/
def requestMarketplaceReview (cfg : Settings) (orderId accountId : ℕ) : Tx Unit := do
  let order ← lockOrderRow orderId
  Tx.require (accountId = order.buyerId ∨ accountId = order.sellerId) (.api 404 "ORDER_NOT_FOUND")
  let (disputeId, dispute) ← lockOpenDispute orderId
  Tx.when (dispute.reviewRequestedAt = none) <| modifyCase disputeId fun c =>
    let c := { c with reviewRequestedAt := some cfg.now }.clearResolutionDeadline
    if accountId = order.sellerId then c.markSellerResponded cfg else c

/-! ### The seller -/

/-- `seller_respond_dispute`. Commits. -/
def sellerRespondDispute (cfg : Settings) (disputeId sellerId : ℕ) (sellerNote : String) :
    Tx Unit := do
  let dispute ← lockOpenCase disputeId
  let order ← lockOrder dispute.orderId
  let order ← Tx.getOrElse order (.api 403 "NOT_OWNER")
  Tx.require (order.sellerId = sellerId) (.api 403 "NOT_OWNER")
  let claims ← Tx.read fun d => (decide (d.hasClaims disputeId), decide (d.claimsRemedied disputeId))
  modifyCase disputeId fun c =>
    let c := { c with sellerNote := some sellerNote }.markSellerResponded cfg
    if claims.1 = false ∨ claims.2 = true then c.offerResolutionDeadline cfg else c

/-- The sum of the caps of the lines; a line without a cap counts nothing. -/
def sumCaps (caps : List (Option ℤ)) : ℤ := (caps.map fun c => c.getD 0).sum

/-- How a remedy ends: a case refunded in full is closed, one whose claims are all remedied
starts the buyer's response window. -/
def closeRemedy (cfg : Settings) (disputeId orderId : ℕ) (order : Order) : Tx Unit := do
  let order ← currentOrder orderId order
  if order.refundedAmount = order.totalAmount then
    finalizeDispute cfg disputeId orderId order .resolvedRefund
  else do
    let all ← Tx.read fun d => decide (d.hasClaims disputeId ∧ d.claimsRemedied disputeId)
    Tx.when (all = true) (modifyCase disputeId (Dispute.offerResolutionDeadline cfg))

/-- The replacements of `seller_resolve_resources`: the ones named, or the oldest stock. -/
def chooseReplacements (cfg : Settings) (skipped : List ℕ) (orderId sellerId variantId count : ℕ)
    (durationDays : Option ℕ) : Option (List ℕ) → Tx (List ℕ)
  | some ids => do
    Tx.require (ids.length = count) (.http 400 "Select one replacement for each claimed account")
    let available ← Sql.Tx.stmt
      (fun d => (d.resources.rows.filter fun r =>
        r.1 ∈ ids ∧ r.2.variantId = variantId ∧ r.2.sellerId = sellerId ∧ r.2.status = .available ∧
          r.2.orderId = none ∧ r.2.isArchived = false).map fun r => RowKey.resource r.1)
      fun d => .pure (d.resources.rows.filter fun r =>
        r.1 ∈ ids ∧ r.2.variantId = variantId ∧ r.2.sellerId = sellerId ∧ r.2.status = .available ∧
          r.2.orderId = none ∧ r.2.isArchived = false)
    Tx.require (available.length = ids.length) (.http 409 "A selected replacement is unavailable")
    Tx.forEach ids fun r => Tx.modify (Db.modifyResource r (Resource.assign cfg orderId durationDays))
    pure ids
  | none => claimResources cfg skipped variantId count orderId durationDays

/-- `db.add(DisputeResourceAction(…))`, under the table's constraints. -/
def addResourceAction (v : DisputeResourceAction) : Tx Unit := do
  let taken ← Tx.read fun d =>
    decide (v.originalResourceId ∈ (d.remediedLines v.disputeId).1)
  Tx.require (taken = false ∧ 0 ≤ v.refundAmount) .integrity
  Tx.modify (Db.addResourceAction v)

/-- The rows `seller_resolve_resources` leaves on a line: it is no good any more, and the action says
what was done about it. -/
def recordResourceAction (disputeId : ℕ) (idempotencyKey : String) (action : RemedyAction)
    (original : ℕ × Resource) (replacement : Option ℕ) : Tx Unit := do
  Tx.modify (Db.modifyResource original.1 fun r => { r with status := .error })
  addResourceAction
    { disputeId := disputeId, originalResourceId := original.1
      replacementResourceId := replacement, action := action
      refundAmount := if action = .refund then original.2.refundAmountCap.getD 0 else 0
      idempotencyKey := idempotencyKey }

/-- The remedy itself: replacements that take over the caps, or a refund of the caps. -/
def remedyResources (cfg : Settings) (skipped : List ℕ) (disputeId orderId sellerId : ℕ)
    (order : Order) (variantId : ℕ) (variant : ProductVariant) (originals : List (ℕ × Resource))
    (replacementIds : Option (List ℕ)) (idempotencyKey : String) : RemedyAction → Tx Unit
  | .replace => do
    let replacements ← chooseReplacements cfg skipped orderId sellerId variantId originals.length
      variant.durationDays replacementIds
    Tx.forEach (originals.zip replacements) fun r =>
      Tx.modify (Db.modifyResource r.2 fun v => { v with refundAmountCap := r.1.2.refundAmountCap })
    Tx.forEach (originals.zip replacements) fun r =>
      recordResourceAction disputeId idempotencyKey .replace r.1 (some r.2)
  | .refund => do
    let refundAmount := sumCaps (originals.map fun r => r.2.refundAmountCap)
    Tx.when (refundAmount ≠ 0)
      (refundEscrow cfg orderId order.buyerId refundAmount (disputeSuffix disputeId idempotencyKey))
    Tx.forEach originals fun r => recordResourceAction disputeId idempotencyKey .refund r none

/-- The checks of `seller_resolve_resources` on the lines it is about. -/
def claimedOriginals (disputeId orderId : ℕ) (resourceIds : List ℕ) :
    Tx (List (ℕ × Resource)) := do
  let found ← lockOrderResources orderId resourceIds
  Tx.require (found.length = resourceIds.length)
    (.http 400 "Every selected account must belong to this disputed order")
  let claimed ← Tx.read fun d => (d.claimedLines disputeId).1
  Tx.require (∀ r ∈ resourceIds, r ∈ claimed)
    (.http 400 "Seller may only remedy accounts claimed by the buyer")
  let handled ← Tx.read fun d => (d.remediedLines disputeId).1
  Tx.require (∀ r ∈ resourceIds, r ∉ handled)
    (.http 409 "A selected account has already been remedied")
  Tx.require (∀ r ∈ found, r.2.refundAmountCap ≠ none)
    (.http 409 "This legacy order has no safe per-account refund allocation")
  -- The lines in the order the seller named them.
  pure (resourceIds.filterMap fun id => found.find? fun r => r.1 = id)

/-- `seller_resolve_resources`. Commits. -/
def sellerResolveResources (cfg : Settings) (skipped : List ℕ) (disputeId sellerId : ℕ)
    (resourceIds : List ℕ) (action : RemedyAction) (replacementIds : Option (List ℕ))
    (idempotencyKey : String) (sellerNote : Option String) : Tx Unit := do
  let dispute ← lockDispute disputeId
  let order ← lockOrder dispute.orderId
  let order ← Tx.getOrElse order (.api 403 "NOT_OWNER")
  Tx.require (order.sellerId = sellerId) (.api 403 "NOT_OWNER")
  modifyCase disputeId (Dispute.markSellerResponded cfg)
  let prior ← Tx.read fun d => decide (∃ a ∈ d.resourceActions,
    a.disputeId = disputeId ∧ a.idempotencyKey = idempotencyKey)
  -- A retry answers what the first call did and commits nothing.
  Tx.require (prior = false) .notCommitted
  Tx.require (dispute.status = .open_) (.api 400 "DISPUTE_ALREADY_RESOLVED")
  let variant ← Tx.read fun d => order.variantId.bind fun v => (d.variants.get? v).map fun r => (v, r)
  let (variantId, variant) ← Tx.getOrElse variant
    (.http 400 "Account-level remedies require an instant inventory order")
  Tx.require (variant.deliveryMode = .instant)
    (.http 400 "Account-level remedies require an instant inventory order")
  let originals ← claimedOriginals disputeId dispute.orderId resourceIds
  remedyResources cfg skipped disputeId dispute.orderId sellerId order variantId variant originals
    replacementIds idempotencyKey action
  Tx.modify (Db.modifyOrder dispute.orderId fun o => { o with deliveredData := none })
  Tx.when (nonempty sellerNote ≠ none)
    (modifyCase disputeId fun c => { c with sellerNote := sellerNote })
  closeRemedy cfg disputeId dispute.orderId order

/-! ### Proxy lines -/

/-- `db.add(DisputeProxyAction(…))`, under the table's constraints. -/
def addProxyAction (v : DisputeProxyAction) : Tx Unit := do
  let taken ← Tx.read fun d => decide (v.allocationId ∈ (d.remediedLines v.disputeId).2)
  Tx.require (taken = false ∧ 0 ≤ v.refundAmount) .integrity
  Tx.modify (Db.addProxyAction v)

/-- The lines `_refund_proxy_lines` may refund: claimed ones, and for an administrator any live
one; with a cap and not released. -/
def refundableLines (disputeId orderId : ℕ) (lineNos : List ℕ) (actorRole : ActorRole) :
    Tx (List (ℕ × ProxyAllocation)) := do
  let allocations ← lockOrderAllocations orderId lineNos
  Tx.require (allocations.length = lineNos.dedup.length)
    (.api 409 "DISPUTE_PROXY_LINE_NOT_REMEDIABLE")
  let claimed ← Tx.read fun d => (d.claimedLines disputeId).2
  let handled ← Tx.read fun d => (d.remediedLines disputeId).2
  Tx.require (∀ a ∈ allocations, a.1 ∈ claimed ∨ actorRole = .admin ∧ a.2.IsLive)
    (.api 409 "DISPUTE_PROXY_LINE_NOT_REMEDIABLE")
  Tx.require (∀ a ∈ allocations, a.2.refundAmountCap ≠ none ∧ a.2.status ≠ .released)
    (.api 409 "DISPUTE_PROXY_LINE_NOT_REMEDIABLE")
  Tx.require (∀ a ∈ allocations, a.1 ∉ handled) (.api 409 "DISPUTE_PROXY_LINE_NOT_REMEDIABLE")
  pure allocations

/-- The order's text without the lines released. -/
def rebuildDeliveredData (orderId : ℕ) : Tx Unit := do
  let remaining ← Tx.read fun d => ((d.orderAllocations orderId).map Prod.snd).filter fun a =>
    a.status ≠ .released
  let composed := composeDeliveredData remaining
  Tx.when (composed ≠ none ∨ remaining = [])
    (Tx.modify (Db.modifyOrder orderId fun o => { o with deliveredData := composed }))

/-- `_refund_proxy_lines`. Commits. -/
def refundProxyLines (cfg : Settings) (disputeId orderId : ℕ) (order : Order) (lineNos : List ℕ)
    (idempotencyKey : String) (actorRole : ActorRole) (note : Option String) : Tx Unit := do
  let allocations ← refundableLines disputeId orderId lineNos actorRole
  let amount := sumCaps (allocations.map fun a => a.2.refundAmountCap)
  Tx.when (amount ≠ 0)
    (refundEscrow cfg orderId order.buyerId amount (disputeSuffix disputeId idempotencyKey))
  Tx.forEach allocations fun a => do
    Tx.modify (Db.modifyAllocation a.1 fun v => { v with status := .released })
    addProxyAction
      { disputeId := disputeId, allocationId := a.1
        refundAmount := a.2.refundAmountCap.getD 0, idempotencyKey := idempotencyKey
        actorRole := actorRole }
  rebuildDeliveredData orderId
  Tx.when (actorRole = .seller ∧ nonempty note ≠ none)
    (modifyCase disputeId fun c => { c with sellerNote := note })
  closeRemedy cfg disputeId orderId order

/-- A remedy with this key is on record for the case's proxy lines. -/
def Db.proxyRemedied (d : Db) (disputeId : ℕ) (idempotencyKey : String) : Prop :=
  ∃ a ∈ d.proxyActions, a.disputeId = disputeId ∧ a.idempotencyKey = idempotencyKey

instance (d : Db) (disputeId : ℕ) (idempotencyKey : String) :
    Decidable (d.proxyRemedied disputeId idempotencyKey) := by
  unfold Db.proxyRemedied
  infer_instance

/-- `seller_resolve_proxies`. Commits. -/
def sellerResolveProxies (cfg : Settings) (disputeId sellerId : ℕ) (lineNos : List ℕ)
    (idempotencyKey : String) (sellerNote : Option String) : Tx Unit := do
  let dispute ← lockDispute disputeId
  let order ← lockOrder dispute.orderId
  let order ← Tx.getOrElse order (.api 404 "DISPUTE_NOT_FOUND")
  Tx.require (order.sellerId = sellerId) (.api 404 "DISPUTE_NOT_FOUND")
  let prior ← Tx.read fun d => decide (d.proxyRemedied disputeId idempotencyKey)
  Tx.require (prior = false) .notCommitted
  Tx.require (dispute.status = .open_) (.api 400 "DISPUTE_ALREADY_RESOLVED")
  modifyCase disputeId (Dispute.markSellerResponded cfg)
  refundProxyLines cfg disputeId dispute.orderId order lineNos idempotencyKey .seller sellerNote

/-! ### The platform -/

/-- `admin_refund_proxies`. Commits. -/
def adminRefundProxies (cfg : Settings) (disputeId : ℕ) (lineNos : List ℕ)
    (idempotencyKey : String) (note : Option String) : Tx Unit := do
  let dispute ← lockDispute disputeId
  let order ← lockOrderRow dispute.orderId
  let prior ← Tx.read fun d => decide (d.proxyRemedied disputeId idempotencyKey)
  Tx.require (prior = false) .notCommitted
  Tx.require (dispute.status = .open_) (.api 400 "DISPUTE_ALREADY_RESOLVED")
  refundProxyLines cfg disputeId dispute.orderId order lineNos idempotencyKey .admin note

/-- `refund_dispute`. Commits. -/
def refundDispute (cfg : Settings) (disputeId : ℕ) : Tx Unit := do
  let dispute ← lockOpenCase disputeId
  let order ← lockOrderRow dispute.orderId
  modifyCase disputeId (Dispute.resolve cfg .resolvedRefund)
  setOrderStatus cfg dispute.orderId .refunded
  let remainingAmount := order.totalAmount - order.refundedAmount
  Tx.when (remainingAmount ≠ 0)
    (refundEscrow cfg dispute.orderId order.buyerId remainingAmount "")
  clawbackPrograms cfg dispute.orderId

/-- `reject_dispute`. Commits. -/
def rejectDispute (cfg : Settings) (disputeId : ℕ) : Tx Unit := do
  let dispute ← lockOpenCase disputeId
  let order ← lockOrderRow dispute.orderId
  modifyCase disputeId (Dispute.resolve cfg .resolvedReject)
  setOrderStatus cfg dispute.orderId .completed
  payOut cfg dispute.orderId order
  applyPrograms cfg dispute.orderId order

/-- `partial_refund_dispute`. Commits. -/
def partialRefundDispute (cfg : Settings) (disputeId : ℕ) (refundAmount : ℤ) : Tx Unit := do
  let dispute ← lockOpenCase disputeId
  let order ← lockOrderRow dispute.orderId
  Tx.require (0 < refundAmount ∧ refundAmount < order.totalAmount - order.refundedAmount)
    (.api 400 "DISPUTE_INVALID_REFUND_AMOUNT")
  modifyCase disputeId (Dispute.resolve cfg .resolvedPartialRefund)
  setOrderStatus cfg dispute.orderId .completed
  refundEscrow cfg dispute.orderId order.buyerId refundAmount (disputeSuffix disputeId "admin-partial")
  let order ← currentOrder dispute.orderId order
  payOut cfg dispute.orderId order
  applyPrograms cfg dispute.orderId order

/-- `replace_dispute`. Commits. -/
def replaceDispute (cfg : Settings) (skipped : List ℕ) (disputeId : ℕ) : Tx Unit := do
  let dispute ← lockOpenCase disputeId
  let order ← lockOrderRow dispute.orderId
  let variant ← Tx.read fun d => order.variantId.bind fun v => (d.variants.get? v).map fun r => (v, r)
  let (variantId, variant) ← Tx.getOrElse variant (.api 400 "DISPUTE_REPLACEMENT_UNAVAILABLE")
  Tx.require (variant.deliveryMode = .instant) (.api 400 "DISPUTE_REPLACEMENT_UNAVAILABLE")
  let remedied ← Tx.read fun d => (d.remediedLines disputeId).1
  Tx.require (remedied = [])
    (.http 409 "A case with account-level remedies cannot also receive a full-order replacement")
  let old ← Tx.read fun d =>
    (d.resources.rows.filter fun r => r.2.orderId = some dispute.orderId).map Prod.fst
  Tx.require (old ≠ []) (.api 400 "DISPUTE_NO_RESOURCES_TO_REPLACE")
  Tx.forEach old fun r => Tx.modify (Db.modifyResource r fun v => { v with status := .error })
  let resources ← claimResources cfg skipped variantId order.quantity dispute.orderId
    variant.durationDays
  setCaps resources (order.totalAmount - order.refundedAmount)
  Tx.modify (Db.modifyOrder dispute.orderId fun o =>
    { o with deliveredData := none, escrowExpiresAt := some (escrowUntil cfg) })
  setOrderStatus cfg dispute.orderId .delivered
  modifyCase disputeId (Dispute.resolve cfg .resolvedReplace)

/-- `extend_warranty_dispute`. Commits. -/
def extendWarrantyDispute (cfg : Settings) (disputeId extraDays : ℕ) : Tx Unit := do
  let dispute ← lockOpenCase disputeId
  Tx.require (0 < extraDays) (.api 400 "DISPUTE_INVALID_EXTENSION_DAYS")
  let order ← lockOrderRow dispute.orderId
  Tx.modify (Db.modifyOrder dispute.orderId fun o =>
    { o with escrowExpiresAt := some (order.escrowExpiresAt.getD cfg.now + extraDays * 86400) })
  setOrderStatus cfg dispute.orderId .delivered
  modifyCase disputeId (Dispute.resolve cfg .resolvedExtendWarranty)

/-! ### The scheduler -/

/-- `last_buyer_claim_activity_at`. -/
def Db.lastClaimActivity (d : Db) (disputeId : ℕ) (dispute : Dispute) : ℕ :=
  (((d.claimResources.filter fun c => c.disputeId = disputeId).map DisputeClaimResource.createdAt) ++
    (d.claimProxies.filter fun c => c.disputeId = disputeId).map DisputeClaimProxy.createdAt).foldl max
      dispute.createdAt

/-- `compute_abandon_after_at`. -/
def abandonAfterAt (cfg : Settings) (order : Order) (dispute : Dispute) (lastActivity : ℕ)
    (hasRemedy : Bool) : Option ℕ :=
  if hasRemedy = true ∨ dispute.resolutionDeadlineAt ≠ none then none
  else order.escrowExpiresAt.map fun e => max e lastActivity + cfg.disputeAbandonGraceHours * 3600

/-- `resolve_abandoned_dispute`, for the order as the session has it. -/
def resolveAbandonedDispute (cfg : Settings) (disputeId : ℕ) (dispute : Dispute) (orderId : ℕ)
    (order : Order) : Tx Unit := do
  let case_ ← Tx.read fun d => (decide (d.hasRemedy disputeId), d.lastClaimActivity disputeId dispute)
  Tx.require (dispute.status = .open_ ∧ dispute.reviewRequestedAt = none ∧
      ∃ t ∈ abandonAfterAt cfg order dispute case_.2 case_.1, t ≤ cfg.now)
    (.valueError "Dispute is not eligible for abandonment settlement")
  finalizeDispute cfg disputeId orderId order .resolvedAbandoned

/-- `resolve_dispute_after_response_timeout`, for the order as the session has it. -/
def resolveAfterResponseTimeout (cfg : Settings) (disputeId : ℕ) (dispute : Dispute)
    (orderId : ℕ) (order : Order) : Tx Unit := do
  Tx.require (dispute.status = .open_ ∧ dispute.reviewRequestedAt = none ∧
      ∃ t ∈ dispute.resolutionDeadlineAt, t ≤ cfg.now)
    (.valueError "Dispute is not eligible for response-timeout settlement")
  finalizeDispute cfg disputeId orderId order .resolvedTimeout

/-- `resolve_dispute_after_seller_timeout`, for the order as the session has it. The refund locks
the order's row, which also brings the object up to date. -/
def resolveAfterSellerTimeout (cfg : Settings) (disputeId : ℕ) (dispute : Dispute)
    (orderId : ℕ) (order : Order) : Tx Unit := do
  Tx.require (dispute.status = .open_ ∧ dispute.reviewRequestedAt = none ∧
      dispute.sellerRespondedAt = none ∧ ∃ t ∈ dispute.sellerDeadlineAt, t ≤ cfg.now)
    (.valueError "Dispute is not eligible for seller-timeout refund")
  let remaining := order.totalAmount - order.refundedAmount
  if remaining ≠ 0 then do
    refundEscrow cfg orderId order.buyerId remaining (disputeSuffix disputeId "seller-timeout")
    let order ← currentOrder orderId order
    finalizeDispute cfg disputeId orderId order .resolvedRefund
  else finalizeDispute cfg disputeId orderId order .resolvedRefund

end Marketplace
