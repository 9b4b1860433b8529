import Marketplace.Orders.Service
import Marketplace.Sql.Flow
import Marketplace.Sql.Zoom
import Marketplace.Takedown.Lifecycle

/-!
# Link takedown

`takedown/service.py` and the calls of `takedown/client.py` it makes. A request is mirrored to an order at
the partner; the partner owns the work and its statuses, the platform the buyer's money, which sits in an
ordinary order from the accepted quote to the partner's last word.

The partner is never called inside a transaction that holds a row. So every function reads a request,
calls, and applies the answer in a second transaction, and between the two anything may happen; a process
may also die there. What a call has done at the partner it has done even when the answer is lost.
-/

namespace Marketplace

open Sql

/-! ### The state -/

/-- An order at the partner, as `GET /orders/{id}` shows it. -/
structure PartnerOrder where
  reason : List Char
  status : PartnerStatus
  price : Option ℤ
  warrantyUntil : Option ℕ
  refundedAt : Option ℕ
  deriving DecidableEq

/-- A webhook of the partner: one step of one of its orders. -/
structure PartnerEvent where
  id : ℕ
  orderId : ℕ
  action : String
  fromStatus : Option PartnerStatus
  toStatus : PartnerStatus
  reason : List Char
  price : Option ℤ
  warrantyUntil : Option ℕ
  createdAt : Option ℕ
  deriving DecidableEq

/-- The partner: its orders, and every event it has signed. -/
structure Partner where
  orders : Table ℕ PartnerOrder
  events : List PartnerEvent

/-- A row of `takedown_requests`. -/
structure TakedownRequest where
  code : TakedownCode
  buyerId : ℕ
  url : String
  note : Option String
  service : String
  warrantyHours : ℕ
  status : TakedownStatus
  partnerOrderId : Option ℕ
  partnerStatus : Option PartnerStatus
  partnerPrice : Option ℤ
  price : Option ℤ
  warrantyUntil : Option ℕ
  evidenceLiveUrl : Option String
  evidenceDeadUrl : Option String
  partnerRefundedAt : Option ℕ
  orderId : Option ℕ
  needsSync : Bool
  syncError : Option String
  lastSyncedAt : Option ℕ
  quotedAt : Option ℕ
  acceptedAt : Option ℕ
  processingAt : Option ℕ
  completedAt : Option ℕ
  finishedAt : Option ℕ
  deriving DecidableEq

/-- The platform, its takedown requests and the partner. -/
structure TakedownDb where
  shop : Db
  requests : Table ℕ TakedownRequest
  /-- The `partner_event_id`s of `takedown_events`. -/
  seenEvents : List ℕ
  partner : Partner

namespace TakedownDb

/-- The platform's other tables. -/
def shopPart : Part TakedownDb Db where
  get d := d.shop
  set x d := { d with shop := x }
  get_set _ _ := rfl
  set_get _ := rfl
  set_set _ _ _ := rfl

/-- Create a request. -/
@[simps] def insertRequest (i : ℕ) (r : TakedownRequest) (d : TakedownDb) : TakedownDb :=
  { d with requests := d.requests.insert i r }

/-- Change a request. -/
@[simps] def modifyRequest (i : ℕ) (f : TakedownRequest → TakedownRequest) (d : TakedownDb) :
    TakedownDb :=
  { d with requests := d.requests.modify i f }

/-- Record an event of the partner's. -/
@[simps] def addSeenEvent (n : ℕ) (d : TakedownDb) : TakedownDb :=
  { d with seenEvents := n :: d.seenEvents }

/-- Move the partner. -/
@[simps] def setPartner (f : Partner → Partner) (d : TakedownDb) : TakedownDb :=
  { d with partner := f d.partner }

/-- The request that is linked to an order of the partner's. -/
def requestOf (d : TakedownDb) (p : ℕ) : Option (ℕ × TakedownRequest) :=
  d.requests.rows.find? fun r => r.2.partnerOrderId = some p

/-- The request with a code. -/
def requestWithCode (d : TakedownDb) (code : TakedownCode) : Option (ℕ × TakedownRequest) :=
  d.requests.rows.find? fun r => r.2.code = code

end TakedownDb

/-- The rows a statement can lock, and the entries of the unique indexes. -/
inductive TakedownKey
  | shop (k : RowKey)
  | request (i : ℕ)
  | code (c : TakedownCode)
  | partnerOrder (p : ℕ)
  | event (n : ℕ)
  deriving DecidableEq

/-- The answers of the runtime configuration during one call. -/
structure TakedownSettings where
  shop : Settings
  /-- `is_configured`. -/
  configured : Bool
  /-- The account with `takedown_seller_email`. -/
  sellerId : Option ℕ
  /-- `takedown_product_id`. -/
  productId : Option ℕ
  escrowDays : ℕ

/-- `PartnerError`. -/
structure PartnerError where
  message : String
  statusCode : Option ℕ

/-- `"ended" in str(exc).lower()`. -/
def PartnerError.saysEnded (e : PartnerError) : Bool := 1 < (e.message.toLower.splitOn "ended").length

/-- `unreachable`. -/
def PartnerError.unreachable (e : PartnerError) : Bool :=
  match e.statusCode with
  | none => true
  | some code => 500 ≤ code

/-- What comes back from the partner. -/
inductive PartnerAnswer
  /-- An order, as it is now. -/
  | order (p : ℕ) (v : PartnerOrder)
  | evidence (liveUrl deadUrl : Option String)
  /-- The list of orders is to be read. -/
  | reached
  /-- Nothing was done. -/
  | error (e : PartnerError)
  /-- It was done, and the order is now this, but the answer was lost. -/
  | lost (e : PartnerError) (p : ℕ) (v : PartnerOrder)

/-- A transaction over the tables. -/
abbrev TakedownTx (α : Type) : Type := Sql.Tx TakedownDb TakedownKey Abort α

/-- A function that calls the partner. -/
abbrev TakedownFlow (α : Type) : Type := Flow TakedownDb TakedownKey PartnerAnswer Abort α

/-- Statements on the platform's other tables. -/
def inShop {α : Type} (t : Marketplace.Tx α) : TakedownTx α := t.zoom TakedownDb.shopPart .shop

/-! ### The partner -/

namespace Partner

/-- A step of one of its orders, and the webhook that tells of it. -/
def move (p : ℕ) (action : String) (createdAt : Option ℕ) (f : PartnerOrder → PartnerOrder)
    (a : Partner) : Partner :=
  match a.orders.get? p with
  | none => a
  | some v =>
    { orders := a.orders.modify p f
      events := a.events ++ [⟨a.events.length, p, action, some v.status, (f v).status, v.reason,
        (f v).price, (f v).warrantyUntil, createdAt⟩] }

/-- A new order, and the webhook that tells of it. -/
def create (p : ℕ) (reason : List Char) (createdAt : Option ℕ) (a : Partner) : Partner :=
  { orders := a.orders.insert p ⟨reason, .pendingReview, none, none, none⟩
    events := a.events ++ [⟨a.events.length, p, "create", none, .pendingReview, reason, none, none,
      createdAt⟩] }

end Partner

/-- The actions of a member. -/
inductive MemberAction
  | accept | decline | cancel | warranty
  deriving DecidableEq, Repr

/-- The statuses in which the partner lets a member act. -/
def MemberAction.allowed : MemberAction → List PartnerStatus
  | .accept => [.quoted]
  | .decline => [.quoted]
  | .cancel => [.pendingReview, .quoted, .awaitingPayment]
  | .warranty => [.inWarranty]

/-- The status the action leads to. -/
def MemberAction.target : MemberAction → PartnerStatus
  | .accept => .awaitingPayment
  | .decline => .quoteRejected
  | .cancel => .cancelled
  | .warranty => .warrantyPending

/-- The name of the action. -/
def MemberAction.name : MemberAction → String
  | .accept => "accept"
  | .decline => "decline"
  | .cancel => "cancel"
  | .warranty => "warranty"

/-- The action takes effect on the order `p`, which is `v` afterwards. -/
def MemberAction.act (action : MemberAction) (p : ℕ) (v : PartnerOrder) (d : TakedownDb) :
    Option TakedownDb :=
  match d.partner.orders.get? p with
  | none => none
  | some u =>
    if u.status ∈ action.allowed ∧ v = { u with status := action.target } then
      some (d.setPartner (Partner.move p action.name none fun u => { u with status := action.target }))
    else none

/-- `client.action`. -/
def clientAction (p : ℕ) (action : MemberAction) : TakedownFlow PartnerAnswer :=
  Flow.ask fun answer d => match answer with
    | .order q v => if q = p then action.act p v d else none
    | .lost e q v => if q = p ∧ e.unreachable = true then action.act p v d else none
    | .error _ => some d
    | _ => none

/-- The partner creates the order `p`, which is `v`. -/
def createAct (reason : List Char) (p : ℕ) (v : PartnerOrder) (d : TakedownDb) : Option TakedownDb :=
  if d.partner.orders.get? p = none ∧ v = ⟨reason, .pendingReview, none, none, none⟩ then
    some (d.setPartner (Partner.create p reason none))
  else none

/-- `client.create_order`, with `reason`. -/
def clientCreateOrder (reason : List Char) : TakedownFlow PartnerAnswer :=
  Flow.ask fun answer d => match answer with
    | .order p v => createAct reason p v d
    | .lost e p v => if e.unreachable = true then createAct reason p v d else none
    | .error _ => some d
    | _ => none

/-- `client.get_order`. -/
def clientGetOrder (p : ℕ) : TakedownFlow PartnerAnswer :=
  Flow.ask fun answer d => match answer with
    | .order q v => if q = p ∧ d.partner.orders.get? p = some v then some d else none
    | .error _ => some d
    | _ => none

/-- `client.get_evidence`. -/
def clientGetEvidence : TakedownFlow PartnerAnswer :=
  Flow.ask fun answer d => match answer with
    | .evidence _ _ => some d
    | .error _ => some d
    | _ => none

/-- Whether `client.list_orders` gets through. -/
def clientReach : TakedownFlow PartnerAnswer :=
  Flow.ask fun answer d => match answer with
    | .reached => some d
    | .error _ => some d
    | _ => none

/-- The order in an answer. -/
def PartnerAnswer.data : PartnerAnswer → Option (ℕ × PartnerOrder)
  | .order p v => some (p, v)
  | _ => none

/-- The error that is raised for an answer. -/
def PartnerAnswer.error? : PartnerAnswer → Option PartnerError
  | .error e => some e
  | .lost e _ _ => some e
  | _ => none

/-- A step the partner takes by itself: an order in its last status stays there. -/
def partnerStep (p : ℕ) (action : String) (createdAt : Option ℕ) (f : PartnerOrder → PartnerOrder) :
    TakedownFlow Unit := do
  let _ ← Flow.ask fun answer d => match answer with
    | .reached => (d.partner.orders.get? p).bind fun v =>
      if action ≠ "create" ∧ (f v).reason = v.reason ∧ (v.status.IsFinal → (f v).status = v.status) then
        some (d.setPartner (Partner.move p action createdAt f))
      else none
    | _ => none
  pure ()

/-! ### Applying -/

/-- One partner state. -/
structure PartnerUpdate where
  status : PartnerStatus
  price : Option ℤ
  warrantyUntil : Option ℕ
  clearWarranty : Bool
  refundedAt : Option ℕ

/-- What `_apply` mirrors whatever the request's status. -/
def TakedownRequest.mirror (u : PartnerUpdate) (r : TakedownRequest) : TakedownRequest :=
  { r with
    partnerPrice := if ∃ x ∈ u.price, 0 < x then u.price else r.partnerPrice
    warrantyUntil := if u.warrantyUntil ≠ none then u.warrantyUntil
      else if u.clearWarranty then none else r.warrantyUntil
    partnerRefundedAt := if u.refundedAt ≠ none then u.refundedAt else r.partnerRefundedAt
    partnerStatus := some u.status }

/-- The status `_apply` leads to. -/
def TakedownRequest.nextStatus (u : PartnerUpdate) (r : TakedownRequest) : TakedownStatus :=
  if r.status.IsTerminal then r.status
  else statusFor u.status r.price.isSome r.orderId.isSome

/-- A new status, with its stamps. -/
def TakedownRequest.enter (now : ℕ) (status : TakedownStatus) (r : TakedownRequest) : TakedownRequest :=
  { r with
    status := status
    processingAt := if status = .processing ∧ r.processingAt = none then some now else r.processingAt
    completedAt := if status = .warranty ∧ r.completedAt = none then some now else r.completedAt
    finishedAt := if status.IsTerminal then some now else r.finishedAt }

/-- `delivered_data` of a takedown. -/
def TakedownRequest.deliveredData (r : TakedownRequest) : String :=
  "Gỡ link " ++ String.ofList r.code.text ++ "\n" ++ r.url

/-- The order of a takedown that is done is delivered. -/
def deliverTakedown (cfg : TakedownSettings) (orderId : ℕ) (r : TakedownRequest) : Tx Unit := do
  setOrderStatus cfg.shop orderId .delivered
  Tx.modify (Db.modifyOrder orderId fun o =>
    { o with
      deliveredAt := some cfg.shop.now
      deliveredData := some r.deliveredData
      escrowExpiresAt := some (cfg.shop.now + cfg.escrowDays * 86400) })

/-- `cancel_reason` of a takedown. -/
def takedownCancelReason (status : TakedownStatus) : String :=
  if status = .failed then "Không gỡ được link — đã hoàn tiền" else "Đã huỷ yêu cầu gỡ link"

/-- The order of a takedown, while the money is held, on entering `status`. -/
def settleOrder (cfg : TakedownSettings) (r : TakedownRequest) (orderId : ℕ) (order : Order)
    (status : TakedownStatus) : Tx Unit := do
  if status.Refunds ∧ (order.status = .pending ∨ order.status = .processing) then do
    let remaining := order.totalAmount - order.refundedAmount
    Tx.when (0 < remaining) (refundEscrow cfg.shop orderId order.buyerId remaining "")
    cancelOrder cfg.shop orderId (takedownCancelReason status)
  else
    Tx.when (status = .done ∧ (order.status = .pending ∨ order.status = .processing))
      (deliverTakedown cfg orderId r)

/-- `_settle_money`. -/
def settleMoney (cfg : TakedownSettings) (r : TakedownRequest) (status : TakedownStatus) :
    TakedownTx Unit := do
  match r.orderId with
  | none => pure ()
  | some orderId => do
    let order ← inShop (lockOrder orderId)
    match order with
    | none => pure ()
    | some order => inShop (settleOrder cfg r orderId order status)

/-- `_apply`, for a request that is locked. -/
def applyStatus (cfg : TakedownSettings) (i : ℕ) (r : TakedownRequest) (u : PartnerUpdate) :
    TakedownTx Unit := do
  Tx.modify (TakedownDb.modifyRequest i (TakedownRequest.mirror u))
  let new := r.nextStatus u
  Tx.when (new ≠ r.status) do
    Tx.modify (TakedownDb.modifyRequest i (TakedownRequest.enter cfg.shop.now new))
    settleMoney cfg r new

/-- `req.partner_order_id = …`, a unique column. -/
def linkPartnerOrder (i p : ℕ) : TakedownTx Unit := do
  let taken ← Tx.lock (.partnerOrder p) fun d => (d.requestOf p).isSome
  Tx.require (taken = false) .integrity
  Tx.modify (TakedownDb.modifyRequest i fun r => { r with partnerOrderId := some p })

/-- What an order says. -/
def PartnerOrder.update (v : PartnerOrder) : PartnerUpdate :=
  ⟨v.status, v.price, v.warrantyUntil, decide (v.warrantyUntil = none), v.refundedAt⟩

/-- `_apply_order_dict`. -/
def applyOrderDict (cfg : TakedownSettings) (i : ℕ) (r : TakedownRequest) (p : ℕ) (v : PartnerOrder) :
    TakedownTx Unit := do
  Tx.when (r.partnerOrderId = none) (linkPartnerOrder i p)
  applyStatus cfg i r v.update

/-- The request, locked. -/
def lockRequest (i : ℕ) : TakedownTx (Option TakedownRequest) :=
  Tx.lock (.request i) fun d => d.requests.get? i

/-! ### Creating the partner's order -/

/-- The search of `push_create` for an order that a lost answer left. -/
def findCreated (code : TakedownCode) :
    TakedownFlow (Except PartnerError (Option (ℕ × PartnerOrder))) := do
  let answer ← clientReach
  match answer.error? with
  | some e => pure (.error e)
  | none => do
    let rows ← Flow.read fun d => d.partner.orders.rows
    pure (.ok (rows.find? fun r => codeInReason r.2.reason = some code))

/-- The creation of the partner's order. -/
def createPartnerOrder (req : TakedownRequest) :
    TakedownFlow (Except PartnerError (ℕ × PartnerOrder)) := do
  let answer ← clientCreateOrder (reasonFor req.code req.note)
  match answer.data with
  | some data => pure (.ok data)
  | none => pure (.error (answer.error?.getD ⟨"", none⟩))

/-- The partner's order of a request, found or created. -/
def findOrCreate (req : TakedownRequest) : TakedownFlow (Except PartnerError (ℕ × PartnerOrder)) := do
  if req.syncError ≠ none then do
    let found ← findCreated req.code
    match found with
    | .error e => pure (.error e)
    | .ok (some data) => pure (.ok data)
    | .ok none => createPartnerOrder req
  else createPartnerOrder req

/-- `str(exc)[:500]`, or a text for an empty one. -/
def syncErrorOf (e : PartnerError) (default : String) : String :=
  ((if e.message = "" then default else e.message).take 500).toString

/-- The second transaction of `push_create`. -/
def recordCreated (cfg : TakedownSettings) (i : ℕ) (result : Except PartnerError (ℕ × PartnerOrder)) :
    TakedownTx Unit := do
  let req ← lockRequest i
  let req ← Tx.getOrElse req .notCommitted
  Tx.require (req.partnerOrderId = none) .notCommitted
  match result with
  | .ok (p, v) => do
    Tx.modify (TakedownDb.modifyRequest i fun r =>
      { r with syncError := none, needsSync := false, lastSyncedAt := some cfg.shop.now })
    applyOrderDict cfg i req p v
  | .error e =>
    Tx.modify (TakedownDb.modifyRequest i fun r =>
      { r with syncError := some (syncErrorOf e "create failed"), needsSync := true })

/-- A transaction in a session of its own; an error it raises ends it. -/
def inSession (t : TakedownTx Unit) : TakedownFlow Unit :=
  (do Flow.ofTx t; Flow.save).handle fun e : Abort =>
    if e = Abort.notCommitted then Flow.undo else Flow.throw e

/-- `push_create`. -/
def pushCreate (cfg : TakedownSettings) (i : ℕ) : TakedownFlow Unit := do
  let req ← Flow.read fun d => d.requests.get? i
  match req with
  | none => pure ()
  | some req =>
    if req.partnerOrderId ≠ none ∨ req.status.IsTerminal then pure ()
    else do
      let result ← findOrCreate req
      inSession (recordCreated cfg i result)

/-! ### Accepting -/

/-- What is recorded after an `accept`, or the read that stands in for it. -/
def recordAccept (cfg : TakedownSettings) (i : ℕ) (data : Option (ℕ × PartnerOrder))
    (error : Option PartnerError) : TakedownTx Unit := do
  let req ← lockRequest i
  let req ← Tx.getOrElse req .notCommitted
  match data with
  | some (p, v) => do
    applyOrderDict cfg i req p v
    Tx.modify (TakedownDb.modifyRequest i fun r =>
      { r with
        needsSync := decide (r.partnerStatus = some .quoted)
        syncError := if r.partnerStatus = some .quoted then some "accept not confirmed" else none
        lastSyncedAt := some cfg.shop.now })
  | none =>
    Tx.modify (TakedownDb.modifyRequest i fun r =>
      { r with
        needsSync := true
        syncError := some ((error.map fun e => (e.message.take 500).toString).getD "accept failed") })

/-- The answer to an `accept`: after an error that is one, the order is read again. -/
def askAccept (p : ℕ) : TakedownFlow (Option (ℕ × PartnerOrder) × Option PartnerError) := do
  let answer ← clientAction p .accept
  match answer.error? with
  | none => pure (answer.data, none)
  | some e =>
    if e.unreachable = true then pure (none, some e)
    else do
      let again ← clientGetOrder p
      pure (again.data, some e)

/-- `forward_accept`. -/
def forwardAccept (cfg : TakedownSettings) (i : ℕ) : TakedownFlow Unit := do
  let req ← Flow.read fun d => d.requests.get? i
  match req with
  | none => pure ()
  | some req =>
    match req.partnerOrderId with
    | none => pure ()
    | some p =>
      if req.orderId = none ∨ req.status.IsTerminal then pure ()
      else do
        let answer ← askAccept p
        inSession (recordAccept cfg i answer.1 answer.2)

/-- The order of an accepted quote. -/
def takedownOrder (cfg : TakedownSettings) (r : TakedownRequest) (seller : ℕ) (product : Option ℕ)
    (price : ℤ) : Order :=
  newOrder cfg.shop r.buyerId seller none product 1 price none .processing

/-- The first transaction of `accept_quote`. -/
def holdPrice (cfg : TakedownSettings) (buyer i orderId : ℕ) : TakedownTx Unit := do
  let req ← lockRequest i
  let req ← Tx.getOrElse req (.api 404 "TAKEDOWN_NOT_FOUND")
  Tx.require (req.buyerId = buyer) (.api 404 "TAKEDOWN_NOT_FOUND")
  Tx.require (req.status = .quoted ∧ req.partnerOrderId ≠ none) (.api 409 "TAKEDOWN_INVALID_STATE")
  let price ← Tx.getOrElse req.price (.api 409 "TAKEDOWN_INVALID_STATE")
  let seller ← Tx.getOrElse cfg.sellerId (.api 503 "TAKEDOWN_UNAVAILABLE")
  Tx.require (seller ≠ buyer) (.api 409 "TAKEDOWN_INVALID_STATE")
  let product ← Tx.read fun d => cfg.productId.filter fun x => (d.shop.products.get? x).isSome
  inShop do
    addOrder orderId (takedownOrder cfg req seller product price)
    deductCredit cfg.shop buyer price (orderReference orderId "")
  Tx.modify (TakedownDb.modifyRequest i fun r =>
    { r with
      orderId := some orderId
      acceptedAt := some cfg.shop.now
      status := .started
      needsSync := true })

/-- `accept_quote`; `orderId` is the number of the new order. -/
def acceptQuote (cfg : TakedownSettings) (buyer i orderId : ℕ) : TakedownFlow Unit := do
  Flow.ofTx (holdPrice cfg buyer i orderId)
  Flow.save
  forwardAccept cfg i

/-! ### Reading the partner again -/

/-- The outcome of a read that failed. -/
def recordSyncError (cfg : TakedownSettings) (i : ℕ) (e : PartnerError) : TakedownTx Unit := do
  let req ← lockRequest i
  let _ ← Tx.getOrElse req .notCommitted
  Tx.modify (TakedownDb.modifyRequest i fun r =>
    { r with syncError := some (e.message.take 500).toString, lastSyncedAt := some cfg.shop.now })

/-- An accept is still to be told to the partner, whose order is `v`. -/
def TakedownRequest.pendingAccept (r : TakedownRequest) (held : Bool) (v : PartnerOrder) : Bool :=
  held && v.status = .quoted && decide (¬(r.nextStatus v.update).IsTerminal)

/-- The outcome of a read. -/
def recordSync (cfg : TakedownSettings) (i : ℕ) (held : Bool) (p : ℕ) (v : PartnerOrder)
    (evidence : Option (Option String × Option String)) : TakedownTx Bool := do
  let req ← lockRequest i
  let req ← Tx.getOrElse req .notCommitted
  applyOrderDict cfg i req p v
  let pendingAccept := req.pendingAccept held v
  Tx.modify (TakedownDb.modifyRequest i fun r =>
    { r with
      evidenceLiveUrl := ((evidence.bind fun e => safeHttpUrl e.1).orElse fun _ => r.evidenceLiveUrl)
      evidenceDeadUrl := ((evidence.bind fun e => safeHttpUrl e.2).orElse fun _ => r.evidenceDeadUrl)
      needsSync := pendingAccept
      syncError := if pendingAccept then some "accept not confirmed" else none
      lastSyncedAt := some cfg.shop.now })
  pure pendingAccept

/-- The order as it is now, with the evidence once there is some. -/
def readPartner (p : ℕ) : TakedownFlow
    (Except PartnerError ((ℕ × PartnerOrder) × Option (Option String × Option String))) := do
  let answer ← clientGetOrder p
  match answer.data with
  | none => pure (.error (answer.error?.getD ⟨"", none⟩))
  | some data =>
    if data.2.status.HasEvidence then do
      let found ← clientGetEvidence
      match found with
      | .evidence live dead => pure (.ok (data, some (live, dead)))
      | other => pure (.error (other.error?.getD ⟨"", none⟩))
    else pure (.ok (data, none))

/-- `sync_request`. -/
def syncRequest (cfg : TakedownSettings) (i : ℕ) : TakedownFlow Unit := do
  let req ← Flow.read fun d => d.requests.get? i
  match req with
  | none => pure ()
  | some req =>
    match req.partnerOrderId with
    | none => do
      Flow.undo
      pushCreate cfg i
    | some p => do
      let answer ← readPartner p
      match answer with
      | .error e => inSession (recordSyncError cfg i e)
      | .ok (data, evidence) => do
        let pendingAccept ← Flow.ofTx (recordSync cfg i req.orderId.isSome data.1 data.2 evidence)
        Flow.save
        if pendingAccept then forwardAccept cfg i else pure ()

/-- The requests `sync_due_requests` selects: at most `SYNC_BATCH`, in the order of their last read. -/
def TakedownDb.dueRequests (d : TakedownDb) (now : ℕ) : List ℕ :=
  let due := d.requests.rows.filter fun r =>
    ¬r.2.status.IsTerminal ∧ (r.2.partnerOrderId = none ∨ r.2.needsSync = true ∨ r.2.lastSyncedAt = none ∨
      (∃ t ∈ r.2.lastSyncedAt, t + 300 < now) ∨
      ((∃ s ∈ r.2.partnerStatus, s.HasEvidence) ∧ r.2.evidenceDeadUrl = none))
  ((due.mergeSort fun a b => (a.2.lastSyncedAt.getD 0) ≤ (b.2.lastSyncedAt.getD 0)).map Prod.fst).take 50

/-- `sync_due_requests`: one bad row does not stop the batch. -/
def syncDueRequests (cfg : TakedownSettings) : TakedownFlow Unit := do
  let ids ← Flow.read fun d => d.dueRequests cfg.shop.now
  Flow.forEach ids fun i => (syncRequest cfg i).handle fun _ => Flow.undo

/-! ### The buyer and the admin -/

/-- The statuses of a request in which a buyer may act. -/
def MemberAction.states : MemberAction → List TakedownStatus
  | .accept => []
  | .decline => [.quoted]
  | .cancel => [.review, .quoted, .started]
  | .warranty => [.warranty]

/-- The second transaction of `_member_action`. -/
def recordAction (cfg : TakedownSettings) (i p : ℕ) (v : PartnerOrder) : TakedownTx Unit := do
  let req ← lockRequest i
  let req ← Tx.getOrElse req .notCommitted
  applyOrderDict cfg i req p v
  Tx.modify (TakedownDb.modifyRequest i fun r => { r with lastSyncedAt := some cfg.shop.now })

/-- `_member_action`: `decline_quote`, `cancel_request` and `claim_warranty`. -/
def memberAction (cfg : TakedownSettings) (buyer i : ℕ) (action : MemberAction) :
    TakedownFlow Unit := do
  let req ← Flow.read fun d => (d.requests.get? i).filter fun r => r.buyerId = buyer
  match req with
  | none => Flow.throw (.api 404 "TAKEDOWN_NOT_FOUND")
  | some req =>
    match req.partnerOrderId with
    | none => Flow.throw (.api 409 "TAKEDOWN_INVALID_STATE")
    | some p =>
      if req.status ∉ action.states then Flow.throw (.api 409 "TAKEDOWN_INVALID_STATE")
      else do
        Flow.undo
        let answer ← clientAction p action
        match answer.error? with
        | some e =>
          if e.unreachable = true then Flow.throw (.api 503 "TAKEDOWN_UNAVAILABLE")
          else if action = .warranty ∧ e.saysEnded = true then
            Flow.throw (.api 409 "TAKEDOWN_WARRANTY_ENDED")
          else do
            syncRequest cfg i
            Flow.throw (.api 409 "TAKEDOWN_INVALID_STATE")
        | none =>
          match answer.data with
          | none => pure ()
          | some data => inSession (recordAction cfg i data.1 data.2)

/-- `set_price`. -/
def setPrice (cfg : TakedownSettings) (i : ℕ) (price : ℤ) : TakedownTx Unit := do
  let req ← lockRequest i
  let req ← Tx.getOrElse req (.api 404 "TAKEDOWN_NOT_FOUND")
  Tx.require (req.status = .review ∧ req.partnerStatus = some .quoted ∧ 0 < price)
    (.api 409 "TAKEDOWN_INVALID_STATE")
  Tx.modify (TakedownDb.modifyRequest i fun r =>
    { r with price := some price, quotedAt := some cfg.shop.now, status := .quoted })

/-- A new request. -/
def newRequest (buyer : ℕ) (code : TakedownCode) (url : String) (note : Option String) (service : String)
    (warrantyHours : ℕ) : TakedownRequest where
  code := code
  buyerId := buyer
  url := url
  note := note
  service := service
  warrantyHours := warrantyHours
  status := .review
  partnerOrderId := none
  partnerStatus := none
  partnerPrice := none
  price := none
  warrantyUntil := none
  evidenceLiveUrl := none
  evidenceDeadUrl := none
  partnerRefundedAt := none
  orderId := none
  needsSync := false
  syncError := none
  lastSyncedAt := none
  quotedAt := none
  acceptedAt := none
  processingAt := none
  completedAt := none
  finishedAt := none

/-- `client.SERVICES`. -/
def takedownServices : List String :=
  ["article_copyright", "profile_impersonation", "profile_copyright", "group_copyright"]

/-- The first transaction of `create_request`; `i` and `code` are drawn. -/
def addRequest (cfg : TakedownSettings) (buyer i : ℕ) (code : TakedownCode) (url : String)
    (note : Option String) (service : String) (warrantyHours : ℕ) : TakedownTx Unit := do
  Tx.require (cfg.configured = true) (.api 503 "TAKEDOWN_UNAVAILABLE")
  Tx.require (service ∈ takedownServices ∧ warrantyHours ∈ [24, 72]) (.api 409 "TAKEDOWN_INVALID_STATE")
  let text := url.trimAscii.toString
  Tx.require (text ≠ "") (.api 409 "TAKEDOWN_INVALID_STATE")
  let note := (note.map fun n => (n.trimAscii.toString.take 1900).toString).filter (· ≠ "")
  let taken ← Tx.lock (.request i) fun d => (d.requests.get? i).isSome
  Tx.require (taken = false) .integrity
  let used ← Tx.lock (.code code) fun d => (d.requestWithCode code).isSome
  Tx.require (used = false) .integrity
  Tx.modify (TakedownDb.insertRequest i
    (newRequest buyer code (text.take 2048).toString note service warrantyHours))

/-- `create_request`. -/
def createTakedown (cfg : TakedownSettings) (buyer i : ℕ) (code : TakedownCode) (url : String)
    (note : Option String) (service : String) (warrantyHours : ℕ) : TakedownFlow Unit := do
  Flow.ofTx (addRequest cfg buyer i code url note service warrantyHours)
  Flow.save
  pushCreate cfg i

/-! ### Webhooks -/

/-- The request an event is about: the linked one, or for a new order the one with the code in its
reason. -/
def eventRequest (e : PartnerEvent) : TakedownTx (Option (ℕ × TakedownRequest)) := do
  let linked ← Tx.stmt (fun d => ((d.requestOf e.orderId).map fun r => TakedownKey.request r.1).toList)
    fun d => .pure (d.requestOf e.orderId)
  match linked with
  | some r => pure (some r)
  | none =>
    match if e.action = "create" then codeInReason e.reason else none with
    | none => pure none
    | some code => do
      let found ← Tx.stmt (fun d => ((d.requestWithCode code).map fun r => TakedownKey.request r.1).toList)
        fun d => .pure (d.requestWithCode code)
      match found with
      | none => pure none
      | some r => do
        Tx.when (r.2.partnerOrderId = none) (linkPartnerOrder r.1 e.orderId)
        pure (some r)

/-- What an event says of the order. -/
def PartnerEvent.update (now : ℕ) (e : PartnerEvent) : PartnerUpdate where
  status := e.toStatus
  price := e.price
  warrantyUntil := e.warrantyUntil
  clearWarranty := decide (e.warrantyUntil = none ∧ e.toStatus ≠ .inWarranty ∧
    e.toStatus ≠ .warrantyPending)
  refundedAt := if e.action = "refund" then some (e.createdAt.getD now) else none

/-- What an event does to its request; whether it was applied. -/
def applyEvent (cfg : TakedownSettings) (e : PartnerEvent) (i : ℕ) (r : TakedownRequest) :
    TakedownTx Bool := do
  if webhookApplies r.partnerStatus e.fromStatus = true then do
    applyStatus cfg i r (e.update cfg.shop.now)
    Tx.when (e.toStatus = .awaitingPayment) (Tx.modify (TakedownDb.modifyRequest i fun r =>
      { r with needsSync := false, syncError := none }))
    pure true
  else if some e.toStatus = r.partnerStatus then pure true
  else do
    Tx.modify (TakedownDb.modifyRequest i fun r => { r with needsSync := true })
    pure false

/-- What an event does, and the request that is to be read again. -/
def applyEventTo (cfg : TakedownSettings) (e : PartnerEvent) :
    Option (ℕ × TakedownRequest) → TakedownTx (Option ℕ)
  | none => pure none
  | some r => do
    let applied ← applyEvent cfg e r.1 r.2
    pure (if applied = false ∨ e.toStatus.HasEvidence then some r.1 else none)

/-- The transaction of `handle_webhook`, for an event that was signed by the partner: the request that
is to be read again. -/
def recordEvent (cfg : TakedownSettings) (e : PartnerEvent) : TakedownTx (Option ℕ) := do
  let signed ← Tx.read fun d => decide (e ∈ d.partner.events)
  Tx.require (signed = true) (.http 401 "Chữ ký webhook không hợp lệ")
  let seen ← Tx.read fun d => decide (e.id ∈ d.seenEvents)
  Tx.require (seen = false) .notCommitted
  let req ← eventRequest e
  let refresh ← applyEventTo cfg e req
  let taken ← Tx.lock (.event e.id) fun d => decide (e.id ∈ d.seenEvents)
  Tx.require (taken = false) .integrity
  Tx.modify (TakedownDb.addSeenEvent e.id)
  pure refresh

/-- `handle_webhook`. -/
def handleWebhook (cfg : TakedownSettings) (e : PartnerEvent) : TakedownFlow Unit := do
  let refresh ← Flow.ofTx (recordEvent cfg e)
  Flow.save
  match refresh with
  | none => pure ()
  | some i => (syncRequest cfg i).handle fun _ => Flow.undo

/-! ### The clients -/

/-- Who runs: the buyers, an admin, the job, the partner's webhooks, and the partner itself. -/
inductive TakedownCall
  | createTakedown (cfg : TakedownSettings) (buyer i : ℕ) (code : TakedownCode) (url : String)
      (note : Option String) (service : String) (warrantyHours : ℕ)
  | acceptQuote (cfg : TakedownSettings) (buyer i orderId : ℕ)
  | memberAction (cfg : TakedownSettings) (buyer i : ℕ) (action : MemberAction)
  | setPrice (cfg : TakedownSettings) (i : ℕ) (price : ℤ)
  | syncRequest (cfg : TakedownSettings) (i : ℕ)
  | syncDueRequests (cfg : TakedownSettings)
  | forwardAccept (cfg : TakedownSettings) (i : ℕ)
  | pushCreate (cfg : TakedownSettings) (i : ℕ)
  | handleWebhook (cfg : TakedownSettings) (e : PartnerEvent)
  | partnerStep (p : ℕ) (action : String) (createdAt : Option ℕ) (f : PartnerOrder → PartnerOrder)

/-- What a client runs. -/
def TakedownCall.code : TakedownCall → TakedownFlow Unit
  | .createTakedown cfg buyer i code url note service warrantyHours =>
    Marketplace.createTakedown cfg buyer i code url note service warrantyHours
  | .acceptQuote cfg buyer i orderId => Marketplace.acceptQuote cfg buyer i orderId
  | .memberAction cfg buyer i action =>
    Marketplace.memberAction cfg buyer i action
  | .setPrice cfg i price => do
    Flow.ofTx (Marketplace.setPrice cfg i price)
    Flow.save
  | .syncRequest cfg i => Marketplace.syncRequest cfg i
  | .syncDueRequests cfg => Marketplace.syncDueRequests cfg
  | .forwardAccept cfg i => Marketplace.forwardAccept cfg i
  | .pushCreate cfg i => Marketplace.pushCreate cfg i
  | .handleWebhook cfg e => Marketplace.handleWebhook cfg e
  | .partnerStep p action createdAt f => Marketplace.partnerStep p action createdAt f

end Marketplace
