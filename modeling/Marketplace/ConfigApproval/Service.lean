import Marketplace.Model.Db

/-!
# Two-step approval of settings

`config_approval/registry.py` and `config_approval/service.py`. A section is a row of settings behind an
update function; what it does to a field is a parameter (`ConfigSection.store`), as is what it
refuses (`ConfigSection.validate`), and it touches no field its payload does not name.

The update function goes through the session's copy of the row: it writes back the fields it
changed with respect to that copy and no others (`ConfigSection.changes`), whatever the row is by
then. So it matters at which moment each function reads the row, and every one of these
reads is a statement of its own here. `submitChange` reads it up to seven times.

Texts are taken as the router hands them over, stripped. The audit log and the alerts are left out.
-/

namespace Marketplace

open Sql

variable {K F A V W : Type}

/-- A PATCH body: what it says about each field. -/
abbrev Payload (F A : Type) : Type := F → Option A

/-- The values of a section; a field that is left out has none. -/
abbrev Snapshot (F V : Type) : Type := F → Option V

/-- `{field: [old, new]}`. -/
abbrev ConfigDiff (F V : Type) : Type := F → Option (Option V × Option V)

/-- `ConfigSection`. -/
structure ConfigSection (F A V : Type) where
  /-- `immediate_fields`. -/
  isImmediate : F → Bool
  /-- The fields of `immediate_snapshot`, or of `snapshot` if there is none. -/
  inImmediateSnapshot : F → Bool
  /-- What the update function raises for. -/
  validate : Payload F A → (F → V) → Except Abort Unit
  /-- What the update function makes of a field. -/
  store : F → A → V → V

/-- `bool(payload)`. -/
def Payload.isEmpty [Fintype F] (payload : Payload F A) : Bool :=
  decide (∀ f, (payload f).isNone = true)

namespace ConfigSection

variable (section_ : ConfigSection F A V)

/-- `snapshot`: the fields that need approval. -/
def snapshot (row : F → V) : Snapshot F V :=
  fun f => if section_.isImmediate f = true then none else some (row f)

/-- `immediate_snapshot`. -/
def immediateSnapshot (row : F → V) : Snapshot F V :=
  fun f => if section_.inImmediateSnapshot f = true then some (row f) else none

/-- The part of `split_payload` that is applied at once. -/
def immediate (payload : Payload F A) : Payload F A :=
  fun f => if section_.isImmediate f = true then payload f else none

/-- The part of `split_payload` that needs approval. -/
def gated (payload : Payload F A) : Payload F A :=
  fun f => if section_.isImmediate f = true then none else payload f

/-- The fields the update function changes on its copy of the row. -/
def changes [DecidableEq V] (payload : Payload F A) (row : F → V) : F → Option V := fun f =>
  (payload f).bind fun a => if section_.store f a (row f) = row f then none
    else some (section_.store f a (row f))

end ConfigSection

/-- The row with some fields changed. -/
def overlay (changes : F → Option V) (row : F → V) : F → V := fun f => (changes f).getD (row f)

/-- `flat_diff`. -/
def flatDiff [DecidableEq V] (before after : Snapshot F V) : ConfigDiff F V := fun f =>
  if before f = after f then none else some (before f, after f)

/-- The snapshot a diff makes of the one it starts from. -/
def ConfigDiff.applyTo (diff : ConfigDiff F V) (base : Snapshot F V) : Snapshot F V := fun f =>
  (diff f).elim (base f) Prod.snd

/-- `CHANGE_STATUSES`. -/
inductive ChangeStatus
  | pending | approved | rejected | cancelled | superseded | expired
  deriving DecidableEq, Repr

/-- `ConfigChangeRequest`. -/
structure ConfigChangeRequest (K F A V W : Type) where
  key : K
  status : ChangeStatus
  payload : Payload F A
  diff : ConfigDiff F V
  baseSnapshot : Snapshot F V
  baseVersion : W
  reason : String
  requestedById : ℕ
  expiresAt : ℕ
  decidedById : Option ℕ
  decidedAt : Option ℕ
  decisionNote : Option String

/-- The request is waiting for a decision about this section. -/
def ConfigChangeRequest.PendingFor (req : ConfigChangeRequest K F A V W) (key : K) : Prop :=
  req.key = key ∧ req.status = .pending

instance [DecidableEq K] (req : ConfigChangeRequest K F A V W) (key : K) :
    Decidable (req.PendingFor key) := by
  unfold ConfigChangeRequest.PendingFor
  infer_instance

/-- The settings and the queue. -/
structure ConfigDb (K F A V W : Type) where
  rows : K → F → V
  requests : Table ℕ (ConfigChangeRequest K F A V W)

namespace ConfigDb

/-- Write fields of a section. -/
@[simps] def setFields [DecidableEq K] (key : K) (changes : F → Option V)
    (d : ConfigDb K F A V W) : ConfigDb K F A V W :=
  { d with rows := Function.update d.rows key (overlay changes (d.rows key)) }

/-- Close a request. -/
@[simps] def decideRequest (i : ℕ) (status : ChangeStatus) (by_ : Option ℕ) (now : ℕ)
    (note : Option String) (d : ConfigDb K F A V W) : ConfigDb K F A V W :=
  { d with
    requests := d.requests.modify i fun req =>
      { req with status := status, decidedById := by_, decidedAt := some now, decisionNote := note } }

/-- Add a request. -/
@[simps] def addRequest (i : ℕ) (req : ConfigChangeRequest K F A V W) (d : ConfigDb K F A V W) :
    ConfigDb K F A V W :=
  { d with requests := d.requests.insert i req }

/-- Nothing is pending for the section. -/
def Free (d : ConfigDb K F A V W) (key : K) : Prop :=
  ∀ r ∈ d.requests.rows, ¬r.2.PendingFor key

instance [DecidableEq K] (d : ConfigDb K F A V W) (key : K) : Decidable (d.Free key) := by
  unfold Free
  infer_instance

/-- The requests that have lapsed, less those other sessions have locked. -/
def lapsed (now : ℕ) (skipped : List ℕ) (d : ConfigDb K F A V W) : List ℕ :=
  (d.requests.rows.filter fun r =>
    r.2.status = .pending ∧ r.2.expiresAt ≤ now ∧ r.1 ∉ skipped).map Prod.fst

end ConfigDb

/-- What a session locks. -/
inductive ConfigKey (K : Type)
  /-- `pg_advisory_xact_lock` of a section. -/
  | section_ (key : K)
  /-- A row of the queue. -/
  | request (i : ℕ)
  /-- The entry of the unique index on pending requests. -/
  | pending (key : K)
  deriving DecidableEq, Repr

/-- A function of the service in a session. -/
abbrev ConfigTx (K F A V W α : Type) : Type := Sql.Tx (ConfigDb K F A V W) (ConfigKey K) Abort α

/-- The settings of the service, and the registered sections. -/
structure ConfigEnv (K F A V W : Type) where
  sections : K → ConfigSection F A V
  /-- `version_of`. -/
  versionOf : Snapshot F V → W
  /-- `CONFIG_APPROVAL_REQUIRED`. -/
  approvalRequired : Bool
  /-- `CONFIG_CHANGE_EXPIRY_DAYS`, in the unit of the clock. -/
  expiry : ℕ

/-- `REASON_MIN`. -/
def reasonMin : ℕ := 3

/-- `NOTE_MAX`. -/
def noteMax : ℕ := 1000

/-- `text[:NOTE_MAX]`. -/
def cutNote (text : String) : String := String.ofList (text.toList.take noteMax)

/-- `_clean_note`. -/
def cleanNote (note : Option String) : Option String :=
  (note.map cutNote).filter fun t => t ≠ ""

/-- How a function ended that committed. -/
inductive ConfigReply
  /-- `submit_change` with approval off. -/
  | applied
  /-- `submit_change` found nothing to change. -/
  | unchanged
  /-- `submit_change` applied the immediate fields. -/
  | immediate
  /-- A request was made. -/
  | queued
  /-- A request was decided. -/
  | decided
  /-- `expire_due`. -/
  | swept
  /-- The function raised after its commit. -/
  | raised (e : Abort)
  deriving DecidableEq, Repr

section Service

variable [DecidableEq K] [Fintype F] [DecidableEq V] [DecidableEq W]
variable (env : ConfigEnv K F A V W)

/-- `section.apply` on the session's copy `row`. -/
def applyChanges (key : K) (payload : Payload F A) (row : F → V) : ConfigTx K F A V W Unit :=
  match (env.sections key).validate payload row with
  | .error e => .throw e
  | .ok _ => Tx.modify (ConfigDb.setFields key ((env.sections key).changes payload row))

/-- `section.apply` on a copy it loads. -/
def applySection (key : K) (payload : Payload F A) : ConfigTx K F A V W Unit := do
  let row ← Tx.read fun d => d.rows key
  applyChanges env key payload row

/-- `_dry_run`. The second snapshot is a query of its own: it has the row as it is by then, with the
changes that were staged on the first. -/
def dryRun (key : K) (part : Payload F A) (shown : (F → V) → Snapshot F V) :
    ConfigTx K F A V W (Snapshot F V × Snapshot F V) := do
  let row ← Tx.read fun d => d.rows key
  match (env.sections key).validate part row with
  | .error e => .throw e
  | .ok _ => do
    let row' ← Tx.read fun d => d.rows key
    pure (shown row, shown (overlay ((env.sections key).changes part row) row'))

/-- The part of a payload, if it would change something. -/
def keepChanging (key : K) (part : Payload F A) (shown : (F → V) → Snapshot F V) :
    ConfigTx K F A V W (Payload F A) :=
  if part.isEmpty = true then pure part
  else do
    let (before, after) ← dryRun env key part shown
    pure (if before = after then fun _ => none else part)

/-- `expire_due`, without the commit. `skipped` are the rows another session has locked. -/
def expireDue (now : ℕ) (skipped : List ℕ) : ConfigTx K F A V W Unit := do
  let due ← .stmt (fun d => (d.lapsed now skipped).map .request) fun d => .pure (d.lapsed now skipped)
  Tx.forEach due fun i => Tx.modify (ConfigDb.decideRequest i .expired none now none)

/-- `_create_request`. -/
def createRequest (key : K) (actorId : ℕ) (payload : Payload F A) (before after : Snapshot F V)
    (reason : String) (now i : ℕ) : ConfigTx K F A V W ConfigReply := do
  let free ← .stmt (fun _ => [.pending key, .request i]) fun d =>
    .pure (decide (d.Free key ∧ d.requests.get? i = none))
  Tx.require (free = true) (.api 409 "CONFIG_CHANGE_PENDING")
  Tx.modify (ConfigDb.addRequest i
    { key := key, status := .pending, payload := payload, diff := flatDiff before after
      baseSnapshot := before, baseVersion := env.versionOf before, reason := cutNote reason
      requestedById := actorId, expiresAt := now + env.expiry, decidedById := none
      decidedAt := none, decisionNote := none })
  pure .queued

/-- The end of `submit_change`: the request for the part that needs approval. -/
def queueChange (key : K) (actorId : ℕ) (gated : Payload F A) (reason : String) (now i : ℕ) :
    ConfigTx K F A V W ConfigReply := do
  Tx.lock (.section_ key) fun _ => ()
  let (before, after) ← dryRun env key gated (env.sections key).snapshot
  Tx.require (before ≠ after) .notCommitted
  createRequest env key actorId gated before after reason now i

/-- `submit_change`, from where it knows which parts of the payload would change something. -/
def saveParts (key : K) (actorId : ℕ) (payload immediate gated : Payload F A) (reason : String)
    (now : ℕ) (skipped : List ℕ) (i : ℕ) : ConfigTx K F A V W ConfigReply :=
  if immediate.isEmpty = true ∧ gated.isEmpty = true then do
    applySection env key payload
    pure .unchanged
  else do
    Tx.when (gated.isEmpty = false) do
      Tx.require (reasonMin ≤ reason.length) (.api 422 "CONFIG_CHANGE_REASON_REQUIRED")
      expireDue now skipped
      let free ← Tx.read fun d => decide (d.Free key)
      Tx.require (free = true) (.api 409 "CONFIG_CHANGE_PENDING")
    if immediate.isEmpty = false then do
      applySection env key immediate
      pure .immediate
    else queueChange env key actorId gated reason now i

/-- `submit_change`, up to its first commit. After `immediate` the source goes on with `queueChange`, if
there is something to queue. -/
def submitChange (key : K) (actorId : ℕ) (payload : Payload F A) (reason : String) (now : ℕ)
    (skipped : List ℕ) (i : ℕ) : ConfigTx K F A V W ConfigReply :=
  if env.approvalRequired = false then do
    applySection env key payload
    pure .applied
  else do
    let gated ← keepChanging env key ((env.sections key).gated payload) (env.sections key).snapshot
    let immediate ← keepChanging env key ((env.sections key).immediate payload)
      (env.sections key).immediateSnapshot
    saveParts env key actorId payload immediate gated reason now skipped i

/-- `_locked_request`, and what the caller does with a pending request. -/
def withRequest (i now : ℕ)
    (next : ConfigChangeRequest K F A V W → ConfigTx K F A V W ConfigReply) :
    ConfigTx K F A V W ConfigReply := do
  let req ← Tx.lock (.request i) fun d => d.requests.get? i
  let req ← Tx.getOrElse req (.api 404 "CONFIG_CHANGE_NOT_FOUND")
  if req.status = .pending ∧ req.expiresAt ≤ now then do
    Tx.modify (ConfigDb.decideRequest i .expired none now none)
    pure (.raised (.api 409 "CONFIG_CHANGE_NOT_PENDING"))
  else if req.status = .pending then next req
  else .throw (.api 409 "CONFIG_CHANGE_NOT_PENDING")

/-- `approve`. -/
def approve (i adminId : ℕ) (note : Option String) (now : ℕ) : ConfigTx K F A V W ConfigReply :=
  withRequest i now fun req => do
    Tx.require (req.requestedById ≠ adminId) (.api 403 "CONFIG_CHANGE_SELF_APPROVAL")
    Tx.lock (.section_ req.key) fun _ => ()
    let current ← Tx.read fun d => d.rows req.key
    if env.versionOf ((env.sections req.key).snapshot current) = req.baseVersion then do
      Tx.modify (ConfigDb.decideRequest i .approved (some adminId) now (cleanNote note))
      applyChanges env req.key req.payload current
      pure .decided
    else do
      Tx.modify (ConfigDb.decideRequest i .superseded (some adminId) now (cleanNote note))
      pure (.raised (.api 409 "CONFIG_CHANGE_STALE"))

/-- `reject`. -/
def reject (i adminId : ℕ) (note : Option String) (now : ℕ) : ConfigTx K F A V W ConfigReply :=
  withRequest i now fun req => do
    Tx.require (req.requestedById ≠ adminId) (.api 403 "CONFIG_CHANGE_SELF_APPROVAL")
    Tx.require (reasonMin ≤ ((cleanNote note).getD "").length) (.api 422 "CONFIG_CHANGE_NOTE_REQUIRED")
    Tx.modify (ConfigDb.decideRequest i .rejected (some adminId) now (cleanNote note))
    pure .decided

/-- `cancel`. -/
def cancel (i adminId : ℕ) (note : Option String) (now : ℕ) : ConfigTx K F A V W ConfigReply :=
  withRequest i now fun req => do
    Tx.require (req.requestedById = adminId) (.api 403 "CONFIG_CHANGE_NOT_REQUESTER")
    Tx.modify (ConfigDb.decideRequest i .cancelled (some adminId) now (cleanNote note))
    pure .decided

end Service

end Marketplace
