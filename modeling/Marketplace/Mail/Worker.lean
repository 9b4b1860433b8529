import Marketplace.Mail.Service
import Marketplace.Protocol.Events

/-!
# The mail worker

`process_mail_outbox` claims up to `_BATCH` due rows in one transaction, which marks all of them `sending`
at the same instant, and then takes them one by one: it loads the row in a session of its own, sends
the mail, and commits what came of it. The stale sweep in the claiming transaction puts rows
back that have been `sending` for `_STALE_SENDING`. `deliver_now` loads and sends one row.

`mailMachine` has the runs of any number of workers side by side, a slot for each. The
claiming transaction is one step: it locks the rows it changes. `hidden` are the rows it did not see as they
are at its commit, because others had them locked or changed them in between. What the provider answers
to `adapter.send` comes with the event; the log keeps all attempts, with the time they took.
-/

namespace Marketplace.Mail

open Sql Protocol

/-- `_BATCH`. -/
def batchSize : ℕ := 20

/-- `_STALE_SENDING`, in seconds. -/
def staleSending : ℕ := 600

/-- `_backoff_seconds`. -/
def backoffSeconds (attempts : ℕ) : ℕ := min 1800 (30 * 2 ^ (attempts - 1))

/-- `_due_rows`. -/
def MailOutbox.IsDue (now : ℕ) (v : MailOutbox) : Prop := v.status = .pending ∧ v.scheduledAt ≤ now

/-- What the stale sweep looks for. -/
def MailOutbox.IsStale (now : ℕ) (v : MailOutbox) : Prop :=
  v.status = .sending ∧ v.updatedAt + staleSending ≤ now

instance (now : ℕ) (v : MailOutbox) : Decidable (v.IsDue now) := by
  unfold MailOutbox.IsDue
  infer_instance

instance (now : ℕ) (v : MailOutbox) : Decidable (v.IsStale now) := by
  unfold MailOutbox.IsStale
  infer_instance

/-- What came of an attempt. An error while the mail is composed counts like one of the provider
that may pass. -/
inductive Outcome
  | delivered
  /-- `PermanentMailSendError`. -/
  | permanent (error : String)
  /-- Any other exception. -/
  | transient (error : String)
  deriving DecidableEq, Repr

/-! ### The claim -/

/-- The stale sweep. -/
def requeueStale (now : ℕ) (hidden : List ℕ) (outbox : Table ℕ MailOutbox) : Table ℕ MailOutbox :=
  outbox.modifyAll
    ((outbox.rows.filter fun r => r.2.IsStale now ∧ r.1 ∉ hidden).map Prod.fst)
    fun v => { v with status := .pending, updatedAt := now }

/-- The rows the claim selects, in the order of their numbers. -/
def claimable (now : ℕ) (hidden : List ℕ) (outbox : Table ℕ MailOutbox) : List ℕ :=
  (((outbox.rows.filter fun r => r.2.IsDue now ∧ r.1 ∉ hidden).map Prod.fst).insertionSort
    (· ≤ ·)).take batchSize

/-- The due rows are claimed: the outbox after it, and the rows. Without an adapter they wait five
minutes. -/
def claimDue (now : ℕ) (adapter : Bool) (hidden : List ℕ) (outbox : Table ℕ MailOutbox) :
    Table ℕ MailOutbox × List ℕ :=
  let ids := claimable now hidden outbox
  if adapter then
    (outbox.modifyAll ids fun v => { v with status := .sending, updatedAt := now }, ids)
  else (outbox.modifyAll ids fun v => { v with scheduledAt := now + 300, updatedAt := now }, [])

/-- The claiming transaction. -/
def claimMails (now : ℕ) (sweep adapter : Bool) (hidden : List ℕ) (outbox : Table ℕ MailOutbox) :
    Table ℕ MailOutbox × List ℕ :=
  claimDue now adapter hidden (if sweep then requeueStale now hidden outbox else outbox)

/-! ### The outcome -/

/-- `_MAX_ERROR` characters of an error. -/
def clipped (error : String) : String := String.ofList (error.toList.take 500)

/-- What `_persist_send_outcome` sets after an exception. -/
def MailOutbox.afterError (maxAttempts now : ℕ) (permanent : Bool) (error : String)
    (v : MailOutbox) : MailOutbox :=
  if permanent = true ∨ maxAttempts ≤ v.attempts + 1 then
    { v with
      attempts := v.attempts + 1
      lastError := some (clipped error)
      updatedAt := now
      status := .failed }
  else
    { v with
      attempts := v.attempts + 1
      lastError := some (clipped error)
      updatedAt := now
      status := .pending
      scheduledAt := now + backoffSeconds (v.attempts + 1) }

/-- What `_persist_send_outcome` sets on the row it loaded. -/
def MailOutbox.after (maxAttempts now : ℕ) (v : MailOutbox) : Outcome → MailOutbox
  | .delivered => { v with status := .sent, sentAt := some now, updatedAt := now, lastError := none }
  | .permanent error => v.afterError maxAttempts now true error
  | .transient error => v.afterError maxAttempts now false error

/-- What `_persist_send_outcome` sets if there is no adapter. -/
def MailOutbox.unconfigured (now : ℕ) (v : MailOutbox) : MailOutbox :=
  { v with
    status := .pending
    scheduledAt := now + 300
    lastError := some "mail adapter unconfigured"
    updatedAt := now }

/-- The `UPDATE` of a row that was loaded and edited. -/
def MailOutbox.write (loaded edited row : MailOutbox) : MailOutbox :=
  { row with
    status := writeColumn loaded.status edited.status row.status
    attempts := writeColumn loaded.attempts edited.attempts row.attempts
    lastError := writeColumn loaded.lastError edited.lastError row.lastError
    scheduledAt := writeColumn loaded.scheduledAt edited.scheduledAt row.scheduledAt
    sentAt := writeColumn loaded.sentAt edited.sentAt row.sentAt
    updatedAt := writeColumn loaded.updatedAt edited.updatedAt row.updatedAt }

/-! ### Runs side by side -/

/-- How far a run is with the row it has loaded. -/
inductive Stage
  | loaded
  /-- `adapter.send` is running. -/
  | sending (since : ℕ)
  /-- The outcome is not committed yet. -/
  | answered (outcome : Outcome)
  deriving DecidableEq, Repr

/-- The row a run is about, as it was loaded. -/
structure Turn where
  row : ℕ
  seen : MailOutbox
  stage : Stage
  deriving DecidableEq, Repr

/-- A run of `process_mail_outbox` after its claim, or of `deliver_now`. -/
structure SendRun where
  /-- `get_mail_adapter` found one. -/
  adapter : Bool
  /-- The claimed rows whose turn is still to come. -/
  batch : List ℕ
  turn : Option Turn
  deriving DecidableEq, Repr

/-- The rows a run has in hand. -/
def SendRun.hands (r : SendRun) : List ℕ := (r.turn.map Turn.row).toList ++ r.batch

/-- An attempt to send the mail of a row. -/
structure Attempt where
  row : ℕ
  outcome : Outcome
  started : ℕ
  ended : ℕ
  deriving DecidableEq, Repr

/-- The outbox, the runs and what has been attempted so far. -/
structure Mailroom where
  clock : ℕ
  accounts : Table ℕ MailAccount
  outbox : Table ℕ MailOutbox
  runs : ℕ → Option SendRun
  log : List Attempt

/-- What can happen next. -/
inductive MailEvent
  /-- Time goes by. -/
  | tick (seconds : ℕ)
  /-- A transaction with an `enqueue_mail` commits. -/
  | enqueue (request : MailRequest) (id : ℕ)
  /-- A run claims its batch; `now` was read before. -/
  | claim (slot now : ℕ) (sweep adapter : Bool) (hidden : List ℕ)
  /-- `deliver_now`, as far as it has loaded its row. -/
  | deliverNow (slot id : ℕ) (adapter : Bool)
  /-- The next row of the batch is loaded. -/
  | load (slot : ℕ)
  /-- The mail is composed, and `adapter.send` begins. -/
  | send (slot : ℕ)
  /-- The mail cannot be composed. -/
  | unrendered (slot : ℕ) (error : String)
  /-- `adapter.send` ends. -/
  | answer (slot : ℕ) (outcome : Outcome)
  /-- The outcome is committed. -/
  | persist (slot : ℕ)
  /-- The run returns. -/
  | done (slot : ℕ)
  deriving DecidableEq, Repr

namespace Mailroom

/-- Replace what runs in a slot. -/
def put (m : Mailroom) (slot : ℕ) (r : Option SendRun) : Mailroom :=
  { m with runs := Function.update m.runs slot r }

/-- The row `id` is in somebody's hands. -/
def InHand (m : Mailroom) (id : ℕ) : Prop := ∃ slot r, m.runs slot = some r ∧ id ∈ r.hands

/-- The run goes on with its row. -/
def atStage (m : Mailroom) (slot : ℕ) (r : SendRun) (t : Turn) (stage : Stage) : Mailroom :=
  m.put slot (some { r with turn := some { t with stage := stage } })

/-- An attempt is over. -/
def answered (m : Mailroom) (slot : ℕ) (r : SendRun) (t : Turn) (outcome : Outcome)
    (started : ℕ) : Mailroom :=
  { m.atStage slot r t (.answered outcome) with
    log := m.log ++ [⟨t.row, outcome, started, m.clock⟩] }

/-- The commit at the end of a turn. -/
def committed (m : Mailroom) (slot : ℕ) (r : SendRun) (t : Turn) (edited : MailOutbox) :
    Mailroom :=
  { m.put slot (some { r with turn := none }) with
    outbox := m.outbox.modify t.row (MailOutbox.write t.seen edited) }

/-- One event, with `mail_max_attempts`. -/
def step (maxAttempts : ℕ) (m : Mailroom) : MailEvent → Option Mailroom
  | .tick seconds => some { m with clock := m.clock + seconds }
  | .enqueue x id =>
    if m.outbox.get? id = none then
      match enqueueMail m.accounts x id m.clock m.outbox with
      | .ok outbox => some { m with outbox := outbox }
      | .error _ => none
    else none
  | .claim slot now sweep adapter hidden =>
    if m.runs slot = none ∧ now ≤ m.clock then
      let claimed := claimMails now sweep adapter hidden m.outbox
      some { m.put slot (some ⟨adapter, claimed.2, none⟩) with outbox := claimed.1 }
    else none
  | .deliverNow slot id adapter =>
    if m.runs slot = none then
      (m.outbox.get? id).map fun v => m.put slot (some ⟨adapter, [], some ⟨id, v, .loaded⟩⟩)
    else none
  | .load slot =>
    match m.runs slot with
    | some ⟨adapter, id :: batch, none⟩ =>
      match m.outbox.get? id with
      | some v => some (m.put slot (some ⟨adapter, batch, some ⟨id, v, .loaded⟩⟩))
      | none => some (m.put slot (some ⟨adapter, batch, none⟩))
    | _ => none
  | .send slot =>
    match m.runs slot with
    | some ⟨true, batch, some ⟨id, v, .loaded⟩⟩ =>
      some (m.atStage slot ⟨true, batch, none⟩ ⟨id, v, .loaded⟩ (.sending m.clock))
    | _ => none
  | .unrendered slot error =>
    match m.runs slot with
    | some ⟨true, batch, some ⟨id, v, .loaded⟩⟩ =>
      some (m.answered slot ⟨true, batch, none⟩ ⟨id, v, .loaded⟩ (.transient error) m.clock)
    | _ => none
  | .answer slot outcome =>
    match m.runs slot with
    | some ⟨adapter, batch, some ⟨id, v, .sending since⟩⟩ =>
      some (m.answered slot ⟨adapter, batch, none⟩ ⟨id, v, .loaded⟩ outcome since)
    | _ => none
  | .persist slot =>
    match m.runs slot with
    | some ⟨adapter, batch, some ⟨id, v, .answered outcome⟩⟩ =>
      some (m.committed slot ⟨adapter, batch, none⟩ ⟨id, v, .loaded⟩ (v.after maxAttempts m.clock outcome))
    | some ⟨false, batch, some ⟨id, v, .loaded⟩⟩ =>
      some (m.committed slot ⟨false, batch, none⟩ ⟨id, v, .loaded⟩ (v.unconfigured m.clock))
    | _ => none
  | .done slot =>
    match m.runs slot with
    | some ⟨_, [], none⟩ => some (m.put slot none)
    | _ => none

end Mailroom

/-- The machine. -/
def mailMachine (maxAttempts : ℕ) : EventMachine Mailroom MailEvent := ⟨Mailroom.step maxAttempts⟩

end Marketplace.Mail
