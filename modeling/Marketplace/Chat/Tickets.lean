import Marketplace.Resources.Stock

/-!
# Tickets of the desk

`chat/tickets.py`, the threads with the desk of `chat/service.py`, and `set_status` and `assign` of
`chat/support.py`. A thread with the desk is a ticket: it has a status that moves along `transitions`, a sender may be
refused in it, and the requester's messages reopen it and put it among the ones that are waiting.

A session works with the object it has loaded: loading a row again, `FOR UPDATE` included, takes the lock and leaves
the object as it is. So `sendMessage` is told the object, if there is one. `created_at` of a message is the start of its
transaction and a parameter; ids are handed out in increasing order. Threads between buyers and sellers, images,
read marks, archives, tags and notices are left out, and so is the dispute behind a review.
-/

namespace Marketplace

open Sql

/-! ### The rows -/

/-- `ConversationStatus`, of a desk thread. -/
inductive TicketStatus
  | opened | resolved | closed | blocked
  deriving DecidableEq, Repr

/-- `ContextRole`. -/
inductive ContextRole
  | buyer | seller | admin
  deriving DecidableEq, Repr

/-- What a thread with the desk is about: an order under review, or nothing, for a role of the account. -/
inductive DeskTopic
  | support (orderId : ℕ)
  | helpdesk (role : ContextRole)
  deriving DecidableEq

/-- A row of `chat_conversations` with the desk. -/
structure DeskThread where
  topic : DeskTopic
  requesterId : ℕ
  status : TicketStatus
  assigneeId : Option ℕ
  resolvedAt : Option ℕ
  resolvedById : Option ℕ
  firstResponseAt : Option ℕ
  lastRequesterMessageAt : Option ℕ
  blockedReason : Option String
  lastMessageId : Option ℕ
  lastMessageAt : Option ℕ
  deriving DecidableEq

/-- A row of `chat_messages`. -/
structure ChatMessage where
  conversationId : ℕ
  senderId : ℕ
  senderRole : ContextRole
  clientMessageId : ℕ
  body : String
  createdAt : ℕ
  deriving DecidableEq

/-- An account, as far as the desk is concerned. -/
structure DeskAccount where
  isActive : Bool
  isAdmin : Bool
  isSeller : Bool
  deriving DecidableEq

/-- The tables. -/
structure DeskDb where
  threads : Table ℕ DeskThread
  /-- `chat_participants`, by thread and account. -/
  participants : Table (ℕ × ℕ) ContextRole
  messages : Table ℕ ChatMessage
  accounts : Table ℕ DeskAccount

/-- What is locked. -/
inductive DeskKey
  | order (orderId : ℕ)
  | thread (conversationId : ℕ)
  /-- `uq_chat_support_order_requester` and `uq_chat_helpdesk_requester`. -/
  | threadOf (topic : DeskTopic) (requesterId : ℕ)
  | participant (conversationId accountId : ℕ)
  | message (messageId : ℕ)
  /-- `uq_chat_message_client_id`. -/
  | client (conversationId clientMessageId : ℕ)
  deriving DecidableEq

/-- A function on these tables inside a session. -/
abbrev DeskTx (α : Type) : Type := Sql.Tx DeskDb DeskKey Abort α

/-! ### The lifecycle -/

/-- `TRANSITIONS`. -/
def TicketStatus.transitions : TicketStatus → List TicketStatus
  | .opened => [.resolved, .closed, .blocked]
  | .resolved => [.opened, .closed]
  | .closed => [.opened]
  | .blocked => [.opened]

/-- What `transition` makes of a thread. -/
def DeskThread.moveTo (thread : DeskThread) (target : TicketStatus) (actorId : ℕ) (reason : String) (now : ℕ) :
    DeskThread :=
  { thread with
    status := target
    blockedReason := if target = .blocked then some reason else none
    resolvedAt := if target = .resolved then some now else if target = .opened then none else thread.resolvedAt
    resolvedById :=
      if target = .resolved then some actorId else if target = .opened then none else thread.resolvedById }

/-- `transition`. -/
def transitionTicket (thread : DeskThread) (target : TicketStatus) (actorId : ℕ) (reason : Option String) (now : ℕ) :
    DeskTx DeskThread := do
  Tx.require (target ∈ thread.status.transitions) (.api 409 "TICKET_INVALID_TRANSITION")
  let reason := strip (reason.getD "")
  Tx.require (target = .blocked → 3 ≤ reason.toList.length ∧ reason.toList.length ≤ 300)
    (.http 422 "Nhập lý do chặn (3–300 ký tự)")
  pure (thread.moveTo target actorId reason now)

/-- `on_desk_message`. -/
def DeskThread.onDeskMessage (thread : DeskThread) (senderId : ℕ) (admin : Bool) (createdAt : ℕ) : DeskThread :=
  if admin = true then { thread with firstResponseAt := some (thread.firstResponseAt.getD createdAt) }
  else if senderId ≠ thread.requesterId then thread
  else
    let thread := { thread with lastRequesterMessageAt := some createdAt }
    if thread.status = .resolved then thread.moveTo .opened senderId "" createdAt else thread

/-- What a message makes of its thread. -/
def DeskThread.withMessage (thread : DeskThread) (messageId : ℕ) (msg : ChatMessage) : DeskThread :=
  { thread with lastMessageId := some messageId, lastMessageAt := some msg.createdAt }.onDeskMessage msg.senderId
    (decide (msg.senderRole = ContextRole.admin)) msg.createdAt

/-- `_waiting_clause`. -/
def DeskThread.Waiting (thread : DeskThread) : Prop :=
  thread.status = .opened ∧
    ∃ asked ∈ thread.lastRequesterMessageAt, ∃ last ∈ thread.lastMessageAt, last ≤ asked

instance decidableWaiting (thread : DeskThread) : Decidable thread.Waiting := by
  unfold DeskThread.Waiting
  infer_instance

/-! ### Reading and writing rows -/

/-- The `UPDATE` of a thread that was loaded and edited. -/
def DeskThread.write (loaded edited row : DeskThread) : DeskThread where
  topic := row.topic
  requesterId := row.requesterId
  status := writeColumn loaded.status edited.status row.status
  assigneeId := writeColumn loaded.assigneeId edited.assigneeId row.assigneeId
  resolvedAt := writeColumn loaded.resolvedAt edited.resolvedAt row.resolvedAt
  resolvedById := writeColumn loaded.resolvedById edited.resolvedById row.resolvedById
  firstResponseAt := writeColumn loaded.firstResponseAt edited.firstResponseAt row.firstResponseAt
  lastRequesterMessageAt :=
    writeColumn loaded.lastRequesterMessageAt edited.lastRequesterMessageAt row.lastRequesterMessageAt
  blockedReason := writeColumn loaded.blockedReason edited.blockedReason row.blockedReason
  lastMessageId := writeColumn loaded.lastMessageId edited.lastMessageId row.lastMessageId
  lastMessageAt := writeColumn loaded.lastMessageAt edited.lastMessageAt row.lastMessageAt

namespace DeskDb

/-- Rewrite a thread. -/
def modifyThread (conversationId : ℕ) (f : DeskThread → DeskThread) (d : DeskDb) : DeskDb :=
  { d with threads := d.threads.modify conversationId f }

/-- Add a thread, with its requester. -/
def insertThread (conversationId : ℕ) (thread : DeskThread) (role : ContextRole) (d : DeskDb) : DeskDb :=
  { d with
    threads := d.threads.insert conversationId thread
    participants := d.participants.insert (conversationId, thread.requesterId) role }

/-- Add an admin to a thread. -/
def insertAdmin (conversationId accountId : ℕ) (d : DeskDb) : DeskDb :=
  { d with participants := d.participants.insert (conversationId, accountId) .admin }

/-- Add a message. -/
def insertMessage (messageId : ℕ) (msg : ChatMessage) (d : DeskDb) : DeskDb :=
  { d with messages := d.messages.insert messageId msg }

/-- The requester's thread about something. -/
def threadOf (d : DeskDb) (topic : DeskTopic) (requesterId : ℕ) : Option (ℕ × DeskThread) :=
  d.threads.rows.find? fun row => row.2.topic = topic ∧ row.2.requesterId = requesterId

/-- The message of a thread with a client's id. -/
def messageOf (d : DeskDb) (conversationId clientMessageId : ℕ) : Option (ℕ × ChatMessage) :=
  d.messages.rows.find? fun row => row.2.conversationId = conversationId ∧ row.2.clientMessageId = clientMessageId

end DeskDb

/-- The flush of a thread. -/
def flushThread (conversationId : ℕ) (loaded edited : DeskThread) : DeskTx Unit := do
  Tx.stmt (fun _ => if edited = loaded then [] else [.thread conversationId]) fun _ => Tx.pure ()
  Tx.modify (DeskDb.modifyThread conversationId (loaded.write edited))

/-- `_desk_conversation`, locked. -/
def lockThread (conversationId : ℕ) : DeskTx DeskThread := do
  let thread ← Tx.lock (.thread conversationId) fun d => d.threads.get? conversationId
  Tx.getOrElse thread (.api 404 "CHAT_CONVERSATION_NOT_FOUND")

/-- The `INSERT` of a thread: `false` if the requester has one about it already. -/
def insertThread (conversationId : ℕ) (thread : DeskThread) (role : ContextRole) : DeskTx Bool := do
  let other ← Tx.stmt (fun _ => [.thread conversationId, .threadOf thread.topic thread.requesterId,
      .participant conversationId thread.requesterId]) fun d =>
    Tx.pure ((d.threads.get? conversationId).isSome, (d.threadOf thread.topic thread.requesterId).isSome)
  Tx.require (other.1 = false) .integrity
  Tx.when (other.2 = false) (Tx.modify (DeskDb.insertThread conversationId thread role))
  pure (!other.2)

/-- The `INSERT` of a message. The sequence has given the id, which is above those that are there. -/
def insertMessage (messageId : ℕ) (msg : ChatMessage) : DeskTx Unit := do
  let clash ← Tx.stmt (fun _ => [.message messageId, .client msg.conversationId msg.clientMessageId]) fun d =>
    Tx.pure ((d.messageOf msg.conversationId msg.clientMessageId).isSome ||
      d.messages.rows.any fun row => decide (messageId ≤ row.1))
  Tx.require (clash = false) .integrity
  Tx.require (1 ≤ msg.body.toList.length ∧ msg.body.toList.length ≤ 4000) .integrity
  Tx.modify (DeskDb.insertMessage messageId msg)

/-! ### Messages -/

/-- What a client sends: its own id, the id the sequence gives, the text, and when its transaction began. -/
structure Sending where
  clientMessageId : ℕ
  messageId : ℕ
  body : String
  now : ℕ

/-- The message. -/
def Sending.message (s : Sending) (conversationId senderId : ℕ) (role : ContextRole) : ChatMessage where
  conversationId
  senderId
  senderRole := role
  clientMessageId := s.clientMessageId
  body := s.body
  createdAt := s.now

/-- A message that is there with the client's id is the same one, and is not sent again. -/
def Sending.checkExisting (s : Sending) (conversationId senderId : ℕ) : DeskTx Unit := do
  let existing ← Tx.read fun d => d.messageOf conversationId s.clientMessageId
  Tx.require (∀ row ∈ existing, row.2.body = s.body ∧ row.2.senderId = senderId)
    (.api 409 "CHAT_MESSAGE_ID_CONFLICT")
  Tx.require (existing = none) .notCommitted

/-- `_participant_for_account`: the role, and the thread if it was loaded for it. -/
def participantForAccount (conversationId accountId : ℕ) (isAdmin : Bool) :
    DeskTx (ContextRole × Option DeskThread) := do
  let role ← Tx.read fun d => d.participants.get? (conversationId, accountId)
  match role with
  | some role => pure (role, none)
  | none => do
    let thread ← Tx.read fun d => d.threads.get? conversationId
    let thread ← Tx.getOrElse thread (.api 404 "CHAT_CONVERSATION_NOT_FOUND")
    Tx.require (isAdmin = true) (.api 404 "CHAT_CONVERSATION_NOT_FOUND")
    let taken ← Tx.lock (.participant conversationId accountId) fun d => d.participants.get? (conversationId, accountId)
    Tx.require (taken = none) .integrity
    Tx.modify (DeskDb.insertAdmin conversationId accountId)
    pure (.admin, some thread)

/-- `send_message`, in a desk thread; `object` is the thread as the session has loaded it before. What it returns is the
object afterwards. -/
def sendMessage (conversationId accountId : ℕ) (isAdmin : Bool) (object : Option DeskThread) (s : Sending) :
    DeskTx (Option DeskThread) := do
  let participant ← participantForAccount conversationId accountId isAdmin
  let current ← lockThread conversationId
  let thread := (object <|> participant.2).getD current
  Tx.require (thread.status = .blocked → participant.1 = .admin) (.api 403 "CHAT_BLOCKED")
  Tx.require (thread.status ≠ .closed) (.api 409 "CHAT_READ_ONLY")
  s.checkExisting conversationId accountId
  insertMessage s.messageId (s.message conversationId accountId participant.1)
  let edited := thread.withMessage s.messageId (s.message conversationId accountId participant.1)
  flushThread conversationId thread edited
  pure (some edited)

/-- A thread that is new. -/
def newThread (topic : DeskTopic) (requesterId : ℕ) : DeskThread where
  topic
  requesterId
  status := .opened
  assigneeId := none
  resolvedAt := none
  resolvedById := none
  firstResponseAt := none
  lastRequesterMessageAt := none
  blockedReason := none
  lastMessageId := none
  lastMessageAt := none

/-- `post_helpdesk_message`. The thread that is there is loaded without a lock. One that is not there is created, and that
is committed before the message is sent, which is `sendMessage` with the new thread. -/
def postHelpdeskMessage (accountId : ℕ) (account : DeskAccount) (role : ContextRole) (conversationId : ℕ) (s : Sending) :
    DeskTx (Option DeskThread) := do
  Tx.require (account.isAdmin = false) (.api 403 "CHAT_HELPDESK_UNAVAILABLE")
  Tx.require (role = .seller → account.isSeller = true) (.api 403 "CHAT_HELPDESK_SELLER_ONLY")
  let role : ContextRole := if role = .seller then .seller else .buyer
  let existing ← Tx.read fun d => d.threadOf (.helpdesk role) accountId
  match existing with
  | some row => sendMessage row.1 accountId account.isAdmin (some row.2) s
  | none => do
    let created ← insertThread conversationId (newThread (.helpdesk role) accountId) role
    if created = true then pure (some (newThread (.helpdesk role) accountId))
    else do
      let existing ← Tx.read fun d => d.threadOf (.helpdesk role) accountId
      let row ← Tx.getOrElse existing .integrity
      sendMessage row.1 accountId account.isAdmin (some row.2) s

/-- `_append_support_message`. -/
def appendSupportMessage (conversationId : ℕ) (thread : DeskThread) (accountId : ℕ) (role : ContextRole) (s : Sending) :
    DeskTx Unit := do
  s.checkExisting conversationId accountId
  insertMessage s.messageId (s.message conversationId accountId role)
  flushThread conversationId thread (thread.withMessage s.messageId (s.message conversationId accountId role))

/-- `ensure_support_conversation`, of a trimmed note, by the seller of the order or by its buyer. -/
def ensureSupportConversation (orderId accountId : ℕ) (seller : Bool) (conversationId : ℕ) (s : Sending) :
    DeskTx Unit := do
  let role : ContextRole := if seller = true then .seller else .buyer
  let existing ← Tx.read fun d => d.threadOf (.support orderId) accountId
  match existing with
  | some row => do
    let member ← Tx.read fun d => d.participants.get? (row.1, accountId)
    let member ← Tx.getOrElse member (.api 404 "CHAT_CONVERSATION_NOT_FOUND")
    Tx.when (s.body ≠ "") (appendSupportMessage row.1 row.2 accountId member s)
  | none => do
    let created ← insertThread conversationId (newThread (.support orderId) accountId) role
    Tx.require (created = true) .integrity
    insertMessage s.messageId (s.message conversationId accountId role)
    Tx.modify (DeskDb.modifyThread conversationId fun thread =>
      { thread with
        lastMessageId := some s.messageId
        lastMessageAt := some s.now
        lastRequesterMessageAt := some s.now })

/-- `request_marketplace_review`, as far as the desk is concerned: by the buyer or the seller of the order, whose row
is locked. -/
def requestMarketplaceReviewThread (orderId accountId : ℕ) (seller : Bool) (conversationId : ℕ) (s : Sending) :
    DeskTx (Option DeskThread) := do
  Tx.lock (.order orderId) fun _ => ()
  ensureSupportConversation orderId accountId seller conversationId { s with body := strip s.body }
  pure none

/-! ### The admins -/

/-- `RESOLVED_NOTICE`. -/
def resolvedNotice : String :=
  "Đã xử lý yêu cầu của bạn. Nếu bạn cần hỗ trợ thêm, chỉ cần trả lời tin nhắn này — cuộc trò chuyện sẽ tự mở lại."

/-- `set_status`, of a thread that was loaded and whose lock is held. -/
def moveThread (conversationId : ℕ) (thread : DeskThread) (target : TicketStatus) (adminId : ℕ) (reason : Option String)
    (now : ℕ) : DeskTx (Option DeskThread) := do
  let edited ← transitionTicket thread target adminId reason now
  flushThread conversationId thread edited
  pure none

/-- `set_status`, without a notice. -/
def setStatus (conversationId adminId : ℕ) (target : TicketStatus) (reason : Option String) (now : ℕ) :
    DeskTx (Option DeskThread) := do
  let thread ← lockThread conversationId
  Tx.require (target ∈ thread.status.transitions) (.api 409 "TICKET_INVALID_TRANSITION")
  moveThread conversationId thread target adminId reason now

/-- `set_status` with a notice that the ticket is resolved, up to the commit of the notice. It goes on with the thread it
returns. -/
def setStatusNotice (conversationId adminId : ℕ) (s : Sending) : DeskTx (Option DeskThread) := do
  let thread ← lockThread conversationId
  Tx.require (TicketStatus.resolved ∈ thread.status.transitions) (.api 409 "TICKET_INVALID_TRANSITION")
  sendMessage conversationId adminId true (some thread) { s with body := resolvedNotice }

/-- `set_status`, from the commit of the notice on: the row is locked again, and the thread is the one loaded before. -/
def setStatusResolved (conversationId adminId : ℕ) (thread : DeskThread) (reason : Option String) (now : ℕ) :
    DeskTx (Option DeskThread) := do
  let _ ← lockThread conversationId
  moveThread conversationId thread .resolved adminId reason now

/-- `assign`. -/
def assignTicket (conversationId : ℕ) (assigneeId : Option ℕ) : DeskTx (Option DeskThread) := do
  let thread ← lockThread conversationId
  let accounts ← Tx.read fun d => d.accounts.get?
  Tx.require (∀ a ∈ assigneeId, ∃ account ∈ accounts a, account.isActive = true ∧ account.isAdmin = true)
    (.api 422 "TICKET_ASSIGNEE_INVALID")
  flushThread conversationId thread { thread with assigneeId }
  pure none

end Marketplace
