import Mathlib.Data.PNat.Basic
import Marketplace.Chat.Tickets
import Marketplace.Lists.MapM
import Marketplace.Model.Types
import Marketplace.Sql.Join

/-!
# The inbox

`list_conversations` of `chat/service.py` shows the threads of an account, read with one statement of many joins;
`_summary` shows a thread that is open, read row by row; `send_message` refuses a text where the thread is closed to its
sender. All three derive the status of a thread and who may write in it.

`listConversations_eq`: the joins are the look-ups of `_summary`. `truthful_iff`: an item says what the summary says, and
that a text may be sent where it may, exactly where the thread is not one of four kinds (`Misread`).

Images in messages, badges of sellers and what a sent message does to its thread are left out.
-/

namespace Marketplace.Inbox

open Sql

/-! ### The rows -/

/-- An id out of a sequence, which is not zero. -/
abbrev Id := ℕ+

/-- `ConversationKind`. -/
inductive ConversationKind
  | productInquiry | order | support | helpdesk
  deriving DecidableEq, Repr

/-- `DESK_KINDS`. -/
def ConversationKind.isDesk : ConversationKind → Bool
  | .support | .helpdesk => true
  | .productInquiry | .order => false

/-- `ConversationStatus`. -/
inductive ConversationStatus
  | opened | resolved | closed | blocked | readOnly
  deriving DecidableEq, Repr

/-- A row of `chat_conversations`, with what its checks say of desk threads. -/
structure Conversation where
  kind : ConversationKind
  status : ConversationStatus
  productId : Option Id
  orderId : Option Id
  buyerId : Option Id
  sellerId : Option Id
  requesterId : Option Id
  requesterRole : Option ContextRole
  lastMessageId : Option Id
  lastMessageAt : Option ℕ
  createdAt : ℕ
  helpdesk : kind = .helpdesk → orderId = none
  requester : kind.isDesk = true → requesterRole ≠ some .admin
  deriving DecidableEq

/-- A row of `chat_participants`. -/
structure Participant where
  contextRole : ContextRole
  lastReadMessageId : Option Id
  archivedAt : Option ℕ
  deriving DecidableEq

/-- A row of `chat_messages`; `attachments` are the ids of its images. -/
structure Message where
  conversationId : ℕ
  senderId : Id
  senderRole : ContextRole
  clientMessageId : ℕ
  body : String
  attachments : List String
  deriving DecidableEq

/-- What the inbox reads of an account. -/
structure AccountRow where
  email : Option String
  publicKey : String
  deriving DecidableEq

/-- What the inbox reads of a product; `cover` is what `parse_cover_id` makes of its images. -/
structure ProductRow where
  title : String
  cover : Option String
  slug : Option String
  publicKey : String
  deriving DecidableEq

/-- What the inbox reads of an order. -/
structure OrderRow where
  orderCode : String
  status : OrderStatus
  quantity : ℕ
  totalAmount : ℤ
  cancelReason : Option String
  deriving DecidableEq

/-- What the inbox reads of a dispute. -/
structure DisputeRow where
  orderId : Id
  status : DisputeStatus
  reason : String
  reviewRequestedAt : Option ℕ
  deriving DecidableEq

/-- `DisputeResourceAction.action`. -/
inductive ResourceRemedy
  | replace | refund
  deriving DecidableEq

/-- A row of `dispute_resource_actions`. -/
structure ResourceAction where
  disputeId : Id
  action : ResourceRemedy
  refundAmount : ℕ
  deriving DecidableEq

/-- A row of `dispute_proxy_actions`, which is a refund. -/
structure ProxyAction where
  disputeId : Id
  refundAmount : ℕ
  deriving DecidableEq

/-- A row of `seller_applications`. -/
structure ApplicationRow where
  accountId : Id
  approved : Bool
  businessName : Option String
  deriving DecidableEq

/-- The tables; claims are rows with the dispute they are made in. -/
structure InboxDb where
  conversations : Table ℕ Conversation
  participants : Table (ℕ × Id) Participant
  messages : Table Id Message
  accounts : Table Id AccountRow
  products : Table Id ProductRow
  orders : Table Id OrderRow
  disputes : Table Id DisputeRow
  claimResources : Table Id Id
  resourceActions : Table Id ResourceAction
  claimProxies : Table Id Id
  proxyActions : Table Id ProxyAction
  applications : Table Id ApplicationRow
  /-- The foreign key of `chat_conversations.order_id`. -/
  ordered : ∀ id room, conversations.get? id = some room → ∀ o ∈ room.orderId, orders.get? o ≠ none

/-- The account that asks. -/
structure Viewer where
  id : Id
  roles : List ContextRole

/-! ### What is shown -/

/-- `ChatDisputeContext`. -/
structure DisputeContext where
  id : Id
  status : DisputeStatus
  reason : String
  reviewRequestedAt : Option ℕ
  claimedCount : ℕ
  replacedCount : ℕ
  pendingCount : ℤ
  refundedAmount : ℕ
  deriving DecidableEq

/-- `SafeCounterpart`, without a badge. -/
structure Counterpart where
  id : String
  label : String
  role : ContextRole
  deriving DecidableEq

/-- `ConversationSummary`. -/
structure ConversationSummary where
  id : ℕ
  kind : ConversationKind
  status : ConversationStatus
  product : Option (Id × ProductRow)
  order : Option (Id × OrderRow)
  dispute : Option DisputeContext
  counterpart : Counterpart
  viewerRole : ContextRole
  lastMessage : Option (Id × Message)
  unreadCount : ℕ
  canSend : Bool
  readOnlyReason : Option String
  createdAt : ℕ
  deriving DecidableEq

def marketplaceLabel : String := "Marketplace"
def marketplaceCounterpartKey : String := "marketplace"
def readOnlyText : String := "Cuộc trò chuyện hiện chỉ đọc."

/-- `email.split("@", 1)[0]` -/
def localPart (email : String) : String := String.ofList (email.toList.takeWhile (· ≠ '@'))

/-- The local part of an email that is there. -/
def emailName (email : Option String) : Option String := (email.filter (· ≠ "")).map localPart

/-- The order is over: `order_status in {"cancelled", "refunded"}`. -/
def isTerminal (order : Option OrderRow) : Bool :=
  order.any fun o => o.status = .cancelled || o.status = .refunded

/-- `desk_can_send`. -/
def deskCanSend (status : ConversationStatus) (admin : Bool) : Bool × Option String :=
  match status with
  | .opened | .resolved => (true, none)
  | .blocked =>
    if admin then (true, none)
    else (false, some "Marketplace đã khoá cuộc trò chuyện này, bạn không thể gửi thêm tin nhắn.")
  | .closed | .readOnly => (false, some readOnlyText)

section Queries

variable (db : InboxDb)

/-- `select business_name … order by id desc limit 1`, of an account that may be `NULL`. -/
def businessName (accountId : Option Id) : Option String :=
  ((db.applications.newest fun a => some a.accountId = accountId && a.approved).bind fun r => r.2.businessName).filter
    (· ≠ "")

/-- The messages the account has not read. -/
def unreadCount (conversationId : ℕ) (accountId : Id) (member : Participant) : ℕ :=
  db.messages.count fun id m =>
    m.conversationId = conversationId && m.senderId ≠ accountId && (member.lastReadMessageId.map PNat.val).getD 0 < id.val

/-- The newest dispute of an order that may be `NULL`. -/
def latestDispute (orderId : Option Id) : Option (Id × DisputeRow) :=
  db.disputes.newest fun d => some d.orderId = orderId

end Queries

/-! ### One thread, row by row -/

section Summary

variable (db : InboxDb) (id : ℕ) (conversation : Conversation) (accountId : Id) (participant : Participant)

/-- The dispute of a summary. -/
def disputeContext (dispute : Id × DisputeRow) : DisputeContext :=
  let claimed := db.claimResources.count fun _ d => d = dispute.1
  let replaced := db.resourceActions.count fun _ a => a.disputeId = dispute.1 && a.action = .replace
  let refunded := db.resourceActions.count fun _ a => a.disputeId = dispute.1 && a.action = .refund
  let amount := db.resourceActions.sum fun _ a =>
    if a.disputeId = dispute.1 && a.action = .refund then a.refundAmount else 0
  -- a proxy counts as a claimed item, and its remedy is a refund
  let claimed := claimed + db.claimProxies.count fun _ d => d = dispute.1
  let refunded := refunded + db.proxyActions.count fun _ a => a.disputeId = dispute.1
  let amount := amount + db.proxyActions.sum fun _ a => if a.disputeId = dispute.1 then a.refundAmount else 0
  { id := dispute.1
    status := dispute.2.status
    reason := dispute.2.reason
    reviewRequestedAt := dispute.2.reviewRequestedAt
    claimedCount := claimed
    replacedCount := replaced
    pendingCount := max 0 ((claimed : ℤ) - replaced - refunded)
    refundedAmount := amount }

/-- Who is on the other side: the account and its role. -/
def counterpartOf : Option Id × ContextRole :=
  if conversation.kind.isDesk then
    if participant.contextRole = .admin then (conversation.requesterId, conversation.requesterRole.getD .buyer)
    else (none, .admin)
  else if participant.contextRole = .buyer then (conversation.sellerId, .seller)
  else (conversation.buyerId, .buyer)

/-- The other side as a summary shows it. -/
def summaryCounterpart : Counterpart :=
  let (counterpartId, role) := counterpartOf conversation participant
  let account := counterpartId.bind db.accounts.get?
  let key := (account.map AccountRow.publicKey).getD marketplaceCounterpartKey
  let name := account.bind fun a => emailName a.email
  let label :=
    if conversation.kind.isDesk then
      if participant.contextRole = .admin then name.getD ("#" ++ key) else marketplaceLabel
    else "Khách hàng #" ++ key
  { id := key
    label :=
      if role = .seller ∧ conversation.kind ≠ .support then
        (((businessName db counterpartId).or name).filter (· ≠ "")).getD ("Gian hàng #" ++ key)
      else label
    role := role }

/-- `_summary`. -/
def summary : ConversationSummary :=
  let order := db.orders.row? conversation.orderId
  let terminalOrder := conversation.kind ≠ .support && isTerminal (order.map Prod.snd)
  let effectiveStatus := if terminalOrder then .readOnly else conversation.status
  let readOnlyReason :=
    if terminalOrder then
      ((order.bind fun o => o.2.cancelReason).filter (· ≠ "")).or <| some <|
        if order.any fun o => o.2.status = .refunded then "Đơn hàng đã hoàn tiền. Cuộc trò chuyện hiện chỉ đọc."
        else "Đơn hàng đã huỷ. Cuộc trò chuyện hiện chỉ đọc."
    else if effectiveStatus ≠ .opened then some readOnlyText
    else none
  let (canSend, readOnlyReason) :=
    if conversation.kind.isDesk then deskCanSend effectiveStatus (participant.contextRole = .admin)
    else (effectiveStatus = .opened, readOnlyReason)
  { id := id
    kind := conversation.kind
    status := effectiveStatus
    product := db.products.row? conversation.productId
    order := order
    dispute := (order.bind fun o => latestDispute db (some o.1)).map (disputeContext db)
    counterpart := summaryCounterpart db conversation participant
    viewerRole := participant.contextRole
    lastMessage := db.messages.row? conversation.lastMessageId
    unreadCount := unreadCount db id accountId participant
    canSend := canSend
    readOnlyReason := readOnlyReason
    createdAt := conversation.createdAt }

end Summary

/-! ### All threads, in one statement -/

/-- A perspective that is asked for. -/
inductive Perspective
  | buyer | seller | all | other
  deriving DecidableEq

/-- The role of the participants that are shown, where it is one. -/
def Perspective.role : Perspective → Option ContextRole
  | .buyer => some .buyer
  | .seller => some .seller
  | .all | .other => none

inductive InboxError
  | invalidPerspective
  | roleUnavailable
  /-- A counterpart without a role is not a `SafeCounterpart`. -/
  | validationError
  deriving DecidableEq

/-- A thread and the participant the account is in it. -/
structure Room where
  id : ℕ
  conversation : Conversation
  member : Participant
  deriving DecidableEq

/-- A row that the statement selects. -/
structure InboxRow where
  room : Room
  product : Option (Id × ProductRow)
  order : Option (Id × OrderRow)
  message : Option (Id × Message)
  counterpart : Option (Id × AccountRow)
  businessName : Option String
  dispute : Option (Id × DisputeRow)
  unread : ℕ
  claimed : ℕ
  replaced : ℕ
  refunded : ℕ
  refundTotal : ℕ
  deriving DecidableEq

section List

variable (db : InboxDb) (account : Viewer)

/-- `JOIN chat_participants … WHERE` the account is in the thread, has not archived it, and is in it in the role. -/
def joinedRooms (perspective : Perspective) : List Room :=
  db.conversations.rows.flatMap fun c =>
    (db.participants.rows.filter fun p =>
      p.1.1 = c.1 && p.1.2 = account.id && p.2.archivedAt = none &&
        perspective.role.all fun role => p.2.contextRole = role).map fun p => ⟨c.1, c.2, p.2⟩

/-- `case((kind in desk, requester_id), (context_role = buyer, seller_id), else_=buyer_id)` -/
def counterpartKey (room : Room) : Option Id :=
  if room.conversation.kind.isDesk then room.conversation.requesterId
  else if room.member.contextRole = .buyer then room.conversation.sellerId
  else room.conversation.buyerId

/-- `ORDER BY last_message_at DESC NULLS LAST, id DESC`: whether a row may stand before another. -/
def comesBefore (r s : InboxRow) : Bool :=
  match r.room.conversation.lastMessageAt, s.room.conversation.lastMessageAt with
  | some x, some y => y < x || x = y && s.room.id ≤ r.room.id
  | some _, none => true
  | none, some _ => false
  | none, none => s.room.id ≤ r.room.id

/-- The columns beside the joined tables; a dispute that is not there is `NULL` and equals nothing. -/
def inboxRow (room : Room) (product : Option (Id × ProductRow)) (order : Option (Id × OrderRow))
    (message : Option (Id × Message)) (counterpart : Option (Id × AccountRow)) (dispute : Option (Id × DisputeRow)) :
    InboxRow :=
  let disputeId := dispute.map Prod.fst
  { room := room
    product := product
    order := order
    message := message
    counterpart := counterpart
    businessName := businessName db (counterpartKey room)
    dispute := dispute
    unread := unreadCount db room.id account.id room.member
    claimed :=
      (db.claimResources.count fun _ d => some d = disputeId) + db.claimProxies.count fun _ d => some d = disputeId
    replaced := db.resourceActions.count fun _ a => some a.disputeId = disputeId && a.action = .replace
    refunded :=
      (db.resourceActions.count fun _ a => some a.disputeId = disputeId && a.action = .refund) +
        db.proxyActions.count fun _ a => some a.disputeId = disputeId
    refundTotal :=
      (db.resourceActions.sum fun _ a =>
          if some a.disputeId = disputeId && a.action = .refund then a.refundAmount else 0) +
        db.proxyActions.sum fun _ a => if some a.disputeId = disputeId then a.refundAmount else 0 }

/-- The joins, each of the rows before it with a table on its primary key. -/
def joinedRows (perspective : Perspective) : List InboxRow :=
  let rows := leftJoin (fun room => room.conversation.productId) db.products (joinedRooms db account perspective)
  let rows := leftJoin (fun r => r.1.conversation.orderId) db.orders rows
  let rows := leftJoin (fun r => r.1.1.conversation.lastMessageId) db.messages rows
  let rows := leftJoin (fun r => counterpartKey r.1.1.1) db.accounts rows
  let rows := leftJoin (fun r => (latestDispute db r.1.1.1.1.conversation.orderId).map Prod.fst) db.disputes rows
  rows.map fun ⟨⟨⟨⟨⟨room, product⟩, order⟩, message⟩, counterpart⟩, dispute⟩ =>
    inboxRow db account room product order message counterpart dispute

/-- The other side as the list shows it. -/
def itemCounterpart (row : InboxRow) : Except InboxError Counterpart :=
  let room := row.room.conversation
  let role := row.room.member.contextRole
  if room.kind.isDesk ∧ role ≠ .admin then .ok ⟨marketplaceCounterpartKey, marketplaceLabel, .admin⟩
  else
    let key := ((row.counterpart.map fun c => c.2.publicKey).filter (· ≠ "")).getD marketplaceCounterpartKey
    let role := if room.kind.isDesk then room.requesterRole else some (if role = .buyer then .seller else .buyer)
    let label :=
      if role = some .buyer ∧ room.kind ≠ .support then "Khách hàng #" ++ key
      else
        ((if role = some .seller ∧ room.kind ≠ .support then row.businessName else none).or
          (row.counterpart.bind fun c => emailName c.2.email)).getD ("#" ++ key)
    match role with
    | some role => .ok ⟨key, label, role⟩
    | none => .error .validationError

/-- What an item says beside the other side. -/
def itemOf (row : InboxRow) (counterpart : Counterpart) : ConversationSummary :=
  let room := row.room.conversation
  let terminal := room.kind ≠ .support && isTerminal (row.order.map Prod.snd)
  let effectiveStatus := if terminal then .readOnly else room.status
  { id := row.room.id
    kind := room.kind
    status := effectiveStatus
    product := row.product
    order := row.order
    dispute := row.dispute.map fun dispute =>
      { id := dispute.1
        status := dispute.2.status
        reason := dispute.2.reason
        reviewRequestedAt := dispute.2.reviewRequestedAt
        claimedCount := row.claimed
        replacedCount := row.replaced
        pendingCount := max 0 ((row.claimed : ℤ) - row.replaced - row.refunded)
        refundedAmount := row.refundTotal }
    counterpart := counterpart
    viewerRole := row.room.member.contextRole
    lastMessage := row.message
    unreadCount := row.unread
    canSend := effectiveStatus = .opened
    readOnlyReason :=
      ((if terminal then row.order.bind fun o => o.2.cancelReason else none).filter (· ≠ "")).or
        (if effectiveStatus = .opened then none else some readOnlyText)
    createdAt := room.createdAt }

/-- An item of the list. -/
def listItem (row : InboxRow) : Except InboxError ConversationSummary := (itemCounterpart row).map (itemOf row)

/-- The first page. -/
def page (perspective : Perspective) : List InboxRow := ((joinedRows db account perspective).mergeSort comesBefore).take 50

/-- `list_conversations`. -/
def listConversations (perspective : Perspective) : Except InboxError (List ConversationSummary) :=
  if perspective = .other then .error .invalidPerspective
  else if (perspective.role.any fun role => role ∉ account.roles) then .error .roleUnavailable
  else (page db account perspective).mapM listItem

end List

/-! ### Sending -/

/-- What a text is refused with: by the filter, in its own words, or by the thread. -/
inductive SendError
  | conversationNotFound
  | blocked
  | readOnly
  | screened
  | messageIdConflict
  deriving DecidableEq

/-- `_participant_for_account`: an admin joins a thread of the desk. -/
def participantForAccount (db : InboxDb) (account : Viewer) (conversationId : ℕ) : Except SendError Participant :=
  match db.participants.get? (conversationId, account.id), db.conversations.get? conversationId with
  | some row, _ => .ok row
  | none, some conversation =>
    if conversation.kind.isDesk ∧ .admin ∈ account.roles then .ok ⟨.admin, none, none⟩ else .error .conversationNotFound
  | none, none => .error .conversationNotFound

section Sending

variable (screen : String → Option String) (db : InboxDb) (account : Viewer) (conversationId : ℕ) (body : String)
  (clientMessageId : ℕ)

/-- The part of `send_message` behind the checks of the thread: the text passes the filter, and the message is written, or
the one that was written under this client id before is returned. -/
def writeMessage (conversation : Conversation) (role : ContextRole) : Except SendError Message :=
  match if body ≠ "" ∧ ¬conversation.kind.isDesk ∧ role ≠ .admin then screen body else some body with
  | none => .error .screened
  | some body =>
    let written := db.messages.rows.find? fun r =>
      r.2.conversationId = conversationId ∧ r.2.clientMessageId = clientMessageId
    match written with
    | some (_, existing) =>
      if existing.body ≠ body ∨ existing.senderId ≠ account.id ∨ existing.attachments ≠ [] then .error .messageIdConflict
      else .ok existing
    | none => .ok ⟨conversationId, account.id, role, clientMessageId, body, []⟩

/-- `send_message` of a text; `screen` is `screen_text`, where it does not refuse. -/
def sendMessage : Except SendError Message := do
  let participant ← participantForAccount db account conversationId
  match db.conversations.get? conversationId with
  | none => .error .conversationNotFound
  | some conversation =>
    let role := participant.contextRole
    if conversation.kind.isDesk ∧ conversation.status = .blocked ∧ role ≠ .admin then .error .blocked
    else if conversation.kind.isDesk ∧ conversation.status ∉ [.opened, .resolved, .blocked] then .error .readOnly
    else if ¬conversation.kind.isDesk ∧ conversation.status ≠ .opened then .error .readOnly
    else if conversation.kind = .order ∧ isTerminal (conversation.orderId.bind db.orders.get?) then .error .readOnly
    else writeMessage screen db account conversationId body clientMessageId conversation role

end Sending

/-! ### The joins -/

section Joins

variable (db : InboxDb) (account : Viewer)

/-- The row of a thread, looked up table by table. -/
def rowOf (room : Room) : InboxRow :=
  inboxRow db account room (db.products.row? room.conversation.productId) (db.orders.row? room.conversation.orderId)
    (db.messages.row? room.conversation.lastMessageId) (db.accounts.row? (counterpartKey room))
    (latestDispute db room.conversation.orderId)

/-- **The statement selects the rows of the threads of the account.** -/
theorem joinedRows_eq (perspective : Perspective) :
    joinedRows db account perspective = (joinedRooms db account perspective).map (rowOf db account) := by
  simp only [joinedRows, leftJoin_eq_map, List.map_map]
  refine List.map_congr_left fun room _ => ?_
  show inboxRow db account room _ _ _ _ (db.disputes.row? ((latestDispute db _).map Prod.fst)) = _
  rw [latestDispute, Table.row?_newest]
  rfl

variable {db account}

theorem mem_joinedRooms {perspective : Perspective} {room : Room} :
    room ∈ joinedRooms db account perspective ↔
      db.conversations.get? room.id = some room.conversation ∧
        db.participants.get? (room.id, account.id) = some room.member ∧ room.member.archivedAt = none ∧
          ∀ role ∈ perspective.role, room.member.contextRole = role := by
  rw [Table.get?_eq_some_iff, Table.get?_eq_some_iff]
  simp only [joinedRooms, List.mem_flatMap, List.mem_map, List.mem_filter, Bool.and_eq_true, decide_eq_true_eq,
    Option.all_eq_true]
  constructor
  · rintro ⟨c, hc, ⟨⟨k, a⟩, p⟩, ⟨hp, ⟨⟨rfl, rfl⟩, harchived⟩, hrole⟩, rfl⟩
    exact ⟨hc, hp, harchived, hrole⟩
  · rintro ⟨hc, hp, harchived, hrole⟩
    exact ⟨_, hc, _, ⟨hp, ⟨⟨rfl, rfl⟩, harchived⟩, hrole⟩, rfl⟩

/-- A row of the page is the row of a thread the account is in. -/
theorem exists_of_mem_page {perspective : Perspective} {row : InboxRow} (h : row ∈ page db account perspective) :
    ∃ room ∈ joinedRooms db account perspective, row = rowOf db account room := by
  have hrow := List.mem_of_mem_take h
  rw [List.mem_mergeSort, joinedRows_eq, List.mem_map] at hrow
  obtain ⟨room, hroom, rfl⟩ := hrow
  exact ⟨room, hroom, rfl⟩

end Joins

/-! ### Who may write -/

section Writers

variable (db : InboxDb) (room : Room)

/-- The order of the thread is cancelled or refunded. -/
def Room.Terminal : Prop := isTerminal (room.conversation.orderId.bind db.orders.get?) = true

/-- The thread takes a text of the participant. -/
def Room.Takes : Prop :=
  if room.conversation.kind.isDesk then
    room.conversation.status = .opened ∨ room.conversation.status = .resolved ∨
      room.conversation.status = .blocked ∧ room.member.contextRole = .admin
  else room.conversation.status = .opened ∧ ¬(room.conversation.kind = .order ∧ room.Terminal db)

end Writers

/-- The account is in the thread. -/
structure InThread (db : InboxDb) (account : Viewer) (room : Room) : Prop where
  conversation : db.conversations.get? room.id = some room.conversation
  member : db.participants.get? (room.id, account.id) = some room.member

section Sends

variable {db : InboxDb} {account : Viewer} {room : Room}

theorem writeMessage_ne {screen : String → Option String} {conversationId : ℕ} {body : String} {clientMessageId : ℕ}
    {conversation : Conversation} {role : ContextRole} {e : SendError}
    (h : writeMessage screen db account conversationId body clientMessageId conversation role = .error e) :
    e = .screened ∨ e = .messageIdConflict := by
  rw [writeMessage] at h
  split at h
  · exact .inl (Except.error.inj h).symm
  · simp only at h
    split at h
    · split_ifs at h
      exact .inr (Except.error.inj h).symm
    · cases h

/-- **A text is refused for the thread exactly where the thread does not take it.** -/
theorem sendMessage_refused_iff (h : InThread db account room) (screen : String → Option String) (body : String)
    (clientMessageId : ℕ) :
    sendMessage screen db account room.id body clientMessageId ≠ .error .readOnly ∧
        sendMessage screen db account room.id body clientMessageId ≠ .error .blocked ↔
      room.Takes db := by
  have hmember : participantForAccount db account room.id = .ok room.member := by
    rw [participantForAccount, h.member]
  have hwrite : ∀ e, (e = .readOnly ∨ e = .blocked) → ∀ conversation role,
      writeMessage screen db account room.id body clientMessageId conversation role ≠ .error e := by
    rintro e he conversation role hw
    rcases writeMessage_ne hw with rfl | rfl <;> simp at he
  simp only [sendMessage, hmember, h.conversation, bind, Except.bind, Room.Takes]
  by_cases hdesk : room.conversation.kind.isDesk = true
  · have hkind : room.conversation.kind ≠ .order := fun hk => by
      rw [hk] at hdesk
      cases hdesk
    cases hstatus : room.conversation.status <;> by_cases hadmin : room.member.contextRole = .admin <;>
      simp [hdesk, hkind, hadmin, hwrite]
  · simp only [hdesk, Bool.false_eq_true, false_and, if_false, not_false_eq_true, true_and, Room.Terminal]
    split_ifs with hstatus hterminal
    · simp [hstatus]
    · simp [hterminal]
    · simp [not_not.mp hstatus, hterminal, hwrite]

/-- The order of a thread as the queries find it. -/
theorem isTerminal_row? : isTerminal ((db.orders.row? room.conversation.orderId).map Prod.snd) = true ↔ room.Terminal db := by
  rw [Table.map_snd_row?, Room.Terminal]

end Sends

/-! ### What an item says -/

/-- Where the list says something else than the thread does. -/
inductive Misread (db : InboxDb) (room : Room) : Prop
  /-- A ticket that is resolved, or blocked and an admin's: a text may be sent, and the list says it may not. -/
  | ticket (desk : room.conversation.kind.isDesk = true) (status : room.conversation.status = .resolved ∨
      room.conversation.status = .blocked ∧ room.member.contextRole = .admin)
  /-- The requester of a ticket has no role, which its check lets pass: the list raises for an admin. -/
  | role (desk : room.conversation.kind.isDesk = true) (admin : room.member.contextRole = .admin)
      (role : room.conversation.requesterRole = none)
  /-- An inquiry of an order that is over: it is shown as read-only, and a text is sent. -/
  | inquiry (kind : room.conversation.kind = .productInquiry) (status : room.conversation.status = .opened)
      (terminal : room.Terminal db)
  /-- The public key of the other side is empty, which the list takes for none. -/
  | key (account : AccountRow)
      (mem : account ∈ (counterpartOf room.conversation room.member).1.bind db.accounts.get?)
      (empty : account.publicKey = "")

/-- The items and summaries of a thread agree. -/
structure Agrees (item s : ConversationSummary) : Prop where
  status : item.status = s.status
  canSend : item.canSend = s.canSend
  unreadCount : item.unreadCount = s.unreadCount
  counterpartId : item.counterpart.id = s.counterpart.id
  counterpartRole : item.counterpart.role = s.counterpart.role
  dispute : item.dispute = s.dispute

/-- The item tells the truth about a thread: it agrees with the summary, and says that a text may be sent exactly where a
new one that is not empty would not be refused for the thread. -/
structure Tells (db : InboxDb) (account : Viewer) (room : Room) (item : ConversationSummary) : Prop where
  agrees : Agrees item (summary db room.id room.conversation account.id room.member)
  sends : ∀ (screen : String → Option String) (body : String) (clientMessageId : ℕ), body ≠ "" →
    (∀ r ∈ db.messages.rows, ¬(r.2.conversationId = room.id ∧ r.2.clientMessageId = clientMessageId)) →
    (item.canSend = true ↔
      sendMessage screen db account room.id body clientMessageId ≠ .error .readOnly ∧
        sendMessage screen db account room.id body clientMessageId ≠ .error .blocked)

/-- The list has an item of the thread, and it tells the truth. -/
def Truthful (db : InboxDb) (account : Viewer) (room : Room) : Prop :=
  ∃ item, listItem (rowOf db account room) = .ok item ∧ Tells db account room item

section Items

variable {db : InboxDb} {account : Viewer} {room : Room}

/-- There is always a client id that was not used. -/
theorem Tells.canSend_iff {item : ConversationSummary} (h : Tells db account room item) (hin : InThread db account room) :
    item.canSend = true ↔ room.Takes db := by
  obtain ⟨n, hn⟩ := Infinite.exists_notMem_finset (db.messages.rows.map fun r => r.2.clientMessageId).toFinset
  rw [List.mem_toFinset] at hn
  rw [h.sends some "?" n (by decide) fun r hr he => hn (List.mem_map.mpr ⟨r, hr, he.2⟩)]
  exact sendMessage_refused_iff hin some "?" n

theorem listItem_eq_ok {row : InboxRow} {item : ConversationSummary} (h : listItem row = .ok item) :
    ∃ c, itemCounterpart row = .ok c ∧ itemOf row c = item := by
  rw [listItem] at h
  rcases hc : itemCounterpart row with _ | c
  · rw [hc] at h
    cases h
  · rw [hc] at h
    exact ⟨c, rfl, Except.ok.inj h⟩

/-- The counterpart of an item, where its role is one. -/
theorem itemCounterpart_rowOf (hrole : ¬(room.conversation.kind.isDesk = true ∧ room.member.contextRole = .admin ∧
      room.conversation.requesterRole = none)) :
    ∃ c, itemCounterpart (rowOf db account room) = .ok c ∧
      c.id = ((((counterpartOf room.conversation room.member).1.bind db.accounts.get?).map AccountRow.publicKey).filter
        (· ≠ "")).getD marketplaceCounterpartKey ∧ c.role = (counterpartOf room.conversation room.member).2 := by
  have hkey (key : Option Id) : ((db.accounts.row? key).map fun c => c.2.publicKey) =
      (key.bind db.accounts.get?).map AccountRow.publicKey := by
    rw [← Table.map_snd_row?, Option.map_map]
    rfl
  have hcounterpart : (rowOf db account room).counterpart = db.accounts.row? (counterpartKey room) := rfl
  have hroom : (rowOf db account room).room = room := rfl
  simp only [itemCounterpart, hroom, hcounterpart, hkey, counterpartOf, counterpartKey]
  by_cases hdesk : room.conversation.kind.isDesk = true
  · by_cases hadmin : room.member.contextRole = .admin
    · obtain ⟨role, hsome⟩ : ∃ role, room.conversation.requesterRole = some role := by
        rcases hr : room.conversation.requesterRole with _ | role
        · exact absurd ⟨hdesk, hadmin, hr⟩ hrole
        · exact ⟨role, rfl⟩
      simp [hdesk, hadmin, hsome]
    · simp [hdesk, hadmin]
  · by_cases hbuyer : room.member.contextRole = .buyer <;> simp [hdesk, hbuyer]

/-- An admin's item of a ticket whose requester has no role is none. -/
theorem itemCounterpart_eq_error (hdesk : room.conversation.kind.isDesk = true)
    (hadmin : room.member.contextRole = .admin) (hrole : room.conversation.requesterRole = none) :
    itemCounterpart (rowOf db account room) = .error .validationError := by
  have hroom : (rowOf db account room).room = room := rfl
  simp [itemCounterpart, hroom, hdesk, hadmin, hrole]

/-- **The dispute of an item is the dispute of the summary.** -/
theorem dispute_rowOf (h : InThread db account room) (counterpart : Counterpart) :
    (itemOf (rowOf db account room) counterpart).dispute =
      (summary db room.id room.conversation account.id room.member).dispute := by
  have horder : (db.orders.row? room.conversation.orderId).bind (fun o => latestDispute db (some o.1)) =
      latestDispute db room.conversation.orderId := by
    rcases ho : room.conversation.orderId with _ | o
    · exact (Table.newest_eq_none fun d => by simp).symm
    · rcases hrow : db.orders.get? o with _ | order
      · exact absurd hrow (db.ordered room.id room.conversation h.conversation o ho)
      · simp [Table.row?, hrow]
  show (latestDispute db room.conversation.orderId).map _ =
    ((db.orders.row? room.conversation.orderId).bind fun o => latestDispute db (some o.1)).map (disputeContext db)
  rw [horder]
  rcases hd : latestDispute db room.conversation.orderId with _ | dispute
  · rfl
  · simp [rowOf, inboxRow, hd, disputeContext]

/-- The status an item and a summary show. -/
def Room.effectiveStatus (db : InboxDb) (room : Room) : ConversationStatus :=
  if room.conversation.kind ≠ .support && isTerminal ((db.orders.row? room.conversation.orderId).map Prod.snd) then .readOnly
  else room.conversation.status

theorem canSend_itemOf (counterpart : Counterpart) :
    (itemOf (rowOf db account room) counterpart).canSend = true ↔ room.effectiveStatus db = .opened :=
  decide_eq_true_iff

theorem canSend_summary : (summary db room.id room.conversation account.id room.member).canSend =
    if room.conversation.kind.isDesk then
      (deskCanSend (room.effectiveStatus db) (room.member.contextRole = .admin)).1
    else decide (room.effectiveStatus db = .opened) := by
  by_cases hdesk : room.conversation.kind.isDesk = true <;> simp [summary, hdesk, Room.effectiveStatus]

theorem counterpart_summary :
    (summary db room.id room.conversation account.id room.member).counterpart.id =
        (((counterpartOf room.conversation room.member).1.bind db.accounts.get?).map AccountRow.publicKey).getD
          marketplaceCounterpartKey ∧
      (summary db room.id room.conversation account.id room.member).counterpart.role =
        (counterpartOf room.conversation room.member).2 :=
  ⟨rfl, rfl⟩

/-- A ticket is not closed by an order. -/
theorem effectiveStatus_desk (hdesk : room.conversation.kind.isDesk = true) :
    room.effectiveStatus db = room.conversation.status := by
  rcases hkind : room.conversation.kind with _ | _ | _ | _
  · rw [hkind] at hdesk
    cases hdesk
  · rw [hkind] at hdesk
    cases hdesk
  · simp [Room.effectiveStatus, hkind]
  · simp [Room.effectiveStatus, room.conversation.helpdesk hkind, Table.row?, isTerminal]

theorem effectiveStatus_eq_opened_iff (hdesk : ¬room.conversation.kind.isDesk = true) :
    room.effectiveStatus db = .opened ↔ room.conversation.status = .opened ∧ ¬room.Terminal db := by
  have hsupport : room.conversation.kind ≠ .support := fun hk => hdesk (by rw [hk]; rfl)
  rw [Room.effectiveStatus, ← isTerminal_row?]
  simp only [ne_eq, hsupport, not_false_eq_true, decide_true, Bool.true_and]
  split_ifs with hterminal
  · simp [hterminal]
  · simp [hterminal]

/-- **What an item says of sending**, where the thread is not a ticket or an inquiry that is misread. -/
theorem effectiveStatus_eq_opened_iff_takes
    (hticket : room.conversation.kind.isDesk = true → ¬(room.conversation.status = .resolved ∨
      room.conversation.status = .blocked ∧ room.member.contextRole = .admin))
    (hinquiry : room.conversation.kind = .productInquiry → room.conversation.status = .opened → ¬room.Terminal db) :
    room.effectiveStatus db = .opened ↔ room.Takes db := by
  rw [Room.Takes]
  split_ifs with hdesk
  · rw [effectiveStatus_desk hdesk]
    have := hticket hdesk
    tauto
  · rw [effectiveStatus_eq_opened_iff hdesk]
    refine and_congr_right fun hstatus => not_congr ?_
    rcases hkind : room.conversation.kind with _ | _ | _ | _
    · simp [hinquiry hkind hstatus]
    · simp
    · exact absurd (by rw [hkind]; rfl) hdesk
    · exact absurd (by rw [hkind]; rfl) hdesk

/-- The summary says of sending what is so, but of an inquiry. -/
theorem canSend_summary_iff (hinquiry : room.conversation.kind = .productInquiry → room.conversation.status = .opened →
      ¬room.Terminal db) :
    (summary db room.id room.conversation account.id room.member).canSend = true ↔ room.Takes db := by
  rw [canSend_summary]
  by_cases hdesk : room.conversation.kind.isDesk = true
  · rw [if_pos hdesk, effectiveStatus_desk hdesk, Room.Takes, if_pos hdesk]
    cases room.conversation.status <;> by_cases hadmin : room.member.contextRole = .admin <;> simp [deskCanSend, hadmin]
  · rw [if_neg hdesk, decide_eq_true_iff]
    exact effectiveStatus_eq_opened_iff_takes (fun h => absurd h hdesk) hinquiry

/-- **An item tells the truth exactly where the thread is not one that is misread.** -/
theorem truthful_iff (h : InThread db account room) : Truthful db account room ↔ ¬Misread db room := by
  constructor
  · rintro ⟨item, hitem, htells⟩ hmisread
    obtain ⟨counterpart, hcounterpart, rfl⟩ := listItem_eq_ok hitem
    have hsend := (canSend_itemOf counterpart).symm.trans (htells.canSend_iff h)
    cases hmisread with
    | ticket hdesk hstatus =>
      rw [effectiveStatus_desk hdesk, Room.Takes, if_pos hdesk] at hsend
      rcases hstatus with hs | ⟨hs, hadmin⟩
      · simp [hs] at hsend
      · simp [hs, hadmin] at hsend
    | role hdesk hadmin hrole =>
      rw [itemCounterpart_eq_error hdesk hadmin hrole] at hcounterpart
      cases hcounterpart
    | inquiry hkind hstatus hterminal =>
      have hdesk : ¬room.conversation.kind.isDesk = true := by
        rw [hkind]
        decide
      rw [effectiveStatus_eq_opened_iff hdesk, Room.Takes, if_neg hdesk] at hsend
      simp [hstatus, hterminal, hkind] at hsend
    | key row hrow hempty =>
      have hrole : ¬(room.conversation.kind.isDesk = true ∧ room.member.contextRole = .admin ∧
          room.conversation.requesterRole = none) := by
        rintro ⟨hdesk, hadmin, hrole⟩
        rw [itemCounterpart_eq_error hdesk hadmin hrole] at hcounterpart
        cases hcounterpart
      obtain ⟨c, hc, hid, -⟩ := itemCounterpart_rowOf hrole
      obtain rfl := Except.ok.inj (hc.symm.trans hcounterpart)
      have hsame : c.id = _ := htells.agrees.counterpartId.trans counterpart_summary.1
      rw [Option.mem_def] at hrow
      rw [hid, hrow, Option.map_some, hempty] at hsame
      exact absurd hsame (by decide)
  · intro hmisread
    have hticket : room.conversation.kind.isDesk = true → ¬(room.conversation.status = .resolved ∨
        room.conversation.status = .blocked ∧ room.member.contextRole = .admin) :=
      fun hdesk hstatus => hmisread (.ticket hdesk hstatus)
    have hinquiry : room.conversation.kind = .productInquiry → room.conversation.status = .opened → ¬room.Terminal db :=
      fun hkind hstatus hterminal => hmisread (.inquiry hkind hstatus hterminal)
    obtain ⟨c, hc, hid, hrole⟩ := itemCounterpart_rowOf fun hr => hmisread (.role hr.1 hr.2.1 hr.2.2)
    have hsend := effectiveStatus_eq_opened_iff_takes hticket hinquiry
    refine ⟨itemOf (rowOf db account room) c, by rw [listItem, hc]; rfl, ?_, fun screen body clientMessageId _ _ => ?_⟩
    · refine ⟨rfl, ?_, rfl, ?_, hrole.trans counterpart_summary.2.symm, dispute_rowOf h c⟩
      · rw [Bool.eq_iff_iff, canSend_itemOf, canSend_summary_iff hinquiry, hsend]
      refine hid.trans (Eq.trans ?_ counterpart_summary.1.symm)
      -- a key that is there is not empty
      rcases hrow : (counterpartOf room.conversation room.member).1.bind db.accounts.get? with _ | row
      · rfl
      · have hkey : row.publicKey ≠ "" := fun hempty => hmisread (.key row hrow hempty)
        simp [Option.filter, hkey]
    · rw [canSend_itemOf, hsend]
      exact (sendMessage_refused_iff h screen body clientMessageId).symm

end Items

/-! ### The inbox -/

/-- The account may ask for the perspective. -/
def Viewer.MayAsk (account : Viewer) (perspective : Perspective) : Prop :=
  perspective ≠ .other ∧ ∀ role ∈ perspective.role, role ∈ account.roles

section Inbox

variable {db : InboxDb} {account : Viewer} {perspective : Perspective}

theorem listConversations_eq (h : account.MayAsk perspective) :
    listConversations db account perspective = (page db account perspective).mapM listItem := by
  rw [listConversations, if_neg h.1, if_neg]
  intro hany
  obtain ⟨role, hrole, hnot⟩ := Option.any_eq_true _ _ |>.mp hany
  exact of_decide_eq_true hnot (h.2 role hrole)

theorem inThread_of_mem_page {row : InboxRow} (h : row ∈ page db account perspective) :
    InThread db account row.room ∧ row = rowOf db account row.room := by
  obtain ⟨room, hroom, rfl⟩ := exists_of_mem_page h
  obtain ⟨hconversation, hmember, -⟩ := mem_joinedRooms.mp hroom
  exact ⟨⟨hconversation, hmember⟩, rfl⟩

/-- **The list is one of true items exactly where no thread on the page is misread.** -/
theorem listConversations_tells_iff (h : account.MayAsk perspective) :
    (∃ items, listConversations db account perspective = .ok items ∧
        List.Forall₂ (fun row item => Tells db account row.room item) (page db account perspective) items) ↔
      ∀ row ∈ page db account perspective, ¬Misread db row.room := by
  have hrows : ∀ row ∈ page db account perspective, InThread db account row.room ∧ row = rowOf db account row.room :=
    fun row hrow => inThread_of_mem_page hrow
  rw [listConversations_eq h]
  generalize page db account perspective = rows at hrows
  have hrow : ∀ row ∈ rows, (∃ item, listItem row = .ok item ∧ Tells db account row.room item) ↔ ¬Misread db row.room := by
    intro row hrow
    obtain ⟨hin, he⟩ := hrows row hrow
    rw [← truthful_iff hin, Truthful, ← he]
  constructor
  · rintro ⟨items, hitems, htells⟩ row hmem
    rw [Lists.mapM_eq_ok_iff_forall₂] at hitems
    refine (hrow row hmem).mp ?_
    clear hrows hrow
    induction hitems with
    | nil => cases hmem
    | @cons a b l r hab _ ih =>
      rw [List.forall₂_cons] at htells
      rcases List.mem_cons.mp hmem with rfl | hmem
      · exact ⟨b, hab, htells.1⟩
      · exact ih htells.2 hmem
  · intro hall
    simp only [Lists.mapM_eq_ok_iff_forall₂]
    clear hrows
    induction rows with
    | nil => exact ⟨[], .nil, .nil⟩
    | cons row rows ih =>
      obtain ⟨item, hitem, htells⟩ := (hrow row (by simp)).mpr (hall row (by simp))
      obtain ⟨items, hitems, hrest⟩ := ih (fun r hr => hrow r (by simp [hr])) fun r hr => hall r (by simp [hr])
      exact ⟨item :: items, .cons hitem hitems, .cons htells hrest⟩

end Inbox

/-- **When the inbox tells the truth about a thread**, thread by thread and for all of a page. -/
theorem inbox_truthful_iff (db : InboxDb) (account : Viewer) :
    (∀ room, InThread db account room → (Truthful db account room ↔ ¬Misread db room)) ∧
      ∀ perspective, account.MayAsk perspective →
        (∀ row ∈ page db account perspective, InThread db account row.room) ∧
          ((∃ items, listConversations db account perspective = .ok items ∧
              List.Forall₂ (fun row item => Tells db account row.room item) (page db account perspective) items) ↔
            ∀ row ∈ page db account perspective, ¬Misread db row.room) :=
  ⟨fun _ h => truthful_iff h, fun _ h =>
    ⟨fun _ hrow => (inThread_of_mem_page hrow).1, listConversations_tells_iff h⟩⟩

/-! ### A resolved ticket -/

/-- A ticket of account 5 with the desk. -/
def ticket (status : ConversationStatus) : Conversation where
  kind := .helpdesk
  status := status
  productId := none
  orderId := none
  buyerId := none
  sellerId := none
  requesterId := some 5
  requesterRole := some .buyer
  lastMessageId := none
  lastMessageAt := none
  createdAt := 0
  helpdesk _ := rfl
  requester _ := by decide

def requesterMember : Participant := ⟨.buyer, none, none⟩

/-- The tables with one ticket. -/
def ticketDb (status : ConversationStatus) : InboxDb where
  conversations := ⟨[(1, ticket status)], by simp⟩
  participants := ⟨[((1, 5), requesterMember)], by decide⟩
  messages := .empty
  accounts := ⟨[(5, ⟨some "an@example.com", "k5"⟩)], by decide⟩
  products := .empty
  orders := .empty
  disputes := .empty
  claimResources := .empty
  resourceActions := .empty
  claimProxies := .empty
  proxyActions := .empty
  applications := .empty
  ordered id room hroom o ho := by
    obtain ⟨-, rfl⟩ : id = 1 ∧ room = ticket status := by
      rw [Table.get?_eq_some_iff] at hroom
      simpa using hroom
    cases ho

def requester : Viewer := ⟨5, [.buyer]⟩

/-- The only thread of these tables. -/
theorem eq_of_inThread_ticketDb {status : ConversationStatus} {room : Room}
    (h : InThread (ticketDb status) requester room) : room.conversation = ticket status ∧ room.member = requesterMember := by
  have hc := Table.get?_eq_some_iff.mp h.conversation
  have hm := Table.get?_eq_some_iff.mp h.member
  simp only [ticketDb, List.mem_singleton, Prod.mk.injEq] at hc hm
  exact ⟨hc.2, hm.2⟩

/-- **A resolved ticket is shown as one that takes no text**, and it takes one. -/
theorem resolved_ticket_misread :
    InThread (ticketDb .resolved) requester ⟨1, ticket .resolved, requesterMember⟩ ∧
      sendMessage some (ticketDb .resolved) requester 1 "Still broken" 2 =
        .ok ⟨1, 5, .buyer, 2, "Still broken", []⟩ ∧
      (∀ item, listItem (rowOf (ticketDb .resolved) requester ⟨1, ticket .resolved, requesterMember⟩) = .ok item →
        item.canSend = false) ∧
      ¬Truthful (ticketDb .resolved) requester ⟨1, ticket .resolved, requesterMember⟩ := by
  have hin : InThread (ticketDb .resolved) requester ⟨1, ticket .resolved, requesterMember⟩ :=
    ⟨by decide, by decide⟩
  refine ⟨hin, by decide, fun item hitem => ?_, fun h => ?_⟩
  · obtain ⟨c, -, rfl⟩ := listItem_eq_ok hitem
    rw [← Bool.not_eq_true, canSend_itemOf, effectiveStatus_desk rfl]
    decide
  · exact (truthful_iff hin).mp h (.ticket rfl (.inl rfl))

/-- The theorem at a ticket that is open. -/
theorem inbox_truthful_iff_ticket :
    Truthful (ticketDb .opened) requester ⟨1, ticket .opened, requesterMember⟩ ∧
      ∃ items, listConversations (ticketDb .opened) requester .all = .ok items := by
  obtain ⟨hthread, hlist⟩ := inbox_truthful_iff (ticketDb .opened) requester
  have hmisread : ∀ room, InThread (ticketDb .opened) requester room → ¬Misread (ticketDb .opened) room := by
    rintro room h hm
    obtain ⟨hc, hp⟩ := eq_of_inThread_ticketDb h
    cases hm with
    | ticket _ hstatus => rcases hstatus with hs | ⟨hs, -⟩ <;> rw [hc] at hs <;> cases hs
    | role _ hadmin _ =>
      rw [hp] at hadmin
      cases hadmin
    | inquiry hkind _ _ =>
      rw [hc] at hkind
      cases hkind
    | key row hrow _ =>
      rw [hc, hp] at hrow
      cases hrow
  have hin : InThread (ticketDb .opened) requester ⟨1, ticket .opened, requesterMember⟩ :=
    ⟨by decide, by decide⟩
  obtain ⟨hrows, hiff⟩ := hlist .all ⟨by decide, by simp [Perspective.role]⟩
  obtain ⟨items, hitems, -⟩ := hiff.mpr fun row hrow => hmisread _ (hrows row hrow)
  exact ⟨(hthread _ hin).mpr (hmisread _ hin), items, hitems⟩

end Marketplace.Inbox
