import Marketplace.Sql.Jsonb

/-!
# What a seller's bot has to send

A bot sends its seller the notifications and alerts above its two cursors, and now and then a round-up of
what buyers have written. `collect` is what `deliver` finds to be sent. Loading a bot costs several
queries, so a condition of the query that picks the bots (`hasWork`) says beforehand whether there may be
anything: it tells in SQL what `collect` tells in Python.

The two read the same documents by rules of their own. What the probe takes for sent, Python takes for sent
(`mem_toSet_of_containsInt`), and the alerts and the round-up are asked for alike. But the probe passes over
every fresh notification whose parameters say `auto`, while Python does so for new orders only: a
dispute or a withdrawal that says so is not seen before it has settled. `OnlyFlagged` are the states where
nothing else is there for the probe to see, and `probe_sees_iff` says that they are the ones where it hides
something.
-/

namespace Marketplace.SellerTelegram

open Python Sql

/-! ### The tables -/

/-- `Notification`; `id` is an `Integer`. -/
structure NotificationRow where
  id : ℕ
  accountId : ℕ
  kind : String
  params : Jsonb
  href : Option String
  createdAt : ℤ
  id_lt : id < 2 ^ 31

/-- `Alert` -/
structure AlertRow where
  id : ℕ
  type : String
  targetType : String
  targetId : ℕ
  message : String
  href : Option String
  createdAt : ℤ
  id_lt : id < 2 ^ 31

/-- `Provider` -/
structure ProviderRow where
  id : ℕ
  sellerId : Option ℕ
  name : String

/-- `ChatConversation` -/
structure ConversationRow where
  id : ℕ
  kind : String
  buyerId : Option ℕ
  sellerId : Option ℕ
  orderId : Option ℕ
  productId : Option ℕ
  lastMessageAt : Option ℤ

/-- `ChatParticipant` -/
structure ParticipantRow where
  conversationId : ℕ
  accountId : ℕ
  lastReadMessageId : Option ℕ

/-- `ChatMessage` -/
structure MessageRow where
  id : ℕ
  conversationId : ℕ
  senderId : ℕ
  body : String
  attachments : Option Jsonb
  createdAt : ℤ

/-- `Account` -/
structure AccountRow where
  id : ℕ
  publicKey : String

/-- `SellerTelegramChat` -/
structure ChatRow where
  id : ℕ
  botRowId : ℕ
  chatId : ℤ
  status : String

/-- `SellerTelegramBot` -/
structure BotRow where
  id : ℕ
  sellerId : ℕ
  status : String
  events : Jsonb
  lastNotificationId : ℕ
  lastAlertId : ℕ
  chatWatermarkAt : Option ℤ
  chatDigestSentAt : Option ℤ
  recentSent : Jsonb

/-- The tables, each in the order of its ids. -/
structure Db where
  notifications : List NotificationRow
  alerts : List AlertRow
  providers : List ProviderRow
  conversations : List ConversationRow
  participants : List ParticipantRow
  messages : List MessageRow
  accounts : List AccountRow
  chats : List ChatRow
  notifications_sorted : (notifications.map NotificationRow.id).Pairwise (· < ·)
  alerts_sorted : (alerts.map AlertRow.id).Pairwise (· < ·)
  messages_sorted : (messages.map MessageRow.id).Pairwise (· < ·)

/-! ### Constants -/

/-- `SETTLE`, in microseconds -/
def settle : ℤ := 5 * 60 * 1000000

/-- `CHAT_DIGEST_EVERY` -/
def chatDigestEvery : ℤ := 10 * 60 * 1000000

/-- `BATCH` -/
def batch : ℕ := 100

/-- `SUMMARY_OVER` -/
def summaryOver : ℕ := 4

/-- `CHAT_FETCH` -/
def chatFetch : ℕ := 200

/-- `EVENT_KEYS` -/
inductive Event
  | orderPending | orderSla | dispute | stockLow | supplyError | withdrawal | chatMessages
  deriving DecidableEq, Repr

def Event.key : Event → String
  | orderPending => "order_pending"
  | orderSla => "order_sla"
  | dispute => "dispute"
  | stockLow => "stock_low"
  | supplyError => "supply_error"
  | withdrawal => "withdrawal"
  | chatMessages => "chat_messages"

/-- `_SELLER_ALERTS` -/
def sellerAlerts : List (String × Event) :=
  [("sla_breach", .orderSla), ("resource_low", .stockLow), ("resource_error", .supplyError)]

/-- `_PROVIDER_ALERT` -/
def providerAlert : String := "provider_out_of_credit"

/-- `_NOTIFICATION_KINDS` -/
def notificationKinds : List String :=
  ["order_new", "dispute_opened", "dispute_buyer_message", "withdrawal_approved", "withdrawal_paid",
    "withdrawal_rejected"]

/-- `_CHAT_KINDS` -/
def chatKinds : List String := ["product_inquiry", "order"]

/-! ### What is relevant -/

/-- The switch a notification belongs to; `params` is a dict, or has no `get`. -/
def notificationEvent (kind : String) (params : Json) : Except Error (Option Event) :=
  if kind = "order_new" then
    match params with
    | .obj fields => .ok (if (Json.get fields "auto").truthy then none else some .orderPending)
    | _ => .error .attributeError
  else if kind ∈ ["dispute_opened", "dispute_buyer_message"] then .ok (some .dispute)
  else if kind ∈ ["withdrawal_approved", "withdrawal_paid", "withdrawal_rejected"] then .ok (some .withdrawal)
  else .ok none

/-- `enabled_events` -/
def enabledEvents (stored : Json) : Except Error (Event → Bool) :=
  match stored.orEmpty with
  | .obj fields => .ok fun event => ((fields.lookup event.key).map Json.truthy).getD true
  | _ => .error .attributeError

/-- `set(recent.get(key, []))` -/
def recentIds (recent : Json) (key : String) : Except Error (List Json) :=
  match recent.orEmpty with
  | .obj fields => ((fields.lookup key).map Json.toSet).getD (.ok [])
  | _ => .error .attributeError

namespace Db

variable (db : Db) (bot : BotRow) (now : ℤ)

/-- The seller's notifications above the cursor, the first of them. -/
def notes : List NotificationRow :=
  (db.notifications.filter fun n => n.accountId = bot.sellerId ∧ bot.lastNotificationId < n.id).take batch

/-- `_seller_alerts`: alerts aimed at the seller -/
def ownAlerts (sellerId above : ℕ) : List AlertRow :=
  db.alerts.filter fun a =>
    a.targetType = "seller" ∧ a.targetId = sellerId ∧ a.type ∈ sellerAlerts.map Prod.fst ∧ above < a.id

/-- `_seller_alerts`: out-of-credit alerts of a provider of the seller's -/
def providerAlerts (sellerId above : ℕ) : List AlertRow :=
  db.alerts.filter fun a =>
    (∃ p ∈ db.providers, p.id = a.targetId ∧ p.sellerId = some sellerId) ∧ a.targetType = "provider" ∧
      a.type = providerAlert ∧ above < a.id

/-- `_alerts_above` -/
def alertsAbove (sellerId cursor : ℕ) : List AlertRow :=
  (((db.ownAlerts sellerId cursor).take batch).merge ((db.providerAlerts sellerId cursor).take batch)
    fun a b => a.id ≤ b.id).take batch

/-- A message with the thread it is in and who wrote it. -/
structure Quoted where
  message : MessageRow
  conversation : ConversationRow
  publicKey : String

/-- What buyers have written since, that the seller has not read. -/
def unread (sellerId : ℕ) (since : ℤ) : List Quoted :=
  (db.messages.flatMap fun m => db.conversations.flatMap fun c => db.participants.flatMap fun p =>
    db.accounts.filterMap fun account =>
      if c.id = m.conversationId ∧ (p.conversationId = c.id ∧ p.accountId = sellerId) ∧ account.id = m.senderId ∧
          c.sellerId = some sellerId ∧ (∃ at' ∈ c.lastMessageAt, since - settle < at') ∧ c.kind ∈ chatKinds ∧
          some m.senderId = c.buyerId ∧ since < m.createdAt ∧ p.lastReadMessageId.getD 0 < m.id
        then some ⟨m, c, account.publicKey⟩ else none).take chatFetch

end Db

/-! ### What is to be sent -/

/-- Where an item comes from. -/
inductive Source
  | notification | alert
  deriving DecidableEq, Repr

/-- `_Outgoing` -/
structure Outgoing (Message : Type) where
  keys : List (Source × ℕ)
  message : Message
  digestUntil : Option ℤ

/-- The texts, with what they look up of orders, products and providers. -/
structure Texts (Message : Type) where
  notification : NotificationRow → Except Error Message
  alert : AlertRow → Message
  digest : List Db.Quoted → Except Error Message
  summary : List Message → Message

variable {Message : Type} (texts : Texts Message)

/-- `relevant`, for a notification -/
def noteRelevant (events : Event → Bool) (n : NotificationRow) : Except Error (NotificationRow × Bool) := do
  let event ← notificationEvent n.kind n.params.load.orEmpty
  pure (n, event.elim false events)

/-- `relevant`, for an alert -/
def alertRelevant (events : Event → Bool) (a : AlertRow) : Bool :=
  events ((sellerAlerts.lookup a.type).getD .supplyError)

/-- The texts of what is wanted, with where it comes from. -/
def items (wantedNotes : List NotificationRow) (wantedAlerts : List AlertRow) :
    Except Error (List ((Source × ℕ) × Message)) := do
  let noteItems ← wantedNotes.mapM fun n => do
    let message ← texts.notification n
    pure ((Source.notification, n.id), message)
  pure (noteItems ++ wantedAlerts.map fun a => ((Source.alert, a.id), texts.alert a))

/-- `_chat_digest` -/
def chatDigest (rows : List Db.Quoted) : Except Error (Option (Outgoing Message)) :=
  if rows.isEmpty then .ok none
  else do
    let message ← texts.digest rows
    pure (some ⟨[], message, (rows.map fun row => row.message.createdAt).max?⟩)

/-- A round-up is due. -/
def digestDue (bot : BotRow) (now : ℤ) : Bool :=
  bot.chatDigestSentAt.all fun sent => chatDigestEvery ≤ now - sent

/-- The round-up, where one is due. -/
def dueDigest (events : Event → Bool) (db : Db) (bot : BotRow) (now : ℤ) :
    Except Error (Option (Outgoing Message)) :=
  if events .chatMessages && digestDue bot now then
    chatDigest texts (db.unread bot.sellerId (bot.chatWatermarkAt.getD now))
  else .ok none

/-- Many items become one summary. -/
def outgoing (found : List ((Source × ℕ) × Message)) (digest : Option (Outgoing Message)) :
    List (Outgoing Message) :=
  (if summaryOver < found.length then [⟨found.map Prod.fst, texts.summary (found.map Prod.snd), none⟩]
    else found.map fun item => ⟨[item.1], item.2, none⟩) ++ digest.toList

/-- What is wanted and has not been sent. -/
def wanted {α : Type} (rows : List (α × Bool)) (id : α → ℕ) (sent : List Json) : List α :=
  (rows.filter fun row => row.2 && !sent.any (Json.isInt (id row.1))).map Prod.fst

/-- What `deliver` finds to be sent, for a bot that is on and has a chat to write to. -/
def collectActive (db : Db) (bot : BotRow) (now : ℤ) : Except Error (List (Outgoing Message)) := do
  let events ← enabledEvents bot.events.load
  let sentN ← recentIds bot.recentSent.load "n"
  let sentA ← recentIds bot.recentSent.load "a"
  let noteRows ← (db.notes bot).mapM (noteRelevant events)
  let alertRows := (db.alertsAbove bot.sellerId bot.lastAlertId).map fun a => (a, alertRelevant events a)
  let found ← items texts (wanted noteRows NotificationRow.id sentN) (wanted alertRows AlertRow.id sentA)
  let digest ← dueDigest texts events db bot now
  pure (outgoing texts found digest)

/-- `deliver`, as far as what it sends. -/
def collect (db : Db) (bot : BotRow) (now : ℤ) : Except Error (List (Outgoing Message)) :=
  if bot.status ≠ "active" then .ok []
  else if db.chats.all fun chat => ¬(chat.botRowId = bot.id ∧ chat.status = "active") then .ok []
  else collectActive texts db bot now

/-! ### The probe -/

namespace Db

variable (db : Db) (bot : BotRow) (now : ℤ)

/-- `not_sent` -/
def notSent (key : String) (rowId : ℕ) : Bool := !((bot.recentSent.get? key).getD (.arr [])).containsInt rowId

/-- `coalesce(params ->> 'auto', '') = 'true'` -/
def saysAuto (params : Jsonb) : Bool := (params.get? "auto").any Jsonb.textIsTrue

def noteWork : Bool :=
  db.notifications.any fun n => n.accountId = bot.sellerId && bot.lastNotificationId < n.id &&
    (n.createdAt < now - settle || (n.kind ∈ notificationKinds && !saysAuto n.params && notSent bot "n" n.id))

/-- `alert_pending` -/
def alertPending (a : AlertRow) : Bool := a.createdAt < now - settle || notSent bot "a" a.id

def alertWork : Bool :=
  (db.ownAlerts bot.sellerId bot.lastAlertId).any (alertPending bot now) ||
    (db.providerAlerts bot.sellerId bot.lastAlertId).any (alertPending bot now)

def chatWork : Bool :=
  let watermark := bot.chatWatermarkAt.getD now
  db.conversations.any fun c => db.participants.any fun p => db.messages.any fun m =>
    c.sellerId = some bot.sellerId && c.lastMessageAt.any (fun at' => watermark - settle < at') &&
      c.kind ∈ chatKinds && p.conversationId = c.id && p.accountId = bot.sellerId &&
      m.conversationId = c.id && some m.senderId = c.buyerId && watermark < m.createdAt &&
      p.lastReadMessageId.getD 0 < m.id

/-- `_has_work` -/
def hasWork : Bool :=
  db.noteWork bot now || db.alertWork bot now ||
    (bot.chatDigestSentAt.all (fun sent => sent ≤ now - chatDigestEvery) && db.chatWork bot now)

end Db

/-! ### What the probe sees -/

/-- `deliver` would send a message. -/
def Sends (db : Db) (bot : BotRow) (now : ℤ) : Prop := ∃ out, collect texts db bot now = .ok out ∧ out ≠ []

section Probe

variable {texts} {db : Db} {bot : BotRow} {now : ℤ} {events : Event → Bool} {sent : List Json}

theorem mem_wanted_iff {α : Type} {rows : List (α × Bool)} {id : α → ℕ} {a : α} :
    a ∈ wanted rows id sent ↔ (a, true) ∈ rows ∧ sent.any (Json.isInt (id a)) = false := by
  simp only [wanted, List.mem_map, List.mem_filter, Bool.and_eq_true, Bool.not_eq_true', Prod.exists,
    exists_and_right, exists_eq_right]
  constructor
  · rintro ⟨b, hmem, rfl, hsent⟩
    exact ⟨hmem, hsent⟩
  · rintro ⟨hmem, hsent⟩
    exact ⟨true, hmem, rfl, hsent⟩

/-- **What Python has not sent, the database has not either.** -/
theorem notSent_of_recentIds {key : String} {rowId : ℕ} (hid : rowId < 2 ^ 31)
    (hrecent : recentIds bot.recentSent.load key = .ok sent) (h : sent.any (Json.isInt rowId) = false) :
    Db.notSent bot key rowId = true := by
  rw [Db.notSent, Bool.not_eq_true']
  by_contra hcontains
  rw [Bool.not_eq_false] at hcontains
  cases hdoc : bot.recentSent with
  | obj fields =>
    rw [hdoc] at hcontains hrecent
    rw [Jsonb.get?] at hcontains
    -- an empty document is as good as `{}`
    have hempty : (Jsonb.load (.obj fields)).orEmpty = .obj (Jsonb.loadFields fields) := by
      rw [Jsonb.load, Json.orEmpty]
      cases fields <;> rfl
    rw [recentIds, hempty] at hrecent
    simp only [Jsonb.lookup_loadFields] at hrecent
    cases hv : fields.lookup key with
    | none => simp [hv, Jsonb.containsInt] at hcontains
    | some v =>
      simp only [hv, Option.getD_some] at hcontains
      simp only [hv, Option.map_some, Option.getD_some] at hrecent
      have hfound := Jsonb.mem_toSet_of_containsInt (lt_trans hid (by norm_num)) hcontains hrecent
      rw [hfound] at h
      exact Bool.noConfusion h
  | _ => simp [hdoc, Jsonb.get?, Jsonb.containsInt] at hcontains

/-- Which notifications are relevant. -/
theorem noteRelevant_eq_ok_iff {n : NotificationRow} {row : NotificationRow × Bool} :
    noteRelevant events n = .ok row ↔
      row.1 = n ∧ ∃ event, notificationEvent n.kind n.params.load.orEmpty = .ok event ∧
        row.2 = event.elim false events := by
  rw [noteRelevant, bind_eq_ok]
  constructor
  · rintro ⟨event, hevent, h⟩
    obtain rfl := Except.ok.inj h
    exact ⟨rfl, event, hevent, rfl⟩
  · obtain ⟨m, relevant⟩ := row
    rintro ⟨rfl, event, hevent, rfl⟩
    exact ⟨event, hevent, rfl⟩

/-- What the database takes for `true` is not empty in Python. -/
theorem truthy_of_textIsTrue {v : Jsonb} (h : v.textIsTrue = true) : v.load.truthy = true := by
  cases v with
  | bool b => exact h
  | str s =>
    obtain rfl : s = "true" := by simpa [Jsonb.textIsTrue] using h
    rfl
  | _ => simp [Jsonb.textIsTrue] at h

/-- A relevant notification is of a kind the probe looks for, and a new order that is relevant does not say
`auto`. -/
theorem kind_of_relevant {n : NotificationRow} (h : noteRelevant events n = .ok (n, true)) :
    n.kind ∈ notificationKinds ∧ (n.kind = "order_new" → Db.saysAuto n.params = false) := by
  obtain ⟨-, event, hevent, hrelevant⟩ := noteRelevant_eq_ok_iff.mp h
  obtain ⟨e, rfl⟩ : ∃ e, event = some e := by
    cases event with
    | none => simp at hrelevant
    | some e => exact ⟨e, rfl⟩
  rw [notificationEvent.eq_def] at hevent
  by_cases hnew : n.kind = "order_new"
  · refine ⟨by simp [notificationKinds, hnew], fun _ => ?_⟩
    rw [if_pos hnew] at hevent
    by_contra hauto
    rw [Bool.not_eq_false, Db.saysAuto] at hauto
    cases hparams : n.params with
    | obj fields =>
      have hload : (Jsonb.load (.obj fields)).orEmpty = .obj (Jsonb.loadFields fields) := by
        rw [Jsonb.load, Json.orEmpty]
        cases fields <;> rfl
      rw [hparams, hload] at hevent
      rw [hparams, Jsonb.get?] at hauto
      cases hv : fields.lookup "auto" with
      | none => simp [hv] at hauto
      | some v =>
        rw [hv, Option.any_some] at hauto
        have htruthy : v.load.truthy = true := truthy_of_textIsTrue hauto
        simp [Json.get, Jsonb.lookup_loadFields, hv, htruthy] at hevent
    | _ => simp [hparams, Jsonb.get?] at hauto
  · rw [if_neg hnew] at hevent
    refine ⟨?_, fun hnew' => absurd hnew' hnew⟩
    rw [notificationKinds, List.mem_cons, or_iff_right hnew]
    split_ifs at hevent with hdispute hwithdrawal
    · exact List.mem_append_left _ hdispute
    · exact List.mem_append_right ["dispute_opened", "dispute_buyer_message"] hwithdrawal
    · simp at hevent

theorem mem_notes {n : NotificationRow} (h : n ∈ db.notes bot) :
    n ∈ db.notifications ∧ n.accountId = bot.sellerId ∧ bot.lastNotificationId < n.id := by
  simpa using List.mem_filter.mp (List.mem_of_mem_take h)

/-- The alerts of both scopes are those the probe looks at. -/
theorem mem_alertsAbove {sellerId cursor : ℕ} {a : AlertRow} (h : a ∈ db.alertsAbove sellerId cursor) :
    a ∈ db.ownAlerts sellerId cursor ∨ a ∈ db.providerAlerts sellerId cursor := by
  have hmerge := List.mem_merge.mp (List.mem_of_mem_take h)
  exact hmerge.imp List.mem_of_mem_take List.mem_of_mem_take

/-- **A round-up with something to quote is seen.** -/
theorem chatWork_of_unread {row : Db.Quoted} (h : row ∈ db.unread bot.sellerId (bot.chatWatermarkAt.getD now)) :
    db.chatWork bot now = true := by
  have h := List.mem_of_mem_take h
  simp only [List.mem_flatMap, List.mem_filterMap, Option.ite_none_right_eq_some] at h
  obtain ⟨m, hm, c, hc, p, hp, account, -, ⟨hcm, ⟨hpc, hpa⟩, -, hseller, ⟨at', hat, hrecent⟩, hkind, hbuyer, hsince,
    hread⟩, -⟩ := h
  rw [Db.chatWork]
  refine List.any_eq_true.mpr ⟨c, hc, List.any_eq_true.mpr ⟨p, hp, List.any_eq_true.mpr ⟨m, hm, ?_⟩⟩⟩
  have hany : c.lastMessageAt.any (fun at' => decide (bot.chatWatermarkAt.getD now - settle < at')) = true :=
    by
      rw [Option.mem_def.mp hat]
      simpa using hrecent
  simp [hseller, hany, hkind, hpc, hpa, hcm.symm, hbuyer, hsince, hread]

theorem digestDue_eq :
    digestDue bot now = bot.chatDigestSentAt.all (fun sent => sent ≤ now - chatDigestEvery) := by
  rw [digestDue]
  congr 1
  ext sent
  simp only [decide_eq_decide]
  omega

end Probe

/-! ### What the probe hides -/

variable (db : Db) (bot : BotRow) (now : ℤ)

/-- The dispute and withdrawal notifications of the seller that say `auto` are all there is: one of them is
to be sent, and nothing else gives the probe a reason. `events`, `sentN` and `sentA` are what Python makes
of the bot's columns. -/
structure OnlyFlagged (events : Event → Bool) (sentN sentA : List Json) : Prop where
  active : bot.status = "active"
  chat : ∃ chat ∈ db.chats, chat.botRowId = bot.id ∧ chat.status = "active"
  events_eq : enabledEvents bot.events.load = .ok events
  sentN_eq : recentIds bot.recentSent.load "n" = .ok sentN
  sentA_eq : recentIds bot.recentSent.load "a" = .ok sentA
  /-- Nothing about the notifications makes Python raise. -/
  readable : ∀ n ∈ db.notes bot, (∃ row, noteRelevant events n = .ok row) ∧
    (noteRelevant events n = .ok (n, true) → sentN.any (Json.isInt n.id) = false →
      ∃ message, texts.notification n = .ok message)
  /-- One that says `auto` is to be sent. -/
  flagged : ∃ n ∈ db.notes bot, n.kind ≠ "order_new" ∧ Db.saysAuto n.params = true ∧
    noteRelevant events n = .ok (n, true) ∧ sentN.any (Json.isInt n.id) = false
  /-- The others above the cursor are fresh, and of no kind that is sent, or sent. -/
  notes : ∀ n ∈ db.notifications, n.accountId = bot.sellerId → bot.lastNotificationId < n.id →
    now - settle ≤ n.createdAt ∧
      (n.kind ∈ notificationKinds → Db.saysAuto n.params = true ∨ Db.notSent bot "n" n.id = false)
  alerts : ∀ a, a ∈ db.ownAlerts bot.sellerId bot.lastAlertId ∨
      a ∈ db.providerAlerts bot.sellerId bot.lastAlertId →
    now - settle ≤ a.createdAt ∧ Db.notSent bot "a" a.id = false
  /-- No round-up is due, or there is nothing to quote. -/
  chats : digestDue bot now = true → db.chatWork bot now = false

section Hidden

variable {texts db bot now} {events : Event → Bool} {sentN sentA : List Json}

/-- Then the probe sees nothing. -/
theorem OnlyFlagged.hasWork (h : OnlyFlagged texts db bot now events sentN sentA) :
    db.hasWork bot now = false := by
  have hnotes : db.noteWork bot now = false := by
    rw [Db.noteWork, List.any_eq_false]
    intro n hn
    simp only [Bool.and_eq_true, Bool.or_eq_true, decide_eq_true_eq, Bool.not_eq_true', not_and, not_or,
      and_imp]
    intro hseller habove
    obtain ⟨hfresh, hkind⟩ := h.notes n hn hseller habove
    refine ⟨by omega, fun hk hauto hnot => ?_⟩
    rcases hkind hk with hflagged | hsent
    · rw [hflagged] at hauto
      exact Bool.noConfusion hauto
    · rw [hsent] at hnot
      exact Bool.noConfusion hnot
  have hpending : ∀ a, a ∈ db.ownAlerts bot.sellerId bot.lastAlertId ∨
      a ∈ db.providerAlerts bot.sellerId bot.lastAlertId →
      ¬Db.alertPending bot now a = true := by
    intro a ha
    obtain ⟨hfresh, hsent⟩ := h.alerts a ha
    simp only [Db.alertPending, hsent, Bool.or_false, decide_eq_true_eq]
    omega
  have halerts : db.alertWork bot now = false := by
    rw [Db.alertWork, Bool.or_eq_false_iff, List.any_eq_false, List.any_eq_false]
    exact ⟨fun a ha => hpending a (.inl ha), fun a ha => hpending a (.inr ha)⟩
  rw [Db.hasWork, hnotes, halerts, ← digestDue_eq]
  cases hdue : digestDue bot now with
  | false => rfl
  | true => simp [h.chats hdue]

theorem outgoing_ne_nil {found : List ((Source × ℕ) × Message)} {digest : Option (Outgoing Message)}
    (h : (∃ item, item ∈ found) ∨ digest.isSome) : outgoing texts found digest ≠ [] := by
  rw [outgoing]
  rcases h with ⟨item, hitem⟩ | h
  · split_ifs
    · simp
    · have : found.map (fun item => (⟨[item.1], item.2, none⟩ : Outgoing Message)) ≠ [] := by
        simpa using List.ne_nil_of_mem hitem
      simp [this]
  · obtain ⟨d, rfl⟩ := Option.isSome_iff_exists.mp h
    simp

theorem exists_of_outgoing_ne_nil {found : List ((Source × ℕ) × Message)} {digest : Option (Outgoing Message)}
    (h : outgoing texts found digest ≠ []) : (∃ item, item ∈ found) ∨ digest.isSome := by
  by_contra hnone
  rw [not_or, not_exists] at hnone
  obtain ⟨hfound, hdigest⟩ := hnone
  obtain rfl : found = [] := List.eq_nil_iff_forall_not_mem.mpr hfound
  obtain rfl : digest = none := by simpa using hdigest
  exact h rfl

/-- Which rows the notifications give. -/
theorem mem_noteRows {rows : List (NotificationRow × Bool)}
    (h : (db.notes bot).mapM (noteRelevant events) = .ok rows)
    {n : NotificationRow} {relevant : Bool} :
    (n, relevant) ∈ rows ↔ n ∈ db.notes bot ∧ noteRelevant events n = .ok (n, relevant) := by
  rw [mem_of_mapM_eq_ok h]
  constructor
  · rintro ⟨m, hm, hrow⟩
    obtain ⟨hfst, -⟩ := noteRelevant_eq_ok_iff.mp hrow
    obtain rfl : n = m := hfst
    exact ⟨hm, hrow⟩
  · rintro ⟨hn, hrow⟩
    exact ⟨n, hn, hrow⟩

/-- But there is something to be sent. -/
theorem OnlyFlagged.sends (h : OnlyFlagged texts db bot now events sentN sentA) : Sends texts db bot now := by
  obtain ⟨rows, hrows⟩ := exists_mapM_eq_ok fun n hn => (h.readable n hn).1
  have hwanted : ∀ n ∈ wanted rows NotificationRow.id sentN, ∃ message, texts.notification n = .ok message := by
    intro n hn
    obtain ⟨hmem, hsent⟩ := mem_wanted_iff.mp hn
    obtain ⟨hnote, hrelevant⟩ := (mem_noteRows hrows).mp hmem
    exact (h.readable n hnote).2 hrelevant hsent
  set alerts := wanted ((db.alertsAbove bot.sellerId bot.lastAlertId).map fun a => (a, alertRelevant events a))
    AlertRow.id sentA
  have hitem : ∀ n ∈ wanted rows NotificationRow.id sentN, ∃ item, (do
      let message ← texts.notification n
      pure ((Source.notification, n.id), message) : Except Error ((Source × ℕ) × Message)) = .ok item := by
    intro n hn
    obtain ⟨message, hmessage⟩ := hwanted n hn
    exact ⟨_, bind_eq_ok.mpr ⟨message, hmessage, rfl⟩⟩
  obtain ⟨noteItems, hnoteItems⟩ := exists_mapM_eq_ok hitem
  have hfound : items texts (wanted rows NotificationRow.id sentN) alerts =
      .ok (noteItems ++ alerts.map fun a => ((Source.alert, a.id), texts.alert a)) :=
    bind_eq_ok.mpr ⟨noteItems, hnoteItems, rfl⟩
  -- there is no round-up, due or not
  have hdigest : dueDigest texts events db bot now = .ok none := by
    rw [dueDigest]
    split_ifs with hdue
    · rw [Bool.and_eq_true] at hdue
      have hnone : db.unread bot.sellerId (bot.chatWatermarkAt.getD now) = [] := by
        by_contra hne
        obtain ⟨row, hrow⟩ := List.exists_mem_of_ne_nil _ hne
        have := chatWork_of_unread hrow
        rw [h.chats hdue.2] at this
        exact Bool.noConfusion this
      rw [hnone]
      rfl
    · rfl
  obtain ⟨n, hn, -, -, hrelevant, hsent⟩ := h.flagged
  obtain ⟨item, hitemEq⟩ := hitem n (mem_wanted_iff.mpr ⟨(mem_noteRows hrows).mpr ⟨hn, hrelevant⟩, hsent⟩)
  have hmem : item ∈ noteItems :=
    (mem_of_mapM_eq_ok hnoteItems).mpr
      ⟨n, mem_wanted_iff.mpr ⟨(mem_noteRows hrows).mpr ⟨hn, hrelevant⟩, hsent⟩, hitemEq⟩
  have hchats : ¬(db.chats.all fun chat => ¬(chat.botRowId = bot.id ∧ chat.status = "active")) = true := by
    obtain ⟨chat, hchat, hactive⟩ := h.chat
    rw [List.all_eq_true]
    intro hall
    simpa [hactive] using hall chat hchat
  refine ⟨outgoing texts (noteItems ++ alerts.map fun a => ((Source.alert, a.id), texts.alert a)) none, ?_, ?_⟩
  · rw [collect, if_neg (by simp [h.active]), if_neg hchats, collectActive, h.events_eq]
    refine bind_eq_ok.mpr ⟨events, rfl, bind_eq_ok.mpr ⟨sentN, h.sentN_eq, ?_⟩⟩
    refine bind_eq_ok.mpr ⟨sentA, h.sentA_eq, ?_⟩
    refine bind_eq_ok.mpr ⟨rows, hrows, ?_⟩
    exact bind_eq_ok.mpr ⟨_, hfound, bind_eq_ok.mpr ⟨none, hdigest, rfl⟩⟩
  · exact outgoing_ne_nil (.inl ⟨item, List.mem_append_left _ hmem⟩)

/-- **What the probe hides is flagged, and alone.** -/
theorem onlyFlagged_of_hidden (hsends : Sends texts db bot now) (hwork : db.hasWork bot now = false) :
    ∃ events sentN sentA, OnlyFlagged texts db bot now events sentN sentA := by
  obtain ⟨out, hcollect, hne⟩ := hsends
  simp only [Db.hasWork, Bool.or_eq_false_iff, Bool.and_eq_false_iff, ← digestDue_eq] at hwork
  obtain ⟨⟨hnotes, halerts⟩, hchat⟩ := hwork
  rw [collect] at hcollect
  split_ifs at hcollect with hactive hchats
  · exact absurd (Except.ok.inj hcollect).symm hne
  · exact absurd (Except.ok.inj hcollect).symm hne
  rw [not_not] at hactive
  obtain ⟨events, hevents, hcollect⟩ := bind_eq_ok.mp hcollect
  obtain ⟨sentN, hsentN, hcollect⟩ := bind_eq_ok.mp hcollect
  obtain ⟨sentA, hsentA, hcollect⟩ := bind_eq_ok.mp hcollect
  obtain ⟨rows, hrows, hcollect⟩ := bind_eq_ok.mp hcollect
  obtain ⟨found, hfound, hcollect⟩ := bind_eq_ok.mp hcollect
  obtain ⟨digest, hdigest, hcollect⟩ := bind_eq_ok.mp hcollect
  obtain rfl := Except.ok.inj hcollect
  obtain ⟨noteItems, hnoteItems, hfound⟩ := bind_eq_ok.mp hfound
  obtain rfl := Except.ok.inj hfound
  -- what the probe says about each table
  have hnote : ∀ n ∈ db.notifications, n.accountId = bot.sellerId → bot.lastNotificationId < n.id →
      now - settle ≤ n.createdAt ∧
        (n.kind ∈ notificationKinds → Db.saysAuto n.params = true ∨ Db.notSent bot "n" n.id = false) := by
    intro n hn hseller habove
    have hfalse := List.any_eq_false.mp hnotes n hn
    simp only [hseller, habove, decide_true, Bool.true_and, Bool.or_eq_true, decide_eq_true_eq, Bool.and_eq_true,
      Bool.not_eq_true', not_or, not_lt, not_and] at hfalse
    refine ⟨hfalse.1, fun hk => ?_⟩
    cases hflagged : Db.saysAuto n.params with
    | true => exact .inl rfl
    | false => exact .inr (by simpa using hfalse.2 ⟨hk, hflagged⟩)
  have hpending : ∀ a, a ∈ db.ownAlerts bot.sellerId bot.lastAlertId ∨
      a ∈ db.providerAlerts bot.sellerId bot.lastAlertId →
      Db.alertPending bot now a = false := by
    rw [Db.alertWork, Bool.or_eq_false_iff, List.any_eq_false, List.any_eq_false] at halerts
    rintro a (ha | ha)
    · simpa using halerts.1 a ha
    · simpa using halerts.2 a ha
  have halert : ∀ a ∈ wanted
      ((db.alertsAbove bot.sellerId bot.lastAlertId).map fun a => (a, alertRelevant events a)) AlertRow.id sentA,
      False := by
    intro a ha
    obtain ⟨hmem, hsent⟩ := mem_wanted_iff.mp ha
    obtain ⟨a', ha', he⟩ := List.mem_map.mp hmem
    obtain rfl : a' = a := (Prod.mk.inj he).1
    have hp := hpending a' (mem_alertsAbove ha')
    rw [Db.alertPending, notSent_of_recentIds a'.id_lt hsentA hsent, Bool.or_true] at hp
    exact Bool.noConfusion hp
  have hnodigest : digest = none := by
    rw [dueDigest] at hdigest
    split_ifs at hdigest with hdue
    · rw [Bool.and_eq_true] at hdue
      rw [chatDigest] at hdigest
      split_ifs at hdigest with hrows
      · exact (Except.ok.inj hdigest).symm
      · rw [List.isEmpty_iff] at hrows
        obtain ⟨row, hrow⟩ := List.exists_mem_of_ne_nil _ hrows
        rcases hchat with hno | hno
        · rw [hdue.2] at hno
          exact Bool.noConfusion hno
        · rw [chatWork_of_unread hrow] at hno
          exact Bool.noConfusion hno
    · exact (Except.ok.inj hdigest).symm
  subst hnodigest
  -- so a notification is to be sent
  obtain ⟨item, hitem⟩ : ∃ item, item ∈ noteItems := by
    have hfound := exists_of_outgoing_ne_nil hne
    rcases hfound with ⟨item, hitem⟩ | h
    · rcases List.mem_append.mp hitem with hitem | hitem
      · exact ⟨item, hitem⟩
      · obtain ⟨a, ha, -⟩ := List.mem_map.mp hitem
        exact (halert a ha).elim
    · simp at h
  obtain ⟨n, hn, -⟩ := (mem_of_mapM_eq_ok hnoteItems).mp hitem
  obtain ⟨hmem, hsent⟩ := mem_wanted_iff.mp hn
  obtain ⟨hnoteMem, hrelevant⟩ := (mem_noteRows hrows).mp hmem
  obtain ⟨hk, hnew⟩ := kind_of_relevant hrelevant
  obtain ⟨hrow, hseller, habove⟩ := mem_notes hnoteMem
  have hflagged : Db.saysAuto n.params = true := by
    refine ((hnote n hrow hseller habove).2 hk).resolve_right fun hno => ?_
    rw [notSent_of_recentIds n.id_lt hsentN hsent] at hno
    exact Bool.noConfusion hno
  refine ⟨events, sentN, sentA, hactive, ?_, hevents, hsentN, hsentA, ?_, ?_, hnote, ?_, ?_⟩
  · simpa using hchats
  · intro m hm
    refine ⟨?_, fun hrel hs => ?_⟩
    · exact exists_of_mapM_eq_ok hrows hm
    · obtain ⟨it, hit⟩ := exists_of_mapM_eq_ok hnoteItems
        (mem_wanted_iff.mpr ⟨(mem_noteRows hrows).mpr ⟨hm, hrel⟩, hs⟩)
      obtain ⟨message, hmessage, -⟩ := bind_eq_ok.mp hit
      exact ⟨message, hmessage⟩
  · refine ⟨n, hnoteMem, fun he => ?_, hflagged, hrelevant, hsent⟩
    rw [hnew he] at hflagged
    exact Bool.noConfusion hflagged
  · intro a ha
    have hp := hpending a ha
    simp only [Db.alertPending, Bool.or_eq_false_iff, decide_eq_false_iff_not, not_lt] at hp
    exact hp
  · intro hdue
    rcases hchat with hno | hno
    · rw [hdue] at hno
      exact Bool.noConfusion hno
    · exact hno

end Hidden

/-- **The probe sees that there is something to be sent**, except where all there is are fresh dispute and
withdrawal notifications that say `auto`. -/
theorem probe_sees_iff (db : Db) (bot : BotRow) (now : ℤ) :
    (Sends texts db bot now → db.hasWork bot now = true) ↔
      ¬∃ events sentN sentA, OnlyFlagged texts db bot now events sentN sentA := by
  constructor
  · rintro hsees ⟨events, sentN, sentA, h⟩
    have := hsees h.sends
    rw [h.hasWork] at this
    exact Bool.noConfusion this
  · intro hnone hsends
    by_contra hwork
    exact hnone (onlyFlagged_of_hidden hsends (Bool.eq_false_of_not_eq_true hwork))

/-- A dispute that was opened a second ago, and says `auto`. -/
def sampleDb : Db where
  notifications := [⟨1, 7, "dispute_opened", .obj [("auto", .bool true)], none, 0, by decide⟩]
  alerts := []
  providers := []
  conversations := []
  participants := []
  messages := []
  accounts := []
  chats := [⟨1, 1, -100, "active"⟩]
  notifications_sorted := by simp
  alerts_sorted := by simp
  messages_sorted := by simp

/-- A bot that has sent nothing yet. -/
def sampleBot : BotRow := ⟨1, 7, "active", .obj [], 0, 0, none, none, .obj []⟩

/-- It is to be sent, and the probe does not see it. -/
theorem dispute_not_seen :
    Sends (⟨fun _ => .ok (), fun _ => (), fun _ => .ok (), fun _ => ()⟩ : Texts Unit) sampleDb sampleBot
        1000000 ∧
      sampleDb.hasWork sampleBot 1000000 = false := by
  have hnote : ∀ n ∈ sampleDb.notifications,
      n = ⟨1, 7, "dispute_opened", .obj [("auto", .bool true)], none, 0, by decide⟩ :=
    fun n hn => List.mem_singleton.mp hn
  have h : OnlyFlagged (⟨fun _ => .ok (), fun _ => (), fun _ => .ok (), fun _ => ()⟩ : Texts Unit) sampleDb
      sampleBot 1000000 (fun _ => true) [] [] := by
    refine ⟨rfl, ⟨_, List.mem_singleton_self _, rfl, rfl⟩, rfl, rfl, rfl, ?_, ?_, ?_, ?_, fun _ => rfl⟩
    · intro n hn
      obtain rfl := hnote n (mem_notes hn).1
      exact ⟨⟨_, rfl⟩, fun _ _ => ⟨(), rfl⟩⟩
    · exact ⟨_, List.mem_singleton_self _, by simp, rfl, rfl, rfl⟩
    · intro n hn _ _
      obtain rfl := hnote n hn
      exact ⟨by decide, fun _ => .inl rfl⟩
    · intro a ha
      simp [Db.ownAlerts, Db.providerAlerts, sampleDb] at ha
  exact ⟨h.sends, h.hasWork⟩

end Marketplace.SellerTelegram
