import Marketplace.Chat.Tickets
import Marketplace.Sql.Play
import Marketplace.Sql.Rely

/-!
# What the status of a ticket means

Requesters and admins in any number of sessions. A status is to move along `transitions`, nobody is to write where the
status forbids it, a requester's message is not to leave its ticket resolved, and the tickets that wait are to be the
open ones whose newest message is the requester's.

A session goes by the object it has loaded, which may have been before the lock or before a commit of its own, and a
review writes into its thread without a look at the status; the newest message is told by the start of its transaction.
`desk_status_broken` has a run for each of these. The condition `DeskCall.Undisturbed` is that the thread is at the commit
as it was loaded, that a review finds it open or resolved, and that an answer began after the question;
`desk_status_kept` is what holds of the runs whose commits meet it.
-/

namespace Marketplace

open Sql

/-! ### The sessions -/

/-- The calls. -/
inductive DeskCall
  /-- `object` is the thread, where the session has just created it. -/
  | sendMessage (conversationId accountId : ℕ) (isAdmin : Bool) (object : Option DeskThread) (s : Sending)
  | postHelpdeskMessage (accountId : ℕ) (account : DeskAccount) (role : ContextRole) (conversationId : ℕ) (s : Sending)
  | requestMarketplaceReview (orderId accountId : ℕ) (seller : Bool) (conversationId : ℕ) (s : Sending)
  | setStatus (conversationId adminId : ℕ) (target : TicketStatus) (reason : Option String) (now : ℕ)
  | setStatusNotice (conversationId adminId : ℕ) (s : Sending)
  | setStatusResolved (conversationId adminId : ℕ) (thread : DeskThread) (reason : Option String) (now : ℕ)
  | assign (conversationId : ℕ) (assigneeId : Option ℕ)

/-- What a session runs. -/
def DeskCall.code : DeskCall → DeskTx (Option DeskThread)
  | .sendMessage conversationId accountId isAdmin object s =>
    Marketplace.sendMessage conversationId accountId isAdmin object s
  | .postHelpdeskMessage accountId account role conversationId s =>
    Marketplace.postHelpdeskMessage accountId account role conversationId s
  | .requestMarketplaceReview orderId accountId seller conversationId s =>
    Marketplace.requestMarketplaceReviewThread orderId accountId seller conversationId s
  | .setStatus conversationId adminId target reason now => Marketplace.setStatus conversationId adminId target reason now
  | .setStatusNotice conversationId adminId s => Marketplace.setStatusNotice conversationId adminId s
  | .setStatusResolved conversationId adminId thread reason now =>
    Marketplace.setStatusResolved conversationId adminId thread reason now
  | .assign conversationId assigneeId => assignTicket conversationId assigneeId

/-- An answer in the thread began after the last question. -/
def AnswersLater (conversationId accountId now : ℕ) (d : DeskDb) : Prop :=
  ∀ t ∈ d.threads.get? conversationId, accountId ≠ t.requesterId → ∀ asked ∈ t.lastRequesterMessageAt, asked < now

instance decidableAnswersLater (conversationId accountId now : ℕ) (d : DeskDb) :
    Decidable (AnswersLater conversationId accountId now d) := by
  unfold AnswersLater
  infer_instance

/-- **The thread is as the session has loaded it, and an answer began after the question.** A message through the thread
loads it with the second statement, or with the lock; the desk's own thread and the one of a review are loaded
where they are looked for, and the status after a notice is that of before. -/
def DeskCall.Undisturbed : DeskCall → List DeskDb → DeskDb → Prop
  | .sendMessage conversationId accountId _ object s, seen, d =>
    AnswersLater conversationId accountId s.now d ∧ (∀ t ∈ object, d.threads.get? conversationId = some t) ∧
      (object = none → ∀ x ∈ seen.reverse[1]?, x.threads.get? conversationId = d.threads.get? conversationId)
  | .postHelpdeskMessage accountId _ role _ _, seen, d =>
    ∀ x ∈ seen, ∀ row ∈ x.threadOf (.helpdesk (if role = .seller then .seller else .buyer)) accountId,
      d.threads.get? row.1 = some row.2
  | .requestMarketplaceReview orderId accountId _ _ s, seen, d =>
    strip s.body ≠ "" → ∀ x ∈ seen.reverse[1]?, ∀ row ∈ x.threadOf (.support orderId) accountId,
      d.threads.get? row.1 = some row.2 ∧ row.2.status ∈ [TicketStatus.opened, .resolved]
  | .setStatus .., _, _ => True
  | .setStatusNotice conversationId adminId s, _, d => AnswersLater conversationId adminId s.now d
  | .setStatusResolved conversationId _ thread _ _, _, d =>
    ∀ t ∈ d.threads.get? conversationId, t.status = thread.status
  | .assign .., _, _ => True

instance decidableUndisturbedDesk (c : DeskCall) (seen : List DeskDb) (d : DeskDb) :
    Decidable (c.Undisturbed seen d) := by
  cases c <;> unfold DeskCall.Undisturbed <;> infer_instance

/-- The sessions, in the runs whose commits meet the condition. -/
def deskMachine : Machine DeskDb DeskKey Abort (Option DeskThread) DeskCall := ⟨DeskCall.code, DeskCall.Undisturbed⟩

/-! ### What is to hold -/

/-- The newest message of the thread is the requester's. -/
def DeskDb.AskedLast (d : DeskDb) (k : ℕ) (t : DeskThread) : Prop :=
  ∃ m msg, d.messages.get? m = some msg ∧ msg.conversationId = k ∧ msg.senderId = t.requesterId ∧
    ∀ m' msg', d.messages.get? m' = some msg' → msg'.conversationId = k → m' ≤ m

/-- The stamps of a thread are those of its newest message, and tell whether it is the requester's. -/
structure DeskDb.Stamped (d : DeskDb) (k : ℕ) (t : DeskThread) : Prop where
  none : t.lastMessageId = none → t.lastMessageAt = none
  le : ∀ m msg, d.messages.get? m = some msg → msg.conversationId = k → ∃ n ∈ t.lastMessageId, m ≤ n
  newest : ∀ n ∈ t.lastMessageId, ∃ msg, d.messages.get? n = some msg ∧ msg.conversationId = k ∧
    t.lastMessageAt = some msg.createdAt ∧
      (msg.senderId = t.requesterId ↔ ∃ asked ∈ t.lastRequesterMessageAt, msg.createdAt ≤ asked)

/-- **The stamps are right**, messages and participants are of threads that are there, and who is in a thread without being
its requester is an admin. -/
structure DeskDb.Right (d : DeskDb) : Prop where
  stamped : ∀ k t, d.threads.get? k = some t → d.Stamped k t
  homed : ∀ m msg, d.messages.get? m = some msg → d.threads.get? msg.conversationId ≠ none
  joined : ∀ k a role, d.participants.get? (k, a) = some role → d.threads.get? k ≠ none
  requester : ∀ k t, d.threads.get? k = some t → ∃ role, d.participants.get? (k, t.requesterId) = some role ∧ role ≠ .admin
  others : ∀ k t a role, d.threads.get? k = some t → d.participants.get? (k, a) = some role → role ≠ .admin →
    a = t.requesterId

/-- **The tickets that wait are the open ones whose newest message is the requester's.** -/
theorem DeskDb.Stamped.waiting_iff {d : DeskDb} {k : ℕ} {t : DeskThread} (h : d.Stamped k t) :
    t.Waiting ↔ t.status = .opened ∧ d.AskedLast k t := by
  refine and_congr_right fun _ => ?_
  constructor
  · rintro ⟨asked, hasked, last, hlast, hle⟩
    rcases hid : t.lastMessageId with _ | n
    · rw [h.none hid] at hlast
      exact absurd hlast (by simp)
    · obtain ⟨msg, hmsg, hk, hat, hsender⟩ := h.newest n hid
      obtain rfl : msg.createdAt = last := Option.some.inj (hat.symm.trans hlast)
      refine ⟨n, msg, hmsg, hk, hsender.mpr ⟨asked, hasked, hle⟩, fun m' msg' hm' hk' => ?_⟩
      obtain ⟨n', hn', hle'⟩ := h.le m' msg' hm' hk'
      obtain rfl : n = n' := Option.some.inj (hid.symm.trans hn')
      exact hle'
  · rintro ⟨m, msg, hmsg, hk, hsender, hmax⟩
    obtain ⟨n, hn, hle⟩ := h.le m msg hmsg hk
    obtain ⟨msg', hmsg', hk', hat, hiff⟩ := h.newest n hn
    obtain rfl : m = n := le_antisymm hle (hmax n msg' hmsg' hk')
    obtain rfl : msg = msg' := Option.some.inj (hmsg.symm.trans hmsg')
    obtain ⟨asked, hasked, hasked'⟩ := hiff.mp hsender
    exact ⟨asked, hasked, msg.createdAt, hat, hasked'⟩

/-- What a commit does to statuses and messages. -/
structure DeskPost (d d' : DeskDb) : Prop where
  /-- A status moves along `transitions`. -/
  moved : ∀ k t, d.threads.get? k = some t → ∃ t', d'.threads.get? k = some t' ∧
    (t'.status = t.status ∨ t'.status ∈ t.status.transitions)
  /-- Nobody writes into a closed ticket, and the requester not into one that is blocked. -/
  allowed : ∀ m msg, d'.messages.get? m = some msg → d.messages.get? m = none →
    ∀ t ∈ d.threads.get? msg.conversationId,
      t.status ≠ .closed ∧ (msg.senderId = t.requesterId → t.status ≠ .blocked)
  /-- A message of the requester does not leave the ticket resolved. -/
  reopened : ∀ m msg, d'.messages.get? m = some msg → d.messages.get? m = none →
    ∀ t' ∈ d'.threads.get? msg.conversationId, msg.senderId = t'.requesterId → t'.status ≠ .resolved

/-- What the others leave alone. -/
structure DeskRel (L : List DeskKey) (d d' : DeskDb) : Prop where
  thread : ∀ k t, d.threads.get? k = some t → ∃ t', d'.threads.get? k = some t' ∧ t'.requesterId = t.requesterId
  locked : ∀ k, .thread k ∈ L → d'.threads.get? k = d.threads.get? k
  message : ∀ m msg, d.messages.get? m = some msg → d'.messages.get? m = some msg
  fresh : ∀ m, .message m ∈ L → d.messages.get? m = none → d'.messages.get? m = none
  member : ∀ k a role, d.participants.get? (k, a) = some role → d'.participants.get? (k, a) = some role
  absent : ∀ k a, .participant k a ∈ L → d.participants.get? (k, a) = none → d'.participants.get? (k, a) = none

/-- What the others leave alone. -/
def deskRely : Rely DeskDb DeskKey where
  rel := DeskRel
  refl _ _ := ⟨fun _ t h => ⟨t, h, rfl⟩, fun _ _ => rfl, fun _ _ h => h, fun _ _ h => h, fun _ _ _ h => h, fun _ _ _ h => h⟩
  trans h h' := by
    refine ⟨fun k t ht => ?_, fun k hk => (h'.locked k hk).trans (h.locked k hk),
      fun m msg hm => h'.message m msg (h.message m msg hm), fun m hm hnone => h'.fresh m hm (h.fresh m hm hnone),
      fun k a role hr => h'.member k a role (h.member k a role hr),
      fun k a hk hnone => h'.absent k a hk (h.absent k a hk hnone)⟩
    obtain ⟨t₁, ht₁, hr₁⟩ := h.thread k t ht
    obtain ⟨t₂, ht₂, hr₂⟩ := h'.thread k t₁ ht₁
    exact ⟨t₂, ht₂, hr₂.trans hr₁⟩
  anti hL h := ⟨h.thread, fun k hk => h.locked k (hL hk), h.message, fun m hm => h.fresh m (hL hm), h.member,
    fun k a hk => h.absent k a (hL hk)⟩

/-! ### What commits change -/

/-- Nobody leaves a thread, and who joins this one is an admin. -/
structure Joins (k : ℕ) (e e' : DeskDb) : Prop where
  old : ∀ k' a role, e.participants.get? (k', a) = some role → e'.participants.get? (k', a) = some role
  new : ∀ k' a role, e'.participants.get? (k', a) = some role →
    e.participants.get? (k', a) = some role ∨ role = .admin ∧ k' = k

/-- A message is added to a thread, which becomes what `withMessage` makes of it. -/
structure MessageStep (k messageId : ℕ) (msg : ChatMessage) (t : DeskThread) (e e' : DeskDb) : Prop where
  thread : e.threads.get? k = some t
  threads : ∀ j, e'.threads.get? j = if j = k then some (t.withMessage messageId msg) else e.threads.get? j
  messages : ∀ m, e'.messages.get? m = if m = messageId then some msg else e.messages.get? m
  new : e.messages.get? messageId = none
  above : ∀ n ∈ t.lastMessageId, n < messageId
  joins : Joins k e e'
  home : msg.conversationId = k
  role : msg.senderRole = .admin ↔ msg.senderId ≠ t.requesterId
  status : t.status ≠ .closed ∧ (t.status = .blocked → msg.senderRole = .admin)
  later : msg.senderId ≠ t.requesterId → ∀ asked ∈ t.lastRequesterMessageAt, asked < msg.createdAt

/-- The status and the stamps of an admin's message. -/
theorem withMessage_admin {t : DeskThread} {msg : ChatMessage} (messageId : ℕ) (h : msg.senderRole = .admin) :
    (t.withMessage messageId msg).status = t.status ∧
      (t.withMessage messageId msg).lastRequesterMessageAt = t.lastRequesterMessageAt := by
  simp [DeskThread.withMessage, DeskThread.onDeskMessage, h]

/-- The status and the stamps of a message of the requester. -/
theorem withMessage_requester {t : DeskThread} {msg : ChatMessage} (messageId : ℕ) (h : msg.senderRole ≠ .admin)
    (hs : msg.senderId = t.requesterId) :
    (t.withMessage messageId msg).status = (if t.status = .resolved then .opened else t.status) ∧
      (t.withMessage messageId msg).lastRequesterMessageAt = some msg.createdAt := by
  simp only [DeskThread.withMessage, DeskThread.onDeskMessage, h, hs, decide_false, Bool.false_eq_true, if_false, ne_eq,
    not_true_eq_false]
  split_ifs <;> exact ⟨rfl, rfl⟩

/-- What a message leaves alone, and the stamps it sets. -/
theorem withMessage_stamps (t : DeskThread) (messageId : ℕ) (msg : ChatMessage) :
    (t.withMessage messageId msg).requesterId = t.requesterId ∧
      (t.withMessage messageId msg).lastMessageId = some messageId ∧
        (t.withMessage messageId msg).lastMessageAt = some msg.createdAt := by
  simp only [DeskThread.withMessage, DeskThread.onDeskMessage]
  split_ifs <;> exact ⟨rfl, rfl, rfl⟩

theorem withMessage_topic (t : DeskThread) (messageId : ℕ) (msg : ChatMessage) :
    (t.withMessage messageId msg).topic = t.topic := by
  simp only [DeskThread.withMessage, DeskThread.onDeskMessage]
  split_ifs <;> rfl

/-- What is edited is written, where the row is as it was loaded. -/
theorem DeskThread.write_self {t edited : DeskThread} (ht : edited.topic = t.topic)
    (hr : edited.requesterId = t.requesterId) : t.write edited t = edited := by
  have hcolumn : ∀ {α : Type} [DecidableEq α] (x y : α), writeColumn x y x = y := fun x y => by
    rw [writeColumn]
    split_ifs with h
    · exact h.symm
    · rfl
  simp only [DeskThread.write, hcolumn, ← ht, ← hr]

namespace MessageStep

variable {k messageId : ℕ} {msg : ChatMessage} {t : DeskThread} {e e' : DeskDb}

theorem right (h : MessageStep k messageId msg t e e') (he : e.Right) : e'.Right := by
  obtain ⟨hreq, hid, hat⟩ := withMessage_stamps t messageId msg
  have hold : ∀ j, e.threads.get? j ≠ none → e'.threads.get? j ≠ none := fun j hj => by
    rw [h.threads]
    split_ifs
    · simp
    · exact hj
  refine ⟨fun j t' ht' => ?_, fun m msg' hm => ?_, fun j a role hr => ?_, fun j t' ht' => ?_, fun j t' a role ht' hr hne => ?_⟩
  · rw [h.threads] at ht'
    split_ifs at ht' with hj
    · -- the thread of the message: it is the newest
      obtain rfl := Option.some.inj ht'
      subst hj
      refine ⟨fun hnone => absurd (hid.symm.trans hnone) (by simp), fun m msg' hm hk => ?_, fun n hn => ?_⟩
      · refine ⟨messageId, hid, ?_⟩
        rw [h.messages] at hm
        split_ifs at hm with hm'
        · exact hm'.le
        · obtain ⟨n, hn, hle⟩ := (he.stamped j t h.thread).le m msg' hm hk
          exact hle.trans (h.above n hn).le
      · obtain rfl : messageId = n := Option.some.inj (hid.symm.trans hn)
        refine ⟨msg, by rw [h.messages, if_pos rfl], h.home, hat, ?_⟩
        rw [hreq]
        by_cases hs : msg.senderId = t.requesterId
        · have hrole : msg.senderRole ≠ .admin := fun hc => h.role.mp hc hs
          rw [(withMessage_requester messageId hrole hs).2]
          exact ⟨fun _ => ⟨_, rfl, le_rfl⟩, fun _ => hs⟩
        · rw [(withMessage_admin messageId (h.role.mpr hs)).2]
          refine ⟨fun hc => absurd hc hs, ?_⟩
          rintro ⟨asked, hasked, hle⟩
          exact absurd hle (not_le.mpr (h.later hs asked hasked))
    · -- another thread
      obtain ⟨hnone, hle, hnewest⟩ := he.stamped j t' ht'
      refine ⟨hnone, fun m msg' hm hk => ?_, fun n hn => ?_⟩
      · rw [h.messages] at hm
        split_ifs at hm with hm'
        · obtain rfl := Option.some.inj hm
          exact absurd (hk.symm.trans h.home) hj
        · exact hle m msg' hm hk
      · obtain ⟨msg', hm, hrest⟩ := hnewest n hn
        refine ⟨msg', ?_, hrest⟩
        rw [h.messages, if_neg, hm]
        rintro rfl
        rw [h.new] at hm
        exact absurd hm (by simp)
  · rw [h.messages] at hm
    split_ifs at hm
    · obtain rfl := Option.some.inj hm
      refine hold _ ?_
      rw [h.home, h.thread]
      simp
    · exact hold _ (he.homed m msg' hm)
  · rcases h.joins.new j a role hr with hr | ⟨-, rfl⟩
    · exact hold j (he.joined j a role hr)
    · refine hold j ?_
      rw [h.thread]
      simp
  · have hsame : ∃ t₀, e.threads.get? j = some t₀ ∧ t'.requesterId = t₀.requesterId := by
      rw [h.threads] at ht'
      split_ifs at ht' with hj
      · obtain rfl := Option.some.inj ht'
        exact ⟨t, hj ▸ h.thread, hreq⟩
      · exact ⟨t', ht', rfl⟩
    obtain ⟨t₀, ht₀, hreq₀⟩ := hsame
    obtain ⟨role, hr, hne⟩ := he.requester j t₀ ht₀
    exact ⟨role, hreq₀ ▸ h.joins.old j _ role hr, hne⟩
  · have hsame : ∃ t₀, e.threads.get? j = some t₀ ∧ t'.requesterId = t₀.requesterId := by
      rw [h.threads] at ht'
      split_ifs at ht' with hj
      · obtain rfl := Option.some.inj ht'
        exact ⟨t, hj ▸ h.thread, hreq⟩
      · exact ⟨t', ht', rfl⟩
    obtain ⟨t₀, ht₀, hreq₀⟩ := hsame
    rcases h.joins.new j a role hr with hr | ⟨hadmin, -⟩
    · exact hreq₀ ▸ he.others j t₀ a role ht₀ hr hne
    · exact absurd hadmin hne

theorem post (h : MessageStep k messageId msg t e e') : DeskPost e e' := by
  have hadded : ∀ m msg', e'.messages.get? m = some msg' → e.messages.get? m = none → msg' = msg := by
    intro m msg' hm hnone
    rw [h.messages] at hm
    split_ifs at hm
    · exact (Option.some.inj hm).symm
    · rw [hnone] at hm
      exact absurd hm (by simp)
  refine ⟨fun j t₀ ht₀ => ?_, fun m msg' hm hnone t₀ ht₀ => ?_, fun m msg' hm hnone t' ht' hs => ?_⟩
  · rw [h.threads]
    split_ifs with hj
    · subst hj
      obtain rfl := Option.some.inj (h.thread.symm.trans ht₀)
      refine ⟨_, rfl, ?_⟩
      by_cases hs : msg.senderId = t.requesterId
      · rw [(withMessage_requester messageId (fun hc => h.role.mp hc hs) hs).1]
        split_ifs with hst
        · exact Or.inr (by rw [hst]; decide)
        · exact Or.inl rfl
      · exact Or.inl (withMessage_admin messageId (h.role.mpr hs)).1
    · exact ⟨t₀, ht₀, Or.inl rfl⟩
  · obtain rfl := hadded m msg' hm hnone
    rw [h.home] at ht₀
    obtain rfl := Option.some.inj (h.thread.symm.trans ht₀)
    exact ⟨h.status.1, fun hs hblocked => h.role.mp (h.status.2 hblocked) hs⟩
  · obtain rfl := hadded m msg' hm hnone
    rw [h.home, h.threads, if_pos rfl] at ht'
    obtain rfl := Option.some.inj ht'
    rw [(withMessage_stamps t messageId msg').1] at hs
    rw [(withMessage_requester messageId (fun hc => h.role.mp hc hs) hs).1]
    split_ifs with hst
    · decide
    · exact hst

theorem rel (h : MessageStep k messageId msg t e e') {L' : List DeskKey} (hk : .thread k ∉ L')
    (hm : .message messageId ∉ L')
    (ha : ∀ a, .participant k a ∈ L' → e.participants.get? (k, a) = none → e'.participants.get? (k, a) = none) :
    DeskRel L' e e' := by
  refine ⟨fun j t₀ ht₀ => ?_, fun j hj => ?_, fun m msg' hm' => ?_, fun m hm' hnone => ?_, h.joins.old, fun j a hj hnone => ?_⟩
  · rw [h.threads]
    split_ifs with hjk
    · subst hjk
      obtain rfl := Option.some.inj (h.thread.symm.trans ht₀)
      exact ⟨_, rfl, (withMessage_stamps t messageId msg).1⟩
    · exact ⟨t₀, ht₀, rfl⟩
  · rw [h.threads, if_neg]
    rintro rfl
    exact hk hj
  · rw [h.messages, if_neg, hm']
    rintro rfl
    rw [h.new] at hm'
    exact absurd hm' (by simp)
  · rw [h.messages, if_neg, hnone]
    rintro rfl
    exact hm hm'
  · by_cases hjk : j = k
    · subst hjk
      exact ha a hj hnone
    · by_contra hsome
      obtain ⟨role, hr⟩ := Option.ne_none_iff_exists'.mp hsome
      rcases h.joins.new j a role hr with hr | ⟨-, hjk'⟩
      · rw [hnone] at hr
        exact absurd hr (by simp)
      · exact hjk hjk'

end MessageStep

/-- A thread is moved to a status or assigned. -/
structure StatusStep (k : ℕ) (t t' : DeskThread) (e e' : DeskDb) : Prop where
  thread : e.threads.get? k = some t
  threads : ∀ j, e'.threads.get? j = if j = k then some t' else e.threads.get? j
  messages : e'.messages = e.messages
  participants : e'.participants = e.participants
  stamps : t'.requesterId = t.requesterId ∧ t'.lastMessageId = t.lastMessageId ∧ t'.lastMessageAt = t.lastMessageAt ∧
    t'.lastRequesterMessageAt = t.lastRequesterMessageAt
  status : t'.status = t.status ∨ t'.status ∈ t.status.transitions

namespace StatusStep

variable {k : ℕ} {t t' : DeskThread} {e e' : DeskDb}

/-- A thread afterwards is one from before, but for its status. -/
theorem get?_thread (h : StatusStep k t t' e e') {j : ℕ} {u : DeskThread} (hu : e'.threads.get? j = some u) :
    ∃ u₀, e.threads.get? j = some u₀ ∧ u.requesterId = u₀.requesterId ∧ u.lastMessageId = u₀.lastMessageId ∧
      u.lastMessageAt = u₀.lastMessageAt ∧ u.lastRequesterMessageAt = u₀.lastRequesterMessageAt := by
  rw [h.threads] at hu
  split_ifs at hu with hj
  · obtain rfl := Option.some.inj hu
    exact ⟨t, hj ▸ h.thread, h.stamps⟩
  · exact ⟨u, hu, rfl, rfl, rfl, rfl⟩

theorem right (h : StatusStep k t t' e e') (he : e.Right) : e'.Right := by
  have hold : ∀ j, e.threads.get? j ≠ none → e'.threads.get? j ≠ none := fun j hj => by
    rw [h.threads]
    split_ifs
    · simp
    · exact hj
  refine ⟨fun j u hu => ?_, fun m msg hm => ?_, fun j a role hr => ?_, fun j u hu => ?_, fun j u a role hu hr hne => ?_⟩
  · obtain ⟨u₀, hu₀, hreq, hid, hat, hasked⟩ := h.get?_thread hu
    obtain ⟨hnone, hle, hnewest⟩ := he.stamped j u₀ hu₀
    rw [← hid] at hnone hle hnewest
    rw [← hat] at hnone hnewest
    rw [← hreq, ← hasked] at hnewest
    exact ⟨hnone, by rwa [h.messages], by rwa [h.messages]⟩
  · rw [h.messages] at hm
    exact hold _ (he.homed m msg hm)
  · rw [h.participants] at hr
    exact hold j (he.joined j a role hr)
  · obtain ⟨u₀, hu₀, hreq, -⟩ := h.get?_thread hu
    rw [h.participants, hreq]
    exact he.requester j u₀ hu₀
  · obtain ⟨u₀, hu₀, hreq, -⟩ := h.get?_thread hu
    rw [h.participants] at hr
    rw [hreq]
    exact he.others j u₀ a role hu₀ hr hne

theorem post (h : StatusStep k t t' e e') : DeskPost e e' := by
  have hnone : ∀ m msg, e'.messages.get? m = some msg → e.messages.get? m ≠ none := fun m msg hm => by
    rw [← h.messages, hm]
    simp
  refine ⟨fun j u hu => ?_, fun m msg hm hnew => absurd hnew (hnone m msg hm),
    fun m msg hm hnew => absurd hnew (hnone m msg hm)⟩
  rw [h.threads]
  split_ifs with hj
  · subst hj
    obtain rfl := Option.some.inj (h.thread.symm.trans hu)
    exact ⟨t', rfl, h.status⟩
  · exact ⟨u, hu, Or.inl rfl⟩

theorem rel (h : StatusStep k t t' e e') {L' : List DeskKey} (hk : .thread k ∉ L') : DeskRel L' e e' := by
  refine ⟨fun j u hu => ?_, fun j hj => ?_, fun m msg hm => by rwa [h.messages], fun m _ hm => by rwa [h.messages],
    fun j a role hr => by rwa [h.participants], fun j a _ hr => by rwa [h.participants]⟩
  · rw [h.threads]
    split_ifs with hjk
    · subst hjk
      obtain rfl := Option.some.inj (h.thread.symm.trans hu)
      exact ⟨t', rfl, h.stamps.1⟩
    · exact ⟨u, hu, rfl⟩
  · rw [h.threads, if_neg]
    rintro rfl
    exact hk hj

end StatusStep

/-- A thread is added, with its requester. -/
structure ThreadStep (k : ℕ) (t : DeskThread) (role : ContextRole) (e e' : DeskDb) : Prop where
  new : e.threads.get? k = none
  threads : ∀ j, e'.threads.get? j = if j = k then some t else e.threads.get? j
  messages : e'.messages = e.messages
  participants : ∀ j a, e'.participants.get? (j, a) =
    if j = k ∧ a = t.requesterId then some role else e.participants.get? (j, a)
  fresh : t.lastMessageId = none ∧ t.lastMessageAt = none
  role : role ≠ .admin

namespace ThreadStep

variable {k : ℕ} {t : DeskThread} {role : ContextRole} {e e' : DeskDb}

theorem right (h : ThreadStep k t role e e') (he : e.Right) : e'.Right := by
  have hold : ∀ j, e.threads.get? j ≠ none → e'.threads.get? j ≠ none := fun j hj => by
    rw [h.threads]
    split_ifs
    · simp
    · exact hj
  refine ⟨fun j u hu => ?_, fun m msg hm => ?_, fun j a r hr => ?_, fun j u hu => ?_, fun j u a r hu hr hne => ?_⟩
  · rw [h.threads] at hu
    split_ifs at hu with hj
    · obtain rfl := Option.some.inj hu
      refine ⟨fun _ => h.fresh.2, fun m msg hm hk => ?_, fun n hn => ?_⟩
      · -- a message of a thread that was not there
        rw [h.messages] at hm
        refine absurd h.new ?_
        have := he.homed m msg hm
        rwa [hk, hj] at this
      · rw [h.fresh.1] at hn
        exact absurd hn (by simp)
    · obtain ⟨hnone, hle, hnewest⟩ := he.stamped j u hu
      exact ⟨hnone, by rwa [h.messages], by rwa [h.messages]⟩
  · rw [h.messages] at hm
    exact hold _ (he.homed m msg hm)
  · rw [h.participants] at hr
    split_ifs at hr with hj
    · rw [h.threads, if_pos hj.1]
      simp
    · exact hold j (he.joined j a r hr)
  · rw [h.threads] at hu
    split_ifs at hu with hj
    · obtain rfl := Option.some.inj hu
      exact ⟨role, by rw [h.participants, if_pos ⟨hj, rfl⟩], h.role⟩
    · obtain ⟨r, hr, hne⟩ := he.requester j u hu
      exact ⟨r, by rw [h.participants, if_neg fun hc => hj hc.1, hr], hne⟩
  · rw [h.threads] at hu
    rw [h.participants] at hr
    split_ifs at hu with hj
    · obtain rfl := Option.some.inj hu
      by_contra hne'
      rw [if_neg fun hc => hne' hc.2] at hr
      refine absurd h.new ?_
      have := he.joined j a r hr
      rwa [hj] at this
    · rw [if_neg fun hc => hj hc.1] at hr
      exact he.others j u a r hu hr hne

/-- What is done in a new thread is done. -/
theorem post_trans (h : ThreadStep k t role e e') {e'' : DeskDb} (h' : DeskPost e' e'') : DeskPost e e'' := by
  have hthread : ∀ j u, e.threads.get? j = some u → e'.threads.get? j = some u := fun j u hu => by
    rw [h.threads, if_neg, hu]
    rintro rfl
    rw [h.new] at hu
    exact absurd hu (by simp)
  exact ⟨fun j u hu => h'.moved j u (hthread j u hu),
    fun m msg hm hnew u hu => h'.allowed m msg hm (by rwa [h.messages]) u (hthread _ u hu),
    fun m msg hm hnew => h'.reopened m msg hm (by rwa [h.messages])⟩

theorem rel (h : ThreadStep k t role e e') (he : e.Right) {L' : List DeskKey} (hk : .thread k ∉ L')
    (ha : .participant k t.requesterId ∉ L') : DeskRel L' e e' := by
  refine ⟨fun j u hu => ⟨u, ?_, rfl⟩, fun j hj => ?_, fun m msg hm => by rwa [h.messages],
    fun m _ hm => by rwa [h.messages], fun j a r hr => ?_, fun j a hj hr => ?_⟩
  · rw [h.threads, if_neg, hu]
    rintro rfl
    rw [h.new] at hu
    exact absurd hu (by simp)
  · rw [h.threads, if_neg]
    rintro rfl
    exact hk hj
  · rw [h.participants, if_neg, hr]
    rintro ⟨rfl, -⟩
    exact he.joined j a r hr h.new
  · rw [h.participants, if_neg, hr]
    rintro ⟨rfl, rfl⟩
    exact ha hj

end ThreadStep

theorem DeskPost.refl (d : DeskDb) : DeskPost d d :=
  ⟨fun _ t h => ⟨t, h, Or.inl rfl⟩, fun _ _ hm hnew => absurd (hnew.symm.trans hm) (by simp),
    fun _ _ hm hnew => absurd (hnew.symm.trans hm) (by simp)⟩

/-! ### What each call owes -/

section Owes

variable {c : DeskCall} {w : DeskDb → DeskDb} {L : List DeskKey} {s : List DeskDb} {d : DeskDb} {k a : ℕ}

/-- What a session owes at its commit. -/
def DeskOwes (c : DeskCall) :
    Option DeskThread → (DeskDb → DeskDb) → List DeskKey → List DeskDb → DeskDb → Prop :=
  Commits deskRely DeskDb.Right deskMachine (fun _ _ d d' => DeskPost d d') c

/-- The account is in the thread with the role, or this session lets an admin in. -/
def Member (k a : ℕ) (role : ContextRole) (L : List DeskKey) (w : DeskDb → DeskDb) (d : DeskDb) : Prop :=
  w = id ∧ d.participants.get? (k, a) = some role ∨
    w = DeskDb.insertAdmin k a ∧ role = .admin ∧ .participant k a ∈ L ∧ d.participants.get? (k, a) = none

theorem Member.keeps {role : ContextRole} (h : Member k a role L w d) (e : DeskDb) :
    (w e).threads = e.threads ∧ (w e).messages = e.messages := by
  rcases h with ⟨rfl, -⟩ | ⟨rfl, -⟩ <;> exact ⟨rfl, rfl⟩

/-- What is pending of a session that has only joined a thread. -/
structure OnlyJoins (k a : ℕ) (role : ContextRole) (L : List DeskKey) (t : DeskThread) (e e' : DeskDb) : Prop where
  threads : e'.threads = e.threads
  messages : e'.messages = e.messages
  joins : Joins k e e'
  locked : ∀ b, e.participants.get? (k, b) = none → e'.participants.get? (k, b) ≠ none → .participant k b ∈ L
  role : role = .admin ↔ a ≠ t.requesterId

/-- The role of a sender tells whether it is the requester. -/
theorem Member.onlyJoins {role : ContextRole} {L' : List DeskKey} {t : DeskThread} {e : DeskDb}
    (h : Member k a role L w d) (hL : L ⊆ L') (he : deskRely.rel L d e) (hI : e.Right)
    (ht : e.threads.get? k = some t) : OnlyJoins k a role L' t e (w e) := by
  obtain ⟨r, hr, hne⟩ := hI.requester k t ht
  rcases h with ⟨rfl, hrole⟩ | ⟨rfl, hrole, hlock, hnone⟩
  · have hmember := he.member k a role hrole
    refine ⟨rfl, rfl, ⟨fun _ _ _ h => h, fun _ _ _ h => Or.inl h⟩, fun _ hnone hsome => absurd hnone hsome, ?_, ?_⟩
    · rintro hadmin rfl
      rw [hmember] at hr
      exact hne ((Option.some.inj hr).symm.trans hadmin)
    · intro hother
      by_contra hc
      exact hother (hI.others k t a role ht hmember hc)
  · have hnone' : e.participants.get? (k, a) = none := he.absent k a hlock hnone
    have hget : ∀ p, (e.insertAdmin k a).participants.get? p = if p = (k, a) then some .admin else e.participants.get? p :=
      fun p => Table.get?_insert hnone' _ p
    refine ⟨rfl, rfl, ⟨fun k' b r' hr' => ?_, fun k' b r' hr' => ?_⟩, fun b hb hsome => ?_, fun _ => ?_, fun _ => hrole⟩
    · rw [hget, if_neg, hr']
      intro hc
      rw [hc, hnone'] at hr'
      exact absurd hr' (by simp)
    · rw [hget] at hr'
      split_ifs at hr' with hp
      · exact Or.inr ⟨(Option.some.inj hr').symm, (Prod.mk.inj hp).1⟩
      · exact Or.inl hr'
    · rw [hget] at hsome
      split_ifs at hsome with hp
      · rw [(Prod.mk.inj hp).2]
        exact hL hlock
      · exact absurd hb hsome
    · -- the requester is in the thread
      rintro rfl
      rw [hnone'] at hr
      exact absurd hr (by simp)

/-- The `INSERT` of a message and the flush of its thread. -/
theorem OnlyJoins.messageStep {role : ContextRole} {L' : List DeskKey} {t : DeskThread} {e e' : DeskDb} {messageId : ℕ}
    {msg : ChatMessage} (h : OnlyJoins k a role L' t e e') (ht : e.threads.get? k = some t)
    (hmsg : msg.conversationId = k ∧ msg.senderId = a ∧ msg.senderRole = role)
    (hnew : e.messages.get? messageId = none) (habove : ∀ n ∈ t.lastMessageId, n < messageId)
    (hstatus : t.status ≠ .closed ∧ (t.status = .blocked → role = .admin))
    (hlater : a ≠ t.requesterId → ∀ asked ∈ t.lastRequesterMessageAt, asked < msg.createdAt) :
    MessageStep k messageId msg t e
      ((e'.insertMessage messageId msg).modifyThread k (t.write (t.withMessage messageId msg))) := by
  obtain ⟨hk, rfl, rfl⟩ := hmsg
  refine ⟨ht, fun j => ?_, fun m => ?_, hnew, habove, ⟨h.joins.old, h.joins.new⟩, hk, h.role, hstatus, hlater⟩
  · change (e'.threads.modify k _).get? j = _
    rw [h.threads, Table.get?_modify]
    split_ifs with hj
    · rw [hj, ht, Option.map_some, DeskThread.write_self (withMessage_topic t messageId msg) (withMessage_stamps t messageId msg).1]
    · rfl
  · change (e'.messages.insert messageId msg).get? m = _
    rw [h.messages, Table.get?_insert hnew]

/-- A message is added by a session that holds the thread and the id. -/
theorem MessageStep.owes {r : Option DeskThread}
    (h : ∀ e, deskRely.rel L d e → e.Right → c.Undisturbed s e → ∃ k messageId msg t,
      MessageStep k messageId msg t e (w e) ∧ .thread k ∈ L ∧ .message messageId ∈ L ∧
        ∀ b, e.participants.get? (k, b) = none → (w e).participants.get? (k, b) ≠ none → .participant k b ∈ L) :
    DeskOwes c r w L s d := by
  intro e he hI hallow
  obtain ⟨k, messageId, msg, t, hstep, hk, hm, hjoined⟩ := h e he hI hallow
  refine ⟨hstep.right hI, hstep.post, fun L' hL' => hstep.rel (hL' _ hk) (hL' _ hm) fun b hb hnone => ?_⟩
  by_contra hsome
  exact hL' _ (hjoined b hnone hsome) hb

theorem wp_participantForAccount {isAdmin : Bool} :
    (participantForAccount k a isAdmin).wp deskRely DeskDb.Right (fun r w' L' s' d' => L ⊆ L' ∧ deskRely.rel L d d' ∧
      s <:+ s' ∧ Member k a r.1 L' w' d' ∧ ∀ t ∈ r.2, ∃ x y, (y :: x :: s) <:+ s' ∧ y.threads.get? k = some t)
        id L s d := by
  rw [participantForAccount, Tx.wp_bind, Tx.wp_read]
  intro x hx _
  dsimp only [id]
  rcases hrole : x.participants.get? (k, a) with _ | role
  · simp only [Tx.wp_bind, Tx.wp_read, Tx.wp_getOrElse, Tx.wp_require, Tx.wp_lock, Tx.wp_modify, Tx.wp_pure]
    intro y hy _ t ht _ z hz _ hnone
    refine ⟨List.subset_cons_self _ _, deskRely.trans hx (deskRely.trans hy hz), (List.suffix_cons _ _).trans ((List.suffix_cons _ _).trans (List.suffix_cons _ _)),
      Or.inr ⟨rfl, rfl, List.mem_cons_self, hnone⟩, ?_⟩
    rintro _ ⟨⟩
    exact ⟨x, y, List.suffix_cons _ _, ht⟩
  · exact ⟨List.Subset.refl L, hx, List.suffix_cons _ _, Or.inl ⟨rfl, hrole⟩, fun t ht => absurd ht (by simp)⟩

/-- An id the sequence gives is above those that are there. -/
theorem lt_of_clash {messageId clientMessageId : ℕ}
    (h : ((d.messageOf k clientMessageId).isSome || d.messages.rows.any fun row => decide (messageId ≤ row.1)) = false)
    {m : ℕ} {msg : ChatMessage} (hm : d.messages.get? m = some msg) : m < messageId := by
  have := List.any_eq_false.mp (Bool.or_eq_false_iff.mp h).2 (m, msg) (Table.get?_eq_some_iff.mp hm)
  simpa using this

theorem new_of_clash {messageId clientMessageId : ℕ}
    (h : ((d.messageOf k clientMessageId).isSome || d.messages.rows.any fun row => decide (messageId ≤ row.1)) = false) :
    d.messages.get? messageId = none := by
  rcases hm : d.messages.get? messageId with _ | msg
  · rfl
  · exact absurd (lt_of_clash h hm) (lt_irrefl _)

/-- It is above that of the newest message of a thread that was seen before. -/
theorem above_of_clash {messageId clientMessageId : ℕ} {t : DeskThread} {x : DeskDb}
    (h : ((d.messageOf k clientMessageId).isSome || d.messages.rows.any fun row => decide (messageId ≤ row.1)) = false)
    (hx : x.Right) {j : ℕ} (ht : x.threads.get? j = some t)
    (hmove : ∀ m msg, x.messages.get? m = some msg → d.messages.get? m = some msg) :
    ∀ n ∈ t.lastMessageId, n < messageId := by
  intro n hn
  obtain ⟨msg, hmsg, -⟩ := (hx.stamped j t ht).newest n hn
  exact lt_of_clash h (hmove n msg hmsg)

/-- **A message through the thread.** -/
theorem sendMessage_owes {isAdmin : Bool} {object : Option DeskThread} {sending : Sending}
    (hallow : ∀ s' e, s <:+ s' → deskRely.rel L d e → c.Undisturbed s' e →
      AnswersLater k a sending.now e ∧ ∀ t ∈ object, e.threads.get? k = some t)
    (hfirst : object = none → ∀ s' e x y, (y :: x :: s) <:+ s' → c.Undisturbed s' e →
      y.threads.get? k = e.threads.get? k) :
    (sendMessage k a isAdmin object sending).wp deskRely DeskDb.Right (DeskOwes c) id L s d := by
  rw [sendMessage, Tx.wp_bind]
  refine Tx.wp_mono wp_participantForAccount ?_
  rintro ⟨role, first⟩ w' L' s' d' ⟨hL, hd', hs, hmember, hobject⟩
  simp only [lockThread, Sending.checkExisting, insertMessage, flushThread, Tx.wp_bind, Tx.wp_lock, Tx.wp_getOrElse,
    Tx.wp_require, Tx.wp_read, Tx.wp_modify, Tx.wp_pure]
  intro d₁ hd₁ _ current hcurrent hblocked hclosed d₂ hd₂ _ _ _ d₃ hd₃ hI₃ hclash _ d₄ hd₄ _
  refine MessageStep.owes fun e he hI hundisturbed => ?_
  set thread := (object <|> first).getD current with hthread
  set msg := sending.message k a role with hmsg
  set flushed := if thread.withMessage sending.messageId msg = thread then [] else [DeskKey.thread k]
  set inserted : List DeskKey := [.message sending.messageId, .client k sending.clientMessageId]
  have h₁₃ : deskRely.rel (.thread k :: L') d₁ d₃ := deskRely.trans hd₂ hd₃
  have h₃ : deskRely.rel (inserted ++ .thread k :: L') d₃ e :=
    deskRely.trans hd₄ (deskRely.anti (List.subset_append_right flushed _) he)
  have h₁ : deskRely.rel (.thread k :: L') d₁ e :=
    deskRely.trans h₁₃ (deskRely.anti (List.subset_append_right inserted _) h₃)
  -- the row is locked, so it is at the commit what it was then
  have hrow₁ : d₁.threads.get? k = some current := by rwa [(hmember.keeps d₁).1] at hcurrent
  have hrow₃ : d₃.threads.get? k = some current := (h₁₃.locked k List.mem_cons_self).trans hrow₁
  have hrow : e.threads.get? k = some current := (h₁.locked k List.mem_cons_self).trans hrow₁
  have hsuffix : s' <:+ _ := (List.suffix_cons (w' d₁) s').trans ((List.suffix_cons (w' d₂) _).trans
    ((List.suffix_cons (w' d₃) _).trans (List.suffix_cons
      (DeskDb.insertMessage sending.messageId msg (w' d₄)) (w' d₃ :: w' d₂ :: w' d₁ :: s'))))
  obtain ⟨hlater, hloaded⟩ := hallow _ e (hs.trans hsuffix) (deskRely.trans hd' (deskRely.anti hL (deskRely.trans hd₁
    (deskRely.anti (List.subset_cons_self _ _) h₁)))) hundisturbed
  -- and it is as the session has loaded it
  have hsame : thread = current := by
    rcases object with _ | t
    · rcases first with _ | t
      · rfl
      · obtain ⟨x, y, hxy, hy⟩ := hobject t rfl
        have := hfirst rfl _ e x y (hxy.trans hsuffix) hundisturbed
        exact Option.some.inj (hy.symm.trans (this.trans hrow))
    · exact Option.some.inj ((hloaded t rfl).symm.trans hrow)
  rw [hsame] at hblocked hclosed ⊢
  have habove := above_of_clash hclash hI₃ hrow₃ fun m msg hm => by rwa [(hmember.keeps d₃).2]
  have hnew := new_of_clash hclash
  rw [(hmember.keeps d₃).2] at hnew
  have hjoins : OnlyJoins k a role (flushed ++ (inserted ++ .thread k :: L')) current e (w' e) := hmember.onlyJoins
    (List.Subset.trans (List.subset_cons_self _ _)
      (List.Subset.trans (List.subset_append_right inserted _) (List.subset_append_right flushed _)))
    (deskRely.trans hd₁ (deskRely.anti (List.subset_cons_self _ _) h₁)) hI hrow
  refine ⟨k, sending.messageId, msg, current, hjoins.messageStep hrow ⟨rfl, rfl, rfl⟩ ?_ habove ⟨hclosed, hblocked⟩
    (hlater current hrow), ?_, ?_, hjoins.locked⟩
  · exact h₃.fresh _ (List.mem_append_left _ List.mem_cons_self) hnew
  · exact List.mem_append_right _ (List.mem_append_right _ List.mem_cons_self)
  · exact List.mem_append_right _ (List.mem_append_left _ List.mem_cons_self)

theorem second_of_suffix {x y : DeskDb} (h : [y, x] <:+ s) : s.reverse[1]? = some y := by
  obtain ⟨l, rfl⟩ := h
  simp

theorem threadOf_eq_some {topic : DeskTopic} {row : ℕ × DeskThread} (h : d.threadOf topic a = some row) :
    d.threads.get? row.1 = some row.2 ∧ row.2.topic = topic ∧ row.2.requesterId = a :=
  ⟨Table.get?_eq_some_iff.mpr (List.mem_of_find?_eq_some h), by simpa [DeskDb.threadOf] using List.find?_some h⟩

theorem sendCall_owes (isAdmin : Bool) (object : Option DeskThread) (sending : Sending) :
    (sendMessage k a isAdmin object sending).wp deskRely DeskDb.Right
      (DeskOwes (.sendMessage k a isAdmin object sending)) id [] [] d :=
  sendMessage_owes (fun _ _ _ _ h => ⟨h.1, h.2.1⟩) fun hobject _ _ _ y hs h => h.2.2 hobject y (second_of_suffix hs)

/-! ### Threads that are looked for -/

/-- A thread that is added, if the requester has none about it. -/
theorem wp_insertThread {t : DeskThread} {role : ContextRole} :
    (insertThread k t role).wp deskRely DeskDb.Right (fun created w' L' s' d' => L ⊆ L' ∧ .thread k ∈ L' ∧
      .participant k t.requesterId ∈ L' ∧ d'.threads.get? k = none ∧ s <:+ s' ∧
        w' = if created = true then DeskDb.insertThread k t role else id) id L s d := by
  rw [insertThread, Tx.wp_bind]
  intro x _ _
  change Tx.wp _ _ (do
    Tx.require ((x.threads.get? k).isSome = false) _
    Tx.when ((x.threadOf t.topic t.requesterId).isSome = false) _
    pure (!(x.threadOf t.topic t.requesterId).isSome) : DeskTx Bool) _ _ _ _ _
  simp only [Tx.wp_bind, Tx.wp_require, Tx.wp_when, Tx.wp_modify, Tx.wp_pure]
  intro hnone
  have hnone' : x.threads.get? k = none := by simpa using hnone
  have hL : L ⊆ [DeskKey.thread k, .threadOf t.topic t.requesterId, .participant k t.requesterId] ++ L :=
    List.subset_append_right _ _
  constructor
  · intro hfree
    exact ⟨hL, by simp, by simp, hnone', List.suffix_cons _ _, by simp [hfree]⟩
  · intro htaken
    exact ⟨hL, by simp, by simp, hnone', List.suffix_cons _ _, by simp [htaken]⟩

/-- What the new thread is. -/
theorem threadStep_insertThread {t : DeskThread} {role : ContextRole} {e : DeskDb} (hI : e.Right)
    (hnone : e.threads.get? k = none) (hfresh : t.lastMessageId = none ∧ t.lastMessageAt = none) (hrole : role ≠ .admin) :
    ThreadStep k t role e (e.insertThread k t role) := by
  have hmember : e.participants.get? (k, t.requesterId) = none := by
    by_contra hsome
    obtain ⟨r, hr⟩ := Option.ne_none_iff_exists'.mp hsome
    exact hI.joined k _ r hr hnone
  refine ⟨hnone, fun j => Table.get?_insert hnone t j, rfl, fun j b => ?_, hfresh, hrole⟩
  refine (Table.get?_insert hmember role (j, b)).trans ?_
  simp only [Prod.mk.injEq]

theorem postHelpdeskMessage_owes (account : DeskAccount) (role : ContextRole) (sending : Sending) :
    (postHelpdeskMessage a account role k sending).wp deskRely DeskDb.Right
      (DeskOwes (.postHelpdeskMessage a account role k sending)) id [] [] d := by
  -- a thread that was found is sent to as it was found
  have hsend : ∀ (L : List DeskKey) (s : List DeskDb) (x d' : DeskDb) (row : ℕ × DeskThread),
      x.threadOf (.helpdesk (if role = .seller then .seller else .buyer)) a = some row → x ∈ s →
        (sendMessage row.1 a account.isAdmin (some row.2) sending).wp deskRely DeskDb.Right
          (DeskOwes (.postHelpdeskMessage a account role k sending)) id L s d' := by
    intro L s x d' row hrow hx
    refine sendMessage_owes (fun s' e hs _ h => ?_) fun hobject => absurd hobject (by simp)
    have he : e.threads.get? row.1 = some row.2 := h x (hs.subset hx) row hrow
    refine ⟨fun t ht hne => absurd ?_ hne, fun t ht => ?_⟩
    · obtain rfl := Option.some.inj (he.symm.trans ht)
      exact (threadOf_eq_some hrow).2.2.symm
    · obtain rfl := Option.some.inj ht
      exact he
  simp only [postHelpdeskMessage, Tx.wp_bind, Tx.wp_require, Tx.wp_read]
  intro _ _ x _ _
  split
  next row hrow => exact hsend _ _ x _ row hrow List.mem_cons_self
  next hnone =>
    rw [Tx.wp_bind]
    refine Tx.wp_mono wp_insertThread ?_
    rintro created w' L' s' d' ⟨-, hthread, hparticipant, hfree, -, rfl⟩
    rw [Tx.wp_ite]
    refine ⟨fun hcreated => ?_, fun hcreated => ?_⟩
    · rw [if_pos hcreated]
      intro e he hI _
      have hstep := threadStep_insertThread hI ((he.locked k hthread).trans hfree)
        (t := newThread (.helpdesk (if role = .seller then .seller else .buyer)) a) ⟨rfl, rfl⟩
        (show (if role = .seller then ContextRole.seller else .buyer) ≠ .admin by split_ifs <;> simp)
      exact ⟨hstep.right hI, hstep.post_trans (.refl _),
        fun L'' hL'' => hstep.rel hI (hL'' _ hthread) (hL'' _ hparticipant)⟩
    · rw [if_neg hcreated, Tx.wp_bind, Tx.wp_read]
      intro y _ _
      rw [Tx.wp_bind, Tx.wp_getOrElse]
      exact fun row hrow => hsend _ _ y _ row hrow List.mem_cons_self

/-! ### Reviews -/

/-- **A review writes into a thread that is open or resolved, as it was found.** -/
theorem appendSupportMessage_owes {orderId : ℕ} {seller : Bool} {conversationId : ℕ} {role : ContextRole}
    {row : ℕ × DeskThread} {x : DeskDb} {sending : Sending} (hx : x.Right) (hxd : deskRely.rel L x d)
    (hrow : x.threadOf (.support orderId) a = some row) (hmember : d.participants.get? (row.1, a) = some role)
    (hne : strip sending.body ≠ "") (hs : ∀ s', s <:+ s' → s'.reverse[1]? = some x) :
    (appendSupportMessage row.1 row.2 a role { sending with body := strip sending.body }).wp deskRely DeskDb.Right
      (fun _ w L s d => DeskOwes (.requestMarketplaceReview orderId a seller conversationId sending) none w L s d)
      id L s d := by
  simp only [appendSupportMessage, Sending.checkExisting, insertMessage, flushThread, Tx.wp_bind, Tx.wp_require,
    Tx.wp_read, Tx.wp_modify]
  intro d₁ hd₁ _ _ _ d₂ hd₂ _ hclash _ d₃ hd₃ _
  obtain ⟨hthread, -, hreq⟩ := threadOf_eq_some hrow
  have hx₂ : deskRely.rel L x d₂ := deskRely.trans hxd (deskRely.trans hd₁ hd₂)
  have habove := above_of_clash hclash hx hthread hx₂.message
  -- the thread gets a new message, so its row is taken
  have hedited : row.2.withMessage sending.messageId
      ({ sending with body := strip sending.body }.message row.1 a role) ≠ row.2 := by
    intro hc
    have hid := (withMessage_stamps row.2 sending.messageId
      ({ sending with body := strip sending.body }.message row.1 a role)).2.1
    rw [hc] at hid
    exact absurd (habove _ hid) (lt_irrefl _)
  refine MessageStep.owes fun e he hI hundisturbed => ?_
  rw [if_neg hedited] at he ⊢
  obtain ⟨hrow', hstatus⟩ := hundisturbed hne x (hs _ ((List.suffix_cons _ _).trans
    ((List.suffix_cons _ _).trans (List.suffix_cons _ _)))) row hrow
  have hjoins : OnlyJoins row.1 a role L row.2 e e := by
    refine Member.onlyJoins (L := []) (w := id) (d := d) (Or.inl ⟨rfl, hmember⟩) (List.nil_subset _) ?_ hI hrow'
    exact deskRely.anti (List.nil_subset _) (deskRely.trans hd₁ (deskRely.trans hd₂ (deskRely.trans
      (deskRely.anti (List.subset_append_right _ _) hd₃) (deskRely.anti
        (List.Subset.trans (List.subset_append_right _ _) (List.subset_append_right _ _)) he))))
  refine ⟨row.1, sending.messageId, _, row.2, hjoins.messageStep hrow' ⟨rfl, rfl, rfl⟩ ?_ habove ?_ ?_, ?_, ?_, ?_⟩
  · exact (deskRely.trans hd₃ (deskRely.anti (List.subset_append_right _ _) he)).fresh _
      (List.mem_append_left _ List.mem_cons_self) (new_of_clash hclash)
  · simp only [List.mem_cons, List.not_mem_nil, or_false] at hstatus
    refine ⟨fun hc => ?_, fun hc => ?_⟩ <;> rw [hc] at hstatus <;> simp at hstatus
  · exact fun hc => absurd hreq.symm hc
  · exact List.mem_append_left _ List.mem_cons_self
  · exact List.mem_append_right _ (List.mem_append_left _ List.mem_cons_self)
  · exact fun b hb hsome => absurd hb hsome

theorem requestMarketplaceReviewThread_owes (orderId : ℕ) (seller : Bool) (sending : Sending) :
    (requestMarketplaceReviewThread orderId a seller k sending).wp deskRely DeskDb.Right
      (DeskOwes (.requestMarketplaceReview orderId a seller k sending)) id [] [] d := by
  simp only [requestMarketplaceReviewThread, ensureSupportConversation, Tx.wp_bind, Tx.wp_lock, Tx.wp_read, Tx.wp_pure]
  intro x₀ _ _ x hx hI
  split
  next row hrow =>
    simp only [Tx.wp_bind, Tx.wp_read, Tx.wp_getOrElse, Tx.wp_when]
    intro d₁ hd₁ _ role hrole
    refine ⟨fun hne => ?_, fun _ e _ hI _ => ⟨hI, .refl _, fun L' _ => deskRely.refl L' e⟩⟩
    exact appendSupportMessage_owes hI hd₁ hrow hrole hne fun s' hs =>
      second_of_suffix ((List.suffix_cons d₁ [x, x₀]).trans hs)
  next hnone =>
    rw [Tx.wp_bind]
    refine Tx.wp_mono wp_insertThread ?_
    rintro created w' L' s' d' ⟨-, hthread, hparticipant, hfree, -, rfl⟩
    simp only [insertMessage, Tx.wp_bind, Tx.wp_require, Tx.wp_modify]
    intro hcreated d₁ hd₁ _ hclash _ e he hI _
    rw [if_pos hcreated] at hclash ⊢
    have hrole : (if seller = true then ContextRole.seller else .buyer) ≠ .admin := by split_ifs <;> simp
    have he' : deskRely.rel L' d' e := deskRely.trans hd₁ (deskRely.anti (List.subset_append_right _ _) he)
    have hnone' : e.threads.get? k = none := (he'.locked k hthread).trans hfree
    have hstep := threadStep_insertThread hI hnone' (t := newThread (.support orderId) a) ⟨rfl, rfl⟩ hrole
    have hnew : e.messages.get? sending.messageId = none :=
      he.fresh _ (List.mem_append_left _ List.mem_cons_self) (new_of_clash hclash)
    set e₁ := e.insertThread k (newThread (.support orderId) a) (if seller = true then .seller else .buyer) with he₁
    set msg := { sending with body := strip sending.body }.message k a (if seller = true then .seller else .buyer) with hmsg
    have hget : e₁.threads.get? k = some (newThread (.support orderId) a) := by rw [hstep.threads, if_pos rfl]
    have hjoins : OnlyJoins k a (if seller = true then .seller else .buyer) [] (newThread (.support orderId) a) e₁ e₁ :=
      ⟨rfl, rfl, ⟨fun _ _ _ h => h, fun _ _ _ h => Or.inl h⟩, fun _ hb hsome => absurd hb hsome,
        fun hc => absurd hc hrole, fun hc => absurd rfl hc⟩
    have hmessage : MessageStep k sending.messageId msg (newThread (.support orderId) a) e₁ _ :=
      hjoins.messageStep hget ⟨rfl, rfl, rfl⟩ hnew (fun n hn => absurd hn (by simp [newThread])) ⟨by simp [newThread], fun hc => absurd hc (by simp [newThread])⟩
      fun hc => absurd rfl hc
    -- the stamps that are written are those of the message
    have hstate : MessageStep k sending.messageId msg (newThread (.support orderId) a) e₁
        ((e₁.insertMessage sending.messageId msg).modifyThread k fun thread =>
          { thread with
            lastMessageId := some sending.messageId
            lastMessageAt := some sending.now
            lastRequesterMessageAt := some sending.now }) := by
      refine ⟨hmessage.thread, fun j => ?_, hmessage.messages, hmessage.new, hmessage.above,
        ⟨hmessage.joins.old, hmessage.joins.new⟩, hmessage.home, hmessage.role, hmessage.status, hmessage.later⟩
      change (e₁.threads.modify k _).get? j = _
      rw [Table.get?_modify]
      split_ifs with hj
      · rw [hj, hget, Option.map_some]
        simp [hmsg, Sending.message, newThread, DeskThread.withMessage, DeskThread.onDeskMessage, hrole]
      · rfl
    have hlocked : ∀ L'' : List DeskKey, (∀ key ∈ [DeskKey.message sending.messageId, .client k sending.clientMessageId] ++ L',
        key ∉ L'') → DeskRel L'' e ((e₁.insertMessage sending.messageId msg).modifyThread k fun thread =>
          { thread with
            lastMessageId := some sending.messageId
            lastMessageAt := some sending.now
            lastRequesterMessageAt := some sending.now }) := fun L'' hL'' =>
      deskRely.trans (hstep.rel hI (hL'' _ (List.mem_append_right _ hthread)) (hL'' _ (List.mem_append_right _ hparticipant)))
        (hstate.rel (hL'' _ (List.mem_append_right _ hthread)) (hL'' _ (List.mem_append_left _ List.mem_cons_self))
          fun _ _ hb => hb)
    exact ⟨hstate.right (hstep.right hI), hstep.post_trans hstate.post, hlocked⟩

/-! ### The admins -/

/-- A thread is moved or assigned by a session that holds it. -/
theorem StatusStep.owes {r : Option DeskThread}
    (h : ∀ e, deskRely.rel L d e → e.Right → c.Undisturbed s e → ∃ k t t', StatusStep k t t' e (w e) ∧ .thread k ∈ L) :
    DeskOwes c r w L s d := by
  intro e he hI hallow
  obtain ⟨k, t, t', hstep, hk⟩ := h e he hI hallow
  exact ⟨hstep.right hI, hstep.post, fun L' hL' => hstep.rel (hL' _ hk)⟩

/-- The flush of a thread that was moved or assigned. -/
theorem statusStep_flush {loaded edited t : DeskThread} {e : DeskDb} (ht : e.threads.get? k = some t)
    (hstamps : edited.lastMessageId = loaded.lastMessageId ∧ edited.lastMessageAt = loaded.lastMessageAt ∧
      edited.lastRequesterMessageAt = loaded.lastRequesterMessageAt)
    (hstatus : writeColumn loaded.status edited.status t.status = t.status ∨
      writeColumn loaded.status edited.status t.status ∈ t.status.transitions) :
    StatusStep k t (loaded.write edited t) e (e.modifyThread k (loaded.write edited)) := by
  refine ⟨ht, fun j => ?_, rfl, rfl, ?_, hstatus⟩
  · change (e.threads.modify k _).get? j = _
    rw [Table.get?_modify]
    split_ifs with hj
    · rw [hj, ht, Option.map_some]
    · rfl
  · simp only [DeskThread.write, writeColumn, hstamps.1, hstamps.2.1, hstamps.2.2, if_true, and_self]

/-- **A move along `transitions`**, where the status is the one that was loaded. -/
theorem moveThread_owes {thread : DeskThread} {target : TicketStatus} {adminId now : ℕ} {reason : Option String}
    (hk : .thread k ∈ L)
    (hrow : ∀ e, deskRely.rel L d e → (∃ s', c.Undisturbed s' e) → ∃ t, e.threads.get? k = some t ∧ t.status = thread.status) :
    (moveThread k thread target adminId reason now).wp deskRely DeskDb.Right (DeskOwes c) id L s d := by
  simp only [moveThread, transitionTicket, flushThread, Tx.wp_bind, Tx.wp_require, Tx.wp_pure, Tx.wp_modify]
  intro htarget _ d₁ hd₁ _
  refine StatusStep.owes fun e he _ hundisturbed => ?_
  obtain ⟨t, ht, hstatus⟩ := hrow e (deskRely.trans hd₁ (deskRely.anti (List.subset_append_right _ _) he)) ⟨_, hundisturbed⟩
  refine ⟨k, t, _, statusStep_flush ht ⟨rfl, rfl, rfl⟩ ?_, List.mem_append_right _ hk⟩
  rw [writeColumn]
  split_ifs
  · exact Or.inl rfl
  · exact Or.inr (by rw [hstatus]; exact htarget)

theorem setStatus_owes (target : TicketStatus) (reason : Option String) (adminId now : ℕ) :
    (setStatus k adminId target reason now).wp deskRely DeskDb.Right (DeskOwes (.setStatus k adminId target reason now))
      id [] [] d := by
  simp only [setStatus, lockThread, Tx.wp_bind, Tx.wp_lock, Tx.wp_getOrElse, Tx.wp_require]
  intro d₁ _ _ thread hthread _
  exact moveThread_owes List.mem_cons_self fun e he _ =>
    ⟨thread, (he.locked k List.mem_cons_self).trans hthread, rfl⟩

theorem setStatusNotice_owes (adminId : ℕ) (sending : Sending) :
    (setStatusNotice k adminId sending).wp deskRely DeskDb.Right (DeskOwes (.setStatusNotice k adminId sending))
      id [] [] d := by
  simp only [setStatusNotice, lockThread, Tx.wp_bind, Tx.wp_lock, Tx.wp_getOrElse, Tx.wp_require]
  intro d₁ _ _ thread hthread _
  refine sendMessage_owes (fun s' e _ he h => ⟨h, fun t ht => ?_⟩) fun hobject => absurd hobject (by simp)
  obtain rfl := Option.some.inj ht
  exact (he.locked k List.mem_cons_self).trans hthread

theorem setStatusResolved_owes (adminId : ℕ) (thread : DeskThread) (reason : Option String) (now : ℕ) :
    (setStatusResolved k adminId thread reason now).wp deskRely DeskDb.Right
      (DeskOwes (.setStatusResolved k adminId thread reason now)) id [] [] d := by
  simp only [setStatusResolved, lockThread, Tx.wp_bind, Tx.wp_lock, Tx.wp_getOrElse]
  intro d₁ _ _ current hcurrent
  refine moveThread_owes List.mem_cons_self fun e he hundisturbed => ?_
  obtain ⟨_, hundisturbed⟩ := hundisturbed
  have hrow : e.threads.get? k = some current := (he.locked k List.mem_cons_self).trans hcurrent
  exact ⟨current, hrow, hundisturbed current hrow⟩

theorem assignTicket_owes (assigneeId : Option ℕ) :
    (assignTicket k assigneeId).wp deskRely DeskDb.Right (DeskOwes (.assign k assigneeId)) id [] [] d := by
  simp only [assignTicket, lockThread, flushThread, Tx.wp_bind, Tx.wp_lock, Tx.wp_getOrElse, Tx.wp_read, Tx.wp_require,
    Tx.wp_modify, Tx.wp_pure]
  intro d₁ _ _ thread hthread d₂ hd₂ _ _ d₃ hd₃ _
  refine StatusStep.owes fun e he _ _ => ?_
  have hrow : e.threads.get? k = some thread := ((deskRely.trans hd₂ (deskRely.trans hd₃
    (deskRely.anti (List.subset_append_right _ _) he))).locked k List.mem_cons_self).trans hthread
  refine ⟨k, thread, _, statusStep_flush hrow ⟨rfl, rfl, rfl⟩ (Or.inl ?_), List.mem_append_right _ List.mem_cons_self⟩
  rw [writeColumn, if_pos rfl]

end Owes

theorem deskMachine_correct : deskMachine.Correct deskRely DeskDb.Right fun _ _ d d' => DeskPost d d' := by
  intro c d _
  cases c with
  | sendMessage k a isAdmin object s => exact sendCall_owes isAdmin object s
  | postHelpdeskMessage a account role k s => exact postHelpdeskMessage_owes account role s
  | requestMarketplaceReview orderId a seller k s => exact requestMarketplaceReviewThread_owes orderId seller s
  | setStatus k adminId target reason now => exact setStatus_owes target reason adminId now
  | setStatusNotice k adminId s => exact setStatusNotice_owes adminId s
  | setStatusResolved k adminId thread reason now => exact setStatusResolved_owes adminId thread reason now
  | assign k assigneeId => exact assignTicket_owes assigneeId

/-- A ticket of the requester 5, in which the admin 1 has joined, without a message. -/
def sampleDesk (topic : DeskTopic) (status : TicketStatus) : DeskDb where
  threads := ⟨[(3, { newThread topic 5 with status })], by simp⟩
  participants := ⟨[((3, 5), .buyer), ((3, 1), .admin)], by decide⟩
  messages := ⟨[], by simp⟩
  accounts := ⟨[], by simp⟩

theorem sampleDesk_right (topic : DeskTopic) (status : TicketStatus) : (sampleDesk topic status).Right := by
  have hthread : ∀ k t, (sampleDesk topic status).threads.get? k = some t →
      k = 3 ∧ t = { newThread topic 5 with status } := fun k t ht => by
    simpa [sampleDesk] using Table.get?_eq_some_iff.mp ht
  have hmember : ∀ k a role, (sampleDesk topic status).participants.get? (k, a) = some role →
      k = 3 ∧ (a = 5 ∧ role = .buyer ∨ a = 1 ∧ role = .admin) := fun k a role hr => by
    have := Table.get?_eq_some_iff.mp hr
    simp only [sampleDesk, List.mem_cons, Prod.mk.injEq, List.not_mem_nil, or_false] at this
    rcases this with ⟨⟨rfl, rfl⟩, rfl⟩ | ⟨⟨rfl, rfl⟩, rfl⟩ <;> simp
  have hnone : ∀ m, (sampleDesk topic status).messages.get? m = none := fun _ => rfl
  refine ⟨fun k t ht => ?_, fun m msg hm => ?_, fun k a role hr => ?_, fun k t ht => ?_, fun k t a role ht hr hne => ?_⟩
  · obtain ⟨-, rfl⟩ := hthread k t ht
    exact ⟨fun _ => rfl, fun m msg hm => absurd ((hnone m).symm.trans hm) (by simp), fun n hn => absurd hn (by simp [newThread])⟩
  · exact absurd ((hnone m).symm.trans hm) (by simp)
  · obtain ⟨rfl, -⟩ := hmember k a role hr
    exact Option.ne_none_iff_exists'.mpr ⟨_, rfl⟩
  · obtain ⟨rfl, rfl⟩ := hthread k t ht
    exact ⟨.buyer, rfl, by decide⟩
  · obtain ⟨rfl, rfl⟩ := hthread k t ht
    obtain ⟨-, ⟨rfl, -⟩ | ⟨-, rfl⟩⟩ := hmember 3 a role hr
    · rfl
    · exact absurd rfl hne

/-- The requester asks. -/
def sampleQuestion (messageId now : ℕ) : DeskCall := .sendMessage 3 5 false none ⟨messageId, messageId, "?", now⟩

/-- The admin answers. -/
def sampleReply (messageId now : ℕ) : DeskCall := .sendMessage 3 1 true none ⟨messageId, messageId, "!", now⟩

/-- Two admins: one resolves a ticket with a notice, the other closes it. -/
def sampleNotice : DeskCall := .setStatusNotice 3 1 ⟨1, 1, "", 1⟩

/-- The thread the first admin goes on with. -/
def sampleNoticed : DeskThread :=
  { newThread (.helpdesk .buyer) 5 with
    firstResponseAt := some 1
    lastMessageId := some 1
    lastMessageAt := some 1 }

/-- The buyer of an order asks for a review. -/
def sampleReview : DeskCall := .requestMarketplaceReview 9 5 false 4 ⟨1, 1, "!", 1⟩

end Marketplace
