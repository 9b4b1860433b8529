import Marketplace.Resources.Stock

/-!
# The outbox of mails

`enqueue_mail` of `mail/service.py` writes a row of `mail_outbox` in its caller's transaction; the worker
sends it later. The unique index of the idempotency key makes a second row with the same key impossible,
and `on_conflict_do_nothing` makes a second call a no-op. What the mail says (the payload and
the texts of the templates) is not modelled, nor is the configuration of the provider.
-/

namespace Marketplace.Mail

open Sql

/-- `MailOutboxStatus`. -/
inductive MailOutboxStatus
  | pending | sending | sent | failed
  deriving DecidableEq, Repr

/-- A row of `mail_outbox`. -/
structure MailOutbox where
  idempotencyKey : String
  template : String
  toEmail : String
  accountId : Option ℕ
  locale : String
  status : MailOutboxStatus
  attempts : ℕ
  lastError : Option String
  scheduledAt : ℕ
  sentAt : Option ℕ
  updatedAt : ℕ
  deriving DecidableEq, Repr

/-- `KNOWN_TEMPLATES`. -/
def knownTemplates : List String :=
  ["email_verify", "email_change_confirm", "email_change_notice", "password_reset",
    "password_changed", "seller_application_approved", "seller_application_rejected",
    "seller_application_needs_info", "provider_approved", "provider_rejected",
    "withdrawal_approved", "withdrawal_rejected", "dispute_opened", "dispute_resolved", "admin_test",
    "ops_incident", "telegram_paused", "seller_tier_changed"]

/-- `MAIL_CATEGORY`. -/
def mailCategory (template : String) : Option String :=
  if template ∈ ["withdrawal_approved", "withdrawal_rejected"] then some "wallet"
  else if template ∈ ["dispute_opened", "dispute_resolved"] then some "disputes"
  else if template ∈ ["seller_application_approved", "seller_application_rejected",
    "seller_application_needs_info", "provider_approved", "provider_rejected",
    "seller_tier_changed"] then some "orders"
  else none

/-- What `enqueue_mail` reads of an account. -/
structure MailAccount where
  email : String
  isActive : Bool
  /-- The categories that are `False` in `notification_prefs`. -/
  switchedOff : List String
  deriving DecidableEq, Repr

/-- The arguments of `enqueue_mail`. -/
structure MailRequest where
  template : String
  idempotencyKey : String
  accountId : Option ℕ
  toEmail : Option String
  locale : String
  deriving DecidableEq, Repr

/-- Why `enqueue_mail` raises. -/
inductive MailAbort
  | unknownMailTemplate (template : String)
  | accountNotFound (accountId : ℕ)
  | noAddress
  deriving DecidableEq, Repr

/-- Whom the mail goes to; `none` if it is not to be sent at all. -/
def recipient (accounts : Table ℕ MailAccount) (x : MailRequest) :
    Except MailAbort (Option (Option String)) :=
  match x.accountId with
  | none => .ok (some x.toEmail)
  | some accountId =>
    match accounts.get? accountId with
    | none => .error (.accountNotFound accountId)
    | some account =>
      if account.isActive = false then .ok none
      else if ∃ category ∈ mailCategory x.template, category ∈ account.switchedOff then .ok none
      else .ok (some (some account.email))

/-- The languages there are. -/
def mailLocale (locale : String) : String := if locale ∈ ["vi", "en"] then locale else "vi"

/-- Some row carries the key. -/
def keyStored (outbox : Table ℕ MailOutbox) (key : String) : Prop :=
  ∃ r ∈ outbox.rows, r.2.idempotencyKey = key

instance (outbox : Table ℕ MailOutbox) (key : String) : Decidable (keyStored outbox key) := by
  unfold keyStored
  infer_instance

/-- `INSERT … ON CONFLICT (idempotency_key) DO NOTHING`, under the number `id` of the sequence. -/
def insertMail (x : MailRequest) (toEmail : String) (id now : ℕ) (outbox : Table ℕ MailOutbox) :
    Table ℕ MailOutbox :=
  if keyStored outbox x.idempotencyKey then outbox
  else outbox.insert id
    { idempotencyKey := x.idempotencyKey
      template := x.template
      toEmail := toEmail
      accountId := x.accountId
      locale := mailLocale x.locale
      status := .pending
      attempts := 0
      lastError := none
      scheduledAt := now
      sentAt := none
      updatedAt := now }

/-- `enqueue_mail`: the outbox after it. -/
def enqueueMail (accounts : Table ℕ MailAccount) (x : MailRequest) (id now : ℕ)
    (outbox : Table ℕ MailOutbox) : Except MailAbort (Table ℕ MailOutbox) :=
  if x.template ∉ knownTemplates then .error (.unknownMailTemplate x.template)
  else
    match recipient accounts x with
    | .error e => .error e
    | .ok none => .ok outbox
    | .ok (some toEmail) =>
      match nonempty toEmail with
      | none => .error .noAddress
      | some toEmail => .ok (insertMail x toEmail id now outbox)

/-- No two rows carry the same key: the unique index. -/
def KeysUnique (outbox : Table ℕ MailOutbox) : Prop :=
  ∀ id id' v v', outbox.get? id = some v → outbox.get? id' = some v' →
    v.idempotencyKey = v'.idempotencyKey → id = id'

theorem keyStored_of_get? {outbox : Table ℕ MailOutbox} {id : ℕ} {v : MailOutbox}
    (h : outbox.get? id = some v) : keyStored outbox v.idempotencyKey :=
  ⟨(id, v), Table.get?_eq_some_iff.mp h, rfl⟩

/-- **What `enqueue_mail` does**: nothing, or one new row under a new key that waits to be sent. -/
theorem enqueueMail_cases {accounts : Table ℕ MailAccount} {x : MailRequest} {id now : ℕ}
    {outbox outbox' : Table ℕ MailOutbox} (h : enqueueMail accounts x id now outbox = .ok outbox') :
    outbox' = outbox ∨ ¬keyStored outbox x.idempotencyKey ∧ ∃ v : MailOutbox,
      outbox' = outbox.insert id v ∧ v.idempotencyKey = x.idempotencyKey ∧ v.status = .pending ∧
        v.attempts = 0 := by
  rw [enqueueMail] at h
  split_ifs at h
  rcases hto : recipient accounts x with e | toEmail
  · rw [hto] at h
    cases h
  · rcases toEmail with _ | toEmail
    · rw [hto] at h
      exact .inl (Except.ok.inj h).symm
    · rw [hto] at h
      dsimp only at h
      rcases hne : nonempty toEmail with _ | toEmail
      · rw [hne] at h
        cases h
      · rw [hne] at h
        rw [← Except.ok.inj h, insertMail]
        split_ifs with hkey
        · exact .inl rfl
        · exact .inr ⟨hkey, _, rfl, rfl, rfl, rfl⟩

/-- **A key that is stored adds no row.** -/
theorem enqueueMail_of_keyStored {accounts : Table ℕ MailAccount} {x : MailRequest} {id now : ℕ}
    {outbox outbox' : Table ℕ MailOutbox} (hkey : keyStored outbox x.idempotencyKey)
    (h : enqueueMail accounts x id now outbox = .ok outbox') : outbox' = outbox := by
  obtain h | ⟨hnot, -⟩ := enqueueMail_cases h
  · exact h
  · exact absurd hkey hnot

/-- The keys stay unique. -/
theorem KeysUnique.enqueueMail {accounts : Table ℕ MailAccount} {x : MailRequest} {id now : ℕ}
    {outbox outbox' : Table ℕ MailOutbox} (hu : KeysUnique outbox) (hid : outbox.get? id = none)
    (h : enqueueMail accounts x id now outbox = .ok outbox') : KeysUnique outbox' := by
  obtain rfl | ⟨hkey, v, rfl, hv, -, -⟩ := enqueueMail_cases h
  · exact hu
  · intro i j u u' hi hj heq
    rw [Table.get?_insert hid] at hi hj
    split_ifs at hi hj with h₁ h₂ h₂
    · exact h₁.trans h₂.symm
    · obtain rfl := Option.some.inj hi
      exact absurd (hv ▸ heq ▸ keyStored_of_get? hj) hkey
    · obtain rfl := Option.some.inj hj
      exact absurd (hv ▸ heq ▸ keyStored_of_get? hi) hkey
    · exact hu i j u u' hi hj heq

end Marketplace.Mail
