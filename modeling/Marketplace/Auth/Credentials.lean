import Marketplace.Auth.Sessions
import Marketplace.Sql.Play
import Marketplace.Sql.Rows

/-!
# What a reset of the password ends

The calls of `auth/sessions.py` and `auth/service.py` in any number of sessions. Once a reset of the
password has committed, what was obtained with the old password is to be refused; and a refresh token and
a reset token are good for one use.

Four commits break it (`old_credentials_survive`): a sign-in checks the password before a reset and opens
its session after it, or while the reset has read the sessions it revokes already; the second step of a
sign-in accepts an MFA token from before the reset, which nothing revokes; two resets read the same token
unused.
`AuthCall.Undisturbed` is the condition that excludes them, and `old_credentials_end` what holds of the runs
whose commits meet it.
-/

namespace Marketplace

open Sql

/-! ### The sessions -/

/-- The calls. -/
inductive AuthCall
  | login (a password : ℕ) (blocked mfaEnabled : Bool) (kind : LoginKind) (now lifetime nonce : ℕ)
      (drawn : Drawn)
  | completeMfaLogin (nonce : ℕ) (codeOk : Bool) (now lifetime : ℕ) (drawn : Drawn)
  | rotateRefresh (h now lifetime : ℕ) (drawn : Drawn)
  | requestPasswordReset (a t expiresAt : ℕ)
  | resetPassword (t newPassword now : ℕ)
  | changePassword (jti i a current newPassword now : ℕ)
  | setAccountActive (a : ℕ) (active : Bool) (now : ℕ)
  | revokeSession (i now : ℕ)

/-- What a session runs. -/
def AuthCall.code : AuthCall → AuthTx AuthReply
  | .login a password blocked mfaEnabled kind now lifetime nonce drawn =>
    Marketplace.login a password blocked mfaEnabled kind now lifetime nonce drawn
  | .completeMfaLogin nonce codeOk now lifetime drawn =>
    Marketplace.completeMfaLogin nonce codeOk now lifetime drawn
  | .rotateRefresh h now lifetime drawn => Marketplace.rotateRefresh h now lifetime drawn
  | .requestPasswordReset a t expiresAt => Marketplace.requestPasswordReset a t expiresAt
  | .resetPassword t newPassword now => Marketplace.resetPassword t newPassword now
  | .changePassword jti i a current newPassword now =>
    Marketplace.changePassword jti i a current newPassword now
  | .setAccountActive a active now => Marketplace.setAccountActive a active now
  | .revokeSession i now => Marketplace.revokeSession i now

/-- A sign-in to the account is asked for the second factor. -/
def AuthDb.asksCode (d : AuthDb) (a : ℕ) (mfaEnabled : Bool) : Prop :=
  ∃ v ∈ d.accounts.get? a, v.totpEnabled = true ∧ mfaEnabled = true

instance (d : AuthDb) (a : ℕ) (mfaEnabled : Bool) : Decidable (d.asksCode a mfaEnabled) := by
  unfold AuthDb.asksCode
  infer_instance

/-- A sign-in opens its session before the password it checked is reset, and the second step of one while the
password that was checked in the first is still the last; a reset commits while its token is unused, and
no session of the account has been opened since it read those it revokes. -/
def AuthCall.Undisturbed : AuthCall → List AuthDb → AuthDb → Prop
  | .login a _ _ mfaEnabled _ _ _ _ _, seen, d =>
    ∀ s ∈ seen.getLast?, s.asksCode a mfaEnabled ∨ s.resets a = d.resets a
  | .completeMfaLogin nonce _ _ _ _, _, d =>
    ∀ c ∈ d.challenges.get? nonce, c.resetsThen = d.resets c.accountId
  | .resetPassword t _ _, seen, d =>
    ∀ r ∈ d.resetTokens.get? t, r.usedAt = none ∧
      ∀ s ∈ seen, s.resets r.accountId = d.resets r.accountId + 1 →
        ∀ x ∈ d.liveSessions r.accountId, (s.sessions.get? x.1).isSome = true
  | _, _, _ => True

instance decidableAuthUndisturbed (c : AuthCall) (seen : List AuthDb) (d : AuthDb) :
    Decidable (c.Undisturbed seen d) := by
  cases c <;> unfold AuthCall.Undisturbed <;> infer_instance

/-- The sessions, in the runs in which no commit is overtaken. -/
def authMachine : Machine AuthDb AuthKey Abort AuthReply AuthCall := ⟨AuthCall.code, AuthCall.Undisturbed⟩

/-! ### What holds of the tables -/

/-- The session was opened with the password as it was last reset. -/
def AuthDb.SessionCurrent (d : AuthDb) (i : ℕ) : Prop :=
  ∃ s, d.sessions.get? i = some s ∧ s.resetsThen = d.resets s.accountId

/-- The refresh token was used. -/
def AuthDb.TokenUsed (d : AuthDb) (h : ℕ) : Prop :=
  ∃ r, d.refreshTokens.get? h = some r ∧ r.usedAt ≠ none

/-- The reset token was used. -/
def AuthDb.ResetTokenUsed (d : AuthDb) (t : ℕ) : Prop :=
  ∃ r, d.resetTokens.get? t = some r ∧ r.usedAt ≠ none

/-- What is good for one use. -/
inductive OneTime
  | refresh (h : ℕ)
  | reset (t : ℕ)
  deriving DecidableEq

/-- It was used. -/
def AuthDb.Used (d : AuthDb) : OneTime → Prop
  | .refresh h => d.TokenUsed h
  | .reset t => d.ResetTokenUsed t

/-- The call, which had this answer, used it. -/
def AuthCall.Redeems : AuthCall → AuthReply → OneTime → Prop
  | .rotateRefresh h _ _ _, .issued _, k => k = .refresh h
  | .resetPassword t _ _, _, k => k = .reset t
  | _, _, _ => False

/-- The family has no live session. -/
def AuthDb.FamilyEnded (d : AuthDb) (f : ℕ) : Prop :=
  ∀ i s, d.sessions.get? i = some s → s.familyId = f → s.revokedAt ≠ none

/-- Nobody has signed in yet. -/
def AuthDb.Unused (d : AuthDb) : Prop := d.sessions = .empty ∧ d.refreshTokens = .empty

/-- What holds of the tables at any time. -/
structure AuthInv (d : AuthDb) : Prop where
  /-- A live session is current. -/
  live : ∀ i s, d.sessions.get? i = some s → s.revokedAt = none → s.resetsThen = d.resets s.accountId
  /-- A family is a session. -/
  family : ∀ i j s t, d.sessions.get? i = some s → d.sessions.get? j = some t →
    s.familyId = t.familyId → i = j
  /-- A refresh token is of its session's family. -/
  token : ∀ h r, d.refreshTokens.get? h = some r →
    ∃ s, d.sessions.get? r.sessionId = some s ∧ s.familyId = r.familyId

theorem AuthDb.Unused.inv {d : AuthDb} (h : d.Unused) : AuthInv d := by
  obtain ⟨hs, ht⟩ := h
  refine ⟨fun i s hi => ?_, fun i _ s _ hi => ?_, fun h r hr => ?_⟩
  · rw [hs, Table.get?_empty] at hi
    cases hi
  · rw [hs, Table.get?_empty] at hi
    cases hi
  · rw [ht, Table.get?_empty] at hr
    cases hr

/-! ### What the rows protect -/

/-- A session stays what it is, and a revoked one revoked. -/
structure SessionAges (s s' : AuthSession) : Prop where
  accountId : s'.accountId = s.accountId
  familyId : s'.familyId = s.familyId
  resetsThen : s'.resetsThen = s.resetsThen
  revokedAt : s.revokedAt ≠ none → s'.revokedAt ≠ none

/-- A refresh token stays what it is, and a used one used. -/
structure TokenAges (r r' : AuthRefreshToken) : Prop where
  sessionId : r'.sessionId = r.sessionId
  familyId : r'.familyId = r.familyId
  usedAt : r.usedAt ≠ none → r'.usedAt ≠ none

theorem SessionAges.refl (s : AuthSession) : SessionAges s s := ⟨rfl, rfl, rfl, id⟩

theorem SessionAges.trans {s s' s'' : AuthSession} (h : SessionAges s s') (h' : SessionAges s' s'') :
    SessionAges s s'' :=
  ⟨h'.accountId.trans h.accountId, h'.familyId.trans h.familyId, h'.resetsThen.trans h.resetsThen,
    fun hs => h'.revokedAt (h.revokedAt hs)⟩

theorem TokenAges.refl (r : AuthRefreshToken) : TokenAges r r := ⟨rfl, rfl, id⟩

theorem TokenAges.trans {r r' r'' : AuthRefreshToken} (h : TokenAges r r') (h' : TokenAges r' r'') :
    TokenAges r r'' :=
  ⟨h'.sessionId.trans h.sessionId, h'.familyId.trans h.familyId, fun hr => h'.usedAt (h.usedAt hr)⟩

/-- What every commit leaves. -/
structure AuthAges (d d' : AuthDb) : Prop where
  sessions : ∀ i s, d.sessions.get? i = some s → ∃ s', d'.sessions.get? i = some s' ∧ SessionAges s s'
  tokens : ∀ h r, d.refreshTokens.get? h = some r →
    ∃ r', d'.refreshTokens.get? h = some r' ∧ TokenAges r r'
  resetTokens : ∀ t, d.ResetTokenUsed t → d'.ResetTokenUsed t
  challenges : ∀ n c, d.challenges.get? n = some c → d'.challenges.get? n = some c

theorem AuthAges.refl (d : AuthDb) : AuthAges d d :=
  ⟨fun _ s h => ⟨s, h, .refl s⟩, fun _ r h => ⟨r, h, .refl r⟩, fun _ => id, fun _ _ => id⟩

theorem AuthAges.trans {d d' d'' : AuthDb} (h : AuthAges d d') (h' : AuthAges d' d'') :
    AuthAges d d'' := by
  refine ⟨fun i s hs => ?_, fun k r hr => ?_, fun t ht => h'.resetTokens t (h.resetTokens t ht),
    fun n c hc => h'.challenges n c (h.challenges n c hc)⟩
  · obtain ⟨s', hs', hages⟩ := h.sessions i s hs
    obtain ⟨s'', hs'', hages'⟩ := h'.sessions i s' hs'
    exact ⟨s'', hs'', hages.trans hages'⟩
  · obtain ⟨r', hr', hages⟩ := h.tokens k r hr
    obtain ⟨r'', hr'', hages'⟩ := h'.tokens k r' hr'
    exact ⟨r'', hr'', hages.trans hages'⟩

/-- The row is left alone. Of an account this is how often its password was reset, of a family that it
gains no session. -/
def AuthKey.same : AuthKey → AuthDb → AuthDb → Prop
  | .account a, d, d' => d'.resets a = d.resets a
  | .session i, d, d' => d'.sessions.get? i = d.sessions.get? i
  | .family f, d, d' => ∀ i s', d'.sessions.get? i = some s' → s'.familyId = f →
    ∃ s, d.sessions.get? i = some s ∧ s.familyId = f
  | .refresh h, d, d' => d'.refreshTokens.get? h = d.refreshTokens.get? h
  | .resetToken t, d, d' => d'.resetTokens.get? t = d.resetTokens.get? t
  | .challenge n, d, d' => d'.challenges.get? n = d.challenges.get? n

/-- The rows of the tables. -/
def authView : RowView AuthDb AuthKey where
  ages := AuthAges
  same := AuthKey.same
  ages_refl := AuthAges.refl
  ages_trans := AuthAges.trans
  same_refl k d := by
    cases k with
    | family f => exact fun i s h hf => ⟨s, h, hf⟩
    | account | session | refresh | resetToken | challenge => rfl
  same_trans {k d d' d''} h h' := by
    cases k with
    | family f =>
      intro i s hs hf
      obtain ⟨s', hs', hf'⟩ := h' i s hs hf
      exact h i s' hs' hf'
    | account | session | refresh | resetToken | challenge => exact Eq.trans h' h

/-! ### What the writes do -/

section Writes

variable {L : List AuthKey}

/-- A change to a session or a token that ages it, or to an account. -/
structure AuthQuiet (f : AuthDb → AuthDb) : Prop where
  sessions : ∀ d : AuthDb, d.sessions.Aged SessionAges (f d).sessions
  tokens : ∀ d : AuthDb, d.refreshTokens.Aged TokenAges (f d).refreshTokens
  resets : ∀ d, (f d).resets = d.resets

/-- A change to rows that are held, by which no session begins. -/
def AuthRevokes (L : List AuthKey) (f : AuthDb → AuthDb) : Prop := authView.Moves L f ∧ AuthQuiet f

theorem AuthQuiet.id : AuthQuiet id :=
  ⟨fun _ => .refl .refl _, fun _ => .refl .refl _, fun _ => rfl⟩

theorem AuthQuiet.comp {f g : AuthDb → AuthDb} (hf : AuthQuiet f) (hg : AuthQuiet g) :
    AuthQuiet fun d => g (f d) :=
  ⟨fun d => (hf.sessions d).trans SessionAges.trans (hg.sessions (f d)),
    fun d => (hf.tokens d).trans TokenAges.trans (hg.tokens (f d)),
    fun d => (hg.resets (f d)).trans (hf.resets d)⟩

theorem authRevokes_discipline : Discipline AuthRevokes :=
  authView.discipline.and ⟨fun _ => AuthQuiet.id, AuthQuiet.comp, fun _ h => h⟩

/-- **The invariant survives a quiet change.** -/
theorem AuthQuiet.inv {f : AuthDb → AuthDb} (hf : AuthQuiet f) {d : AuthDb} (h : AuthInv d) :
    AuthInv (f d) := by
  refine ⟨fun i s' hs' hlive => ?_, fun i j s' t' hs' ht' heq => ?_, fun k r' hr' => ?_⟩
  · obtain ⟨s, hs, hages⟩ := (hf.sessions d).earlier hs'
    have hbefore : s.revokedAt = none := by
      by_contra hne
      exact hages.revokedAt hne hlive
    rw [hf.resets, hages.resetsThen, hages.accountId]
    exact h.live i s hs hbefore
  · obtain ⟨s, hs, hages⟩ := (hf.sessions d).earlier hs'
    obtain ⟨t, ht, hages'⟩ := (hf.sessions d).earlier ht'
    exact h.family i j s t hs ht (by rw [← hages.familyId, heq, hages'.familyId])
  · obtain ⟨r, hr, hages⟩ := (hf.tokens d).earlier hr'
    obtain ⟨s, hs, hfam⟩ := h.token k r hr
    obtain ⟨s', hs', hages'⟩ := (hf.sessions d).later hs
    exact ⟨s', hages.sessionId ▸ hs', by rw [hages'.familyId, hfam, hages.familyId]⟩

theorem revokes_modifySession {i : ℕ} (hi : .session i ∈ L) {f : AuthSession → AuthSession}
    (hf : ∀ s, SessionAges s (f s)) : AuthRevokes L (AuthDb.modifySession i f) := by
  have haged : ∀ d : AuthDb, d.sessions.Aged SessionAges (AuthDb.modifySession i f d).sessions :=
    fun d => .modify .refl hf d.sessions i
  refine ⟨fun d => ⟨⟨fun _ _ hs => (haged d).later hs, (AuthAges.refl d).tokens,
    fun _ => id, fun _ _ => id⟩, fun k hk => ?_⟩, haged, fun _ => .refl .refl _, fun _ => rfl⟩
  cases k with
  | session j =>
    have hne : j ≠ i := fun h => hk (h ▸ hi)
    exact Table.get?_modify_of_ne d.sessions hne f
  | family g =>
    intro j s' hs' hg
    obtain ⟨s, hs, hages⟩ := (haged d).earlier hs'
    exact ⟨s, hs, hages.familyId ▸ hg⟩
  | account | refresh | resetToken | challenge => rfl

theorem revokes_modifyRefreshToken {h : ℕ} (hh : .refresh h ∈ L)
    {f : AuthRefreshToken → AuthRefreshToken} (hf : ∀ r, TokenAges r (f r)) :
    AuthRevokes L (AuthDb.modifyRefreshToken h f) := by
  have haged : ∀ d : AuthDb,
      d.refreshTokens.Aged TokenAges (AuthDb.modifyRefreshToken h f d).refreshTokens :=
    fun d => .modify .refl hf d.refreshTokens h
  refine ⟨fun d => ⟨⟨(AuthAges.refl d).sessions, fun _ _ hr => (haged d).later hr,
    fun _ => id, fun _ _ => id⟩, fun k hk => ?_⟩, fun _ => .refl .refl _, haged, fun _ => rfl⟩
  cases k with
  | refresh k =>
    have hne : k ≠ h := fun hkh => hk (hkh ▸ hh)
    exact Table.get?_modify_of_ne d.refreshTokens hne f
  | family g => exact authView.same_refl (.family g) d
  | account | session | resetToken | challenge => rfl

/-- A change to the accounts, the reset tokens or the challenges. -/
theorem revokes_of_same {f : AuthDb → AuthDb} (hsessions : ∀ d, (f d).sessions = d.sessions)
    (htokens : ∀ d, (f d).refreshTokens = d.refreshTokens) (hresets : ∀ d, (f d).resets = d.resets)
    (hused : ∀ d t, d.ResetTokenUsed t → (f d).ResetTokenUsed t)
    (hreset : ∀ d t, .resetToken t ∉ L → (f d).resetTokens.get? t = d.resetTokens.get? t)
    (hold : ∀ d n c, d.challenges.get? n = some c → (f d).challenges.get? n = some c)
    (hchallenge : ∀ d n, .challenge n ∉ L → (f d).challenges.get? n = d.challenges.get? n) :
    AuthRevokes L f := by
  refine ⟨fun d => ⟨⟨fun i s hs => ⟨s, by rw [hsessions, hs], .refl s⟩,
    fun k r hr => ⟨r, by rw [htokens, hr], .refl r⟩, hused d, hold d⟩, fun k hk => ?_⟩,
    fun d => ?_, fun d => ?_, hresets⟩
  · cases k with
    | account a => exact congrFun (hresets d) a
    | session i => exact congrArg (Table.get? · i) (hsessions d)
    | family g =>
      intro i s hs hg
      exact ⟨s, by rw [← hsessions, hs], hg⟩
    | refresh h => exact congrArg (Table.get? · h) (htokens d)
    | resetToken t => exact hreset d t hk
    | challenge n => exact hchallenge d n hk
  · rw [hsessions]
    exact .refl .refl _
  · rw [htokens]
    exact .refl .refl _

theorem revokes_modifyAccount (a : ℕ) (f : AuthAccount → AuthAccount) :
    AuthRevokes L (AuthDb.modifyAccount a f) :=
  revokes_of_same (fun _ => rfl) (fun _ => rfl) (fun _ => rfl) (fun _ _ => id) (fun _ _ _ => rfl)
    (fun _ _ _ => id) fun _ _ _ => rfl

theorem revokes_insertChallenge {n : ℕ} (hn : .challenge n ∈ L) (c : MfaChallenge) :
    AuthRevokes L (AuthDb.insertChallenge n c) := by
  refine revokes_of_same (fun _ => rfl) (fun _ => rfl) (fun _ => rfl) (fun _ _ => id) (fun _ _ _ => rfl)
    (fun d m e he => ?_) fun d m hm => ?_
  · rw [AuthDb.insertChallenge_challenges, Table.get?_insert_eq]
    split_ifs with hmn
    · rw [← hmn, he, Option.getD_some]
    · exact he
  · exact Table.get?_insert_of_ne (fun h : m = n => hm (h ▸ hn)) c

theorem revokes_modifyResetToken {t : ℕ} (ht : .resetToken t ∈ L) (now : ℕ) :
    AuthRevokes L (AuthDb.modifyResetToken t fun r => { r with usedAt := some now }) := by
  refine revokes_of_same (fun _ => rfl) (fun _ => rfl) (fun _ => rfl) (fun d u hu => ?_) (fun d u hu => ?_)
    (fun _ _ _ => id) fun _ _ _ => rfl
  · obtain ⟨r, hr, hused⟩ := hu
    rw [AuthDb.ResetTokenUsed, AuthDb.modifyResetToken_resetTokens, Table.get?_modify]
    split_ifs
    · exact ⟨_, by rw [hr, Option.map_some], Option.some_ne_none now⟩
    · exact ⟨r, hr, hused⟩
  · exact Table.get?_modify_of_ne d.resetTokens (fun h : u = t => hu (h ▸ ht)) _

theorem revokes_eraseResetToken {t : ℕ} (ht : .resetToken t ∈ L) :
    AuthRevokes L (AuthDb.eraseResetToken t) := by
  refine revokes_of_same (fun _ => rfl) (fun _ => rfl) (fun _ => rfl) (fun d u hu => ?_) (fun d u hu => ?_)
    (fun _ _ _ => id) fun _ _ _ => rfl
  · obtain ⟨r, hr, hused⟩ := hu
    refine ⟨r, ?_, hused⟩
    rw [AuthDb.eraseResetToken_resetTokens]
    split_ifs with hdrop
    · obtain ⟨r', hr', hunused⟩ := hdrop
      have hne : u ≠ t := by
        rintro rfl
        obtain rfl := Option.some.inj (hr.symm.trans hr')
        exact hused hunused
      rw [Table.get?_erase, if_neg hne, hr]
    · exact hr
  · have hne : u ≠ t := fun h => hu (h ▸ ht)
    rw [AuthDb.eraseResetToken_resetTokens]
    split_ifs
    · rw [Table.get?_erase, if_neg hne]
    · rfl

theorem revokes_insertResetToken {t : ℕ} (ht : .resetToken t ∈ L) (r : PasswordResetToken) :
    AuthRevokes L (AuthDb.insertResetToken t r) := by
  refine revokes_of_same (fun _ => rfl) (fun _ => rfl) (fun _ => rfl) (fun d u hu => ?_) (fun d u hu => ?_)
    (fun _ _ _ => id) fun _ _ _ => rfl
  · obtain ⟨r', hr', hused⟩ := hu
    refine ⟨r', ?_, hused⟩
    rw [AuthDb.insertResetToken_resetTokens, Table.get?_insert_eq]
    split_ifs with hut
    · rw [← hut, hr', Option.getD_some]
    · exact hr'
  · exact Table.get?_insert_of_ne (fun h : u = t => hu (h ▸ ht)) r

theorem moves_insertSession {i : ℕ} {s : AuthSession} (hi : .session i ∈ L)
    (hf : .family s.familyId ∈ L) : authView.Moves L (AuthDb.insertSession i s) := by
  refine fun d => ⟨⟨fun j t ht => ⟨t, ?_, .refl t⟩, (AuthAges.refl d).tokens, fun _ => id,
    fun _ _ => id⟩, fun k hk => ?_⟩
  · rw [AuthDb.insertSession_sessions, Table.get?_insert_eq]
    split_ifs with hji
    · rw [← hji, ht, Option.getD_some]
    · exact ht
  · cases k with
    | session j => exact Table.get?_insert_of_ne (fun h : j = i => hk (h ▸ hi)) s
    | family g =>
      intro j t ht hg
      rw [AuthDb.insertSession_sessions, Table.get?_insert_eq] at ht
      split_ifs at ht with hji
      · rcases hold : d.sessions.get? i with _ | u
        · rw [hold, Option.getD_none, Option.some.injEq] at ht
          exact absurd (hg ▸ ht ▸ hf) hk
        · rw [hold, Option.getD_some] at ht
          exact ⟨t, hji ▸ hold.trans ht, hg⟩
      · exact ⟨t, ht, hg⟩
    | account | refresh | resetToken | challenge => rfl

theorem moves_insertRefreshToken {h : ℕ} (hh : .refresh h ∈ L) (r : AuthRefreshToken) :
    authView.Moves L (AuthDb.insertRefreshToken h r) := by
  refine fun d => ⟨⟨(AuthAges.refl d).sessions, fun k u hu => ⟨u, ?_, .refl u⟩, fun _ => id,
    fun _ _ => id⟩, fun k hk => ?_⟩
  · rw [AuthDb.insertRefreshToken_refreshTokens, Table.get?_insert_eq]
    split_ifs with hkh
    · rw [← hkh, hu, Option.getD_some]
    · exact hu
  · cases k with
    | refresh k => exact Table.get?_insert_of_ne (fun hkh : k = h => hk (hkh ▸ hh)) r
    | family g => exact authView.same_refl (.family g) d
    | account | session | resetToken | challenge => rfl

theorem moves_addReset {a : ℕ} (ha : .account a ∈ L) : authView.Moves L (AuthDb.addReset a) := by
  refine fun d => ⟨⟨(AuthAges.refl d).sessions, (AuthAges.refl d).tokens, fun _ => id, fun _ _ => id⟩,
    fun k hk => ?_⟩
  cases k with
  | account b =>
    have hne : b ≠ a := fun h => hk (h ▸ ha)
    exact Function.update_of_ne hne _ _
  | family g => exact authView.same_refl (.family g) d
  | session | refresh | resetToken | challenge => rfl

/-- **A session that is opened with the current password.** -/
theorem AuthInv.insertSession {d : AuthDb} (h : AuthInv d) {i : ℕ} {s : AuthSession}
    (hi : d.sessions.get? i = none) (hf : ∀ j t, d.sessions.get? j = some t → t.familyId ≠ s.familyId)
    (hcurrent : s.resetsThen = d.resets s.accountId) : AuthInv (AuthDb.insertSession i s d) := by
  have hget : ∀ j t, (AuthDb.insertSession i s d).sessions.get? j = some t →
      j = i ∧ t = s ∨ d.sessions.get? j = some t := by
    intro j t ht
    rw [AuthDb.insertSession_sessions, Table.get?_insert hi] at ht
    split_ifs at ht with hji
    · exact Or.inl ⟨hji, (Option.some.inj ht).symm⟩
    · exact Or.inr ht
  refine ⟨fun j t ht hlive => ?_, fun j k t u ht hu heq => ?_, fun k r hr => ?_⟩
  · obtain ⟨rfl, rfl⟩ | hold := hget j t ht
    · exact hcurrent
    · exact h.live j t hold hlive
  · obtain ⟨rfl, rfl⟩ | hold := hget j t ht
    · obtain ⟨rfl, rfl⟩ | hold' := hget k u hu
      · rfl
      · exact absurd heq.symm (hf k u hold')
    · obtain ⟨rfl, rfl⟩ | hold' := hget k u hu
      · exact absurd heq (hf j t hold)
      · exact h.family j k t u hold hold' heq
  · obtain ⟨t, ht, hfam⟩ := h.token k r hr
    refine ⟨t, ?_, hfam⟩
    have hne : r.sessionId ≠ i := fun heq => by simp [heq, hi] at ht
    rw [AuthDb.insertSession_sessions, Table.get?_insert_of_ne hne, ht]

/-- **A refresh token for a session.** -/
theorem AuthInv.insertRefreshToken {d : AuthDb} (h : AuthInv d) {k : ℕ} {r : AuthRefreshToken}
    (hr : ∃ s, d.sessions.get? r.sessionId = some s ∧ s.familyId = r.familyId) :
    AuthInv (AuthDb.insertRefreshToken k r d) := by
  refine ⟨h.live, h.family, fun j u hu => ?_⟩
  rw [AuthDb.insertRefreshToken_refreshTokens, Table.get?_insert_eq] at hu
  split_ifs at hu
  · rcases hold : d.refreshTokens.get? k with _ | v
    · rw [hold, Option.getD_none, Option.some.injEq] at hu
      exact hu ▸ hr
    · rw [hold, Option.getD_some, Option.some.injEq] at hu
      exact hu ▸ h.token k v hold
  · exact h.token j u hu

end Writes

/-! ### What the calls owe -/

/-- What a commit does. -/
structure AuthPost (c : AuthCall) (r : AuthReply) (d d' : AuthDb) : Prop where
  ages : AuthAges d d'
  /-- A session that is opened or refreshed is current. -/
  issued : ∀ i, r = .issued i → d'.SessionCurrent i
  /-- What is used was not used before. -/
  redeems : ∀ k, c.Redeems r k → ¬d.Used k ∧ d'.Used k
  /-- A used token ends its family. -/
  reused : ∀ h now lifetime drawn, c = .rotateRefresh h now lifetime drawn → r = .reused →
    ∃ row, d.refreshTokens.get? h = some row ∧ row.usedAt ≠ none ∧ d'.FamilyEnded row.familyId
  /-- A reset is one. -/
  reset : ∀ t password now, c = .resetPassword t password now →
    ∃ row, d.resetTokens.get? t = some row ∧ d'.resets row.accountId = d.resets row.accountId + 1

/-- What a call owes when it commits. -/
def authOwes (c : AuthCall) :
    AuthReply → (AuthDb → AuthDb) → List AuthKey → List AuthDb → AuthDb → Prop :=
  Commits authView.rely AuthInv authMachine AuthPost c

section Parts

variable {R : Rely AuthDb AuthKey} {I : AuthDb → Prop} {w : AuthDb → AuthDb} {L : List AuthKey}
  {s : List AuthDb} {d : AuthDb}

theorem wp_draw {k : AuthKey} {taken : AuthDb → Bool}
    {Q : Unit → (AuthDb → AuthDb) → List AuthKey → List AuthDb → AuthDb → Prop} :
    (draw k taken).wp R I Q w L s d ↔ ∀ d', R.rel L d d' → I d' → taken (w d') = false →
      Q () w (k :: L) (w d' :: s) d' := by
  simp only [draw, Tx.wp_bind, Tx.wp_lock, Tx.wp_require]

theorem writesUnder_draw_bind {β : Type} {P : List AuthKey → (AuthDb → AuthDb) → Prop} {k : AuthKey}
    {taken : AuthDb → Bool} {f : Unit → AuthTx β} (h : (f ()).WritesUnder P (k :: L)) :
    (draw k taken >>= f).WritesUnder P L := by
  change (Tx.lock k taken >>= fun used => Tx.require (used = false) .integrity >>= f).WritesUnder P L
  refine Tx.writesUnder_lock_bind fun used => ?_
  rw [Tx.require]
  split_ifs
  · exact h
  · exact trivial

theorem ages_revoked (now : ℕ) (s : AuthSession) : SessionAges s { s with revokedAt := some now } :=
  ⟨rfl, rfl, rfl, fun _ => Option.some_ne_none now⟩

theorem ages_used (now : ℕ) (r : AuthRefreshToken) : TokenAges r { r with usedAt := some now } :=
  ⟨rfl, rfl, fun _ => Option.some_ne_none now⟩

/-- The sessions are revoked. -/
def EndsSessions (ids : List ℕ) (f : AuthDb → AuthDb) : Prop :=
  ∀ d i s, i ∈ ids → (f d).sessions.get? i = some s → s.revokedAt ≠ none

theorem EndsSessions.comp {ids : List ℕ} {f g : AuthDb → AuthDb} (hf : EndsSessions ids f)
    (hg : AuthQuiet g) : EndsSessions ids fun d => g (f d) := by
  intro d i s' hi hs'
  obtain ⟨s, hs, hages⟩ := (hg.sessions (f d)).earlier hs'
  exact hages.revokedAt (hf d i s hi hs)

theorem wp_revokeRows (ids : List ℕ) (now : ℕ) :
    (revokeRows ids now).wp R I (fun _ w' L' s' d' => ∃ g, AuthRevokes L' g ∧ EndsSessions ids g ∧
      (w' = fun d => g (w d)) ∧ L ⊆ L' ∧ s <:+ s' ∧ R.rel L d d') w L s d := by
  induction ids generalizing w L s d with
  | nil =>
    exact ⟨id, authRevokes_discipline.id L, fun _ _ _ hi => absurd hi List.not_mem_nil, rfl,
      List.Subset.refl L, List.suffix_refl s, R.refl L d⟩
  | cons i ids ih =>
    change (Tx.lock (.session i) (fun d => d.sessions.get? i) >>= fun _ =>
      Tx.modify (AuthDb.modifySession i fun s => { s with revokedAt := some now }) >>= fun _ =>
        revokeRows ids now).wp _ _ _ _ _ _ _
    rw [Tx.wp_bind, Tx.wp_lock]
    intro d₁ hd₁ _
    rw [Tx.wp_bind, Tx.wp_modify]
    refine Tx.wp_mono ih ?_
    rintro _ w' L' s' d' ⟨g, hg, hends, rfl, hL, hs, hd'⟩
    have hi : AuthKey.session i ∈ L' := hL List.mem_cons_self
    have hone : AuthRevokes L' (AuthDb.modifySession i fun s => { s with revokedAt := some now }) :=
      revokes_modifySession hi (ages_revoked now)
    refine ⟨_, authRevokes_discipline.comp hone hg, ?_, rfl, List.Subset.trans
      (List.subset_cons_self _ _) hL, (List.suffix_cons _ _).trans hs,
      R.trans hd₁ (R.anti (List.subset_cons_self _ _) hd')⟩
    intro e j s' hj hs'
    rcases List.mem_cons.mp hj with rfl | hj
    · obtain ⟨t, ht, hages⟩ := (hg.2.sessions _).earlier hs'
      refine hages.revokedAt ?_
      rw [AuthDb.modifySession_sessions, Table.get?_modify_self, Option.map_eq_some_iff] at ht
      obtain ⟨u, -, rfl⟩ := ht
      exact Option.some_ne_none now
    · exact hends _ j s' hj hs'

theorem writesUnder_revokeRows (ids : List ℕ) (now : ℕ) :
    (revokeRows ids now).WritesUnder AuthRevokes L :=
  Tx.writesUnder_forEach fun _ _ _ _ => Tx.writesUnder_lock_bind fun _ =>
    Tx.writesUnder_modify.mpr (revokes_modifySession List.mem_cons_self (ages_revoked now))

theorem writesUnder_useTokens (families : List ℕ) (now : ℕ) :
    (useTokens families now).WritesUnder AuthRevokes L := by
  refine Tx.writesUnder_stmt_bind fun d => ?_
  refine Tx.writesUnder_forEach fun h hh L' hL' => Tx.writesUnder_modify.mpr ?_
  exact revokes_modifyRefreshToken
    (hL' (List.mem_append_left _ (List.mem_map_of_mem hh))) (ages_used now)

theorem writesUnder_revokeAllSessions (a : ℕ) (keep : Option ℕ) (now : ℕ) :
    (revokeAllSessions a keep now).WritesUnder AuthRevokes L :=
  .bind (Tx.writesUnder_read _) fun _ _ _ => .bind (writesUnder_revokeRows _ _) fun _ _ _ =>
    writesUnder_useTokens _ _

theorem writesUnder_dropResetTokens (a : ℕ) (but : Option ℕ) :
    (dropResetTokens a but).WritesUnder AuthRevokes L := by
  refine Tx.writesUnder_stmt_bind fun d => ?_
  refine Tx.writesUnder_forEach fun t ht L' hL' => Tx.writesUnder_modify.mpr ?_
  exact revokes_eraseResetToken (hL' (List.mem_append_left _ (List.mem_map_of_mem ht)))

end Parts

/-! ### Every call owes it -/

section Owes

variable {c : AuthCall} {w : AuthDb → AuthDb} {L : List AuthKey} {s : List AuthDb} {d : AuthDb}

/-- The calls that open no session and use nothing once. -/
def AuthCall.Plain : AuthCall → Prop
  | .rotateRefresh .. | .resetPassword .. | .completeMfaLogin .. => False
  | _ => True

theorem owes_plain (hc : c.Plain) {r : AuthReply} (hr : ∀ i, r ≠ .issued i) (hw : AuthRevokes L w) :
    authOwes c r w L s d := by
  refine fun d' _ hinv _ => ⟨hw.2.inv hinv, ⟨(hw.1 d').1, fun i hi => absurd hi (hr i), ?_, ?_, ?_⟩,
    fun L' hL' => hw.1.guar hL' d'⟩
  · intro k hk
    cases c with
    | rotateRefresh | resetPassword => exact hc.elim
    | _ => exact hk.elim
  · rintro h now lifetime drawn rfl
    exact hc.elim
  · rintro t password now rfl
    exact hc.elim

variable (c) in
/-- A call that only revokes. -/
theorem wp_plain (hc : c.Plain) {t : AuthTx AuthReply} (ht : t.WritesUnder AuthRevokes L)
    (hr : t.Returns fun r => ∀ i, r ≠ .issued i) :
    t.wp authView.rely AuthInv (authOwes c) id L s d := by
  refine Tx.wp_mono (Tx.wp_and (Tx.wp_returns hr) (Tx.wp_writesUnder authRevokes_discipline ht)) ?_
  rintro r w' L' s' d' ⟨hr, g, hg, rfl, -⟩
  exact owes_plain hc hr hg

theorem setAccountActive_owes (a : ℕ) (active : Bool) (now : ℕ) :
    (setAccountActive a active now).wp authView.rely AuthInv (authOwes (.setAccountActive a active now))
      id [] [] d := by
  refine wp_plain (.setAccountActive a active now) trivial ?_ ?_
  · refine Tx.writesUnder_lock_bind fun account => .bind (Tx.writesUnder_getOrElse _ _) fun v L hL => ?_
    refine .bind (Tx.writesUnder_require _ _) fun _ _ _ => ?_
    refine .bind (Tx.writesUnder_modify.mpr (revokes_modifyAccount a _)) fun _ _ _ => ?_
    exact .bind (Tx.writesUnder_when fun _ => writesUnder_revokeAllSessions a none now) fun _ _ _ =>
      Tx.writesUnder_pure _
  · exact Tx.returns_bind fun _ => Tx.returns_bind fun _ => Tx.returns_bind fun _ =>
      Tx.returns_bind fun _ => Tx.returns_bind fun _ => Tx.returns_pure fun _ => AuthReply.noConfusion

theorem changePassword_owes (jti i a current newPassword now : ℕ) :
    (changePassword jti i a current newPassword now).wp authView.rely AuthInv
      (authOwes (.changePassword jti i a current newPassword now)) id [] [] d := by
  refine wp_plain (.changePassword jti i a current newPassword now) trivial ?_ ?_
  · refine .bind (Tx.writesUnder_read _) fun _ _ _ => .bind (Tx.writesUnder_require _ _) fun _ _ _ => ?_
    refine .bind (Tx.writesUnder_read _) fun _ _ _ => .bind (Tx.writesUnder_require _ _) fun _ _ _ => ?_
    refine .bind (Tx.writesUnder_require _ _) fun _ _ _ => Tx.writesUnder_lock_bind fun _ => ?_
    refine .bind (Tx.writesUnder_modify.mpr (revokes_modifyAccount a _)) fun _ _ _ => ?_
    exact .bind (writesUnder_revokeAllSessions a (some i) now) fun _ _ _ => Tx.writesUnder_pure _
  · exact Tx.returns_bind fun _ => Tx.returns_bind fun _ => Tx.returns_bind fun _ =>
      Tx.returns_bind fun _ => Tx.returns_bind fun _ => Tx.returns_bind fun _ =>
        Tx.returns_bind fun _ => Tx.returns_bind fun _ => Tx.returns_pure fun _ => AuthReply.noConfusion

theorem revokeSession_owes (i now : ℕ) :
    (revokeSession i now).wp authView.rely AuthInv (authOwes (.revokeSession i now)) id [] [] d := by
  refine wp_plain (.revokeSession i now) trivial ?_ ?_
  · refine .bind (Tx.writesUnder_read _) fun _ _ _ => .bind (Tx.writesUnder_getOrElse _ _) fun _ _ _ => ?_
    refine .bind (Tx.writesUnder_when fun _ => writesUnder_revokeRows [i] now) fun _ _ _ => ?_
    exact .bind (writesUnder_useTokens _ now) fun _ _ _ => Tx.writesUnder_pure _
  · exact Tx.returns_bind fun _ => Tx.returns_bind fun _ => Tx.returns_bind fun _ =>
      Tx.returns_bind fun _ => Tx.returns_pure fun _ => AuthReply.noConfusion

theorem requestPasswordReset_owes (a t expiresAt : ℕ) :
    (requestPasswordReset a t expiresAt).wp authView.rely AuthInv
      (authOwes (.requestPasswordReset a t expiresAt)) id [] [] d := by
  refine wp_plain (.requestPasswordReset a t expiresAt) trivial ?_ ?_
  · refine .bind (Tx.writesUnder_read _) fun _ _ _ => .bind (Tx.writesUnder_when fun _ => ?_) fun _ _ _ =>
      Tx.writesUnder_pure _
    refine .bind (writesUnder_dropResetTokens a none) fun _ L hL => ?_
    exact writesUnder_draw_bind (Tx.writesUnder_modify.mpr (revokes_insertResetToken List.mem_cons_self _))
  · exact Tx.returns_bind fun _ => Tx.returns_bind fun _ => Tx.returns_pure fun _ =>
      AuthReply.noConfusion

/-- The opening of a session with the password that is current when it commits. -/
theorem wp_issueSession {a resetsThen now lifetime : ℕ} {drawn : Drawn}
    (hredeems : ∀ i k, ¬c.Redeems (.issued i) k)
    (hrotate : ∀ h now lifetime drawn, c ≠ .rotateRefresh h now lifetime drawn)
    (hreset : ∀ t password now, c ≠ .resetPassword t password now)
    (hcurrent : ∀ s' d', s <:+ s' → authView.rely.rel L d d' → c.Undisturbed s' d' →
      resetsThen = d'.resets a) :
    (issueSession a resetsThen now lifetime drawn).wp authView.rely AuthInv (authOwes c) id L s d := by
  simp only [issueSession, Tx.wp_bind, wp_draw, Tx.wp_modify, Tx.wp_pure]
  intro d₁ hd₁ _ hfree d₂ hd₂ _ hfamily d₃ hd₃ _ _ d' hd' hinv hallow
  obtain ⟨i, f, jti, h⟩ := drawn
  let session : AuthSession := ⟨a, f, jti, h, now + lifetime, none, resetsThen⟩
  have hsession : d'.sessions.get? i = none := by
    have h₂ : d₂.sessions.get? i = d₁.sessions.get? i := hd₂.2 (.session i) (by simp)
    have h₃ : d₃.sessions.get? i = d₂.sessions.get? i := hd₃.2 (.session i) (by simp)
    have h' : d'.sessions.get? i = d₃.sessions.get? i := hd'.2 (.session i) (by simp)
    rw [h', h₃, h₂]
    exact Option.not_isSome_iff_eq_none.mp (by simpa using hfree)
  have hfresh : ∀ j t, d'.sessions.get? j = some t → t.familyId ≠ f := by
    intro j t ht heq
    obtain ⟨u, hu, hfu⟩ := hd'.2 (.family f) (by simp) j t ht heq
    obtain ⟨v, hv, hfv⟩ := hd₃.2 (.family f) (by simp) j u hu hfu
    have hmem : (j, v) ∈ d₂.familySessions f :=
      List.mem_filter.mpr ⟨Table.get?_eq_some_iff.mp hv, decide_eq_true hfv⟩
    have hnil : d₂.familySessions f = [] := by simpa using hfamily
    rw [hnil] at hmem
    exact absurd hmem List.not_mem_nil
  have hresets : resetsThen = d'.resets a := by
    refine hcurrent _ d' ?_ ?_ hallow
    · exact ((List.suffix_cons _ _).trans (List.suffix_cons _ _)).trans (List.suffix_cons _ _)
    · refine authView.rely.trans hd₁ (authView.rely.trans (authView.rely.anti ?_ hd₂)
        (authView.rely.trans (authView.rely.anti ?_ hd₃) (authView.rely.anti ?_ hd')))
      all_goals intro k hk; simp [hk]
  have hget : (AuthDb.insertSession i session d').sessions.get? i = some session :=
    Table.get?_insert_self hsession session
  have hopened : AuthInv (AuthDb.insertSession i session d') :=
    hinv.insertSession hsession hfresh hresets
  have hmoves : authView.Moves [.refresh h, .family f, .session i] fun d =>
      AuthDb.insertRefreshToken h ⟨i, f, none, now + lifetime⟩ (AuthDb.insertSession i session d) :=
    (moves_insertSession (by simp) (by simp [session])).comp (moves_insertRefreshToken (by simp) _)
  refine ⟨hopened.insertRefreshToken ⟨session, hget, rfl⟩, ⟨(hmoves d').1, ?_,
    fun k hk => absurd hk (hredeems i k), fun _ _ _ _ hc => absurd hc (hrotate _ _ _ _),
    fun _ _ _ hc => absurd hc (hreset _ _ _)⟩, fun L' hL' => hmoves.guar ?_ d'⟩
  · rintro j hj
    obtain rfl : i = j := by simpa using hj
    exact ⟨session, hget, hresets⟩
  · intro k hk
    refine hL' k ?_
    simp only [List.mem_cons, List.not_mem_nil, or_false] at hk
    rcases hk with rfl | rfl | rfl <;> simp

theorem login_owes (a password : ℕ) (blocked mfaEnabled : Bool) (kind : LoginKind)
    (now lifetime nonce : ℕ) (drawn : Drawn) :
    (login a password blocked mfaEnabled kind now lifetime nonce drawn).wp authView.rely AuthInv
      (authOwes (.login a password blocked mfaEnabled kind now lifetime nonce drawn)) id [] [] d := by
  simp only [login, authenticate, Tx.wp_bind, Tx.wp_read, Tx.wp_getOrElse, Tx.wp_require, Tx.wp_pure]
  intro d₁ _ _ v hv _ _
  obtain ⟨u, hu, rfl⟩ := Option.map_eq_some_iff.mp hv
  rw [Tx.wp_ite]
  refine ⟨fun _ => wp_plain (.login a password blocked mfaEnabled kind now lifetime nonce drawn) trivial
    ?_ ?_, fun hcode => wp_issueSession (fun _ _ h => h) ?_ ?_ ?_⟩
  · exact writesUnder_draw_bind (.bind
      (Tx.writesUnder_modify.mpr (revokes_insertChallenge List.mem_cons_self _)) fun _ _ _ =>
        Tx.writesUnder_pure _)
  · exact Tx.returns_bind fun _ => Tx.returns_bind fun _ => Tx.returns_pure fun _ =>
      AuthReply.noConfusion
  · exact fun _ _ _ _ => AuthCall.noConfusion
  · exact fun _ _ _ => AuthCall.noConfusion
  · rintro s' d' ⟨later, rfl⟩ - hallow
    refine (hallow d₁ (by simp)).resolve_left ?_
    rintro ⟨v, hv, hcode'⟩
    obtain rfl : u = v := Option.some.inj (hu.symm.trans hv)
    exact hcode hcode'

theorem completeMfaLogin_owes (nonce : ℕ) (codeOk : Bool) (now lifetime : ℕ) (drawn : Drawn) :
    (completeMfaLogin nonce codeOk now lifetime drawn).wp authView.rely AuthInv
      (authOwes (.completeMfaLogin nonce codeOk now lifetime drawn)) id [] [] d := by
  simp only [completeMfaLogin, Tx.wp_bind, Tx.wp_read, Tx.wp_lock, Tx.wp_getOrElse, Tx.wp_require]
  intro d₁ _ _ challenge hchallenge _ d₂ hd₂ _ _ _
  refine wp_issueSession (fun _ _ h => h) (fun _ _ _ _ => AuthCall.noConfusion)
    (fun _ _ _ => AuthCall.noConfusion) ?_
  intro s' d' _ hd' hallow
  exact hallow challenge (hd'.1.challenges _ _ (hd₂.1.challenges _ _ hchallenge))

/-- What `revoke_all_sessions` does: the sessions it reads are revoked. -/
theorem wp_revokeAllSessions {R : Rely AuthDb AuthKey} {I : AuthDb → Prop} {a now : ℕ} :
    (revokeAllSessions a none now).wp R I (fun _ w' L' s' d' => ∃ d₁ g, R.rel L d d₁ ∧
      AuthRevokes L' g ∧ EndsSessions (((w d₁).liveSessions a).map Prod.fst) g ∧
      (w' = fun d => g (w d)) ∧ L ⊆ L' ∧ w d₁ :: s <:+ s' ∧ R.rel L d₁ d') w L s d := by
  simp only [revokeAllSessions, Tx.wp_bind, Tx.wp_read]
  intro d₁ hd₁ _
  refine Tx.wp_mono (wp_revokeRows _ now) ?_
  rintro _ w' L' s' d' ⟨g, hg, hends, rfl, hL, hs, hd'⟩
  refine Tx.wp_mono (Tx.wp_writesUnder authRevokes_discipline (writesUnder_useTokens _ now)) ?_
  rintro _ w'' L'' s'' d'' ⟨g', hg', rfl, hL', hs', hd''⟩
  refine ⟨d₁, _, hd₁, authRevokes_discipline.comp (authRevokes_discipline.mono hL' hg) hg', ?_, rfl,
    List.Subset.trans hL hL', hs.trans hs', R.trans hd' (R.anti hL hd'')⟩
  have hall : ((w d₁).liveSessions a).filter (fun r => decide (none ≠ some r.1)) = (w d₁).liveSessions a :=
    List.filter_eq_self.mpr fun _ _ => by simp
  rw [hall] at hends
  exact hends.comp hg'.2

theorem revokeFamily_owes {h now lifetime : ℕ} {drawn : Drawn} {row : AuthRefreshToken}
    (hrow : d.refreshTokens.get? h = some row) (hused : row.usedAt ≠ none) :
    (revokeFamily row.familyId now >>= fun _ => pure AuthReply.reused).wp authView.rely AuthInv
      (authOwes (.rotateRefresh h now lifetime drawn)) id [.refresh h] s d := by
  have hlocked : ∀ {e L}, .refresh h ∈ L → authView.rely.rel L d e →
      e.refreshTokens.get? h = some row := fun hL he => (he.2 _ hL).trans hrow
  simp only [revokeFamily, Tx.wp_bind, Tx.wp_read, Tx.wp_pure]
  intro d₁ hd₁ hinv₁
  refine Tx.wp_mono (wp_revokeRows _ now) ?_
  rintro _ w₁ L₁ s₁ e₁ ⟨g₁, hg₁, hends, rfl, hL₁, -, he₁⟩
  refine Tx.wp_mono (Tx.wp_writesUnder authRevokes_discipline (writesUnder_useTokens _ now)) ?_
  rintro _ w₂ L₂ s₂ e₂ ⟨g₂, hg₂, rfl, hL₂, -, he₂⟩
  intro d' hd' hinv _
  have hg : AuthRevokes L₂ fun d => g₂ (g₁ d) :=
    authRevokes_discipline.comp (authRevokes_discipline.mono hL₂ hg₁) hg₂
  -- The states `d₁`, where the family is read, and `d'`, where this commits.
  have hlater : authView.rely.rel [.refresh h] d₁ d' :=
    authView.rely.trans he₁ (authView.rely.trans (authView.rely.anti hL₁ he₂)
      (authView.rely.anti (List.Subset.trans hL₁ hL₂) hd'))
  have hrow₁ : d₁.refreshTokens.get? h = some row := hlocked List.mem_cons_self hd₁
  have hrow' : d'.refreshTokens.get? h = some row :=
    hlocked List.mem_cons_self (authView.rely.trans hd₁ hlater)
  refine ⟨hg.2.inv hinv, ⟨(hg.1 d').1, fun _ => AuthReply.noConfusion, fun _ => False.elim, ?_,
    fun _ _ _ => AuthCall.noConfusion⟩, fun L' hL' => hg.1.guar hL' d'⟩
  rintro _ _ _ _ ⟨⟩ -
  refine ⟨row, hrow', hused, fun i t' ht' hfam => ?_⟩
  obtain ⟨t, ht, hages⟩ := (hg.2.sessions d').earlier ht'
  obtain ⟨u₁, hu₁, hfam₁⟩ := hinv₁.token h row hrow₁
  obtain ⟨u, hu, hages'⟩ := hlater.1.sessions _ u₁ hu₁
  -- A family is one session.
  obtain rfl : i = row.sessionId :=
    hinv.family i _ t u ht hu (by rw [← hages.familyId, hfam, hages'.familyId, hfam₁])
  obtain rfl : t = u := Option.some.inj (ht.symm.trans hu)
  by_cases hrevoked : u₁.revokedAt = none
  · refine hends.comp hg₂.2 d' row.sessionId t' ?_ ht'
    have hmem : (row.sessionId, u₁) ∈ d₁.familySessions row.familyId :=
      List.mem_filter.mpr ⟨Table.get?_eq_some_iff.mp hu₁, decide_eq_true hfam₁⟩
    exact List.mem_map.mpr ⟨_, List.mem_filter.mpr ⟨hmem, decide_eq_true hrevoked⟩, rfl⟩
  · exact hages.revokedAt (hages'.revokedAt hrevoked)

theorem exchangeRefresh_owes {h now lifetime : ℕ} {drawn : Drawn} {row : AuthRefreshToken}
    (hrow : d.refreshTokens.get? h = some row) (hunused : row.usedAt = none) :
    (exchangeRefresh h row now lifetime drawn).wp authView.rely AuthInv
      (authOwes (.rotateRefresh h now lifetime drawn)) id [.refresh h] s d := by
  simp only [exchangeRefresh, Tx.wp_bind, Tx.wp_require, Tx.wp_lock, Tx.wp_getOrElse, Tx.wp_read,
    Tx.wp_modify, wp_draw, Tx.wp_pure]
  intro _ d₁ hd₁ _ session hsession hlive d₂ hd₂ _ _ d₃ hd₃ _ _ d' hd' hinv _
  let L := [AuthKey.refresh drawn.refresh, .session row.sessionId, .refresh h]
  let exchange : AuthDb → AuthDb := fun d =>
    AuthDb.modifySession row.sessionId (fun s =>
      { s with refreshTokenHash := drawn.refresh, accessJti := drawn.jti, expiresAt := now + lifetime })
      (AuthDb.modifyRefreshToken h (fun r => { r with usedAt := some now }) d)
  have hexchange : AuthRevokes L exchange :=
    authRevokes_discipline.comp (revokes_modifyRefreshToken (by simp [L]) (ages_used now))
      (revokes_modifySession (by simp [L]) fun _ => ⟨rfl, rfl, rfl, id⟩)
  have hmoves : authView.Moves L fun d => AuthDb.insertRefreshToken drawn.refresh
      ⟨row.sessionId, session.familyId, none, now + lifetime⟩ (exchange d) :=
    hexchange.1.comp (moves_insertRefreshToken (by simp [L]) _)
  -- The token and its session are what they were when they were locked.
  have hd₁' : authView.rely.rel [.session row.sessionId, .refresh h] d₁ d' :=
    authView.rely.trans hd₂ (authView.rely.trans hd₃ (authView.rely.anti (List.subset_cons_self _ _) hd'))
  have hrow' : d'.refreshTokens.get? h = some row := by
    have h₁ : d₁.refreshTokens.get? h = d.refreshTokens.get? h := hd₁.2 (.refresh h) (by simp)
    have h' : d'.refreshTokens.get? h = d₁.refreshTokens.get? h := hd₁'.2 (.refresh h) (by simp)
    rw [h', h₁, hrow]
  have hsession' : d'.sessions.get? row.sessionId = some session :=
    (hd₁'.2 (.session row.sessionId) (by simp)).trans hsession
  obtain ⟨session', hget, hages⟩ := (hexchange.2.sessions d').later hsession'
  refine ⟨(hexchange.2.inv hinv).insertRefreshToken ⟨session', hget, hages.familyId⟩,
    ⟨(hmoves d').1, ?_, ?_, fun _ _ _ _ _ => AuthReply.noConfusion, fun _ _ _ => AuthCall.noConfusion⟩,
    fun L' hL' => hmoves.guar hL' d'⟩
  · rintro i ⟨⟩
    refine ⟨session', hget, ?_⟩
    rw [hages.resetsThen, hages.accountId]
    exact hinv.live _ session hsession' hlive.1
  · rintro k rfl
    refine ⟨?_, ?_⟩
    · rintro ⟨row', hget', hused⟩
      obtain rfl : row = row' := Option.some.inj (hrow'.symm.trans hget')
      exact hused hunused
    · have hused : (AuthDb.modifyRefreshToken h (fun r => { r with usedAt := some now }) d').TokenUsed h :=
        ⟨{ row with usedAt := some now }, by simp [hrow'], Option.some_ne_none now⟩
      obtain ⟨row', hrow', hne⟩ := hused
      obtain ⟨row'', hrow'', hages'⟩ := (moves_insertRefreshToken (L := L) List.mem_cons_self
        ⟨row.sessionId, session.familyId, none, now + lifetime⟩ (exchange d')).1.tokens h row' hrow'
      exact ⟨row'', hrow'', hages'.usedAt hne⟩

theorem rotateRefresh_owes (h now lifetime : ℕ) (drawn : Drawn) :
    (rotateRefresh h now lifetime drawn).wp authView.rely AuthInv
      (authOwes (.rotateRefresh h now lifetime drawn)) id [] [] d := by
  rw [rotateRefresh, Tx.wp_bind, Tx.wp_lock]
  intro d₁ _ _
  rw [Tx.wp_bind, Tx.wp_getOrElse]
  intro row hrow
  rw [Tx.wp_ite]
  exact ⟨fun hused => revokeFamily_owes hrow hused,
    fun hunused => exchangeRefresh_owes hrow (not_not.mp hunused)⟩

/-- A reset leaves the sessions of the other accounts, and of its own those that have ended. -/
theorem inv_reset {a : ℕ} {f : AuthDb → AuthDb} (hf : AuthQuiet f) (hinv : AuthInv d)
    (hends : ∀ i s, d.sessions.get? i = some s → s.accountId = a → s.revokedAt = none →
      ∀ s', (f (AuthDb.addReset a d)).sessions.get? i = some s' → s'.revokedAt ≠ none) :
    AuthInv (f (AuthDb.addReset a d)) := by
  refine ⟨fun i s' hs' hlive => ?_, fun i j s' t' hs' ht' heq => ?_, fun k r' hr' => ?_⟩
  · obtain ⟨s, hs, hages⟩ := (hf.sessions _).earlier hs'
    have hlive' : s.revokedAt = none := by
      by_contra hne
      exact hages.revokedAt hne hlive
    have hne : s.accountId ≠ a := fun heq => hends i s hs heq hlive' s' hs' hlive
    rw [hf.resets, hages.resetsThen, hages.accountId, AuthDb.addReset_resets,
      Function.update_of_ne hne]
    exact hinv.live i s hs hlive'
  · obtain ⟨s, hs, hages⟩ := (hf.sessions _).earlier hs'
    obtain ⟨t, ht, hages'⟩ := (hf.sessions _).earlier ht'
    exact hinv.family i j s t hs ht (by rw [← hages.familyId, heq, hages'.familyId])
  · obtain ⟨r, hr, hages⟩ := (hf.tokens _).earlier hr'
    obtain ⟨s, hs, hfam⟩ := hinv.token k r hr
    obtain ⟨s', hs', hages'⟩ := (hf.sessions (AuthDb.addReset a d)).later hs
    exact ⟨s', hages.sessionId ▸ hs', by rw [hages'.familyId, hfam, hages.familyId]⟩

theorem resetPassword_owes (t newPassword now : ℕ) :
    (resetPassword t newPassword now).wp authView.rely AuthInv
      (authOwes (.resetPassword t newPassword now)) id [] [] d := by
  simp only [resetPassword, flushReset, Tx.wp_bind, Tx.wp_read, Tx.wp_getOrElse, Tx.wp_require,
    Tx.wp_lock, Tx.wp_modify]
  intro d₁ _ _ token _ _ d₂ hd₂ _ _ d₃ hd₃ _ d₄ hd₄ _ hpresent
  obtain ⟨row, hrow, haccount⟩ := hpresent
  generalize token.accountId = a at haccount ⊢
  let rows : AuthDb → AuthDb := fun d =>
    AuthDb.modifyResetToken t (fun r => { r with usedAt := some now })
      (AuthDb.modifyAccount a (fun v => { v with passwordHash := newPassword, emailVerified := true }) d)
  refine Tx.wp_mono wp_revokeAllSessions ?_
  rintro _ w₁ L₁ s₁ e₁ ⟨e, g₁, he, hg₁, hends, rfl, hL₁, hs₁, he₁⟩
  refine Tx.wp_mono (Tx.wp_writesUnder authRevokes_discipline (writesUnder_dropResetTokens _ _)) ?_
  rintro _ w₂ L₂ s₂ e₂ ⟨g₂, hg₂, rfl, hL₂, hs₂, he₂⟩
  intro d' hd' hinv hallow
  have hmem : AuthKey.resetToken t ∈ L₂ ∧ AuthKey.account a ∈ L₂ :=
    ⟨hL₂ (hL₁ (by simp)), hL₂ (hL₁ (by simp))⟩
  have hrows : AuthRevokes L₂ rows :=
    authRevokes_discipline.comp (revokes_modifyAccount a _) (revokes_modifyResetToken hmem.1 now)
  have hg : AuthRevokes L₂ fun d => g₂ (g₁ d) :=
    authRevokes_discipline.comp (authRevokes_discipline.mono hL₂ hg₁) hg₂
  have hmoves : authView.Moves L₂ fun d => g₂ (g₁ (AuthDb.addReset a (rows d))) :=
    (hrows.1.comp (moves_addReset hmem.2)).comp hg.1
  -- The state `e`, where the sessions are read, and `d'`, where this commits.
  have hlater : authView.rely.rel [.resetToken t, .account a] e d' :=
    authView.rely.trans he₁ (authView.rely.trans (authView.rely.anti hL₁ he₂)
      (authView.rely.anti (List.Subset.trans hL₁ hL₂) hd'))
  have hrow' : d'.resetTokens.get? t = some row :=
    ((authView.rely.trans he hlater).2 (.resetToken t) (by simp)).trans hrow
  obtain ⟨hunused, hseen⟩ := hallow row hrow'
  have hread : AuthDb.addReset a (rows e) ∈ s₂ := hs₂.subset (hs₁.subset List.mem_cons_self)
  have hresets : d'.resets a = e.resets a := hlater.2 (.account a) (by simp)
  rw [haccount] at hseen
  -- The sessions of the account that are live here were read.
  have hended : ∀ i s, d'.sessions.get? i = some s → s.accountId = a → s.revokedAt = none →
      ∀ s', (g₂ (g₁ (AuthDb.addReset a (rows d')))).sessions.get? i = some s' → s'.revokedAt ≠ none := by
    intro i s hs hsa hlive s' hs'
    have hthere := hseen _ hread (by simp [rows, hresets]) (i, s)
      (List.mem_filter.mpr ⟨Table.get?_eq_some_iff.mp hs, decide_eq_true ⟨hsa, hlive⟩⟩)
    obtain ⟨u, hu⟩ := Option.isSome_iff_exists.mp hthere
    obtain ⟨s₀, hs₀, hages⟩ := hlater.1.sessions i u hu
    obtain rfl : s = s₀ := Option.some.inj (hs.symm.trans hs₀)
    have hulive : u.revokedAt = none := by
      by_contra hne
      exact hages.revokedAt hne hlive
    have hlisted : (i, u) ∈ (AuthDb.addReset a (rows e)).liveSessions a :=
      List.mem_filter.mpr ⟨Table.get?_eq_some_iff.mp hu,
        decide_eq_true ⟨hages.accountId.symm.trans hsa, hulive⟩⟩
    exact hends.comp hg₂.2 _ i s' (List.mem_map_of_mem hlisted) hs'
  refine ⟨inv_reset hg.2 (hrows.2.inv hinv) hended, ⟨(hmoves d').1, fun _ => AuthReply.noConfusion,
    ?_, fun _ _ _ _ => AuthCall.noConfusion, ?_⟩, fun L' hL' => hmoves.guar hL' d'⟩
  · rintro k rfl
    refine ⟨?_, ?_⟩
    · rintro ⟨row', hget, hused⟩
      obtain rfl : row = row' := Option.some.inj (hrow'.symm.trans hget)
      exact hused hunused
    · have hused : (AuthDb.addReset a (rows d')).ResetTokenUsed t :=
        ⟨{ row with usedAt := some now }, by simp [rows, hrow'], Option.some_ne_none now⟩
      exact (hg.1 _).1.resetTokens t hused
  · rintro _ _ _ ⟨⟩
    refine ⟨row, hrow', ?_⟩
    change (g₂ (g₁ (AuthDb.addReset a (rows d')))).resets row.accountId = _
    rw [hg.2.resets, haccount, AuthDb.addReset_resets, Function.update_self]
    rfl

end Owes

theorem authMachine_correct : authMachine.Correct authView.rely AuthInv AuthPost := by
  intro c d _
  cases c with
  | login a password blocked mfaEnabled kind now lifetime nonce drawn =>
    exact login_owes a password blocked mfaEnabled kind now lifetime nonce drawn
  | completeMfaLogin nonce codeOk now lifetime drawn =>
    exact completeMfaLogin_owes nonce codeOk now lifetime drawn
  | rotateRefresh h now lifetime drawn => exact rotateRefresh_owes h now lifetime drawn
  | requestPasswordReset a t expiresAt => exact requestPasswordReset_owes a t expiresAt
  | resetPassword t newPassword now => exact resetPassword_owes t newPassword now
  | changePassword jti i a current newPassword now =>
    exact changePassword_owes jti i a current newPassword now
  | setAccountActive a active now => exact setAccountActive_owes a active now
  | revokeSession i now => exact revokeSession_owes i now

section Runs

variable {ι : Type} [DecidableEq ι] {d : AuthDb}
  {C C' : Config AuthDb AuthKey Abort AuthReply AuthCall ι}

/-- What is used stays used, and a family that has ended stays ended, along every run. -/
theorem authAges_along (hd : d.Unused) (h : Reachable authMachine d C)
    (hrun : Relation.ReflTransGen (Steps authMachine) C C') :
    Reachable authMachine d C' ∧ AuthAges C.db C'.db := by
  induction hrun with
  | refl => exact ⟨h, .refl _⟩
  | tail _ hs ih =>
    obtain ⟨hreach, hages⟩ := ih
    obtain ⟨l, hstep⟩ := hs
    refine ⟨hreach.tail ⟨l, hstep⟩, ?_⟩
    rcases l with _ | ⟨c, r⟩
    · rw [hstep.db_eq]
      exact hages
    · exact hages.trans (authMachine_correct.commit hd.inv hreach hstep).ages

theorem AuthAges.used {d d' : AuthDb} (h : AuthAges d d') {k : OneTime} (hk : d.Used k) : d'.Used k := by
  cases k with
  | refresh t =>
    obtain ⟨r, hr, hused⟩ := hk
    obtain ⟨r', hr', hages⟩ := h.tokens t r hr
    exact ⟨r', hr', hages.usedAt hused⟩
  | reset t => exact h.resetTokens t hk

theorem AuthAges.familyEnded {d d' : AuthDb} (h : AuthAges d d') (hinv : AuthInv d) (hinv' : AuthInv d')
    {t : ℕ} {row : AuthRefreshToken} (hrow : d.refreshTokens.get? t = some row)
    (hended : d.FamilyEnded row.familyId) : d'.FamilyEnded row.familyId := by
  intro i s hs hfam
  obtain ⟨u, hu, hu'⟩ := hinv.token t row hrow
  obtain ⟨u', hget, hages⟩ := h.sessions _ u hu
  obtain rfl : i = row.sessionId :=
    hinv'.family i _ s u' hs hget (by rw [hfam, hages.familyId, hu'])
  obtain rfl : s = u' := Option.some.inj (hs.symm.trans hget)
  exact hages.revokedAt (hended _ u hu hu')

/-- **A reset of the password ends the old credentials.** In every run in which no commit is overtaken:
an access token that is accepted is of a session opened with the password as it was last reset, and so is
every session a sign-in opens or a refresh renews; a refresh token and a reset token are used at most
once; and a used refresh token that is presented ends its family for good. -/
theorem old_credentials_end (hd : d.Unused) (h : Reachable authMachine d C) :
    (∀ jti sid sub, C.db.resolves jti sid sub → C.db.SessionCurrent sid) ∧
    (∀ c r C', Step authMachine C (some (c, r)) C' → AuthPost c r C.db C'.db) ∧
    (∀ c r C', Step authMachine C (some (c, r)) C' → ∀ k, c.Redeems r k →
      ∀ C₁, Relation.ReflTransGen (Steps authMachine) C' C₁ →
      ∀ c₁ r₁ C₂, Step authMachine C₁ (some (c₁, r₁)) C₂ → ¬c₁.Redeems r₁ k) ∧
    ∀ t row, C.db.refreshTokens.get? t = some row → C.db.FamilyEnded row.familyId →
      ∀ C', Relation.ReflTransGen (Steps authMachine) C C' → C'.db.FamilyEnded row.familyId := by
  have hinv : ∀ {C : Config AuthDb AuthKey Abort AuthReply AuthCall ι}, Reachable authMachine d C →
      AuthInv C.db := fun h => (authMachine_correct.reachable hd.inv h).inv
  refine ⟨?_, fun _ _ _ hstep => authMachine_correct.commit hd.inv h hstep, ?_, ?_⟩
  · rintro jti sid sub ⟨s, hs, hlive, -⟩
    exact ⟨s, hs, (hinv h).live sid s hs hlive⟩
  · intro c r C' hstep k hk C₁ hrun c₁ r₁ C₂ hstep' hk'
    have hused : C'.db.Used k := ((authMachine_correct.commit hd.inv h hstep).redeems k hk).2
    obtain ⟨hreach, hages⟩ := authAges_along hd (h.tail ⟨_, hstep⟩) hrun
    exact ((authMachine_correct.commit hd.inv hreach hstep').redeems k hk').1 (hages.used hused)
  · intro t row hrow hended C' hrun
    obtain ⟨hreach, hages⟩ := authAges_along hd h hrun
    exact hages.familyEnded (hinv h) (hinv hreach) hrow hended

end Runs

/-! ### Four overtaken commits -/

instance (d : AuthDb) (jti sid sub : ℕ) : Decidable (d.resolves jti sid sub) :=
  inferInstanceAs (Decidable (∃ s ∈ d.sessions.get? sid, s.revokedAt = none ∧ s.accessJti = jti ∧
    s.accountId = sub ∧ ∃ v ∈ d.accounts.get? sub, v.isActive = true))

instance (d : AuthDb) (i : ℕ) : Decidable (d.SessionCurrent i) :=
  inferInstanceAs (Decidable (∃ s ∈ d.sessions.get? i, s.resetsThen = d.resets s.accountId))

instance (d : AuthDb) (t : ℕ) : Decidable (d.ResetTokenUsed t) :=
  inferInstanceAs (Decidable (∃ r ∈ d.resetTokens.get? t, r.usedAt ≠ none))

/-- Account 1 signs in with the password 100, account 2 with a second factor besides; each has asked for a
reset. -/
def sampleAuth : AuthDb where
  accounts := ⟨[(1, ⟨100, true, true, false⟩), (2, ⟨200, true, true, true⟩)], by decide⟩
  sessions := .empty
  refreshTokens := .empty
  resetTokens := ⟨[(5, ⟨1, 1000, none⟩), (6, ⟨2, 1000, none⟩)], by decide⟩
  challenges := .empty
  resets := fun _ => 0

/-- A sign-in. -/
def sampleLogin (a password : ℕ) : AuthCall :=
  .login a password true true .login 10 1000 30 ⟨1, 2, 3, 4⟩

/-- A sign-in opens a session, whose access token is accepted. -/
theorem old_credentials_end_sample :
    ∃ C : Config AuthDb AuthKey Abort AuthReply AuthCall (Fin 1), Reachable authMachine sampleAuth C ∧
      C.db.resolves 3 1 1 ∧ C.db.SessionCurrent 1 := by
  obtain ⟨C, hC, hresolves⟩ := Machine.reaches_of_play (M := authMachine) (ι := Fin 1) (d := sampleAuth)
    (P := fun d => d.resolves 3 1 1) (fun c s d => decide (c.Undisturbed s d))
    (.begin 0 (sampleLogin 1 100) :: List.replicate 7 (.step 0))
    (fun c s d h => (of_decide_eq_true h : c.Undisturbed s d)) (by decide)
  exact ⟨C, hC, hresolves, (old_credentials_end ⟨rfl, rfl⟩ hC).1 3 1 1 hresolves⟩

/-- **Old credentials survive.** A sign-in that has checked the password opens its session after a
reset; it opens it after the reset has read the sessions to revoke; an MFA token from before a reset opens a
session after it; and one reset token resets the password twice. -/
theorem old_credentials_survive :
    (∃ (C C' : Config AuthDb AuthKey Abort AuthReply AuthCall (Fin 2)) (c : AuthCall) (r : AuthReply),
      Reachable (Machine.ofCode AuthCall.code) sampleAuth C ∧
      Step (Machine.ofCode AuthCall.code) C (some (c, r)) C' ∧
      (r = .issued 1 ∧ C'.db.resolves 3 1 1 ∧ ¬C'.db.SessionCurrent 1)) ∧
    (∃ (C C' : Config AuthDb AuthKey Abort AuthReply AuthCall (Fin 2)) (c : AuthCall) (r : AuthReply),
      Reachable (Machine.ofCode AuthCall.code) sampleAuth C ∧
      Step (Machine.ofCode AuthCall.code) C (some (c, r)) C' ∧
      (r = .done ∧ C'.db.resolves 3 1 1 ∧ ¬C'.db.SessionCurrent 1)) ∧
    (∃ (C C' : Config AuthDb AuthKey Abort AuthReply AuthCall (Fin 2)) (c : AuthCall) (r : AuthReply),
      Reachable (Machine.ofCode AuthCall.code) sampleAuth C ∧
      Step (Machine.ofCode AuthCall.code) C (some (c, r)) C' ∧
      (r = .issued 7 ∧ C'.db.resolves 9 7 2 ∧ ¬C'.db.SessionCurrent 7)) ∧
    ∃ (C C' : Config AuthDb AuthKey Abort AuthReply AuthCall (Fin 2)) (c : AuthCall) (r : AuthReply),
      Reachable (Machine.ofCode AuthCall.code) sampleAuth C ∧
      Step (Machine.ofCode AuthCall.code) C (some (c, r)) C' ∧
      (r = .done ∧ C.db.ResetTokenUsed 5 ∧ C'.db.resets 1 = C.db.resets 1 + 1) := by
  refine ⟨?_, ?_, ?_, ?_⟩
  · exact Machine.commits_of_play (M := Machine.ofCode AuthCall.code)
      (P := fun _ r _ d' => r = .issued 1 ∧ d'.resolves 3 1 1 ∧ ¬d'.SessionCurrent 1)
      (fun _ _ _ => true)
      ([.begin 0 (sampleLogin 1 100), .step 0, .begin 1 (.resetPassword 5 101 20)] ++
        List.replicate 11 (.step 1) ++ List.replicate 5 (.step 0)) (.step 0)
      (fun _ _ _ _ => trivial) (by decide)
  · exact Machine.commits_of_play (M := Machine.ofCode AuthCall.code)
      (P := fun _ r _ d' => r = .done ∧ d'.resolves 3 1 1 ∧ ¬d'.SessionCurrent 1)
      (fun _ _ _ => true)
      (.begin 1 (.resetPassword 5 101 20) :: List.replicate 8 (.step 1) ++
        .begin 0 (sampleLogin 1 100) :: List.replicate 7 (.step 0) ++ List.replicate 2 (.step 1)) (.step 1)
      (fun _ _ _ _ => trivial) (by decide)
  · exact Machine.commits_of_play (M := Machine.ofCode AuthCall.code)
      (P := fun _ r _ d' => r = .issued 7 ∧ d'.resolves 9 7 2 ∧ ¬d'.SessionCurrent 7)
      (fun _ _ _ => true)
      (.begin 0 (sampleLogin 2 200) :: List.replicate 4 (.step 0) ++
        .begin 1 (.resetPassword 6 201 20) :: List.replicate 11 (.step 1) ++
        .begin 0 (.completeMfaLogin 30 true 40 1000 ⟨7, 8, 9, 10⟩) :: List.replicate 7 (.step 0)) (.step 0)
      (fun _ _ _ _ => trivial) (by decide)
  · exact Machine.commits_of_play (M := Machine.ofCode AuthCall.code)
      (P := fun _ r d d' => r = .done ∧ d.ResetTokenUsed 5 ∧ d'.resets 1 = d.resets 1 + 1)
      (fun _ _ _ => true)
      ([.begin 0 (.resetPassword 5 102 30), .step 0, .begin 1 (.resetPassword 5 101 20)] ++
        List.replicate 11 (.step 1) ++ List.replicate 9 (.step 0)) (.step 0)
      (fun _ _ _ _ => trivial) (by decide)

end Marketplace
