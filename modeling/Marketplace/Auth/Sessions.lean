import Marketplace.Model.Db

/-!
# Signing in

`auth/sessions.py` with the sign-in and password functions of `auth/service.py`: a sign-in opens a session
with an access token and a refresh token, a refresh token is exchanged for the next one, and a change of
the password or the lock of an account revokes the sessions.

Only a refresh and the second step of a sign-in read under a lock. The account of a password check, the
token of a reset and the sessions to be revoked are read as they are at that moment.

`resetsThen` of a session and of a challenge is no column and no claim of a token: it records, for the
statements, how many resets of the account's password had been committed when the password was checked.
Nothing reads it. The random identifiers are arguments, and a drawn one is fresh.
-/

namespace Marketplace

open Sql

/-- What signing in reads and writes of an account. -/
structure AuthAccount where
  /-- The password, as far as its hash tells. -/
  passwordHash : ℕ
  isActive : Bool
  emailVerified : Bool
  totpEnabled : Bool
  deriving DecidableEq, Repr

/-- A row of `auth_sessions`. -/
structure AuthSession where
  accountId : ℕ
  familyId : ℕ
  accessJti : ℕ
  refreshTokenHash : ℕ
  expiresAt : ℕ
  revokedAt : Option ℕ
  resetsThen : ℕ
  deriving DecidableEq, Repr

/-- A row of `auth_refresh_tokens`. -/
structure AuthRefreshToken where
  sessionId : ℕ
  familyId : ℕ
  usedAt : Option ℕ
  expiresAt : ℕ
  deriving DecidableEq, Repr

/-- A row of `password_reset_tokens`. -/
structure PasswordResetToken where
  accountId : ℕ
  expiresAt : ℕ
  usedAt : Option ℕ
  deriving DecidableEq, Repr

/-- Where a sign-in came in. -/
inductive LoginKind
  | login | adminLogin
  deriving DecidableEq, Repr

/-- What an MFA token says. It is signed, so only one that was issued is ever decoded. -/
structure MfaChallenge where
  accountId : ℕ
  kind : LoginKind
  expiresAt : ℕ
  resetsThen : ℕ
  deriving DecidableEq, Repr

/-- The tables, and the MFA tokens that were issued. -/
structure AuthDb where
  accounts : Table ℕ AuthAccount
  sessions : Table ℕ AuthSession
  /-- By token hash. -/
  refreshTokens : Table ℕ AuthRefreshToken
  /-- By token hash. -/
  resetTokens : Table ℕ PasswordResetToken
  /-- By nonce. -/
  challenges : Table ℕ MfaChallenge
  /-- The committed resets, by account. -/
  resets : ℕ → ℕ

namespace AuthDb

/-- Change an account. -/
@[simps] def modifyAccount (a : ℕ) (f : AuthAccount → AuthAccount) (d : AuthDb) : AuthDb :=
  { d with accounts := d.accounts.modify a f }

/-- Open a session. -/
@[simps] def insertSession (i : ℕ) (s : AuthSession) (d : AuthDb) : AuthDb :=
  { d with sessions := d.sessions.insert i s }

/-- Change a session. -/
@[simps] def modifySession (i : ℕ) (f : AuthSession → AuthSession) (d : AuthDb) : AuthDb :=
  { d with sessions := d.sessions.modify i f }

/-- Create a refresh token. -/
@[simps] def insertRefreshToken (h : ℕ) (r : AuthRefreshToken) (d : AuthDb) : AuthDb :=
  { d with refreshTokens := d.refreshTokens.insert h r }

/-- Change a refresh token. -/
@[simps] def modifyRefreshToken (h : ℕ) (f : AuthRefreshToken → AuthRefreshToken) (d : AuthDb) : AuthDb :=
  { d with refreshTokens := d.refreshTokens.modify h f }

/-- Change a reset token. -/
@[simps] def modifyResetToken (t : ℕ) (f : PasswordResetToken → PasswordResetToken) (d : AuthDb) :
    AuthDb :=
  { d with resetTokens := d.resetTokens.modify t f }

/-- Create a reset token. -/
@[simps] def insertResetToken (t : ℕ) (r : PasswordResetToken) (d : AuthDb) : AuthDb :=
  { d with resetTokens := d.resetTokens.insert t r }

/-- Delete a reset token, if it was not used. -/
@[simps] def eraseResetToken (t : ℕ) (d : AuthDb) : AuthDb :=
  { d with
    resetTokens := if (∃ r ∈ d.resetTokens.get? t, r.usedAt = none) then d.resetTokens.erase t
      else d.resetTokens }

/-- Issue an MFA token. -/
@[simps] def insertChallenge (n : ℕ) (c : MfaChallenge) (d : AuthDb) : AuthDb :=
  { d with challenges := d.challenges.insert n c }

/-- A reset of the account's password. -/
@[simps] def addReset (a : ℕ) (d : AuthDb) : AuthDb :=
  { d with resets := Function.update d.resets a (d.resets a + 1) }

/-- The sessions of an account that are not revoked. -/
def liveSessions (d : AuthDb) (a : ℕ) : List (ℕ × AuthSession) :=
  d.sessions.rows.filter fun r => r.2.accountId = a ∧ r.2.revokedAt = none

/-- The sessions of a family. -/
def familySessions (d : AuthDb) (f : ℕ) : List (ℕ × AuthSession) :=
  d.sessions.rows.filter fun r => r.2.familyId = f

/-- The refresh tokens of some families that were not used. -/
def unusedTokens (d : AuthDb) (families : List ℕ) : List ℕ :=
  (d.refreshTokens.rows.filter fun r => r.2.familyId ∈ families ∧ r.2.usedAt = none).map Prod.fst

/-- The reset tokens of an account that were not used, one of them perhaps excepted. -/
def unusedResetTokens (d : AuthDb) (a : ℕ) (but : Option ℕ) : List ℕ :=
  (d.resetTokens.rows.filter fun r => r.2.accountId = a ∧ but ≠ some r.1 ∧ r.2.usedAt = none).map
    Prod.fst

end AuthDb

/-- The rows a statement can lock, and the identifiers that are drawn. -/
inductive AuthKey
  | account (a : ℕ)
  | session (i : ℕ)
  | family (f : ℕ)
  | refresh (h : ℕ)
  | resetToken (t : ℕ)
  | challenge (n : ℕ)
  deriving DecidableEq, Repr

/-- A transaction over the tables. -/
abbrev AuthTx (α : Type) : Type := Sql.Tx AuthDb AuthKey Abort α

/-- What a call answers once it has committed. -/
inductive AuthReply
  /-- A session was opened or refreshed. -/
  | issued (sessionId : ℕ)
  /-- The second factor is asked for. -/
  | challenged (nonce : ℕ)
  /-- A used refresh token was presented. -/
  | reused
  | done
  deriving DecidableEq, Repr

/-- `_INVALID`. -/
def invalidToken : Abort := .http 401 "Token không hợp lệ"

/-! ### Sessions -/

/-- What a call draws at random. -/
structure Drawn where
  sessionId : ℕ
  familyId : ℕ
  jti : ℕ
  /-- The hash of the new refresh token. -/
  refresh : ℕ

/-- A drawn identifier, which nobody has. -/
def draw (k : AuthKey) (taken : AuthDb → Bool) : AuthTx Unit := do
  let used ← Tx.lock k taken
  Tx.require (used = false) .integrity

/-- `issue_session`. Commits. -/
def issueSession (a resetsThen now lifetime : ℕ) (drawn : Drawn) : AuthTx AuthReply := do
  draw (.session drawn.sessionId) fun d => (d.sessions.get? drawn.sessionId).isSome
  draw (.family drawn.familyId) fun d => decide (d.familySessions drawn.familyId ≠ [])
  Tx.modify (AuthDb.insertSession drawn.sessionId
    { accountId := a, familyId := drawn.familyId, accessJti := drawn.jti
      refreshTokenHash := drawn.refresh, expiresAt := now + lifetime, revokedAt := none
      resetsThen := resetsThen })
  draw (.refresh drawn.refresh) fun d => (d.refreshTokens.get? drawn.refresh).isSome
  Tx.modify (AuthDb.insertRefreshToken drawn.refresh
    ⟨drawn.sessionId, drawn.familyId, none, now + lifetime⟩)
  pure (.issued drawn.sessionId)

/-- The flush of `revoked_at` for the sessions a call has read. -/
def revokeRows (ids : List ℕ) (now : ℕ) : AuthTx Unit :=
  Tx.forEach ids fun i => do
    let _ ← Tx.lock (.session i) fun d => d.sessions.get? i
    Tx.modify (AuthDb.modifySession i fun s => { s with revokedAt := some now })

/-- The `UPDATE` that uses up the refresh tokens of some families. -/
def useTokens (families : List ℕ) (now : ℕ) : AuthTx Unit := do
  let hashes ← Tx.stmt (fun d => (d.unusedTokens families).map AuthKey.refresh)
    fun d => .pure (d.unusedTokens families)
  Tx.forEach hashes fun h =>
    Tx.modify (AuthDb.modifyRefreshToken h fun r => { r with usedAt := some now })

/-- `revoke_all_sessions`. -/
def revokeAllSessions (a : ℕ) (keep : Option ℕ) (now : ℕ) : AuthTx Unit := do
  let live ← Tx.read fun d => d.liveSessions a
  let rows := live.filter fun r => keep ≠ some r.1
  revokeRows (rows.map Prod.fst) now
  useTokens (rows.map fun r => r.2.familyId) now

/-- `_revoke_family`. -/
def revokeFamily (f now : ℕ) : AuthTx Unit := do
  let rows ← Tx.read fun d => d.familySessions f
  revokeRows ((rows.filter fun r => r.2.revokedAt = none).map Prod.fst) now
  useTokens [f] now

/-- `revoke_session`, for a session as the caller has read it. Commits. -/
def revokeSession (i now : ℕ) : AuthTx AuthReply := do
  let session ← Tx.read fun d => d.sessions.get? i
  let session ← Tx.getOrElse session (.http 404 "Không tìm thấy phiên đăng nhập")
  Tx.when (session.revokedAt = none) (revokeRows [i] now)
  useTokens [session.familyId] now
  pure .done

/-- The exchange of a refresh token that is in order. -/
def exchangeRefresh (h : ℕ) (row : AuthRefreshToken) (now lifetime : ℕ) (drawn : Drawn) :
    AuthTx AuthReply := do
  Tx.require (now < row.expiresAt) invalidToken
  let session ← Tx.lock (.session row.sessionId) fun d => d.sessions.get? row.sessionId
  let session ← Tx.getOrElse session invalidToken
  Tx.require (session.revokedAt = none ∧ now < session.expiresAt) invalidToken
  let account ← Tx.read fun d => d.accounts.get? session.accountId
  Tx.require (∃ v ∈ account, v.isActive = true) (.http 401 "Không tìm thấy tài khoản")
  Tx.modify (AuthDb.modifyRefreshToken h fun r => { r with usedAt := some now })
  Tx.modify (AuthDb.modifySession row.sessionId fun s =>
    { s with refreshTokenHash := drawn.refresh, accessJti := drawn.jti, expiresAt := now + lifetime })
  draw (.refresh drawn.refresh) fun d => (d.refreshTokens.get? drawn.refresh).isSome
  Tx.modify (AuthDb.insertRefreshToken drawn.refresh
    ⟨row.sessionId, session.familyId, none, now + lifetime⟩)
  pure (.issued row.sessionId)

/-- `rotate_refresh`, for a token with the hash `h`. Commits; a token that was used commits the end of
its family. -/
def rotateRefresh (h now lifetime : ℕ) (drawn : Drawn) : AuthTx AuthReply := do
  let row ← Tx.lock (.refresh h) fun d => d.refreshTokens.get? h
  let row ← Tx.getOrElse row invalidToken
  if row.usedAt ≠ none then do
    revokeFamily row.familyId now
    pure .reused
  else exchangeRefresh h row now lifetime drawn

/-- `resolve_account_from_access_token`, for a token with `jti`, `sid` and `sub`. -/
def AuthDb.resolves (d : AuthDb) (jti sid sub : ℕ) : Prop :=
  ∃ s, d.sessions.get? sid = some s ∧ s.revokedAt = none ∧ s.accessJti = jti ∧ s.accountId = sub ∧
    ∃ v, d.accounts.get? sub = some v ∧ v.isActive = true

/-! ### Signing in -/

/-- `authenticate`: the account as it is read, and how often its password had been reset. `blocked` is
`sign_in_blocked_until_verified`. -/
def authenticate (a password : ℕ) (blocked : Bool) : AuthTx (AuthAccount × ℕ) := do
  let account ← Tx.read fun d => (d.accounts.get? a).map fun v => (v, d.resets a)
  let account ← Tx.getOrElse account (.api 401 "INVALID_CREDENTIALS")
  Tx.require (account.1.isActive = true ∧ account.1.passwordHash = password)
    (.api 401 "INVALID_CREDENTIALS")
  Tx.require (account.1.emailVerified = true ∨ blocked = false) (.api 403 "EMAIL_NOT_VERIFIED")
  pure account

/-- `issue_mfa_token`. -/
def issueMfaToken (nonce a : ℕ) (kind : LoginKind) (expiresAt resetsThen : ℕ) : AuthTx AuthReply := do
  draw (.challenge nonce) fun d => (d.challenges.get? nonce).isSome
  Tx.modify (AuthDb.insertChallenge nonce ⟨a, kind, expiresAt, resetsThen⟩)
  pure (.challenged nonce)

/-- `login`: `authenticate`, then `_issue_or_challenge`. Commits. -/
def login (a password : ℕ) (blocked mfaEnabled : Bool) (kind : LoginKind) (now lifetime nonce : ℕ)
    (drawn : Drawn) : AuthTx AuthReply := do
  let account ← authenticate a password blocked
  if account.1.totpEnabled = true ∧ mfaEnabled = true then
    issueMfaToken nonce a kind (now + 300) account.2
  else issueSession a account.2 now lifetime drawn

/-- `login_mfa`: `complete_mfa_login`, then `issue_session`. `codeOk` is `verify_code`. Commits. -/
def completeMfaLogin (nonce : ℕ) (codeOk : Bool) (now lifetime : ℕ) (drawn : Drawn) :
    AuthTx AuthReply := do
  let challenge ← Tx.read fun d => d.challenges.get? nonce
  let challenge ← Tx.getOrElse challenge (.api 401 "MFA_TOKEN_INVALID")
  Tx.require (now < challenge.expiresAt) (.api 401 "MFA_TOKEN_INVALID")
  let account ← Tx.lock (.account challenge.accountId) fun d => d.accounts.get? challenge.accountId
  Tx.require (∃ v ∈ account, v.isActive = true ∧ v.totpEnabled = true) (.api 401 "MFA_TOKEN_INVALID")
  Tx.require (codeOk = true) (.api 400 "MFA_CODE_INVALID")
  issueSession challenge.accountId challenge.resetsThen now lifetime drawn

/-! ### Passwords and locks -/

/-- The `DELETE` of the reset tokens of the account that were not used. -/
def dropResetTokens (a : ℕ) (but : Option ℕ) : AuthTx Unit := do
  let tokens ← Tx.stmt (fun d => (d.unusedResetTokens a but).map AuthKey.resetToken)
    fun d => .pure (d.unusedResetTokens a but)
  Tx.forEach tokens fun u => Tx.modify (AuthDb.eraseResetToken u)

/-- `request_password_reset`, for the address of the account. Commits. -/
def requestPasswordReset (a t expiresAt : ℕ) : AuthTx AuthReply := do
  let account ← Tx.read fun d => d.accounts.get? a
  Tx.when (∃ v ∈ account, v.isActive = true) do
    dropResetTokens a none
    draw (.resetToken t) fun d => (d.resetTokens.get? t).isSome
    Tx.modify (AuthDb.insertResetToken t ⟨a, expiresAt, none⟩)
  pure .done

/-- The flush of a reset: the account's row, then the token's, which must still be there. -/
def flushReset (t a newPassword now : ℕ) : AuthTx Unit := do
  let _ ← Tx.lock (.account a) fun d => d.accounts.get? a
  let token ← Tx.lock (.resetToken t) fun d => d.resetTokens.get? t
  Tx.require (∃ r ∈ token, r.accountId = a) .integrity
  Tx.modify (AuthDb.modifyAccount a fun v =>
    { v with passwordHash := newPassword, emailVerified := true })
  Tx.modify (AuthDb.modifyResetToken t fun r => { r with usedAt := some now })
  Tx.modify (AuthDb.addReset a)

/-- `reset_password`, for a token with the hash `t`. Commits. -/
def resetPassword (t newPassword now : ℕ) : AuthTx AuthReply := do
  let token ← Tx.read fun d => d.resetTokens.get? t
  let token ← Tx.getOrElse token (.api 400 "PASSWORD_RESET_INVALID")
  Tx.require (token.usedAt = none ∧ now < token.expiresAt) (.api 400 "PASSWORD_RESET_INVALID")
  let account ← Tx.read fun d => d.accounts.get? token.accountId
  Tx.require (∃ v ∈ account, v.isActive = true) (.api 400 "PASSWORD_RESET_INVALID")
  flushReset t token.accountId newPassword now
  revokeAllSessions token.accountId none now
  dropResetTokens token.accountId (some t)
  pure .done

/-- `change_password`, from the session `i`, which is kept. Commits. -/
def changePassword (jti i a current newPassword now : ℕ) : AuthTx AuthReply := do
  let session ← Tx.read fun d => d.sessions.get? i
  Tx.require (∃ s ∈ session, s.revokedAt = none ∧ s.accessJti = jti ∧ s.accountId = a) invalidToken
  let account ← Tx.read fun d => d.accounts.get? a
  Tx.require (∃ v ∈ account, v.isActive = true) (.http 401 "Không tìm thấy tài khoản")
  Tx.require (∃ v ∈ account, v.passwordHash = current) (.api 400 "PASSWORD_INCORRECT")
  let _ ← Tx.lock (.account a) fun d => d.accounts.get? a
  Tx.modify (AuthDb.modifyAccount a fun v => { v with passwordHash := newPassword })
  revokeAllSessions a (some i) now
  pure .done

/-- The lock or unlock of an account: `apply_account_active` under the row's lock. Commits. -/
def setAccountActive (a : ℕ) (active : Bool) (now : ℕ) : AuthTx AuthReply := do
  let account ← Tx.lock (.account a) fun d => d.accounts.get? a
  let account ← Tx.getOrElse account (.http 404 "Không tìm thấy tài khoản")
  Tx.require (account.isActive ≠ active) .notCommitted
  Tx.modify (AuthDb.modifyAccount a fun v => { v with isActive := active })
  Tx.when (active = false) (revokeAllSessions a none now)
  pure .done

end Marketplace
