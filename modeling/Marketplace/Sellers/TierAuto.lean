import Marketplace.Model.Db

/-!
# Seller tiers

`sellers/tier_auto.py` with `update_seller_tier` of `auth/service.py`: the daily job moves sellers up
and down, an admin may set a tier by hand, and a tier set by hand is locked.

The job holds the account's row while it decides, but reads the tier state without a lock; it takes the
state's row only when it acts, and does not decide again. An admin takes the rows the other way round: the
account's when a tier is written, which it is only if it changes, and the state's for the lock.

What the trust criteria say about a seller's figures is in `TrustFigures`; the decision made of
it, `decideSeller`, is the source's `decide`.
-/

namespace Marketplace

open Sql

/-- `TIER_ORDER`. -/
inductive SellerTier
  | new | verified | trusted | enterprise
  deriving DecidableEq, Repr

/-- The tiers, lowest first. -/
def tierOrder : List SellerTier := [.new, .verified, .trusted, .enterprise]

/-- What the job reads and writes of an account. -/
structure TierAccount where
  isSeller : Bool
  sellerTier : SellerTier
  deriving DecidableEq, Repr

/-- A row of `seller_tier_state`. -/
structure SellerTierState where
  locked : Bool
  lockedById : Option ℕ
  lockedAt : Option ℕ
  atRiskSince : Option ℕ
  atRiskKeys : Option (List String)
  evaluatedAt : Option ℕ
  deriving DecidableEq, Repr

/-- A row of `seller_tier_events`. -/
structure SellerTierEvent where
  accountId : ℕ
  oldTier : SellerTier
  newTier : SellerTier
  reason : Option String
  actorId : Option ℕ
  deriving DecidableEq, Repr

/-- The tables. -/
structure TierDb where
  accounts : Table ℕ TierAccount
  /-- By account. -/
  states : Table ℕ SellerTierState
  events : List SellerTierEvent

namespace TierDb

/-- Change an account. -/
@[simps] def modifyAccount (a : ℕ) (f : TierAccount → TierAccount) (d : TierDb) : TierDb :=
  { d with accounts := d.accounts.modify a f }

/-- Create a state. -/
@[simps] def insertState (a : ℕ) (s : SellerTierState) (d : TierDb) : TierDb :=
  { d with states := d.states.insert a s }

/-- Change a state. -/
@[simps] def modifyState (a : ℕ) (f : SellerTierState → SellerTierState) (d : TierDb) : TierDb :=
  { d with states := d.states.modify a f }

/-- Record a change of tier. -/
@[simps] def addEvent (e : SellerTierEvent) (d : TierDb) : TierDb :=
  { d with events := d.events ++ [e] }

end TierDb

/-- The rows a statement can lock. -/
inductive TierKey
  | account (a : ℕ)
  | state (a : ℕ)
  deriving DecidableEq, Repr

/-- A transaction over the tables. -/
abbrev TierTx (α : Type) : Type := Sql.Tx TierDb TierKey Abort α

/-! ### The decision -/

/-- What the criteria of `trust.py` say about a seller, by tier. -/
structure TrustFigures where
  /-- `dispute_rate_counts`. -/
  disputeRateCounts : Bool
  disputePct : ℚ
  maxDisputePct : SellerTier → Option ℚ
  /-- The keep criteria that are not met, the dispute rate apart. -/
  failing : SellerTier → List String
  /-- `next_tier` of `evaluate`, where it is eligible. -/
  eligible : SellerTier → Option SellerTier
  graceDays : ℕ

/-- What the job does with a seller. -/
inductive TierAction
  | locked | skip | demote | warn | atRisk | promote | clear | keep
  deriving DecidableEq, Repr

/-- The outcome of `decide`. -/
structure TierDecision where
  action : TierAction
  target : Option SellerTier
  reason : Option String
  keys : List String
  clearRisk : Bool
  deriving DecidableEq, Repr

/-- An action without anything else. -/
def TierDecision.only (action : TierAction) : TierDecision := ⟨action, none, none, [], false⟩

/-- The highest lower tier whose ceiling the dispute rate fits. -/
def demotionTarget (m : TrustFigures) (tier : SellerTier) : SellerTier :=
  ((tierOrder.take (tierOrder.idxOf tier)).reverse.find? fun lower =>
    lower = .new || (m.maxDisputePct lower).all fun limit => m.disputePct ≤ limit).getD .new

/-- `TIER_ORDER[TIER_ORDER.index(tier) - 1]`, which wraps around. -/
def tierBelow : SellerTier → SellerTier
  | .new => .enterprise
  | .verified => .new
  | .trusted => .verified
  | .enterprise => .trusted

/-- The part of `decide` after the dispute rate. -/
def decideKeep (tier : SellerTier) (m : TrustFigures) (atRiskSince : Option ℕ) (now : ℕ) :
    TierDecision :=
  let failing := m.failing tier
  if failing ≠ [] then
    match atRiskSince with
    | none => ⟨.warn, none, none, failing, false⟩
    | some since =>
      if since + m.graceDays * 86400 ≤ now then
        ⟨.demote, some (tierBelow tier), some "grace_expired", failing, true⟩
      else ⟨.atRisk, none, none, failing, false⟩
  else
    match m.eligible tier with
    | some next => ⟨.promote, some next, some "promote", [], atRiskSince.isSome⟩
    | none =>
      if atRiskSince.isSome = true then ⟨.clear, none, none, [], true⟩
      else .only .keep

/-- `decide`. -/
def decideSeller (tier : SellerTier) (m : TrustFigures) (locked : Bool) (atRiskSince : Option ℕ)
    (now : ℕ) : TierDecision :=
  if locked = true then .only .locked
  else if tier = .enterprise then .only .skip
  else if tier ≠ .new ∧ m.disputeRateCounts = true ∧ ∃ limit ∈ m.maxDisputePct tier, limit < m.disputePct
  then ⟨.demote, some (demotionTarget m tier), some "dispute_rate", ["max_dispute_pct"], true⟩
  else decideKeep tier m atRiskSince now

/-- A locked tier is left alone. -/
theorem decideSeller_locked (tier : SellerTier) (m : TrustFigures) (since : Option ℕ) (now : ℕ) :
    decideSeller tier m true since now = .only .locked := rfl

/-! ### The shared change -/

/-- A state nobody touched. -/
def SellerTierState.fresh : SellerTierState := ⟨false, none, none, none, none, none⟩

/-- `tier_state(for_update=True)`. -/
def tierState (a : ℕ) : TierTx SellerTierState := do
  let state ← Tx.lock (.state a) fun d => d.states.get? a
  match state with
  | some s => pure s
  | none => do
    Tx.modify (TierDb.insertState a .fresh)
    pure .fresh

/-- `change_seller_tier`, for an account whose tier the session read as `oldTier`. Nothing is written
where nothing changes. -/
def changeSellerTier (a : ℕ) (oldTier newTier : SellerTier) (reason : Option String)
    (actorId : Option ℕ) : TierTx Unit := do
  if oldTier = newTier then pure ()
  else do
    let _ ← Tx.lock (.account a) fun d => d.accounts.get? a
    Tx.modify (TierDb.modifyAccount a fun v => { v with sellerTier := newTier })
    Tx.modify (TierDb.addEvent ⟨a, oldTier, newTier, reason, actorId⟩)

/-- What `set_tier_lock` makes of a state. -/
def SellerTierState.setLock (locked : Bool) (actorId now : ℕ) (s : SellerTierState) :
    SellerTierState :=
  if locked = true then
    { s with
      locked := true, lockedById := some actorId, lockedAt := some now
      atRiskSince := none, atRiskKeys := none }
  else { s with locked := false, lockedById := none, lockedAt := none }

/-- `set_tier_lock`. -/
def setTierLock (a : ℕ) (locked : Bool) (actorId now : ℕ) : TierTx Unit := do
  let _ ← tierState a
  Tx.modify (TierDb.modifyState a (SellerTierState.setLock locked actorId now))

/-! ### The calls -/

/-- `admin_set_tier_lock`. Commits. -/
def adminSetTierLock (a : ℕ) (locked : Bool) (actorId now : ℕ) : TierTx Unit := do
  let account ← Tx.read fun d => d.accounts.get? a
  Tx.require (∃ v ∈ account, v.isSeller = true) (.http 404 "Không tìm thấy người bán")
  setTierLock a locked actorId now

/-- The lock that comes with a tier an admin sets. -/
def lockSetTier (a : ℕ) (actorId : Option ℕ) (lock : Bool) (now : ℕ) : TierTx Unit :=
  match actorId with
  | some actor => Tx.when (lock = true) (setTierLock a true actor now)
  | none => pure ()

/-- `update_seller_tier`. Commits. -/
def updateSellerTier (a : ℕ) (tier : SellerTier) (actorId : Option ℕ) (reason : Option String)
    (lock : Bool) (now : ℕ) : TierTx Unit := do
  let account ← Tx.read fun d => d.accounts.get? a
  let account ← Tx.getOrElse account (.http 404 "Không tìm thấy tài khoản")
  Tx.require (account.isSeller = true)
    (.http 400 "Chỉ có thể gán cấp độ cho tài khoản người bán")
  changeSellerTier a account.sellerTier tier reason actorId
  lockSetTier a actorId lock now

/-- What the job leaves in the state besides a change of tier. -/
def SellerTierState.evaluated (decision : TierDecision) (now : ℕ) (s : SellerTierState) :
    SellerTierState :=
  let s := { s with evaluatedAt := some now }
  let s := if decision.clearRisk = true then { s with atRiskSince := none, atRiskKeys := none } else s
  match decision.action with
  | .warn => { s with atRiskSince := some now, atRiskKeys := some decision.keys }
  | .atRisk => { s with atRiskKeys := some decision.keys }
  | _ => s

/-- The change of tier a decision asks for. -/
def moveSeller (a : ℕ) (account : TierAccount) (decision : TierDecision) (actorId : Option ℕ) :
    TierTx Unit :=
  match decision.target with
  | some target => changeSellerTier a account.sellerTier target decision.reason actorId
  | none => pure ()

/-- `_apply_seller` for a decision to act. -/
def actOnSeller (a : ℕ) (account : TierAccount) (decision : TierDecision) (now : ℕ)
    (actorId : Option ℕ) : TierTx Unit := do
  let _ ← tierState a
  moveSeller a account decision actorId
  Tx.modify (TierDb.modifyState a (SellerTierState.evaluated decision now))

/-- `_apply_seller` for a decision to leave the seller alone: only the time is noted, in a state that
is there. -/
def noteEvaluation (a : ℕ) (state : Option SellerTierState) (now : ℕ) : TierTx Unit := do
  Tx.require (state.isSome = true) .notCommitted
  let _ ← Tx.lock (.state a) fun d => d.states.get? a
  Tx.modify (TierDb.modifyState a fun s => { s with evaluatedAt := some now })

/-- `_apply_seller`. Commits. -/
def applySeller (a : ℕ) (m : TrustFigures) (now : ℕ) (actorId : Option ℕ) : TierTx Unit := do
  let account ← Tx.lock (.account a) fun d => d.accounts.get? a
  let account ← Tx.getOrElse account .notCommitted
  let state ← Tx.read fun d => d.states.get? a
  let decision := decideSeller account.sellerTier m ((state.map SellerTierState.locked).getD false)
    (state.bind SellerTierState.atRiskSince) now
  if decision.action = .locked ∨ decision.action = .skip ∨ decision.action = .keep then
    noteEvaluation a state now
  else actOnSeller a account decision now actorId

end Marketplace
