import Marketplace.Model.Db

/-!
# Request balances

`usage/service.py`: an order of a request package has a balance of units. `chargeUsage` takes units from
it before a call is made, `refundUsage` gives them back. Both lock the balance's row with their
first statement and write nothing else but a row of the usage journal, so `Serial` is all there is to
their concurrency; the tables are kept apart from the other books in `UsageDb`.

A charge that is rejected is journaled as well, and that row is committed: the source commits and
then raises. `Charge` is what the caller sees.
-/

namespace Marketplace

open Sql

/-- `OrderBalance`, by order. -/
structure OrderBalance where
  unitsTotal : ℤ
  unitsUsed : ℤ
  expiresAt : Option ℕ
  endpointRates : List (String × ℤ)
  defaultRate : Option ℤ
  deriving DecidableEq, Repr

/-- `UsageRecordStatus`. -/
inductive UsageRecordStatus
  | ok | rejectedQuota | rejectedExpired | refunded
  deriving DecidableEq, Repr

/-- A row of the usage journal. -/
structure UsageRecord where
  orderId : ℕ
  /-- The call the row was written for. No function reads it, and every call has its own. -/
  requestId : ℕ
  endpoint : String
  units : ℤ
  status : UsageRecordStatus
  deriving DecidableEq, Repr

/-- The tables of the usage module. -/
structure UsageDb where
  balances : Table ℕ OrderBalance
  /-- Oldest first. -/
  records : List UsageRecord

/-- No balance, no call. -/
def UsageDb.empty : UsageDb := ⟨.empty, []⟩

namespace UsageDb

/-- Create the balance of an order. -/
@[simps] def insertBalance (o : ℕ) (b : OrderBalance) (d : UsageDb) : UsageDb :=
  { d with balances := d.balances.insert o b }

/-- Set the units used of an order. -/
@[simps] def setUsed (o : ℕ) (x : ℤ) (d : UsageDb) : UsageDb :=
  { d with balances := d.balances.modify o fun b => { b with unitsUsed := x } }

/-- Append a row to the journal. -/
@[simps] def addRecord (r : UsageRecord) (d : UsageDb) : UsageDb :=
  { d with records := d.records ++ [r] }

end UsageDb

/-- A function of the usage module in a session; the rows it locks are balances. -/
abbrev UsageTx (α : Type) : Type := Sql.Tx UsageDb ℕ Abort α

/-- `create_balance_for_order`. -/
def createBalanceForOrder (orderId quantity : ℕ) (endpointRates : List (String × ℤ))
    (defaultRate : Option ℤ) : UsageTx Unit :=
  Tx.modify (UsageDb.insertBalance orderId
    { unitsTotal := quantity, unitsUsed := 0, expiresAt := none, endpointRates := endpointRates
      defaultRate := defaultRate })

/-- `resolve_endpoint_units`. -/
def OrderBalance.resolveEndpointUnits (b : OrderBalance) (endpoint : String) : ℤ :=
  match b.endpointRates.lookup endpoint with
  | some units => units
  | none => if b.defaultRate.getD 0 = 0 then 1 else b.defaultRate.getD 0

/-- What `charge_usage` answers. -/
inductive Charge
  | charged (units unitsRemaining : ℤ)
  /-- `QuotaExpired()`. -/
  | expired
  /-- `QuotaExceeded()`. -/
  | exceeded
  deriving DecidableEq, Repr

/-- `charge_usage`. Commits. -/
def chargeUsage (now orderId : ℕ) (endpoint : String) (units : Option ℤ) (requestId : ℕ) :
    UsageTx Charge := do
  let balance ← Tx.lock orderId fun d => d.balances.get? orderId
  let balance ← Tx.getOrElse balance (.http 404
    "Đơn hàng này chưa có số dư request (chưa được giao, hoặc không phải sản phẩm dạng credit)")
  let units := units.getD (balance.resolveEndpointUnits endpoint)
  Tx.require (1 ≤ units) (.http 422 "Số đơn vị sử dụng phải lớn hơn 0")
  if ∃ e ∈ balance.expiresAt, e < now then do
    Tx.modify (UsageDb.addRecord ⟨orderId, requestId, endpoint, units, .rejectedExpired⟩)
    pure .expired
  else if balance.unitsTotal < balance.unitsUsed + units then do
    Tx.modify (UsageDb.addRecord ⟨orderId, requestId, endpoint, units, .rejectedQuota⟩)
    pure .exceeded
  else do
    Tx.modify (UsageDb.setUsed orderId (balance.unitsUsed + units))
    Tx.modify (UsageDb.addRecord ⟨orderId, requestId, endpoint, units, .ok⟩)
    pure (.charged units (balance.unitsTotal - (balance.unitsUsed + units)))

/-- `refund_usage`. Commits. -/
def refundUsage (orderId : ℕ) (units : ℤ) (requestId : ℕ) (endpoint : String) : UsageTx Unit := do
  Tx.require (1 ≤ units) (.http 422 "Số đơn vị hoàn phải lớn hơn 0")
  let balance ← Tx.lock orderId fun d => d.balances.get? orderId
  match balance with
  | none => pure ()
  | some balance => do
    Tx.modify (UsageDb.setUsed orderId (max 0 (balance.unitsUsed - units)))
    Tx.modify (UsageDb.addRecord ⟨orderId, requestId, endpoint, units, .refunded⟩)

/-! ### Concurrency -/

/-- Nobody changes the balances whose rows one has locked. -/
def usageRely : Rely UsageDb ℕ where
  rel L d d' := ∀ o ∈ L, d'.balances.get? o = d.balances.get? o
  refl _ _ _ _ := rfl
  trans h h' o ho := (h' o ho).trans (h o ho)
  anti hL h o ho := h o (hL ho)

/-- Both functions read nothing but the row they lock, so they do at their commit what they would
have done alone. -/
theorem chargeUsage_serial (now o : ℕ) (endpoint : String) (units : Option ℤ) (c : ℕ)
    (d : UsageDb) : (chargeUsage now o endpoint units c).Serial usageRely (fun _ => True)
      (fun _ L => o ∈ L) id [] d := by
  refine Tx.serial_lock (R := usageRely) (fun d d' h => h o List.mem_cons_self) (fun balance => ?_) d
  refine .bind (Tx.straight_getOrElse _ _) fun b => .bind (Tx.straight_require _ _) fun _ => ?_
  split_ifs <;> exact trivial

theorem refundUsage_serial (o : ℕ) (units : ℤ) (c : ℕ) (endpoint : String) (d : UsageDb) :
    (refundUsage o units c endpoint).Serial usageRely (fun _ => True) (fun _ L => o ∈ L) id [] d := by
  rw [refundUsage, Tx.require]
  split_ifs with hu
  swap
  · exact trivial
  refine Tx.serial_lock (R := usageRely) (fun d d' h => h o List.mem_cons_self) (fun balance => ?_) d
  rcases balance with _ | b <;> exact trivial

/-! ### Runs of the two functions -/

section Runs

variable {now o c : ℕ} {endpoint : String} {d d' : UsageDb}

/-- **What a charge does.** -/
theorem chargeUsage_cases {units : Option ℤ} {r : Charge}
    (h : (chargeUsage now o endpoint units c).run d = .ok (r, d')) :
    ∃ b u, d.balances.get? o = some b ∧ 1 ≤ u ∧
      ((r = .charged u (b.unitsTotal - (b.unitsUsed + u)) ∧ b.unitsUsed + u ≤ b.unitsTotal ∧
          d' = (d.setUsed o (b.unitsUsed + u)).addRecord ⟨o, c, endpoint, u, .ok⟩) ∨
        (r = .expired ∧ d' = d.addRecord ⟨o, c, endpoint, u, .rejectedExpired⟩) ∨
        (r = .exceeded ∧ d' = d.addRecord ⟨o, c, endpoint, u, .rejectedQuota⟩)) := by
  simp only [chargeUsage, Tx.run_bind_eq_ok, Tx.run_lock, Except.ok.injEq, Prod.mk.injEq,
    Tx.run_getOrElse_eq_ok, Tx.run_require_eq_ok] at h
  obtain ⟨_, _, ⟨rfl, rfl⟩, b, _, ⟨hb, rfl⟩, _, _, ⟨hu, rfl⟩, h⟩ := h
  refine ⟨b, _, hb, hu, ?_⟩
  split_ifs at h with hexp hquota
  · simp only [Tx.run_bind_eq_ok, Tx.run_modify, Tx.run_pure, Except.ok.injEq, Prod.mk.injEq] at h
    obtain ⟨_, _, ⟨-, rfl⟩, rfl, rfl⟩ := h
    exact Or.inr (Or.inl ⟨rfl, rfl⟩)
  · simp only [Tx.run_bind_eq_ok, Tx.run_modify, Tx.run_pure, Except.ok.injEq, Prod.mk.injEq] at h
    obtain ⟨_, _, ⟨-, rfl⟩, rfl, rfl⟩ := h
    exact Or.inr (Or.inr ⟨rfl, rfl⟩)
  · simp only [Tx.run_bind_eq_ok, Tx.run_modify, Tx.run_pure, Except.ok.injEq, Prod.mk.injEq] at h
    obtain ⟨_, _, ⟨-, rfl⟩, _, _, ⟨-, rfl⟩, rfl, rfl⟩ := h
    exact Or.inl ⟨rfl, not_lt.mp hquota, rfl⟩

/-- **What a refund does** to an order that has a balance. -/
theorem refundUsage_run {u : ℤ} {b : OrderBalance} (hu : 1 ≤ u) (hb : d.balances.get? o = some b) :
    (refundUsage o u c endpoint).run d = .ok ((),
      (d.setUsed o (max 0 (b.unitsUsed - u))).addRecord ⟨o, c, endpoint, u, .refunded⟩) := by
  simp only [refundUsage, Tx.run_bind_eq_ok, Tx.run_require_eq_ok, Tx.run_lock, Except.ok.injEq,
    Prod.mk.injEq]
  refine ⟨(), d, ⟨hu, rfl⟩, _, d, ⟨rfl, rfl⟩, ?_⟩
  rw [hb]
  rfl

end Runs

end Marketplace
