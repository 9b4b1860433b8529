import Marketplace.Usage.Service
import Marketplace.Resources.Service
import Marketplace.Sql.Zoom

/-!
# Gateway calls

`gateway/forward.py` and the checks of the two routes in `gateway/router.py` that lead to it. A call
is checked, charged, forwarded, and refunded if it did not land; charge and refund are transactions
of their own and the forwarding in between takes as long as it takes, so any number of calls are under
way at once.

`CallPhase` is where a call is, and `gatewayCode` the transactions that move it on: what `forward_call`
does between two of them it does without the database.

A call whose charge raises stays `accepted`: nothing of it is in the books, and nothing will be.
-/

namespace Marketplace

open Sql

/-- `MAX_RESPONSE_BYTES`. -/
def maxResponseBytes : ℕ := 2 * 1024 * 1024

/-- An entry of `endpoint_map`. -/
inductive EndpointEntry
  /-- The upstream path; the caller's method is forwarded. -/
  | path (path : String)
  /-- The path and the method that is fixed for it. -/
  | route (path : String) (method : Option String)
  deriving DecidableEq, Repr

/-- What the gateway reads of a provider. -/
structure GatewayProvider where
  /-- `spec.gateway_forward`. -/
  gatewayForward : Bool
  /-- `get_adapter` does not answer that the source is paused. -/
  isAvailable : Bool
  /-- The adapter is a `RealApiAdapter`. -/
  isRealApi : Bool
  endpointMap : List (String × EndpointEntry)
  rateLimitPerMinute : ℕ
  chargeOnlySuccess : Bool
  deriving DecidableEq, Repr

/-- `EndpointRoute`. -/
structure EndpointRoute where
  path : String
  method : Option String
  deriving DecidableEq, Repr

/-- `resolve_endpoint`. -/
def resolveEndpoint (provider : GatewayProvider) (endpoint : String) :
    Except Abort EndpointRoute :=
  if provider.endpointMap = [] then .ok ⟨"/v1/" ++ endpoint, none⟩
  else
    match provider.endpointMap.lookup endpoint with
    | none => .error (.http 404 ("Provider không hỗ trợ endpoint '" ++ endpoint ++ "'"))
    | some (.path path) => .ok ⟨path, none⟩
    | some (.route path method) => .ok ⟨path, nonempty (method.map String.toUpper)⟩

/-- `load_gateway_adapter`, for the provider the order was provisioned from. -/
def loadGatewayAdapter (provider : Option (Option GatewayProvider)) :
    Except Abort GatewayProvider :=
  match provider with
  | none => .error (.http 400 "Đơn hàng này chưa được cấp phát qua gateway")
  | some none => .error (.http 400 "Sản phẩm này không hỗ trợ gọi qua gateway")
  | some (some provider) =>
    if provider.gatewayForward = false then
      .error (.http 400 "Sản phẩm này không hỗ trợ gọi qua gateway")
    else if provider.isAvailable = false then .error (.http 503 "Nguồn đang tạm dừng — thử lại sau")
    else if provider.isRealApi = false then
      .error (.http 400 "Sản phẩm này không hỗ trợ gọi qua gateway")
    else .ok provider

/-- A call that reached `forward_call`. -/
structure GatewayCall where
  orderId : ℕ
  endpoint : String
  method : String
  /-- The provider of the order's snapshot; `none` where the order has none. -/
  provider : Option (Option GatewayProvider)
  /-- `check_rate_limit` for the order lets the call pass. -/
  withinRate : Bool
  deriving DecidableEq, Repr

/-- The part of `forward_call` before the charge. -/
def GatewayCall.check (call : GatewayCall) : Except Abort GatewayProvider := do
  let provider ← loadGatewayAdapter call.provider
  let route ← resolveEndpoint provider call.endpoint
  if (route.method.any fun m => decide (call.method.toUpper ≠ m)) = true then
    .error (.http 405 ("Endpoint '" ++ call.endpoint ++ "' chỉ nhận " ++ route.method.getD ""))
  else if 0 < provider.rateLimitPerMinute ∧ call.withinRate = false then
    .error (.http 429 "Gọi quá nhanh — thử lại sau ít phút")
  else pure provider

/-- What the upstream call comes to. -/
inductive UpstreamOutcome
  /-- The adapter raised. -/
  | transport
  /-- A response with this status and this many bytes. -/
  | response (statusCode size : ℕ)
  deriving DecidableEq, Repr

/-- The outcomes after which `forward_call` refunds. -/
def UpstreamOutcome.refunds (provider : GatewayProvider) : UpstreamOutcome → Bool
  | .transport => true
  | .response statusCode size =>
    decide (maxResponseBytes < size) || (decide (400 ≤ statusCode) && provider.chargeOnlySuccess)

/-! ### Calls under way -/

/-- Where a call is. A call that has not been made has no phase. -/
inductive CallPhase
  /-- It passed the checks. -/
  | accepted (call : GatewayCall) (provider : GatewayProvider)
  /-- It was charged these units and is with the upstream. -/
  | inFlight (call : GatewayCall) (provider : GatewayProvider) (units : ℤ)
  /-- It came back with an outcome that is refunded. -/
  | refunding (call : GatewayCall) (provider : GatewayProvider) (units : ℤ)
      (outcome : UpstreamOutcome)
  /-- It is over. -/
  | forwarded (call : GatewayCall) (provider : GatewayProvider) (units : ℤ)
      (outcome : UpstreamOutcome)
  /-- A `charge_usage` outside the gateway took these units. -/
  | charged (orderId : ℕ) (units : ℤ)
  /-- It was answered with an error and nothing was charged. -/
  | rejected
  deriving DecidableEq, Repr

/-- The books and where each call is. -/
structure GatewayState where
  usage : UsageDb
  calls : ℕ → Option CallPhase

namespace GatewayState

/-- The tables of the usage module. -/
def books : Part GatewayState UsageDb where
  get := usage
  set u s := { s with usage := u }
  get_set _ _ := rfl
  set_get _ := rfl
  set_set _ _ _ := rfl

/-- A call moves on. -/
@[simps] def move (c : ℕ) (p : CallPhase) (s : GatewayState) : GatewayState :=
  { s with calls := Function.update s.calls c (some p) }

end GatewayState

/-- What a session locks: the balance of an order, or a call, which only its own process
moves. -/
inductive GatewayKey
  | balance (orderId : ℕ)
  | call (c : ℕ)
  deriving DecidableEq, Repr

/-- A transaction of the gateway. -/
abbrev GatewayTx (α : Type) : Type := Sql.Tx GatewayState GatewayKey Abort α

/-- A function of the usage module, run by the gateway. -/
def inBooks {α : Type} (t : UsageTx α) : GatewayTx α := t.zoom GatewayState.books .balance

/-- What a call has become after `charge_usage` answered. -/
def Charge.phase (charged : ℤ → CallPhase) : Charge → CallPhase
  | .charged units _ => charged units
  | .expired => .rejected
  | .exceeded => .rejected

/-- The steps the processes take, one transaction each. A process knows its call, and goes on with it
only from where it left it. -/
inductive GatewayClient
  /-- A request package is delivered: `create_balance_for_order`. -/
  | deliver (orderId quantity : ℕ) (endpointRates : List (String × ℤ)) (defaultRate : Option ℤ)
  /-- `forward_call` up to the charge. -/
  | arrive (c : ℕ) (call : GatewayCall)
  /-- `forward_call` charges. -/
  | charge (c now : ℕ) (call : GatewayCall) (provider : GatewayProvider)
  /-- The upstream call of `forward_call` is over. -/
  | answer (c : ℕ) (call : GatewayCall) (provider : GatewayProvider) (units : ℤ)
      (outcome : UpstreamOutcome)
  /-- `forward_call` refunds. -/
  | refund (c : ℕ) (call : GatewayCall) (provider : GatewayProvider) (units : ℤ)
      (outcome : UpstreamOutcome)
  /-- `charge_usage` without the gateway. -/
  | direct (c now orderId : ℕ) (endpoint : String) (units : Option ℤ)
  deriving DecidableEq, Repr

/-- The next step of a call that is in phase `p`. -/
def fromPhase (c : ℕ) (p : Option CallPhase) (next : GatewayTx Unit) : GatewayTx Unit := do
  let phase ← Tx.lock (.call c) fun s => s.calls c
  Tx.require (phase = p) .notCommitted
  next

/-- What a call has become after the checks. -/
def GatewayCall.checked (call : GatewayCall) : CallPhase :=
  match call.check with
  | .ok provider => .accepted call provider
  | .error _ => .rejected

/-- What a call has become after the upstream answered. -/
def UpstreamOutcome.phase (outcome : UpstreamOutcome) (call : GatewayCall)
    (provider : GatewayProvider) (units : ℤ) : CallPhase :=
  if outcome.refunds provider = true then .refunding call provider units outcome
  else .forwarded call provider units outcome

/-- What a client runs. -/
def gatewayCode : GatewayClient → GatewayTx Unit
  | .deliver orderId quantity endpointRates defaultRate => do
    let balance ← Tx.lock (.balance orderId) fun s => s.usage.balances.get? orderId
    Tx.require (balance = none ∧ 0 < quantity) .integrity
    inBooks (createBalanceForOrder orderId quantity endpointRates defaultRate)
  | .arrive c call => fromPhase c none (Tx.modify (GatewayState.move c call.checked))
  | .charge c now call provider => fromPhase c (some (.accepted call provider)) do
      let r ← inBooks (chargeUsage now call.orderId call.endpoint none c)
      Tx.modify (GatewayState.move c (r.phase (.inFlight call provider)))
  | .answer c call provider units outcome => fromPhase c (some (.inFlight call provider units))
      (Tx.modify (GatewayState.move c (outcome.phase call provider units)))
  | .refund c call provider units outcome =>
    fromPhase c (some (.refunding call provider units outcome)) do
      inBooks (refundUsage call.orderId units c call.endpoint)
      Tx.modify (GatewayState.move c (.forwarded call provider units outcome))
  | .direct c now orderId endpoint units => fromPhase c none do
      let r ← inBooks (chargeUsage now orderId endpoint units c)
      Tx.modify (GatewayState.move c (r.phase (.charged orderId)))

end Marketplace
