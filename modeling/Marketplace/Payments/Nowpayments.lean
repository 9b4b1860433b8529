import Marketplace.Ledger.Reference
import Marketplace.Model.Types
import Marketplace.Python.Json
import Marketplace.Resources.Stock
import Marketplace.Sql.Table

/-!
# Deposits over NOWPayments

The crypto part of `payments/service.py`. A deposit is paid on an invoice that NOWPayments hosts; a
payment on it that is `finished` reaches the platform as a notification (`handleNowpaymentsIpn`) or
is looked up by a reconciliation (`reconcileNowpayments`), and both give it to
`tryCreditNowpaymentsFinished`, with the row of the deposit locked. Each delivery is one transaction.

What the provider sends is arbitrary JSON. The columns of the database refuse some of it: a
transaction that assigns such a value is lost as a whole, which is the `none` of the functions
below. Incidents, notifications and the log are not modelled, nor is the check of the live exchange rate, which
only raises an incident.
-/

namespace Marketplace

namespace Nowpayments

open Python Text Sql

/-- The items of a JSON object. -/
abbrev Fields := List (String × Json)

/-- What the code rests on beyond this text: Python's values and `str.lower`, the finite number a
text is for `Decimal`, the SHA-256 of a payload in canonical form, and whether a payload can be
stored as JSONB. -/
structure Runtime where
  py : Language
  lower : String → String
  decimal : String → Option ℚ
  payloadHash : Fields → String
  jsonb : Fields → Bool

/-! ### Columns -/

/-- `String(n)` -/
def varchar (n : ℕ) (s : String) : Option String :=
  if s.length ≤ n ∧ '\x00' ∉ s.toList then some s else none

/-- `Numeric(24, 8)`: rounded to eight digits, half away from zero. -/
def numeric (q : ℚ) : Option ℚ :=
  let units : ℤ := if q < 0 then -⌊-q * 10 ^ 8 + 1 / 2⌋ else ⌊q * 10 ^ 8 + 1 / 2⌋
  if |units| < 10 ^ 24 then some (units / 10 ^ 8) else none

/-- `Integer` -/
def integer (n : ℤ) : Bool := -2 ^ 31 ≤ n && n < 2 ^ 31

/-- `DepositIntent`, the columns of a deposit in crypto. -/
structure Intent where
  accountId : ℕ
  amount : ℤ
  status : DepositIntentStatus
  provider : DepositProvider
  nowInvoiceId : Option String
  payCurrency : Option String
  nowPaymentId : Option String
  payAmount : Option ℚ
  paidAmount : Option ℤ
  paidCryptoAmount : Option ℚ
  outcomeAmount : Option ℚ
  outcomeCurrency : Option String
  externalReference : Option String
  deriving DecidableEq, Repr

/-- A text that is set and not empty. -/
def given (s : Option String) : Option String := s.filter (· ≠ "")

/-- A deposit's row of `transactions`. -/
structure Credit where
  accountId : ℕ
  amount : ℤ
  referenceId : String
  deriving DecidableEq, Repr

/-- `NowpaymentsIpnEvent` -/
structure IpnEvent where
  paymentId : String
  paymentStatus : String
  orderId : Option String
  payloadHash : String
  deriving DecidableEq, Repr

/-- The tables the deposits touch; a wallet is its available balance. -/
@[ext] structure Store where
  intents : Table ℕ Intent
  wallets : Table ℕ ℤ
  transactions : List Credit
  ipnEvents : List IpnEvent

/-- Another deposit carries the payment: `now_payment_id` is a unique column. -/
def Store.paymentTaken (s : Store) (id : ℕ) (paymentId : String) : Bool :=
  s.intents.rows.any fun r => r.1 ≠ id && r.2.nowPaymentId = some paymentId

/-- The event is in the journal, by its unique key. -/
def Store.journaled (s : Store) (e : IpnEvent) : Bool :=
  s.ipnEvents.any fun e' =>
    e'.paymentId = e.paymentId && e'.paymentStatus = e.paymentStatus && e'.payloadHash = e.payloadHash

/-- Rewrite the row of a deposit. -/
def Store.putIntent (id : ℕ) (i : Intent) (s : Store) : Store :=
  { s with intents := s.intents.modify id fun _ => i }

/-- Add to an account's wallet, creating it where there is none. -/
def deposit (accountId : ℕ) (amount : ℤ) (wallets : Table ℕ ℤ) : Table ℕ ℤ :=
  match wallets.get? accountId with
  | some _ => wallets.modify accountId (· + amount)
  | none => wallets.insert accountId amount

namespace Runtime

variable (rt : Runtime)

/-! ### Reading a payload -/

/-- `str(payload.get(key) or "")` -/
def text (key : String) (p : Fields) : String :=
  let v := Json.get p key
  if v.truthy then rt.py.str v else ""

/-- `str(payload.get("payment_id") or "").strip()` -/
def paymentId (p : Fields) : String := strip (rt.text "payment_id" p)

/-- `str(payload.get("invoice_id") or "").strip()` -/
def invoiceId (p : Fields) : String := strip (rt.text "invoice_id" p)

/-- `str(payload.get("pay_currency") or "").lower().strip()` -/
def payCurrency (p : Fields) : String := strip (rt.lower (rt.text "pay_currency" p))

/-- `str(payload.get("payment_status") or "").strip().lower()` -/
def paymentStatus (p : Fields) : String := rt.lower (strip (rt.text "payment_status" p))

/-- `str(raw) if raw is not None else None`, of the order id. -/
def orderIdRaw (p : Fields) : Option String :=
  let v := Json.get p "order_id"
  if v.isNull then none else some (rt.py.str v)

/-- `parse_decimal` -/
def parseDecimal : Json → Option ℚ
  | .null | .bool _ => none
  | v => rt.decimal (rt.py.str v)

/-- `parse_order_id` -/
def parseOrderId : Option String → Option ℕ
  | none => none
  | some orderId =>
    let s := (strip orderId).toList
    if s.take 4 = "DEP-".toList ∧ rt.py.digits.allDigits (s.drop 4) then
      -- digits alone, so that the number is not negative
      (rt.py.intOfText (s.drop 4)).map Int.toNat
    else none

end Runtime

/-- `format_order_id` -/
def formatOrderId (intentId : ℕ) : String := "DEP-" ++ toString intentId

/-- `fx.underpay` -/
def underpay (actuallyPaid payAmount : ℚ) : Bool := actuallyPaid < payAmount

/-! ### Crediting a finished payment -/

/-- The `reason_code` of the incident a payment is rejected with; `alreadyPaid` raises none. -/
inductive Rejection
  | providerMismatch | invoiceIdMismatch | paymentIdMismatch | orderIdMismatch | currencyMismatch
  | actuallyPaidInvalid | payAmountInvalid | underpay | alreadyPaid | doublePayment
  deriving DecidableEq, Repr

/-- What `apply_deposit_paid` is told about a payment, beside its amount. -/
structure Payment where
  paidCryptoAmount : ℚ
  outcomeAmount : Option ℚ
  outcomeCurrency : Option String

/-- `if intent.pay_amount is None: intent.pay_amount = required_pay_amount` -/
def setPayAmount (required : ℚ) (i : Intent) : Option Intent :=
  match i.payAmount with
  | some _ => some i
  | none => (numeric required).map fun a => { i with payAmount := some a }

/-- Assign a value to a column where there is one. -/
def assignGiven {α : Type} (column : α → Option α) (value old : Option α) : Option (Option α) :=
  match value with
  | some v => (column v).map some
  | none => some old

/-- `apply_deposit_paid`, for this provider. -/
def applyDepositPaid (intentId : ℕ) (i : Intent) (reference : String) (pay : Payment) (s : Store) :
    Option Store := do
  guard (integer ((s.wallets.get? i.accountId).getD 0 + i.amount) = true)
  let referenceId ← varchar 255
    (depositReference intentId (if reference = "" then none else some reference))
  guard (0 < i.amount ∧ ∀ t ∈ s.transactions, t.referenceId ≠ referenceId)
  let externalReference ← varchar 128 reference
  let paidCryptoAmount ← numeric pay.paidCryptoAmount
  let outcomeAmount ← assignGiven numeric pay.outcomeAmount i.outcomeAmount
  let outcomeCurrency ← assignGiven (varchar 32) pay.outcomeCurrency i.outcomeCurrency
  return { s with
    intents := s.intents.modify intentId fun _ =>
      { i with
        status := .paid, paidAmount := some i.amount, externalReference := some externalReference,
        paidCryptoAmount := some paidCryptoAmount, outcomeAmount := outcomeAmount,
        outcomeCurrency := outcomeCurrency }
    wallets := deposit i.accountId i.amount s.wallets
    transactions := s.transactions ++ [⟨i.accountId, i.amount, referenceId⟩] }

namespace Runtime

variable (rt : Runtime)

/-- `currency_matches`: any USDT network on a hosted invoice, the pinned currency elsewhere. -/
def currencyMatches (i : Intent) (currency : String) : Bool :=
  if (given i.nowInvoiceId).isSome then "usdt".toList.isPrefixOf currency.toList
  else
    let expected := strip (rt.lower (i.payCurrency.getD ""))
    expected ≠ "" && currency = expected

/-- `_try_credit_nowpayments_finished`, up to where the payment is bound to the deposit. -/
def checkIdentity (intentId : ℕ) (i : Intent) (p : Fields) : Option Rejection :=
  if i.provider ≠ .nowpayments then some .providerMismatch
  else if (given i.nowInvoiceId).any (rt.invoiceId p ≠ ·) then some .invoiceIdMismatch
  else if (given i.nowPaymentId).any (rt.paymentId p ≠ ·) then some .paymentIdMismatch
  else if rt.text "order_id" p = "" ∨ rt.text "order_id" p ≠ formatOrderId intentId then
    some .orderIdMismatch
  else if rt.payCurrency p = "" ∨ rt.currencyMatches i (rt.payCurrency p) = false then
    some .currencyMismatch
  else none

/-- The first finished payment is bound to the deposit, before its amounts are looked at. -/
def bindPayment (intentId : ℕ) (i : Intent) (p : Fields) (s : Store) : Option Intent :=
  if (given i.nowPaymentId).isSome then some i
  else do
    let paymentId ← varchar 64 (rt.paymentId p)
    let payCurrency ← varchar 32 (rt.payCurrency p)
    guard (s.paymentTaken intentId paymentId = false)
    return { i with nowPaymentId := some paymentId, payCurrency := some payCurrency }

/-- `intent.pay_amount or parse_decimal(payload.get("pay_amount"))` -/
def requiredPayAmount (i : Intent) (p : Fields) : Option ℚ :=
  match i.payAmount with
  | some a => if a ≠ 0 then some a else rt.parseDecimal (Json.get p "pay_amount")
  | none => rt.parseDecimal (Json.get p "pay_amount")

/-- The amounts of a payment: what was paid covers what is required. -/
def checkAmounts (i : Intent) (p : Fields) : Except Rejection (ℚ × ℚ) :=
  match rt.parseDecimal (Json.get p "actually_paid") with
  | none => .error .actuallyPaidInvalid
  | some paid =>
    if paid ≤ 0 then .error .actuallyPaidInvalid
    else
      match rt.requiredPayAmount i p with
      | none => .error .payAmountInvalid
      | some required =>
        if required ≤ 0 then .error .payAmountInvalid
        else if Nowpayments.underpay paid required then .error .underpay
        else .ok (paid, required)

/-- What a payment says about its outcome. -/
def payment (paid : ℚ) (p : Fields) : Payment :=
  ⟨paid, rt.parseDecimal (Json.get p "outcome_amount"),
    let v := Json.get p "outcome_currency"
    if v.isNull then none else some (rt.lower (rt.py.str v))⟩

/-- A payment whose amounts are in order, on a deposit it is bound to: credited unless the deposit is
paid, whatever it was before. -/
def creditCovered (intentId : ℕ) (i : Intent) (p : Fields) (paid : ℚ) (s : Store) :
    Option (Store × Except Rejection Unit) :=
  if i.status = .paid then
    let already := (given i.externalReference).or (given i.nowPaymentId)
    some (s.putIntent intentId i,
      .error (if already = some (rt.paymentId p) then .alreadyPaid else .doublePayment))
  else
    (applyDepositPaid intentId i (rt.paymentId p) (rt.payment paid p) s).map (·, .ok ())

/-- `_try_credit_nowpayments_finished` and the commit after it. -/
def tryCreditNowpaymentsFinished (intentId : ℕ) (i : Intent) (p : Fields) (s : Store) :
    Option (Store × Except Rejection Unit) :=
  match rt.checkIdentity intentId i p with
  | some r => some (s, .error r)
  | none => do
    let i ← rt.bindPayment intentId i p s
    match rt.checkAmounts i p with
    | .error r => some (s.putIntent intentId i, .error r)
    | .ok (paid, required) => do
      let i ← setPayAmount required i
      rt.creditCovered intentId i p paid s

/-! ### Notifications -/

/-- The journal row of a notification. -/
def event (p : Fields) : IpnEvent :=
  ⟨rt.paymentId p, rt.paymentStatus p, rt.orderIdRaw p, rt.payloadHash p⟩

/-- The columns of the journal hold the notification. -/
def eventFits (p : Fields) : Bool :=
  (varchar 64 (rt.paymentId p)).isSome && (varchar 32 (rt.paymentStatus p)).isSome &&
    ((rt.orderIdRaw p).all fun o => (varchar 64 o).isSome) && rt.jsonb p

/-- The `note` of a credited or rejected payment. -/
def finishedNote : Except Rejection Unit → String
  | .ok () => "credited"
  | .error _ => "finished but not credited"

/-- A finished payment, from its order id on. -/
def handleFinished (p : Fields) (s : Store) : Option (Store × String) :=
  match rt.parseOrderId (rt.orderIdRaw p) with
  | none => some (s, "unparseable order_id")
  | some n =>
    if integer n = false then none
    else
      match s.intents.get? n with
      | none => some (s, "unknown intent")
      | some i =>
        (rt.tryCreditNowpaymentsFinished n i p s).map fun r => (r.1, finishedNote r.2)

/-- `handle_nowpayments_ipn` -/
def handleNowpaymentsIpn (p : Fields) (s : Store) : Option (Store × String) :=
  if rt.paymentId p = "" ∨ rt.paymentStatus p = "" then some (s, "missing payment_id/status")
  else if rt.eventFits p = false then none
  else if s.journaled (rt.event p) then some (s, "duplicate ipn")
  else
    let s := { s with ipnEvents := s.ipnEvents ++ [rt.event p] }
    if rt.paymentStatus p ≠ "finished" then
      some (s, "status=" ++ rt.paymentStatus p ++ " — no credit")
    else rt.handleFinished p s

/-! ### Reconciliation -/

/-- `str(info.get("payment_status") or "").lower() or None` -/
def candidateStatus (info : Fields) : Option String :=
  given (some (rt.lower (rt.text "payment_status" info)))

/-- A finished payment the provider was asked for, under a fresh lock of the row. -/
def creditCandidate (intentId : ℕ) (info : Fields) (s : Store) :
    Option (Store × Except Rejection Unit) :=
  match s.intents.get? intentId with
  | none => none
  | some i =>
    if i.status = .paid then some (s, .error .alreadyPaid)
    else rt.tryCreditNowpaymentsFinished intentId i info s

end Runtime

/-- The provider's API, for one call of the reconciliation: `none` is one of its two errors. -/
structure Api where
  isReconciliationConfigured : Bool
  isConfigured : Bool
  listPaymentsByInvoice : String → Option (List Fields)
  getPayment : String → Option Fields

/-- What the loop over the payments of an invoice has seen. -/
structure Seen where
  providerStatus : Option String := none
  providerError : Bool := false
  validationFailed : Bool := false
  creditedHere : Bool := false

/-- The status of one more payment; `finished` is kept. -/
def Seen.see (status : Option String) (seen : Seen) : Seen :=
  if status.isSome ∧ (seen.providerStatus ≠ some "finished" ∨ status = some "finished") then
    { seen with providerStatus := status }
  else seen

/-- `_reconcile_outcome` -/
structure Outcome where
  status : DepositIntentStatus
  providerStatus : Option String
  reconcileResult : String
  deriving DecidableEq, Repr

namespace Runtime

variable (rt : Runtime)

/-- The id of a candidate: `candidate.get("payment_id") or candidate.get("id") or ""`. -/
def candidateId (candidate : Fields) : String :=
  let id := rt.text "payment_id" candidate
  strip (if id = "" then rt.text "id" candidate else id)

/-- The loop over the payments of an invoice, a transaction each; `none` where it raises. -/
def reconcileLoop (api : Api) (intentId : ℕ) :
    List Fields → Seen → Store → Store × Option Seen
  | [], seen, s => (s, some seen)
  | candidate :: candidates, seen, s =>
    if rt.candidateId candidate = "" then reconcileLoop api intentId candidates seen s
    else
      match api.getPayment (rt.candidateId candidate) with
      | none => reconcileLoop api intentId candidates { seen with providerError := true } s
      | some info =>
        let seen := seen.see (rt.candidateStatus info)
        if rt.candidateStatus info ≠ some "finished" then
          reconcileLoop api intentId candidates seen s
        else
          match rt.creditCandidate intentId info s with
          | none => (s, none)
          | some (s', .ok ()) => (s', some { seen with creditedHere := true })
          | some (s', .error _) =>
            if ((s.intents.get? intentId).map Intent.status) = some .paid then (s, some seen)
            else reconcileLoop api intentId candidates { seen with validationFailed := true } s'

/-- The result of the loop, with the status the deposit has after it. -/
def invoiceOutcome (seen : Seen) (status : DepositIntentStatus) : Outcome :=
  ⟨status, seen.providerStatus,
    if status = .paid then if seen.creditedHere then "credited" else "already_paid"
    else if seen.validationFailed then "validation_failed"
    else if seen.providerStatus.isSome then "checked"
    else if seen.providerError then "provider_error"
    else "not_found"⟩

/-- The branch for a deposit no payment is bound to. -/
def reconcileInvoice (api : Api) (intentId : ℕ) (status : DepositIntentStatus) (invoiceId : String)
    (s : Store) : Store × Option Outcome :=
  if api.isReconciliationConfigured = false then (s, some ⟨status, none, "not_configured"⟩)
  else
    match api.listPaymentsByInvoice invoiceId with
    | none => (s, some ⟨status, none, "provider_error"⟩)
    | some candidates =>
      let (s', seen) := rt.reconcileLoop api intentId candidates {} s
      (s', do
        let seen ← seen
        let i ← s'.intents.get? intentId
        return invoiceOutcome seen i.status)

/-- The branch for a deposit a payment is bound to: only that payment is asked for. -/
def reconcilePayment (api : Api) (intentId : ℕ) (status : DepositIntentStatus) (paymentId : String)
    (s : Store) : Store × Option Outcome :=
  if api.isConfigured = false then (s, some ⟨status, none, "not_configured"⟩)
  else
    match api.getPayment paymentId with
    | none => (s, some ⟨status, none, "provider_error"⟩)
    | some info =>
      let done (s' : Store) (result : String) : Store × Option Outcome :=
        (s', (s'.intents.get? intentId).map fun i => ⟨i.status, rt.candidateStatus info, result⟩)
      if rt.candidateStatus info ≠ some "finished" then done s "checked"
      else
        match rt.creditCandidate intentId info s with
        | none => (s, none)
        | some (s', .ok ()) => done s' "credited"
        | some (s', .error _) =>
          done s' (if ((s.intents.get? intentId).map Intent.status) = some .paid then "already_paid"
            else "validation_failed")

/-- `_reconcile_nowpayments` -/
def reconcileNowpayments (api : Api) (intentId : ℕ) (i : Intent) (s : Store) :
    Store × Option Outcome :=
  let requestedPaymentId := strip (i.nowPaymentId.getD "")
  let requestedInvoiceId := strip (i.nowInvoiceId.getD "")
  if requestedPaymentId = "" ∧ requestedInvoiceId ≠ "" then
    rt.reconcileInvoice api intentId i.status requestedInvoiceId s
  else if requestedPaymentId = "" then (s, some ⟨i.status, none, "not_found"⟩)
  else rt.reconcilePayment api intentId i.status requestedPaymentId s

end Runtime

end Nowpayments

end Marketplace
