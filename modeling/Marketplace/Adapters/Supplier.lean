import Marketplace.Adapters.Provisioning

/-!
# Suppliers without an idempotency key

The catalogue suppliers (`adapters/supplier.py`) and TopProxy's rotating keys
(`adapters/topproxy.py`). A second purchase request buys a second time, and nothing at the supplier
tells which order a purchase was for. What the platform remembers is a row of `provider_call_logs`,
written on a session of its own: a catalogue supplier's *before* the request leaves, and no request
without it; a key's *after* the request, and an error there is swallowed.

`Market.requests` lists the purchase requests that reached a supplier, each with the attempt that
sent it. Attempts are numbered for this; nothing in the code reads the number.
-/

namespace Marketplace.Adapters

open Sql

/-- `BUYER_MSG_GENERIC`. -/
def buyerMsgGeneric : String := "Không giao được hàng lúc này, đơn đã được hoàn tiền."

/-- The operation under which `_call_once` logs the purchase of a key. -/
def muaKeyxoayOperation : String := "mua_keyxoay"

/-- `PROXY_MAX_PER_ORDER`. -/
def proxyMaxPerOrder : ℕ := 50

/-- `order.user_config`, as `normalize_user_config` left it. -/
structure UserConfig where
  variantId : Option ℕ
  quantity : ℕ
  days : ℕ
  network : String
  type : String
  deriving DecidableEq, Repr

/-- A purchase request that reached a supplier. -/
structure PurchaseRequest where
  orderId : ℕ
  /-- The provision that sent it. -/
  attempt : ℕ
  deriving DecidableEq, Repr

/-- The suppliers. -/
structure Market where
  attempts : ℕ
  requests : List PurchaseRequest
  /-- `supplier_listings`: the external product of a package. -/
  listings : Table ℕ String

/-- Before the first request. -/
def Market.start (listings : Table ℕ String) : Market := ⟨0, [], listings⟩

/-- What a catalogue supplier's purchase comes to. -/
inductive PurchaseOutcome
  /-- The items, with the numbers of the stock rows made of them. -/
  | delivered (rows : List ℕ)
  /-- `_failure`. -/
  | refused (buyerMessage : String)
  /-- `SupplierUnavailableError` or `SupplierContractError`. -/
  | unclear
  /-- Any other exception. -/
  | raised
  deriving DecidableEq, Repr

/-- What the purchase of a key comes to. -/
inductive KeyReply
  | key (keyxoay : String)
  /-- An answer that is no key. -/
  | refused (buyerMessage : Option String)
  /-- `TopProxyUnavailableError` or `TopProxyContractError`. -/
  | unclear
  deriving DecidableEq, Repr

/-- What comes back from the suppliers. -/
inductive MarketAnswer
  | attempt (orderId n : ℕ)
  | balance (amount : Option ℚ)
  | purchase (reached : Bool) (outcome : PurchaseOutcome)
  | key (reached : Bool) (reply : KeyReply)
  /-- The text for the proxy a key gives at first, or for an old line. -/
  | proxy (text : Option String)

/-- The requests for an order. -/
def Supply.requestsOf (w : Supply Market) (orderId : ℕ) : List PurchaseRequest :=
  w.upstream.requests.filter fun r => r.orderId = orderId

/-- A request arrives. -/
def Supply.addRequest (r : PurchaseRequest) (w : Supply Market) : Supply Market :=
  w.setUpstream fun m => { m with requests := m.requests ++ [r] }

/-- Number an attempt. -/
def Supply.addAttempt (w : Supply Market) : Supply Market :=
  w.setUpstream fun m => { m with attempts := m.attempts + 1 }

/-- A task that provisions from these suppliers. -/
abbrev Buying (α : Type) : Type := Provisioning Market MarketAnswer α

/-- An attempt to provision an order begins. -/
def beginAttempt (orderId : ℕ) : Buying ℕ := do
  match ← Flow.ask (fun a w => match a with
    | .upstream (.attempt o n) => if o = orderId ∧ n = w.upstream.attempts then some w.addAttempt else none
    | _ => none) with
  | .upstream (.attempt _ n) => pure n
  | _ => pure 0

/-! ### Catalogue suppliers -/

/-- `fetch_balance`. -/
def fetchBalance : Buying (Option ℚ) := do
  match ← Flow.ask (fun a w => match a with
    | .upstream (.balance _) => some w
    | _ => none) with
  | .upstream (.balance amount) => pure amount
  | _ => pure none

/-- `purchase`: one request. One that never arrived ends as unclear or with an exception. -/
def purchase (orderId attempt : ℕ) : Buying PurchaseOutcome := do
  match ← Flow.ask (fun a w => match a with
    | .upstream (.purchase true _) => some (w.addRequest ⟨orderId, attempt⟩)
    | .upstream (.purchase false .unclear) => some w
    | .upstream (.purchase false .raised) => some w
    | _ => none) with
  | .upstream (.purchase _ outcome) => pure outcome
  | _ => pure .raised

/-- What a catalogue supplier is configured with. -/
structure CatalogSupplier where
  reportsBalance : Bool
  acceptsPartialDelivery : Bool
  deriving DecidableEq, Repr

/-- `_reconcile_ambiguous`: the balance decides which alert is raised, not what the buyer gets. -/
def reconcileAmbiguous (c : CatalogSupplier) : Buying ProvisionResult := do
  if c.reportsBalance = true then do
    let _ ← fetchBalance
    pure (.failure (some buyerMsgGeneric))
  else pure (.failure (some buyerMsgGeneric))

/-- `_purchase_flow` once the request may leave. -/
def sendPurchase (c : CatalogSupplier) (cfg : Settings) (orderId : ℕ) (order : Order)
    (variantId quantity attempt : ℕ) : Buying ProvisionResult := do
  match ← purchase orderId attempt with
  | .delivered rows =>
    Flow.ofTx (inDatabase (settlePurchase cfg orderId order.sellerId order.totalAmount rows variantId
      quantity c.acceptsPartialDelivery))
  | .refused message => pure (.failure (some message))
  | .unclear => reconcileAmbiguous c
  | .raised => Flow.throw (.valueError "purchase failed")

/-- The balance before the purchase, for a supplier that reports it. -/
def balanceBefore (c : CatalogSupplier) : Buying (Option ℚ) :=
  if c.reportsBalance = true then fetchBalance else pure none

/-- `_purchase_flow` from the balance on. -/
def dispatchPurchase (c : CatalogSupplier) (cfg : Settings) (orderId : ℕ) (order : Order)
    (variantId quantity attempt : ℕ) : Buying ProvisionResult := do
  let _ ← balanceBefore c
  let raised ← recordPurchaseDispatch orderId
  if raised = true then pure (.failure (some buyerMsgGeneric))
  else sendPurchase c cfg orderId order variantId quantity attempt

/-- `_purchase_flow`. -/
def purchaseFlow (c : CatalogSupplier) (user : UserConfig) (cfg : Settings) (orderId : ℕ)
    (order : Order) (attempt : ℕ) : Buying ProvisionResult := do
  let quantity := if user.quantity = 0 then 1 else user.quantity
  match user.variantId with
  | none => pure (.failure none)
  | some variantId => do
    let listing ← Flow.read fun w => w.upstream.listings.get? variantId
    match listing with
    | none => pure (.failure none)
    | some _ => do
      let existing ← Flow.read fun w => w.db.resources.rows.any fun r => r.2.orderId = some orderId
      if existing = true then pure (.lines 0)
      else dispatchPurchase c cfg orderId order variantId quantity attempt

/-! ### Rotating keys -/

/-- `_xoay_endpoint`: the purchase path for a number of days, and how many of its units. -/
def xoayEndpoint (days : ℕ) : Option (String × ℕ) :=
  if days < 1 then none
  else if days % 30 = 0 then some ("/proxyxoay/apimuathang.php", days / 30)
  else if days % 7 = 0 then some ("/proxyxoay/apimuatuan.php", days / 7)
  else some ("/proxyxoay/apimuangay.php", days)

/-- `_call_once` for one key: the request, then its row in the log. -/
def buyKey (orderId attempt : ℕ) : Buying KeyReply := do
  match ← Flow.ask (fun a w => match a with
    | .upstream (.key true _) => some (w.addRequest ⟨orderId, attempt⟩)
    | .upstream (.key false .unclear) => some w
    | _ => none) with
  | .upstream (.key _ reply) => do
    recordProviderCall orderId muaKeyxoayOperation
    pure reply
  | _ => pure .unclear

/-- The purchases of one attempt, one for each missing line, up to the first that fails; with the
failure. -/
def buyKeys (orderId attempt : ℕ) : List ℕ → Buying (List String × ProvisionResult)
  | [] => pure ([], .failure none)
  | _ :: rest => do
    match ← buyKey orderId attempt with
    | .key keyxoay => do
      let bought ← buyKeys orderId attempt rest
      pure (keyxoay :: bought.1, bought.2)
    | .refused message => pure ([], .failure message)
    | .unclear => pure ([], .failure none)

/-- The text of a line from outside: `_fetch_xoay_proxy` for a new key, `_rebuild_line_text` for an old
line. -/
def proxyText : Buying (Option String) := do
  match ← Flow.ask (fun a w => match a with
    | .upstream (.proxy _) => some w
    | _ => none) with
  | .upstream (.proxy text) => pure text
  | _ => pure none

/-- `_lines_result`. -/
def linesResult (orderId : ℕ) (lines : List (ℕ × Option String)) : ProvisionResult :=
  .text (composeDeliveredData ((lines.mergeSort fun a b => decide (a.1 ≤ b.1)).map fun l =>
    { orderId := orderId, lineNo := l.1, status := .allocated, refundAmountCap := none
      deliveredText := l.2 }))

/-- A line number and a text of every line. -/
def lineTexts (allocations : List (ℕ × ProxyAllocation)) : List (ℕ × Option String) :=
  allocations.map fun a => (a.2.lineNo, a.2.deliveredText)

/-- The hand-over text of a key no proxy was fetched for. -/
def keyPendingText : String := "Proxy đang được cấp — bấm “Đổi IP” ở trang Đơn hàng để nhận."

/-- The first proxy of a new key, unless fetching failed before. -/
def firstProxy (fetchOk : Bool) : Buying (Option String) :=
  if fetchOk = true then proxyText else pure none

/-- Bind the keys to the lines they were bought for; `fetchOk` says that no fetch failed so far. -/
def bindKeys (providerId orderId : ℕ) :
    Bool → List (ℕ × String) → Buying (List (ℕ × Option String))
  | _, [] => pure []
  | fetchOk, (lineNo, keyxoay) :: rest => do
    let fetched ← firstProxy fetchOk
    let text := fetched.getD keyPendingText
    let id ← nextval
    Flow.ofTx (bindPurchasedAssignment id ⟨orderId, lineNo, providerId, keyxoay, none⟩ (some text))
    let lines ← bindKeys providerId orderId (fetchOk && fetched.isSome) rest
    pure ((lineNo, some text) :: lines)

/-- `_provision_xoay`. -/
def provisionXoay (providerId : ℕ) (user : UserConfig) (orderId attempt : ℕ)
    (existing : List (ℕ × ProxyAllocation)) (missing : List ℕ) : Buying ProvisionResult := do
  match xoayEndpoint user.days with
  | none => pure (.failure none)
  | some _ => do
    let attempted ← Flow.read fun w => w.logged orderId muaKeyxoayOperation
    if attempted = true then
      if existing = [] then pure (.failure none) else pure (linesResult orderId (lineTexts existing))
    else do
      let bought ← buyKeys orderId attempt missing
      if bought.1 = [] then
        if existing = [] then pure bought.2 else pure (linesResult orderId (lineTexts existing))
      else do
        let lines ← bindKeys providerId orderId true (missing.zip bought.1)
        pure (linesResult orderId (lineTexts existing ++ lines))

/-- `_redeliver`. -/
def redeliver (orderId : ℕ) :
    List (ℕ × ProxyAllocation) → List (ℕ × Option String) → Buying ProvisionResult
  | [], lines => pure (linesResult orderId lines)
  | (_, a) :: rest, lines => do
    let text ← match nonempty a.deliveredText with
      | some text => pure (some text)
      | none => proxyText
    match text with
    | none => pure (.failure none)
    | some text => redeliver orderId rest (lines ++ [(a.lineNo, some text)])

/-- `TopProxyAdapter.provision` for rotating keys. -/
def provisionKeys (providerId : ℕ) (user : UserConfig) (orderId attempt : ℕ) :
    Buying ProvisionResult := do
  if 1 ≤ user.quantity ∧ user.quantity ≤ proxyMaxPerOrder then do
    let existing ← Flow.ofTx (inDatabase (listOrderAllocations orderId))
    let bound := existing.map fun a => a.2.lineNo
    let missing := (List.range' 1 user.quantity).filter fun n => n ∉ bound
    if missing = [] then redeliver orderId existing []
    else provisionXoay providerId user orderId attempt existing missing
  else pure (.failure none)

/-! ### Both -/

/-- Where an order's product comes from. -/
inductive Source
  | catalog (c : CatalogSupplier)
  | keys (providerId : ℕ)

/-- The order is bought from a catalogue supplier. -/
def Source.isCatalog : Source → Bool
  | .catalog _ => true
  | .keys _ => false

/-- The suppliers as the provisioning sees them: `source` is where an order's product comes from,
`user` its configuration. -/
def market (source : ℕ → Source) (user : ℕ → UserConfig) : Supplier Market MarketAnswer where
  provision cfg orderId order := do
    let attempt ← beginAttempt orderId
    match source orderId with
    | .catalog c => purchaseFlow c (user orderId) cfg orderId order attempt
    | .keys providerId => provisionKeys providerId (user orderId) orderId attempt
  deadline _ _ _ := pure ()
  catalog orderId := (source orderId).isCatalog

end Marketplace.Adapters
