import Marketplace.Python.Uuid

/-!
# Answers of DProxy

`adapters/dproxy.py`, the part that reads what the supplier sends: the rows of the inventory
(`parseAssignment`), the answer to a purchase (`parsePurchase`), and the call that buys one proxy
(`purchaseAssignment`). What is sent is arbitrary JSON. A row that is not in order must be skipped, as one bad
row may not break the inventory; an accepted purchase that is not in order must end as a
`DProxyPurchaseViolation`, as only then it is revoked.

Both parsers take the port by `int(port)` and catch `ValueError` and `TypeError`. A number beyond the
range of floats, such as `1e999`, is read as an infinity, and `int` refuses that with an
`OverflowError`, which is neither of the two. So `parsed_safely` says of each of them that it keeps
its promise exactly where the port it comes to is not infinite.

Of an accepted purchase `total_cost_usd` is kept as its text, from which `Decimal` takes it; plans,
quotes, rotation calls and the binding of what was bought are not modelled.
-/

namespace Marketplace

namespace Dproxy

open Python Text

variable (py : Language)

/-! ### Paths and moments -/

/-- `_LIST_PATH` -/
def listPath : String := "/api/v1/proxies/user"

/-- `expected_rotate_path` -/
def expectedRotatePath (externalId : String) : Except Error String :=
  match py.uuid externalId with
  | some n => .ok (listPath ++ "/" ++ uuidText n ++ "/rotate")
  | none => .error .valueError

/-- `dt.replace(tzinfo=timezone.utc)` -/
def atUtc (d : AwareDatetime) : AwareDatetime :=
  ⟨{ d.1 with utcoffset := 0 }, by
    obtain ⟨hy, hm, hd, hh, hmi, hs, hus, -⟩ := d.2
    exact ⟨hy, hm, hd, hh, hmi, hs, hus, by simp⟩⟩

/-- `_parse_dt` -/
def parseDt : Json → Option AwareDatetime
  | .str s =>
    if s = "" then none
    else (py.fromisoformat s).map fun read => if read.2 then read.1 else atUtc read.1
  | _ => none

/-! ### Rows of the inventory -/

/-- `ProxyAssignment`; what is passed on unread is whatever the supplier sent. -/
structure ProxyAssignment where
  externalId : String
  proxyId : Json
  host : String
  port : ℤ
  username : String
  password : String
  publicIp : Json
  assignedAt : Option AwareDatetime
  expiresAt : AwareDatetime
  online : Bool
  rotationAvailable : Bool
  rotationMode : Json
  cooldownSeconds : Option ℤ
  lastRotatedAt : Option AwareDatetime
  rotatePath : Option String
  country : Option String
  proxyType : Option String

/-- `cooldown if isinstance(cooldown, int) else None`: a truth value is an `int`. -/
def cooldownOf : Json → Option ℤ
  | .int n => some n
  | .bool b => some (if b then 1 else 0)
  | _ => none

/-- `value.get(key)` where the value is a dict, and `None` otherwise. -/
def getIn (value : Json) (key : String) : Json := Json.get (value.fields?.getD []) key

section Row

variable (item proxies : List (String × Json))

/-- Nothing that a row needs is missing. -/
def rowPresent : Bool :=
  (Json.get item "id").truthy && (Json.get item "username").truthy &&
    (Json.get item "password").truthy && (Json.get proxies "host").truthy &&
    !(Json.get proxies "port").isNull && (parseDt py (Json.get item "expired_at")).isSome

/-- The row itself, once its port, its id and its end are known. -/
def rowOf (port : ℤ) (id : ℕ) (expiresAt : AwareDatetime) : Except Error ProxyAssignment := do
  let externalId := uuidText id
  let rotation := Json.get proxies "rotation"
  let path ← expectedRotatePath py externalId
  let rotatePath := if (getIn rotation "rotate_endpoint").isText path then some path else none
  pure
    { externalId := externalId
      proxyId := Json.get proxies "proxy_id"
      host := py.str (Json.get proxies "host")
      port := port
      username := py.str (Json.get item "username")
      password := py.str (Json.get item "password")
      publicIp := Json.get proxies "ip_public"
      assignedAt := parseDt py (Json.get item "assigned_at")
      expiresAt := expiresAt
      online := (Json.get item "status").isText "active" && (Json.get item "is_active").isTrue &&
        (getIn (Json.get proxies "status") "msg").isText "online"
      rotationAvailable := (getIn rotation "available").truthy && rotatePath.isSome
      rotationMode := getIn rotation "mode"
      cooldownSeconds := cooldownOf (getIn rotation "cooldown_seconds")
      lastRotatedAt := parseDt py (getIn rotation "last_rotated_at")
      rotatePath := rotatePath
      country := (Json.get proxies "country").text?
      proxyType := (getIn (Json.get proxies "proxies_type") "name").text? }

/-- From the port on. -/
def parseRow (expiresAt : AwareDatetime) : Except Error (Option ProxyAssignment) :=
  match py.toInt (Json.get proxies "port") with
  | .error .typeError | .error .valueError => .ok none
  | .error e => .error e
  | .ok port =>
    match py.uuid (py.str (Json.get item "id")) with
    | none => .ok none
    | some id => (rowOf py item proxies port id expiresAt).map some

end Row

/-- `_parse_assignment` -/
def parseAssignment (item : Json) : Except Error (Option ProxyAssignment) :=
  match item with
  | .obj item =>
    match Json.get item "proxies" with
    | .obj proxies =>
      if rowPresent py item proxies then
        match parseDt py (Json.get item "expired_at") with
        | some expiresAt => parseRow py item proxies expiresAt
        | none => .ok none
      else .ok none
    | _ => .ok none
  | _ => .ok none

/-- The row is structurally valid: everything in it is what the item says, in its one spelling. -/
structure ValidRow (item proxies : List (String × Json)) (a : ProxyAssignment) : Prop where
  identity : ∃ n, py.uuid (py.str (Json.get item "id")) = some n ∧ a.externalId = uuidText n
  canonical : IsCanonicalUuid a.externalId
  username : (Json.get item "username").truthy ∧ a.username = py.str (Json.get item "username")
  password : (Json.get item "password").truthy ∧ a.password = py.str (Json.get item "password")
  host : (Json.get proxies "host").truthy ∧ a.host = py.str (Json.get proxies "host")
  port : py.toInt (Json.get proxies "port") = .ok a.port
  expiry : parseDt py (Json.get item "expired_at") = some a.expiresAt
  rotate : ∀ path ∈ a.rotatePath, expectedRotatePath py a.externalId = .ok path

/-- Nothing is raised, and what is returned is a valid row of the item. -/
def AssignmentSafe (item : Json) : Prop :=
  ∃ row, parseAssignment py item = .ok row ∧ ∀ a ∈ row, ∃ fields proxies,
    item = .obj fields ∧ Json.get fields "proxies" = .obj proxies ∧ ValidRow py fields proxies a

/-- The item has everything a row needs, and an infinite port. -/
def infiniteRow (item : Json) : Prop :=
  ∃ fields proxies, item = .obj fields ∧ Json.get fields "proxies" = .obj proxies ∧
    rowPresent py fields proxies = true ∧ (Json.get proxies "port").isInfinite = true

/-- The path of a canonical id is never refused. -/
theorem expectedRotatePath_uuidText {n : ℕ} (hn : n < uuidCount) :
    expectedRotatePath py (uuidText n) = .ok (listPath ++ "/" ++ uuidText n ++ "/rotate") := by
  rw [expectedRotatePath, py.uuid_uuidText hn]

theorem rowOf_eq (item proxies : List (String × Json)) (port : ℤ) {n : ℕ}
    (expiresAt : AwareDatetime) (hn : n < uuidCount) :
    ∃ a, rowOf py item proxies port n expiresAt = .ok a ∧ a.externalId = uuidText n ∧
      a.port = port ∧ a.expiresAt = expiresAt ∧ a.username = py.str (Json.get item "username") ∧
      a.password = py.str (Json.get item "password") ∧ a.host = py.str (Json.get proxies "host") ∧
      ∀ path ∈ a.rotatePath, expectedRotatePath py (uuidText n) = .ok path := by
  rw [rowOf, expectedRotatePath_uuidText py hn]
  refine ⟨_, rfl, rfl, rfl, rfl, rfl, rfl, rfl, ?_⟩
  intro path hpath
  dsimp only at hpath
  split_ifs at hpath
  · exact congrArg Except.ok (Option.some.inj hpath)
  · cases hpath

/-- Where the port is not infinite, the row is parsed or skipped. -/
theorem parseRow_safe {item proxies : List (String × Json)} {expiresAt : AwareDatetime}
    (hpresent : rowPresent py item proxies = true)
    (hexpiry : parseDt py (Json.get item "expired_at") = some expiresAt)
    (hport : (Json.get proxies "port").isInfinite = false) :
    ∃ row, parseRow py item proxies expiresAt = .ok row ∧
      ∀ a ∈ row, ValidRow py item proxies a := by
  simp only [rowPresent, Bool.and_eq_true] at hpresent
  obtain ⟨⟨⟨⟨⟨-, huser⟩, hpass⟩, hhost⟩, -⟩, -⟩ := hpresent
  rcases py.toInt_cases hport with ⟨port, h⟩ | h | h
  · rw [parseRow, h]
    rcases hid : py.uuid (py.str (Json.get item "id")) with _ | n
    · exact ⟨none, rfl, by simp⟩
    · have hn : n < uuidCount := Language.uuid_lt hid
      obtain ⟨a, ha, hext, hp, hexp, hu, hpw, hh, hrot⟩ :=
        rowOf_eq py item proxies port expiresAt hn
      refine ⟨some a, by simp [ha, Except.map], ?_⟩
      rintro _ ⟨⟩
      exact
        { identity := ⟨n, hid, hext⟩
          canonical := ⟨n, hn, hext⟩
          username := ⟨huser, hu⟩
          password := ⟨hpass, hpw⟩
          host := ⟨hhost, hh⟩
          port := by rw [h, hp]
          expiry := by rw [hexpiry, hexp]
          rotate := by rw [hext]; exact hrot }
  · exact ⟨none, by rw [parseRow, h], by simp⟩
  · exact ⟨none, by rw [parseRow, h], by simp⟩

theorem parseAssignment_infinite {item : Json} (h : infiniteRow py item) :
    parseAssignment py item = .error .overflowError := by
  obtain ⟨fields, proxies, rfl, hproxies, hpresent, hport⟩ := h
  have hdt : (parseDt py (Json.get fields "expired_at")).isSome = true := by
    simp only [rowPresent, Bool.and_eq_true] at hpresent
    exact hpresent.2
  obtain ⟨expiresAt, hexpiry⟩ := Option.isSome_iff_exists.mp hdt
  simp only [parseAssignment, hproxies, hpresent, if_true, hexpiry, parseRow,
    (py.toInt_eq_overflow_iff _).mpr hport]

/-- **A row is parsed or skipped exactly where its port is not infinite.** -/
theorem assignmentSafe_iff (item : Json) : AssignmentSafe py item ↔ ¬ infiniteRow py item := by
  constructor
  · rintro ⟨row, hrow, -⟩ hinf
    rw [parseAssignment_infinite py hinf] at hrow
    cases hrow
  · intro hinf
    have hskip : parseAssignment py item = .ok none → AssignmentSafe py item :=
      fun h => ⟨none, h, by simp⟩
    cases item with
    | obj fields =>
      cases hproxies : Json.get fields "proxies" with
      | obj proxies =>
        rcases hpresent : rowPresent py fields proxies with _ | _
        · exact hskip (by simp [parseAssignment, hproxies, hpresent])
        · rcases hexpiry : parseDt py (Json.get fields "expired_at") with _ | expiresAt
          · exact hskip (by simp [parseAssignment, hproxies, hexpiry])
          · have hport : (Json.get proxies "port").isInfinite = false := by
              rw [Bool.eq_false_iff]
              exact fun hport => hinf ⟨fields, proxies, rfl, hproxies, hpresent, hport⟩
            obtain ⟨row, hrow, hvalid⟩ := parseRow_safe py hpresent hexpiry hport
            refine ⟨row, ?_, fun a ha => ⟨fields, proxies, rfl, hproxies, hvalid a ha⟩⟩
            simp only [parseAssignment, hproxies, hpresent, if_true, hexpiry, hrow]
      | _ => exact hskip (by simp [parseAssignment, hproxies])
    | _ => exact hskip rfl

/-! ### Purchases -/

/-- What comes out of a purchase instead of one: a `DProxyPurchaseViolation` with its reason, or an exception
nobody catches. -/
inductive PurchaseError
  | violation (reason : String)
  | uncaught (e : Error)

/-- `DProxyPurchase`; the cost by the text it is read from. -/
structure DProxyPurchase where
  assignment : ProxyAssignment
  upstreamOrderId : Option String
  costUsd : Option String

/-- `if not ok: raise DProxyPurchaseViolation(reason)` -/
def ensure (ok : Bool) (reason : String) : Except PurchaseError Unit :=
  if ok then .ok () else .error (.violation reason)

/-- `_uuid_or_none` -/
def uuidOrNone (value : Json) : Option String :=
  if value.truthy then (py.uuid (py.str value)).map uuidText else none

/-- `body["data"]`, of an answer that is a success. -/
def purchaseData : Json → Except PurchaseError (List (String × Json))
  | .obj body =>
    if (Json.get body "success").isTrue then
      match Json.get body "data" with
      | .obj data =>
        if (Json.get data "success").isFalse then
          .error (.violation "data không hợp lệ hoặc data.success=false")
        else .ok data
      | _ => .error (.violation "data không hợp lệ hoặc data.success=false")
    else .error (.violation "success != true")
  | _ => .error (.violation "success != true")

/-- The one proxy of `proxies`. -/
def onlyProxy : Json → Except PurchaseError (List (String × Json))
  | .arr [.obj proxy] => .ok proxy
  | _ => .error (.violation "cần đúng 1 proxy")

/-- `key in data` -/
def present (data : List (String × Json)) (key : String) : Bool := (data.lookup key).isSome

/-- What the answer holds, before its port is read. -/
structure PurchaseRow where
  data : List (String × Json)
  proxy : List (String × Json)
  externalId : String
  expiresAt : AwareDatetime

/-- The row, where nothing of it is missing. -/
def purchaseFields (data proxy : List (String × Json)) : Except PurchaseError PurchaseRow :=
  match (uuidOrNone py (Json.get proxy "assignment_id")).or (uuidOrNone py (Json.get data "order_id")) with
  | none => .error (.violation "thiếu assignment_id lẫn order_id")
  | some externalId =>
    match parseDt py (Json.get proxy "expires_at") with
    | none => .error (.violation "thiếu host/port/username/password/expires_at")
    | some expiresAt =>
      if (Json.get proxy "ip").truthy && !(Json.get proxy "port").isNull &&
          (Json.get proxy "username").truthy && (Json.get proxy "password").truthy then
        .ok ⟨data, proxy, externalId, expiresAt⟩
      else .error (.violation "thiếu host/port/username/password/expires_at")

/-- `_parse_purchase`, up to `int(port)`. -/
def purchaseRow (body : Json) (expected : Option String) : Except PurchaseError PurchaseRow := do
  let data ← purchaseData body
  ensure (!present data "status" || (Json.get data "status").isText "fulfilled")
    ("status=" ++ py.repr (Json.get data "status"))
  ensure (!present data "quantity" || (Json.get data "quantity").isInt 1)
    ("quantity=" ++ py.repr (Json.get data "quantity"))
  ensure (expected.all (Json.get data "partner_order_id").isText) "partner_order_id không khớp"
  let proxy ← onlyProxy (Json.get data "proxies")
  purchaseFields py data proxy

/-- `int(port)`, where `ValueError` and `TypeError` are caught. -/
def purchasePort (port : Json) : Except PurchaseError ℤ :=
  match py.toInt port with
  | .ok n => .ok n
  | .error .valueError | .error .typeError => .error (.violation "port không hợp lệ")
  | .error e => .error (.uncaught e)

/-- `isinstance(raw_cost, (int, float)) and not isinstance(raw_cost, bool) and raw_cost >= 0` -/
def isCost : Json → Bool
  | .int n => 0 ≤ n
  | .float (.finite q) => 0 ≤ q
  | .float (.inf negative) => !negative
  | _ => false

/-- The purchase, from a row with its port. -/
def purchaseOf (now : AwareDatetime) (row : PurchaseRow) (port : ℤ) : DProxyPurchase where
  assignment :=
    { externalId := row.externalId
      proxyId := .null
      host := py.str (Json.get row.proxy "ip")
      port := port
      username := py.str (Json.get row.proxy "username")
      password := py.str (Json.get row.proxy "password")
      publicIp := .str (py.str (Json.get row.proxy "ip"))
      assignedAt := some now
      expiresAt := row.expiresAt
      online := true
      rotationAvailable := false
      rotationMode := .null
      cooldownSeconds := none
      lastRotatedAt := none
      rotatePath := none
      country := none
      proxyType := none }
  upstreamOrderId := uuidOrNone py (Json.get row.data "order_id")
  -- the text of a number is always one `Decimal` takes
  costUsd :=
    if isCost (Json.get row.data "total_cost_usd") then some (py.str (Json.get row.data "total_cost_usd"))
    else none

/-- What is said of a proxy that ends before what was sold. -/
def expiryReason (expiresAt minExpiresAt : AwareDatetime) : String :=
  "proxy hết hạn " ++ String.ofList (isoformat expiresAt) ++ " — sớm hơn hạn đã bán (" ++
    String.ofList (isoformat minExpiresAt) ++ ")"

/-- The proxy lasts as long as was sold. -/
def lastsUntil (expiresAt : AwareDatetime) (minExpiresAt : Option AwareDatetime) : Bool :=
  minExpiresAt.all fun m => m.1.instant ≤ expiresAt.1.instant

/-- `_parse_purchase` -/
def parsePurchase (now : AwareDatetime) (body : Json) (expected : Option String)
    (minExpiresAt : Option AwareDatetime) : Except PurchaseError DProxyPurchase := do
  let row ← purchaseRow py body expected
  let port ← purchasePort py (Json.get row.proxy "port")
  ensure (1 ≤ port ∧ port ≤ 65535) "port không hợp lệ"
  ensure (lastsUntil row.expiresAt minExpiresAt)
    (minExpiresAt.elim "" (expiryReason row.expiresAt))
  pure (purchaseOf py now row port)

/-- What a purchase that is returned is worth. -/
structure ValidPurchase (body : Json) (expected : Option String) (minExpiresAt : Option AwareDatetime)
    (p : DProxyPurchase) : Prop where
  port : 1 ≤ p.assignment.port ∧ p.assignment.port ≤ 65535
  canonical : IsCanonicalUuid p.assignment.externalId
  ours : ∀ id ∈ expected, ∃ fields data, body = .obj fields ∧ Json.get fields "data" = .obj data ∧
    (Json.get data "partner_order_id").isText id = true
  expiry : ∀ m ∈ minExpiresAt, m.1.instant ≤ p.assignment.expiresAt.1.instant

/-- The outcome is a valid purchase or a violation. -/
def PurchaseSafe (body : Json) (expected : Option String) (minExpiresAt : Option AwareDatetime) :
    Except PurchaseError DProxyPurchase → Prop
  | .ok p => ValidPurchase body expected minExpiresAt p
  | .error (.violation _) => True
  | .error (.uncaught _) => False

/-- Everything before the port is in order, and the port is infinite. -/
def infinitePurchase (body : Json) (expected : Option String) : Prop :=
  ∃ row, purchaseRow py body expected = .ok row ∧ (Json.get row.proxy "port").isInfinite = true

/-! #### What the checks leave -/

@[simp] theorem ensure_eq_ok {ok : Bool} {reason : String} {u : Unit} :
    ensure ok reason = .ok u ↔ ok = true := by
  cases ok <;> simp [ensure]

/-- What raises nothing but violations. -/
def OnlyViolations {α : Type} (x : Except PurchaseError α) : Prop :=
  ∀ e, x ≠ .error (.uncaught e)

theorem OnlyViolations.bind {α β : Type} {x : Except PurchaseError α}
    {f : α → Except PurchaseError β} (hx : OnlyViolations x) (hf : ∀ a, OnlyViolations (f a)) :
    OnlyViolations (x >>= f) := by
  intro e h
  cases x with
  | ok a => exact hf a e h
  | error e' =>
    obtain rfl : e' = .uncaught e := Except.error.inj h
    exact hx e rfl

theorem ensure_onlyViolations (ok : Bool) (reason : String) : OnlyViolations (ensure ok reason) := by
  intro e
  cases ok <;> simp [ensure]

theorem purchaseRow_onlyViolations (body : Json) (expected : Option String) :
    OnlyViolations (purchaseRow py body expected) := by
  have hdata : OnlyViolations (purchaseData body) := by
    intro e
    unfold purchaseData
    repeat' split
    all_goals simp
  have hproxy : ∀ v, OnlyViolations (onlyProxy v) := by
    intro v e
    unfold onlyProxy
    split <;> simp
  have hfields : ∀ data proxy, OnlyViolations (purchaseFields py data proxy) := by
    intro data proxy e
    unfold purchaseFields
    repeat' split
    all_goals simp
  refine hdata.bind fun data => ?_
  refine (ensure_onlyViolations _ _).bind fun _ => ?_
  refine (ensure_onlyViolations _ _).bind fun _ => ?_
  refine (ensure_onlyViolations _ _).bind fun _ => ?_
  exact (hproxy _).bind fun proxy => hfields data proxy

theorem uuidOrNone_canonical {v : Json} {id : String} (h : uuidOrNone py v = some id) :
    IsCanonicalUuid id := by
  rw [uuidOrNone] at h
  split_ifs at h
  obtain ⟨n, hn, rfl⟩ := Option.map_eq_some_iff.mp h
  exact ⟨n, Language.uuid_lt hn, rfl⟩

theorem purchaseData_eq_ok {body : Json} {data : List (String × Json)}
    (h : purchaseData body = .ok data) :
    ∃ fields, body = .obj fields ∧ Json.get fields "data" = .obj data := by
  unfold purchaseData at h
  repeat' split at h
  all_goals cases h
  next hdata _ => exact ⟨_, rfl, hdata⟩

/-- A row has a canonical id and belongs to the order that was asked for. -/
theorem purchaseRow_eq_ok {body : Json} {expected : Option String} {row : PurchaseRow}
    (h : purchaseRow py body expected = .ok row) :
    IsCanonicalUuid row.externalId ∧
      ∀ id ∈ expected, ∃ fields data, body = .obj fields ∧ Json.get fields "data" = .obj data ∧
        (Json.get data "partner_order_id").isText id = true := by
  simp only [purchaseRow, bind_eq_ok, ensure_eq_ok] at h
  obtain ⟨data, hdata, -, -, -, -, -, hours, proxy, -, hfields⟩ := h
  constructor
  · unfold purchaseFields at hfields
    repeat' split at hfields
    all_goals cases hfields
    next hid _ _ _ _ =>
      rcases Option.or_eq_some_iff.mp hid with hid | ⟨-, hid⟩
      all_goals exact uuidOrNone_canonical py hid
  · rintro id rfl
    obtain ⟨fields, hbody, hget⟩ := purchaseData_eq_ok hdata
    exact ⟨fields, data, hbody, hget, by simpa using hours⟩

theorem purchasePort_onlyViolations {port : Json} (h : port.isInfinite = false) :
    OnlyViolations (purchasePort py port) := by
  intro e
  rcases py.toInt_cases h with ⟨n, hn⟩ | hn | hn <;> simp [purchasePort, hn]

/-- **A purchase is parsed or is a violation exactly where its port is not infinite.** -/
theorem purchaseSafe_iff (now : AwareDatetime) (body : Json) (expected : Option String)
    (minExpiresAt : Option AwareDatetime) :
    PurchaseSafe body expected minExpiresAt (parsePurchase py now body expected minExpiresAt) ↔
      ¬ infinitePurchase py body expected := by
  constructor
  · rintro hsafe ⟨row, hrow, hport⟩
    have hraised : parsePurchase py now body expected minExpiresAt =
        .error (.uncaught .overflowError) := by
      simp [parsePurchase, hrow, purchasePort, (py.toInt_eq_overflow_iff _).mpr hport, bind,
        Except.bind]
    rw [hraised] at hsafe
    exact hsafe
  · intro hinf
    have honly : OnlyViolations (parsePurchase py now body expected minExpiresAt) := by
      intro e h
      rcases hrow : purchaseRow py body expected with e' | row
      · rw [parsePurchase, hrow] at h
        obtain rfl : e' = .uncaught e := Except.error.inj h
        exact purchaseRow_onlyViolations py body expected e hrow
      · have hport : (Json.get row.proxy "port").isInfinite = false := by
          rw [Bool.eq_false_iff]
          exact fun hport => hinf ⟨row, hrow, hport⟩
        rw [parsePurchase, hrow] at h
        refine (purchasePort_onlyViolations py hport).bind (fun port => ?_) e h
        refine (ensure_onlyViolations _ _).bind fun _ => ?_
        exact (ensure_onlyViolations _ _).bind fun _ e => by simp [pure, Except.pure]
    rcases hresult : parsePurchase py now body expected minExpiresAt with (reason | e) | p
    · trivial
    · exact honly e hresult
    · simp only [parsePurchase, bind_eq_ok, ensure_eq_ok, pure, Except.pure] at hresult
      obtain ⟨row, hrow, port, -, -, hrange, -, hlasts, hp⟩ := hresult
      obtain rfl : purchaseOf py now row port = p := Except.ok.inj hp
      obtain ⟨hcanonical, hours⟩ := purchaseRow_eq_ok py hrow
      refine ⟨of_decide_eq_true hrange, hcanonical, hours, ?_⟩
      rintro m rfl
      simpa [lastsUntil, purchaseOf] using hlasts

/-! ### The call -/

/-- An answer; `json` is `none` where `resp.json()` raises its `ValueError`. -/
structure Response where
  status : ℕ
  json : Option Json

/-- What the call ends in instead of a purchase. -/
inductive CallError
  | unavailable (text : String)
  | auth (text : String)
  | rejected (status : ℕ) (detail : Option String)
  | purchase (e : PurchaseError)

/-- `str(d.get("msg", d)) if isinstance(d, dict) else str(d)` -/
def messageOf : Json → String
  | .obj fields => py.str ((fields.lookup "msg").getD (.obj fields))
  | v => py.str v

/-- `_error_detail` -/
def errorDetail (resp : Response) : Option String :=
  let detail : Json :=
    match getIn (resp.json.getD .null) "detail" with
    | .arr items => .str ("; ".intercalate (items.map (messageOf py)))
    | v => v
  detail.text?.map fun text => String.ofList (text.toList.take 200)

/-- `purchase_assignment`; the answer is an error where there was none. -/
def purchaseAssignment (now : AwareDatetime) (answer : Except String Response)
    (partnerOrderId : String) (minExpiresAt : Option AwareDatetime) :
    Except CallError DProxyPurchase :=
  match answer with
  | .error text => .error (.unavailable text)
  | .ok resp =>
    if resp.status = 401 ∨ resp.status = 403 then .error (.auth ("HTTP " ++ toString resp.status))
    else if 500 ≤ resp.status then .error (.unavailable ("HTTP " ++ toString resp.status))
    else if 400 ≤ resp.status then .error (.rejected resp.status (errorDetail py resp))
    else
      match resp.json with
      | none => .error (.purchase (.violation "phản hồi mua không phải JSON"))
      | some body =>
        (parsePurchase py now body (some partnerOrderId) minExpiresAt).mapError .purchase

/-- The answers that may have spent credit. -/
abbrev Accepted := {resp : Response // 200 ≤ resp.status ∧ resp.status < 300}

/-- Such an answer is returned as a valid purchase, or is a violation and goes to the revocation. -/
def CallSafe (resp : Accepted) (partnerOrderId : String) (minExpiresAt : Option AwareDatetime) :
    Except CallError DProxyPurchase → Prop
  | .ok p => ∃ body ∈ resp.1.json, ValidPurchase body (some partnerOrderId) minExpiresAt p
  | .error (.purchase (.violation _)) => True
  | .error _ => False

theorem callSafe_iff (now : AwareDatetime) (resp : Accepted) (partnerOrderId : String)
    (minExpiresAt : Option AwareDatetime) :
    CallSafe resp partnerOrderId minExpiresAt
        (purchaseAssignment py now (.ok resp.1) partnerOrderId minExpiresAt) ↔
      ∀ body ∈ resp.1.json, ¬ infinitePurchase py body (some partnerOrderId) := by
  obtain ⟨⟨status, json⟩, hstatus⟩ := resp
  dsimp only at hstatus ⊢
  have hread : purchaseAssignment py now (.ok ⟨status, json⟩) partnerOrderId minExpiresAt =
      match json with
      | none => .error (.purchase (.violation "phản hồi mua không phải JSON"))
      | some body =>
        (parsePurchase py now body (some partnerOrderId) minExpiresAt).mapError .purchase := by
    rw [purchaseAssignment]
    dsimp only
    rw [if_neg (by omega), if_neg (by omega), if_neg (by omega)]
  rw [hread]
  cases json with
  | none => simp [CallSafe]
  | some body =>
    simp only [Option.mem_def, Option.some.injEq, forall_eq']
    rw [← purchaseSafe_iff py now body (some partnerOrderId) minExpiresAt]
    rcases parsePurchase py now body (some partnerOrderId) minExpiresAt with (reason | e) | p
    · exact Iff.rfl
    · exact Iff.rfl
    · simp [CallSafe, PurchaseSafe, Except.mapError]

/-! ### The promise as a whole -/

/-- **What DProxy sends is parsed safely exactly where the port that is come to is not infinite**: a row of
the inventory is then parsed or skipped, and a purchase is returned or is a violation, whatever
else is sent. -/
theorem parsed_safely_iff :
    (∀ item, AssignmentSafe py item ↔ ¬ infiniteRow py item) ∧
      (∀ now body expected minExpiresAt,
        PurchaseSafe body expected minExpiresAt
            (parsePurchase py now body expected minExpiresAt) ↔
          ¬ infinitePurchase py body expected) ∧
      ∀ now resp partnerOrderId minExpiresAt,
        CallSafe resp partnerOrderId minExpiresAt
            (purchaseAssignment py now (.ok resp.1) partnerOrderId minExpiresAt) ↔
          ∀ body ∈ resp.1.json, ¬ infinitePurchase py body (some partnerOrderId) :=
  ⟨assignmentSafe_iff py, purchaseSafe_iff py, callSafe_iff py⟩

/-! ### `"port": 1e999` -/

/-- New Year of 2030. -/
def newYear : AwareDatetime := ⟨⟨2030, 1, 1, 0, 0, 0, 0, 0⟩, by decide⟩

/-- The conversions on the texts of the row below. -/
def sample : Language where
  digits := .ascii
  repr _ := "inf"
  fromisoformat s := if s = "2030-01-01T00:00:00+00:00" then some (newYear, true) else none

/-- A row that has everything, and a port beyond the range of floats. -/
def overflowing : Json :=
  .obj [("id", .str "00000000-0000-0000-0000-000000000001"), ("username", .str "u"),
    ("password", .str "p"), ("expired_at", .str "2030-01-01T00:00:00+00:00"),
    ("proxies", .obj [("host", .str "10.0.0.1"), ("port", .float (.inf false))])]

theorem not_parsed_overflowing : ¬ ∀ item, AssignmentSafe sample item := by
  intro h
  obtain ⟨row, hrow, -⟩ := h overflowing
  have hinf : infiniteRow sample overflowing := ⟨_, _, rfl, rfl, by decide, rfl⟩
  rw [parseAssignment_infinite sample hinf] at hrow
  cases hrow

end Dproxy

end Marketplace
