import Marketplace.Protocol.Events
import Marketplace.Sql.Table
import Marketplace.Text.Strip
import Mathlib.Data.Int.Notation

/-!
# Placing orders through the public API

`place_order` (`public_api/service.py`) for any number of requests at once: the claim on the row of an
`Idempotency-Key` and the reservation against the key's daily limit (`_reserve`), the checkout, the
handler that frees the key and the record that is written when the order exists. A request is where its
last await left it (`Pc`); an event moves one request over its next statement, lets an exception come out
of it, or ends its process.

The quote of `_plan`, the total of the checkout and the refunds of an order come with the events that
bring them. Times are microseconds of one clock.
-/

namespace Marketplace.PublicApi

open Sql Protocol Text

/-! ### The day and the window -/

/-- `IDEMPOTENCY_TTL`: 24 hours. -/
def idempotencyTtl : ℤ := 24 * 60 * 60 * 1000000

/-- `_VN_TZ`: seven hours before UTC. -/
def vnOffset : ℤ := 7 * 60 * 60 * 1000000

/-- `_vn_day_start`. -/
def vnDayStart (now : ℤ) : ℤ := now - (now + vnOffset) % (24 * 60 * 60 * 1000000)

/-- The day began less than the window ago. -/
theorem lt_vnDayStart (now : ℤ) : now - idempotencyTtl < vnDayStart now := by
  have := Int.emod_lt_of_pos (now + vnOffset) (b := 24 * 60 * 60 * 1000000) (by decide)
  rw [vnDayStart, idempotencyTtl]
  omega

theorem vnDayStart_mono {now now' : ℤ} (h : now ≤ now') : vnDayStart now ≤ vnDayStart now' := by
  rw [vnDayStart, vnDayStart]
  omega

/-! ### Rows -/

/-- What `place_order` reads and writes of `api_idempotency`, by `id`. -/
structure ApiIdempotency where
  apiKeyId : ℕ
  idemKey : String
  requestHash : String
  reservedAmount : ℤ
  statusCode : Option ℕ
  orderId : Option ℕ
  createdAt : ℤ
deriving DecidableEq, Repr

/-- What a request comes with; `since` is the start of the transaction that inserts its row (`func.now()`). -/
structure Call where
  apiKeyId : ℕ
  idemKey : String
  requestHash : String
  since : ℤ
deriving DecidableEq, Repr

/-- The call for which the row was inserted. -/
def ApiIdempotency.call (row : ApiIdempotency) : Call := ⟨row.apiKeyId, row.idemKey, row.requestHash, row.createdAt⟩

/-- An order, with the call and the idempotency row under which it was placed. -/
structure Order where
  totalAmount : ℤ
  refundedAmount : ℤ
  row : ℕ
  call : Call
deriving DecidableEq, Repr

/-- What the order has kept of its price. -/
def Order.kept (order : Order) : ℤ := order.totalAmount - order.refundedAmount

/-- The row of a key and an `Idempotency-Key`; there is a unique constraint on the two. -/
def findRow (rows : Table ℕ ApiIdempotency) (apiKeyId : ℕ) (idemKey : String) : Option (ℕ × ApiIdempotency) :=
  rows.rows.find? fun r => decide (r.2.apiKeyId = apiKeyId ∧ r.2.idemKey = idemKey)

/-- The amount of a row in `spent_today`. -/
def ApiIdempotency.amount (orders : Table ℕ Order) (row : ApiIdempotency) : ℤ :=
  match row.orderId with
  | none => row.reservedAmount
  | some orderId => ((orders.get? orderId).map Order.kept).getD 0

/-- `spent_today` for one key, with the start of the day it has computed. -/
def spentToday (rows : Table ℕ ApiIdempotency) (orders : Table ℕ Order) (apiKeyId : ℕ) (dayStart : ℤ) : ℤ :=
  rows.sum fun _ row => if row.apiKeyId = apiKeyId ∧ dayStart ≤ row.createdAt then row.amount orders else 0

/-! ### The key of a request -/

/-- `_AUTO_IDEM_PREFIX`. -/
def autoIdemPrefix : String := "\tauto:"

/-- `IDEMPOTENCY_KEY_MAX`. -/
def idempotencyKeyMax : ℕ := 128

/-- `_check_idempotency_key`, with what `str.isprintable` says of a character and the hex digits of a new
UUID. -/
def checkIdempotencyKey (printable : Char → Bool) (idemKey : Option String) (hex : String) : Option String :=
  let value := stripChars isSpace (idemKey.getD "").toList
  if value = [] then some (autoIdemPrefix ++ hex)
  else if idempotencyKeyMax < value.length ∨ ¬value.all printable then none
  else some (String.ofList value)

/-! ### Requests -/

/-- How a request ended. -/
inductive Answer
  /-- 400: the header is not a key. -/
  | invalidRequest
  /-- 409: the key came with another body. -/
  | idempotencyConflict
  /-- 409: the request of the key is still running. -/
  | requestInProgress
  /-- The order of an earlier request. -/
  | replayedOrder (orderId : ℕ)
  /-- The stored answer of an earlier request. -/
  | replayedAnswer (statusCode : ℕ)
  /-- 403. -/
  | dailyLimitExceeded
  | placed (orderId : ℕ)
  /-- An exception out of the checkout; the key was freed. -/
  | freed (row : ℕ)
  /-- Any other exception, or the end of the process. -/
  | failed
deriving DecidableEq, Repr

/-- Where a request stands. -/
inductive Pc
  | looking
  /-- With the row of the key that has expired, deleted in the open transaction. -/
  | planning (expired : Option ℕ)
  | limiting (expired : Option ℕ) (expected : ℤ)
  /-- With the lock on the row of the API key. -/
  | locked (expired : Option ℕ) (expected : ℤ)
  /-- With the lock; the limit lets the order through. -/
  | inserting (expired : Option ℕ) (expected : ℤ)
  /-- After the violation of the unique constraint. -/
  | lost
  | checkout (row : ℕ)
  /-- The checkout has committed the order and still runs. -/
  | charged (row : ℕ) (order : ℕ)
  /-- The checkout has returned the order. -/
  | recording (row : ℕ) (order : ℕ)
  /-- In the handler that frees the key. -/
  | freeing (row : ℕ)
  | done (answer : Answer)
deriving DecidableEq, Repr

/-- The API key's row is locked in the open transaction. -/
def Pc.holdsLock : Pc → Bool
  | locked .. | inserting .. => true
  | _ => false

structure Request where
  call : Call
  pc : Pc
deriving DecidableEq, Repr

/-- `_replay_or_conflict`. -/
def replayOrConflict (row : ApiIdempotency) (requestHash : String) : Answer :=
  if row.requestHash ≠ requestHash then .idempotencyConflict
  else match row.statusCode with
    | none => .requestInProgress
    | some code => match row.orderId with
      | some orderId => .replayedOrder orderId
      | none => .replayedAnswer code

/-- The tables, the requests and the clock; `late` are the rows of the requests whose checkout raised after its
commit. -/
structure State where
  rows : Table ℕ ApiIdempotency
  nextRow : ℕ
  orders : Table ℕ Order
  nextOrder : ℕ
  requests : Table ℕ Request
  now : ℤ
  late : List ℕ

inductive Event
  | tick (now : ℤ)
  | arrive (request : ℕ) (apiKeyId : ℕ) (idemKey : Option String) (hex : String) (requestHash : String)
  /-- The row of the key is read, and deleted where it has expired. -/
  | look (request : ℕ)
  | plan (request : ℕ) (expected : ℤ)
  | lockKey (request : ℕ)
  | checkLimit (request : ℕ)
  | insertRow (request : ℕ)
  | findWinner (request : ℕ)
  /-- The checkout commits an order, which it may have refunded. -/
  | charge (request : ℕ) (total refunded : ℤ)
  | returnOrder (request : ℕ)
  | raise (request : ℕ)
  | free (request : ℕ)
  | record (request : ℕ)
  | die (request : ℕ)
  | refund (order : ℕ) (amount : ℤ)
deriving DecidableEq, Repr

/-- The request that an event moves. -/
def Event.request : Event → Option ℕ
  | .look p | .plan p _ | .lockKey p | .checkLimit p | .insertRow p | .findWinner p | .charge p _ _ | .returnOrder p
  | .raise p | .free p | .record p | .die p => some p
  | _ => none

namespace State

/-- Nothing has been stored yet. -/
def initial (now : ℤ) : State :=
  { rows := Table.empty, nextRow := 0, orders := Table.empty, nextOrder := 0, requests := Table.empty, now := now,
    late := [] }

variable (s : State)

/-- The request goes on at `pc`. -/
def goto (request : ℕ) (pc : Pc) : State :=
  { s with requests := s.requests.modify request fun q => { q with pc := pc } }

/-- The rows as a transaction sees them that has deleted the expired one. -/
def visible (expired : Option ℕ) : Table ℕ ApiIdempotency := expired.elim s.rows s.rows.erase

/-- The commit of `_reserve`: the expired row goes and the row of the request comes. -/
def claim (request : ℕ) (q : Request) (expired : Option ℕ) (expected : ℤ) : State :=
  let rows := (s.visible expired).insert s.nextRow
    { apiKeyId := q.call.apiKeyId, idemKey := q.call.idemKey, requestHash := q.call.requestHash,
      reservedAmount := expected, statusCode := none, orderId := none, createdAt := q.call.since }
  { s with rows := rows, nextRow := s.nextRow + 1 }.goto request (.checkout s.nextRow)

/-- The commit of the checkout. -/
def place (request : ℕ) (q : Request) (row : ℕ) (total refunded : ℤ) : State :=
  let orders := s.orders.insert s.nextOrder
    { totalAmount := total, refundedAmount := refunded, row := row, call := q.call }
  { s with orders := orders, nextOrder := s.nextOrder + 1 }.goto request (.charged row s.nextOrder)

/-- The record of the order: 201. -/
def recordOrder (request : ℕ) (row order : ℕ) : State :=
  { s with rows := s.rows.modify row fun r => { r with statusCode := some 201, orderId := some order } }.goto
    request (.done (.placed order))

/-- `Nothing was charged … free the key`. -/
def freeKey (request : ℕ) (row : ℕ) : State :=
  { s with rows := s.rows.erase row }.goto request (.done (.freed row))

/-- Nobody else holds the lock on the API key. -/
def lockFree (apiKeyId : ℕ) : Bool :=
  s.requests.rows.all fun r => !(decide (r.2.call.apiKeyId = apiKeyId) && r.2.pc.holdsLock)

end State

variable (printable : Char → Bool) (dailySpendLimit : ℕ → Option ℤ)

/-- The next statement of a request. -/
def advance (s : State) (e : Event) (p : ℕ) (q : Request) : Option State :=
  match e, q.pc with
  | .look _, .looking =>
      match findRow s.rows q.call.apiKeyId q.call.idemKey with
      | none => some (s.goto p (.planning none))
      | some (id, existing) =>
          if s.now - idempotencyTtl ≤ existing.createdAt then
            some (s.goto p (.done (replayOrConflict existing q.call.requestHash)))
          else some (s.goto p (.planning (some id)))
  | .plan _ expected, .planning expired => some (s.goto p (.limiting expired expected))
  | .lockKey _, .limiting expired expected =>
      if s.lockFree q.call.apiKeyId then some (s.goto p (.locked expired expected)) else none
  | .checkLimit _, .locked expired expected =>
      match dailySpendLimit q.call.apiKeyId with
      | none => some (s.goto p (.inserting expired expected))
      | some limit =>
          if limit < spentToday (s.visible expired) s.orders q.call.apiKeyId (vnDayStart s.now) + expected then
            some (s.goto p (.done .dailyLimitExceeded))
          else some (s.goto p (.inserting expired expected))
  | .insertRow _, .inserting expired expected =>
      match findRow (s.visible expired) q.call.apiKeyId q.call.idemKey with
      | none => some (s.claim p q expired expected)
      | some _ => some (s.goto p .lost)
  | .findWinner _, .lost =>
      match findRow s.rows q.call.apiKeyId q.call.idemKey with
      | none => some (s.goto p (.done .failed))
      | some (_, winner) => some (s.goto p (.done (replayOrConflict winner q.call.requestHash)))
  | .charge _ total refunded, .checkout row => some (s.place p q row total refunded)
  | .returnOrder _, .charged row order => some (s.goto p (.recording row order))
  | .raise _, .checkout row => some (s.goto p (.freeing row))
  | .raise _, .charged row _ => some ({ s with late := row :: s.late }.goto p (.freeing row))
  | .raise _, .done _ => none
  | .raise _, _ => some (s.goto p (.done .failed))
  | .free _, .freeing row => some (s.freeKey p row)
  | .record _, .recording row order => some (s.recordOrder p row order)
  | .die _, .done _ => none
  | .die _, _ => some (s.goto p (.done .failed))
  | _, _ => none

/-- What an event does. -/
def step (s : State) : Event → Option State
  | .tick now => if s.now ≤ now then some { s with now := now } else none
  | .arrive p apiKeyId idemKey hex requestHash =>
      if s.requests.get? p = none then
        match checkIdempotencyKey printable idemKey hex with
        | none =>
            some { s with requests :=
              s.requests.insert p ⟨⟨apiKeyId, "", requestHash, s.now⟩, .done .invalidRequest⟩ }
        | some key => some { s with requests := s.requests.insert p ⟨⟨apiKeyId, key, requestHash, s.now⟩, .looking⟩ }
      else none
  | .refund o amount =>
      match s.orders.get? o with
      | none => none
      | some order =>
          if 0 < amount ∧ amount ≤ order.kept then
            some { s with orders := s.orders.modify o fun r => { r with refundedAmount := r.refundedAmount + amount } }
          else none
  | e@(.look p) | e@(.plan p _) | e@(.lockKey p) | e@(.checkLimit p) | e@(.insertRow p) | e@(.findWinner p)
  | e@(.charge p _ _) | e@(.returnOrder p) | e@(.raise p) | e@(.free p) | e@(.record p) | e@(.die p) =>
      (s.requests.get? p).bind fun q => advance dailySpendLimit s e p q

def machine : EventMachine State Event := ⟨step printable dailySpendLimit⟩

/-! ### What an event can do -/

/-- The row has expired. -/
def State.Expired (s : State) (id : ℕ) : Prop :=
  ∃ row, s.rows.get? id = some row ∧ row.createdAt < s.now - idempotencyTtl

/-- An order that the row of this request's key and body names. -/
def State.Names (s : State) (q : Request) (order : ℕ) : Prop :=
  ∃ id row, s.rows.get? id = some row ∧ row.orderId = some order ∧ row.apiKeyId = q.call.apiKeyId ∧
    row.idemKey = q.call.idemKey ∧ row.requestHash = q.call.requestHash

/-- Where a request can go on without writing. -/
def State.Turn (s : State) (q : Request) : Pc → Prop
  | .planning expired => q.pc = .looking ∧ ∀ id, expired = some id → s.Expired id
  | .limiting expired _ => q.pc = .planning expired
  | .locked expired expected => q.pc = .limiting expired expected ∧ s.lockFree q.call.apiKeyId = true
  | .inserting expired expected => q.pc = .locked expired expected ∧
      ∀ limit, dailySpendLimit q.call.apiKeyId = some limit →
        spentToday (s.visible expired) s.orders q.call.apiKeyId (vnDayStart s.now) + expected ≤ limit
  | .lost => ∃ expired expected, q.pc = .inserting expired expected
  | .recording row order => q.pc = .charged row order
  | .freeing row => q.pc = .checkout row
  | .done answer => (∀ order, answer = .replayedOrder order → s.Names q order) ∧ (∀ row, answer ≠ .freed row)
  | _ => False

/-- **What an event can do.** -/
inductive Moved (s : State) (e : Event) : State → Prop
  | ticked (now : ℤ) (h : s.now ≤ now) : Moved s e { s with now := now }
  | arrived (p : ℕ) (q : Request) (hp : s.requests.get? p = none)
      (hpc : q.pc = .looking ∨ q.pc = .done .invalidRequest) (hsince : q.call.since = s.now) :
      Moved s e { s with requests := s.requests.insert p q }
  | turned (p : ℕ) (q : Request) (pc : Pc) (hq : s.requests.get? p = some q) (h : s.Turn dailySpendLimit q pc)
      (hplan : ∀ expired expected, pc = .limiting expired expected → e = .plan p expected) : Moved s e (s.goto p pc)
  | claimed (p : ℕ) (q : Request) (expired : Option ℕ) (expected : ℤ) (hq : s.requests.get? p = some q)
      (hpc : q.pc = .inserting expired expected)
      (h : findRow (s.visible expired) q.call.apiKeyId q.call.idemKey = none) :
      Moved s e (s.claim p q expired expected)
  | placed (p : ℕ) (q : Request) (row : ℕ) (total refunded : ℤ) (hq : s.requests.get? p = some q)
      (hpc : q.pc = .checkout row) (he : e = .charge p total refunded) : Moved s e (s.place p q row total refunded)
  | raisedLate (p : ℕ) (q : Request) (row order : ℕ) (hq : s.requests.get? p = some q)
      (hpc : q.pc = .charged row order) (he : e = .raise p) :
      Moved s e ({ s with late := row :: s.late }.goto p (.freeing row))
  | freed (p : ℕ) (q : Request) (row : ℕ) (hq : s.requests.get? p = some q) (hpc : q.pc = .freeing row) :
      Moved s e (s.freeKey p row)
  | recorded (p : ℕ) (q : Request) (row order : ℕ) (hq : s.requests.get? p = some q)
      (hpc : q.pc = .recording row order) : Moved s e (s.recordOrder p row order)
  | refunded (o : ℕ) (order : Order) (amount : ℤ) (ho : s.orders.get? o = some order) (h0 : 0 < amount)
      (h : amount ≤ order.kept) :
      Moved s e { s with orders := s.orders.modify o fun r => { r with refundedAmount := r.refundedAmount + amount } }

variable {printable dailySpendLimit} {s s' : State}

theorem get?_of_findRow {rows : Table ℕ ApiIdempotency} {apiKeyId : ℕ} {idemKey : String} {id : ℕ}
    {row : ApiIdempotency} (h : findRow rows apiKeyId idemKey = some (id, row)) :
    rows.get? id = some row ∧ row.apiKeyId = apiKeyId ∧ row.idemKey = idemKey :=
  ⟨Table.get?_eq_some_iff.mpr (List.mem_of_find?_eq_some h), by simpa using List.find?_some h⟩

theorem ne_of_findRow_eq_none {rows : Table ℕ ApiIdempotency} {apiKeyId : ℕ} {idemKey : String}
    (h : findRow rows apiKeyId idemKey = none) {id : ℕ} {row : ApiIdempotency} (hrow : rows.get? id = some row) :
    ¬(row.apiKeyId = apiKeyId ∧ row.idemKey = idemKey) := by
  have := List.find?_eq_none.mp h (id, row) (Table.get?_eq_some_iff.mp hrow)
  simpa using this

theorem names_of_replay {q : Request} {id : ℕ} {row : ApiIdempotency}
    (h : findRow s.rows q.call.apiKeyId q.call.idemKey = some (id, row)) {order : ℕ}
    (hrow : replayOrConflict row q.call.requestHash = .replayedOrder order) : s.Names q order := by
  obtain ⟨hid, hkey, hidem⟩ := get?_of_findRow h
  rw [replayOrConflict] at hrow
  split_ifs at hrow with hhash
  split at hrow
  · cases hrow
  · split at hrow
    next o ho =>
      obtain rfl : o = order := by simpa using hrow
      exact ⟨id, row, hid, ho, hkey, hidem, not_not.mp hhash⟩
    · cases hrow

theorem replayOrConflict_ne_freed {row : ApiIdempotency} {hash : String} (r : ℕ) :
    replayOrConflict row hash ≠ .freed r := by
  rw [replayOrConflict]
  split_ifs
  · simp
  · split
    · simp
    · split <;> simp

theorem turn_failed (q : Request) : s.Turn dailySpendLimit q (.done .failed) :=
  ⟨fun _ h => Answer.noConfusion h, fun _ h => Answer.noConfusion h⟩

/-- The statements of a request. -/
theorem moved_of_advance {e : Event} {p : ℕ} {q : Request} (hq : s.requests.get? p = some q)
    (he : e.request = some p) (h : advance dailySpendLimit s e p q = some s') : Moved dailySpendLimit s e s' := by
  have turned : ∀ pc, some (s.goto p pc) = some s' → s.Turn dailySpendLimit q pc →
      (∀ expired expected, pc ≠ .limiting expired expected) → Moved dailySpendLimit s e s' := by
    intro pc hs hturn hne
    obtain rfl := Option.some.inj hs
    exact .turned p q pc hq hturn fun expired expected hpc => absurd hpc (hne expired expected)
  rw [advance.eq_def] at h
  split at h
  -- The row of the key is read.
  next hpc =>
    split at h
    · exact turned _ h ⟨hpc, fun _ h => by cases h⟩ (by simp)
    next id existing hfind =>
      split_ifs at h with httl
      · exact turned _ h ⟨fun _ ho => names_of_replay hfind ho, replayOrConflict_ne_freed⟩ (by simp)
      · refine turned _ h ⟨hpc, fun i hi => ?_⟩ (by simp)
        obtain rfl := Option.some.inj hi
        exact ⟨existing, (get?_of_findRow hfind).1, not_le.mp httl⟩
  next p' expected expired hpc =>
    obtain rfl : p' = p := Option.some.inj he
    obtain rfl := Option.some.inj h
    refine .turned p' q _ hq hpc fun _ _ heq => ?_
    rw [(Pc.limiting.inj heq).2]
  -- The row of the API key is locked, and the limit compared.
  next hpc =>
    split_ifs at h with hfree
    exact turned _ h ⟨hpc, hfree⟩ (by simp)
  next hpc =>
    split at h
    next hlimit => exact turned _ h ⟨hpc, fun limit hl => by rw [hlimit] at hl; cases hl⟩ (by simp)
    next limit hlimit =>
      split_ifs at h with hover
      · exact turned _ h ⟨fun _ ho => Answer.noConfusion ho, fun _ ho => Answer.noConfusion ho⟩ (by simp)
      · refine turned _ h ⟨hpc, fun l hl => ?_⟩ (by simp)
        obtain rfl : limit = l := Option.some.inj (hlimit.symm.trans hl)
        exact not_lt.mp hover
  next hpc =>
    split at h
    next hfind =>
      obtain rfl := Option.some.inj h
      exact .claimed p q _ _ hq hpc hfind
    · exact turned _ h ⟨_, _, hpc⟩ (by simp)
  next hpc =>
    split at h
    · exact turned _ h (turn_failed q) (by simp)
    next id winner hfind =>
      exact turned _ h ⟨fun _ ho => names_of_replay hfind ho, replayOrConflict_ne_freed⟩ (by simp)
  -- The checkout, and what follows it.
  next p' total refunded row hpc =>
    obtain rfl : p' = p := Option.some.inj he
    obtain rfl := Option.some.inj h
    exact .placed p' q row total refunded hq hpc rfl
  next hpc => exact turned _ h hpc (by simp)
  next hpc => exact turned _ h hpc (by simp)
  next p' row order hpc =>
    obtain rfl : p' = p := Option.some.inj he
    obtain rfl := Option.some.inj h
    exact .raisedLate p' q row order hq hpc rfl
  next => cases h
  next => exact turned _ h (turn_failed q) (by simp)
  next hpc =>
    obtain rfl := Option.some.inj h
    exact .freed p q _ hq hpc
  next hpc =>
    obtain rfl := Option.some.inj h
    exact .recorded p q _ _ hq hpc
  next => cases h
  next => exact turned _ h (turn_failed q) (by simp)
  next => cases h

theorem moved_of_step {e : Event} (h : (machine printable dailySpendLimit).step s e = some s') :
    Moved dailySpendLimit s e s' := by
  cases e with
  | tick now =>
    change (if s.now ≤ now then _ else _) = some s' at h
    split_ifs at h with hnow
    obtain rfl := Option.some.inj h
    exact .ticked now hnow
  | arrive p apiKeyId idemKey hex hash =>
    change (if s.requests.get? p = none then _ else _) = some s' at h
    split_ifs at h with hp
    split at h
    · obtain rfl := Option.some.inj h
      exact .arrived p _ hp (.inr rfl) rfl
    · obtain rfl := Option.some.inj h
      exact .arrived p _ hp (.inl rfl) rfl
  | refund o amount =>
    change (match s.orders.get? o with | none => none | some order => _) = some s' at h
    split at h
    · cases h
    next order ho =>
      split_ifs at h with hamount
      obtain rfl := Option.some.inj h
      exact .refunded o order amount ho hamount.1 hamount.2
  | _ =>
    obtain ⟨q, hq, hstep⟩ := Option.bind_eq_some_iff.mp h
    exact moved_of_advance hq rfl hstep

end Marketplace.PublicApi
