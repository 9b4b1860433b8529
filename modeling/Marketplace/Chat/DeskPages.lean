import Marketplace.Chat.Inbox
import Marketplace.Paging.Cursor
import Marketplace.Paging.Keyset
import Mathlib.Data.Prod.Lex
import Mathlib.Order.WithBot

/-!
# The pages of the desk

`list_tickets` of `chat/support.py`: the threads with the desk that match a view and filters, ordered by the
moment of their last message (in the waiting view: of the requester's, and oldest first), threads without one
last, and served in pages. A page is asked for by a cursor of `common/pagination.py`.

`follow_listTickets`: whoever follows the cursors sees every thread that matches once and in order.
`desk_pages_iff` says what a client can send that fails: a parameter the driver does not take, and a cursor that
does not hold what cursors hold (`Stray`), or a moment the driver does not take.

What a ticket shows besides its thread is left out, and what a search finds is left open.
-/

namespace Marketplace.DeskPages

open Text Python Sql Paging Inbox

/-! ### The rows -/

/-- What `asyncpg` takes for a `timestamptz`: a moment, and whether it has a zone. -/
structure Driver where
  accepts : AwareDatetime → Bool → Bool

/-- A row of `chat_conversations`, as the desk reads it, with its tags. -/
structure Thread where
  id : Fin uuidCount
  kind : ConversationKind
  status : ConversationStatus
  requesterRole : Option ContextRole
  assigneeId : Option ℤ
  tags : List String
  lastMessageAt : Option AwareDatetime
  lastRequesterMessageAt : Option AwareDatetime
  deriving DecidableEq

/-- The threads, and which of them a search finds. The driver takes back the moments it has read. -/
structure Desk (driver : Driver) where
  threads : List Thread
  finds : String → Thread → Truth
  idsUnique : (threads.map Thread.id).Nodup
  stored : ∀ t ∈ threads, ∀ at_, t.lastMessageAt = some at_ ∨ t.lastRequesterMessageAt = some at_ →
    driver.accepts at_ true = true

/-! ### The filters -/

/-- The views of the desk. -/
inductive View
  | waiting | mine | opened | resolved | all
  deriving DecidableEq, Repr

structure Filters where
  view : View
  q : Option String
  role : Option ContextRole
  kind : Option ConversationKind
  assignee : Option String
  tag : Option String

/-- What a request ends with that is not answered. -/
inductive Failure
  | python (e : Error)
  | dataError
  deriving DecidableEq, Repr

/-- A condition on threads. -/
abbrev Clause := Thread → Truth

/-- A text PostgreSQL can hold. -/
def isText (text : String) : Bool := !text.toList.contains '\x00'

/-- A number of 32 bits. -/
def isInt4 (n : ℤ) : Bool := -2147483648 ≤ n ∧ n < 2147483648

/-- `_view_clause` -/
def viewClause (view : View) (adminId : ℤ) : List Clause :=
  match view with
  | .waiting => [fun t => some (t.status = .opened), fun t => some t.lastRequesterMessageAt.isSome,
      fun t => .compare (fun a b : AwareDatetime => b.1.instant ≤ a.1.instant) t.lastRequesterMessageAt t.lastMessageAt]
  | .mine => [fun t => .compare (· = ·) t.assigneeId (some adminId), fun t => some (t.status = .opened)]
  | .opened => [fun t => some (t.status = .opened)]
  | .resolved => [fun t => some (t.status = .resolved)]
  | .all => []

section Desk

variable (py : Interpreter) (lower : String → String) {driver : Driver} (d : Desk driver)

def kindClause : Option ConversationKind → List Clause
  | none => []
  | some kind => if kind.isDesk then [fun t => some (t.kind = kind)] else []

def roleClause : Option ContextRole → List Clause
  | none => []
  | some role => if role = .admin then [] else [fun t => .compare (· = ·) t.requesterRole (some role)]

/-- `tag.strip().lower()` -/
def tagKey (tag : String) : String := lower (String.ofList (stripChars isSpace tag.toList))

def tagClause (tag : Option String) : Except Failure (List Clause) :=
  let text := tag.getD ""
  if text = "" then .ok []
  else if isText (tagKey lower text) then .ok [fun t => some (t.tags.contains (tagKey lower text))]
  else .error .dataError

/-- `(q or "").strip()` -/
def needle (q : Option String) : String := String.ofList (stripChars isSpace (q.getD "").toList)

def searchClause (q : Option String) : Except Failure (List Clause) :=
  if needle q = "" then .ok [] else if isText (needle q) then .ok [d.finds (needle q)] else .error .dataError

/-- `_filters` -/
def sharedClauses (f : Filters) : Except Failure (List Clause) := do
  let tag ← tagClause lower f.tag
  let search ← searchClause d f.q
  pure (kindClause f.kind ++ roleClause f.role ++ tag ++ search)

/-- `_assignee_clause` -/
def assigneeClause (assignee : Option String) (adminId : ℤ) : Except Failure (List Clause) :=
  let text := assignee.getD ""
  if text = "" then .ok []
  else if text = "me" then .ok [fun t => .compare (· = ·) t.assigneeId (some adminId)]
  else if text = "none" then .ok [fun t => .isNull t.assigneeId]
  else
    match py.intOfText text.toList with
    | none => .ok []
    | some n => if isInt4 n then .ok [fun t => .compare (· = ·) t.assigneeId (some n)] else .error .dataError

/-- A thread with the desk all conditions are true of. -/
def selects (clauses : List Clause) (t : Thread) : Bool :=
  t.kind.isDesk && Truth.all (clauses.map fun c => c t) = some true

/-! ### Pages -/

/-- The column a view is ordered by. -/
def sortCol (view : View) (t : Thread) : Option AwareDatetime :=
  if view = .waiting then t.lastRequesterMessageAt else t.lastMessageAt

/-- Descending in what follows is `DESC NULLS LAST` for the moments, and `ASC NULLS LAST` once their signs are
turned; ids go the same way. -/
def sortKey (view : View) (t : Thread) : WithBot ℤ ×ₗ ℤ :=
  let sign : ℤ := if view = .waiting then -1 else 1
  toLex (match sortCol view t with
    | none => ⊥
    | some at_ => ((sign * at_.1.instant : ℤ) : WithBot ℤ), sign * t.id)

/-- `keyset_after` of a cursor that was decoded. -/
def afterClause (driver : Driver) (view : View) : Option (SortValue × ℕ) → Except Failure (List Clause)
  | none => .ok []
  | some (.moment at_ aware, rowId) =>
    if driver.accepts at_ aware then
      .ok [fun t => keysetAfter ((sortCol view t).map (·.1.instant)) t.id (some at_.1.instant) rowId
        (view ≠ .waiting) true]
    else .error .dataError
  | some (.plain v, rowId) =>
    -- nothing else than a moment is compared with a column of moments
    if v.isNull then
      .ok [fun t => keysetAfter ((sortCol view t).map (·.1.instant)) t.id none rowId (view ≠ .waiting) true]
    else .error .dataError

structure Page where
  items : List Thread
  nextCursor : Option String
  counts : List (String × ℕ)

/-- `MAX_LIMIT` -/
def maxLimit : ℤ := 50

/-- The cursor that is made of a thread. -/
def cursorOf (view : View) (t : Thread) : String := Paging.encodeCursor (sortCol view t) (uuidText t.id)

/-- `_count` -/
def count (clauses : List Clause) : ℕ := d.threads.countP (selects clauses)

/-- `list_tickets` -/
def listTickets (adminId : ℤ) (f : Filters) (limit : ℤ) (cursor : Option String) : Except Failure Page := do
  let limit := (max 1 (min limit maxLimit)).toNat
  let shared ← sharedClauses lower d f
  let assignee ← assigneeClause py f.assignee adminId
  let decoded ← (Paging.decodeCursor py cursor).mapError .python
  -- an id that is none is the first page again
  let after ← afterClause driver f.view (decoded.bind fun p => (py.uuid p.2).map (p.1, ·))
  let clauses := shared ++ viewClause f.view adminId ++ assignee ++ after
  let rows := (Keyset.newestFirst (sortKey f.view) (d.threads.filter (selects clauses))).take (limit + 1)
  let hasMore := limit < rows.length
  let rows := rows.take limit
  pure {
    items := rows
    nextCursor := if hasMore then rows.getLast?.map (cursorOf f.view) else none
    counts := [("waiting", .waiting), ("mine", .mine), ("open", .opened), ("resolved", .resolved)].map fun p =>
      (p.1, count d (shared ++ viewClause p.2 adminId)) }

end Desk

/-! ### What comes before what -/

/-- The order of a view: `sort_col {ASC|DESC} NULLS LAST, id {same}`. -/
def ComesBefore (view : View) (a b : Thread) : Prop :=
  match sortCol view a, sortCol view b with
  | some x, some y =>
    if view = .waiting then x.1.instant < y.1.instant ∨ (y.1.instant = x.1.instant ∧ a.id < b.id)
    else y.1.instant < x.1.instant ∨ (y.1.instant = x.1.instant ∧ b.id < a.id)
  | some _, none => True
  | none, some _ => False
  | none, none => if view = .waiting then a.id < b.id else b.id < a.id

/-- The keys are ordered as the threads are. -/
theorem sortKey_lt_iff {view : View} {a b : Thread} : sortKey view b < sortKey view a ↔ ComesBefore view a b := by
  rw [sortKey, sortKey, Prod.Lex.toLex_lt_toLex, ComesBefore]
  by_cases hview : view = .waiting
  · simp only [hview, if_true]
    rcases sortCol .waiting a with _ | x <;> rcases sortCol .waiting b with _ | y
    · simp
    · simp
    · simp
    · simp only [WithBot.coe_lt_coe, WithBot.coe_inj, Fin.lt_def]
      omega
  · simp only [hview, if_false]
    rcases sortCol view a with _ | x <;> rcases sortCol view b with _ | y
    · simp
    · simp
    · simp
    · simp only [WithBot.coe_lt_coe, WithBot.coe_inj, Fin.lt_def]
      omega

/-- `keyset_after` is true of what comes after the row of the cursor. -/
theorem keysetAfter_iff {view : View} {t x : Thread} :
    keysetAfter ((sortCol view t).map (·.1.instant)) t.id ((sortCol view x).map (·.1.instant)) x.id (view ≠ .waiting)
      true = some true ↔ ComesBefore view x t := by
  rw [keysetAfter.eq_def, ComesBefore]
  by_cases hview : view = .waiting
  · simp only [hview, ne_eq, not_true_eq_false, decide_false, Bool.false_eq_true, if_false, if_true]
    rcases sortCol .waiting t with _ | a <;> rcases sortCol .waiting x with _ | b <;> simp
  · simp only [hview, ne_eq, not_false_eq_true, decide_true, if_true, if_false]
    rcases sortCol view t with _ | a <;> rcases sortCol view x with _ | b <;> simp

/-- Threads are told apart by their ids, so by their keys. -/
theorem nodup_sortKey {threads : List Thread} (h : (threads.map Thread.id).Nodup) (view : View) :
    (threads.map (sortKey view)).Nodup := by
  refine List.Nodup.of_map (fun k : WithBot ℤ ×ₗ ℤ => (ofLex k).2) ?_
  rw [List.map_map]
  have hinj : Function.Injective fun i : Fin uuidCount => (if view = .waiting then (-1 : ℤ) else 1) * (i : ℕ) := by
    intro i j hij
    refine Fin.ext ?_
    simp only at hij
    split_ifs at hij <;> omega
  have hmap : threads.map ((fun k : WithBot ℤ ×ₗ ℤ => (ofLex k).2) ∘ sortKey view) =
      (threads.map Thread.id).map fun i : Fin uuidCount => (if view = .waiting then (-1 : ℤ) else 1) * (i : ℕ) := by
    rw [List.map_map]
    rfl
  rw [hmap]
  exact h.map hinj

/-! ### A page -/

section Pages

variable {py : Interpreter} {lower : String → String} {driver : Driver} {d : Desk driver} {adminId : ℤ} {f : Filters}
variable {shared assignee : List Clause}

/-- The threads that match, in order. -/
def matching (d : Desk driver) (view : View) (clauses : List Clause) : List Thread :=
  Keyset.newestFirst (sortKey view) (d.threads.filter (selects clauses))

theorem mem_matching {view : View} {clauses : List Clause} {t : Thread} :
    t ∈ matching d view clauses ↔ t ∈ d.threads ∧ selects clauses t = true := by
  rw [matching, Keyset.mem_newestFirst, List.mem_filter]

theorem nodup_filter (d : Desk driver) (p : Thread → Bool) : ((d.threads.filter p).map Thread.id).Nodup :=
  (List.filter_sublist.map Thread.id).nodup d.idsUnique

theorem pairwise_matching (view : View) (clauses : List Clause) :
    (matching d view clauses).Pairwise fun a b => sortKey view b < sortKey view a :=
  Keyset.pairwise_newestFirst (nodup_sortKey (nodup_filter d _) view)

/-- One more condition leaves some of the threads, in their order. -/
theorem matching_append (view : View) (clauses after : List Clause) :
    matching d view (clauses ++ after) =
      (matching d view clauses).filter fun t => Truth.all (after.map fun c => c t) = some true := by
  rw [matching, matching, ← Keyset.newestFirst_filter (nodup_sortKey (nodup_filter d _) view), List.filter_filter]
  congr 1
  refine List.filter_congr fun t _ => ?_
  rw [Bool.eq_iff_iff]
  simp only [selects, Bool.and_eq_true, decide_eq_true_eq, Truth.all_eq_true, List.map_append, List.mem_append]
  constructor
  · rintro ⟨hkind, h⟩
    exact ⟨fun c hc => h c (.inr hc), hkind, fun c hc => h c (.inl hc)⟩
  · rintro ⟨hafter, hkind, h⟩
    exact ⟨hkind, fun c hc => hc.elim (h c) (hafter c)⟩

/-- What a reader of the pages asks for. -/
def fetch (py : Interpreter) (lower : String → String) (d : Desk driver) (adminId : ℤ) (f : Filters) (limit : ℤ)
    (cursor : Option String) : Except Failure (List Thread × Option String) :=
  (listTickets py lower d adminId f limit cursor).map fun page => (page.items, page.nextCursor)

/-- The number of items of a page. -/
def perPage (limit : ℤ) : ℕ := (max 1 (min limit maxLimit)).toNat

/-- The answer to a cursor that adds a condition. -/
theorem fetch_eq (hshared : sharedClauses lower d f = .ok shared)
    (hassignee : assigneeClause py f.assignee adminId = .ok assignee) {cursor : Option String}
    {decoded : Option (SortValue × String)} (hdecoded : Paging.decodeCursor py cursor = .ok decoded) {after : List Clause}
    (hafter : afterClause driver f.view (decoded.bind fun p => (py.uuid p.2).map (p.1, ·)) = .ok after) (limit : ℤ) :
    fetch py lower d adminId f limit cursor = .ok (Keyset.page (perPage limit) (cursorOf f.view)
      (matching d f.view (shared ++ viewClause f.view adminId ++ assignee ++ after))) := by
  rw [fetch, listTickets, hshared, hassignee, hdecoded]
  simp only [bind, Except.bind, Except.mapError, hafter, pure, Except.pure, Except.map]
  congr 2
  · rw [List.take_take, Nat.min_eq_left (Nat.le_succ _)]
    rfl
  · rw [List.take_take, Nat.min_eq_left (Nat.le_succ _), List.length_take]
    simp only [lt_min_iff, Nat.lt_succ_self, true_and]
    rfl

/-- The condition of a cursor that was made of a row. -/
theorem afterClause_restored {view : View} {x : Thread}
    (hx : ∀ at_, sortCol view x = some at_ → driver.accepts at_ true = true) :
    afterClause driver view (some (restored (sortCol view x), x.id)) =
      .ok [fun t => keysetAfter ((sortCol view t).map (·.1.instant)) t.id ((sortCol view x).map (·.1.instant)) x.id
        (view ≠ .waiting) true] := by
  cases hcol : sortCol view x with
  | none => rfl
  | some at_ =>
    rw [restored, afterClause, if_pos (hx at_ hcol)]
    rfl

theorem accepts_of_mem (d : Desk driver) {x : Thread} (hx : x ∈ d.threads) (view : View) :
    ∀ at_, sortCol view x = some at_ → driver.accepts at_ true = true := by
  intro at_ hat
  rw [sortCol] at hat
  split_ifs at hat
  · exact d.stored x hx at_ (.inr hat)
  · exact d.stored x hx at_ (.inl hat)

/-- **Following the cursors shows the threads that match**, in order. -/
theorem follow_listTickets (hshared : sharedClauses lower d f = .ok shared)
    (hassignee : assigneeClause py f.assignee adminId = .ok assignee) (limit : ℤ) :
    Keyset.follow (fetch py lower d adminId f limit) (d.threads.length + 1) none =
      .ok (some (matching d f.view (shared ++ viewClause f.view adminId ++ assignee))) := by
  set clauses := shared ++ viewClause f.view adminId ++ assignee with hclauses
  have hlimit : 0 < perPage limit := by
    rw [perPage]
    omega
  have hfirst : fetch py lower d adminId f limit none =
      .ok (Keyset.page (perPage limit) (cursorOf f.view) (matching d f.view clauses)) := by
    have h : fetch py lower d adminId f limit none = .ok (Keyset.page (perPage limit) (cursorOf f.view)
        (matching d f.view (clauses ++ []))) := fetch_eq hshared hassignee rfl rfl limit
    rwa [List.append_nil] at h
  refine Keyset.follow_eq hlimit hfirst (fun front x left hitems => ?_) ?_
  · have hx : x ∈ d.threads := by
      have hmem : x ∈ matching d f.view clauses := by simp [hitems]
      exact (mem_matching.mp hmem).1
    have huuid : py.uuid (uuidText x.id) = some (x.id : ℕ) := py.toLanguage.uuid_uuidText x.id.isLt
    have hafter := afterClause_restored (accepts_of_mem d hx f.view)
    have hdecoded : ((some (restored (sortCol f.view x), uuidText x.id)).bind fun p => (py.uuid p.2).map (p.1, ·)) =
        some (restored (sortCol f.view x), (x.id : ℕ)) := by
      rw [Option.bind_some, huuid]
      rfl
    rw [← hdecoded] at hafter
    rw [cursorOf, fetch_eq hshared hassignee (Paging.decodeCursor_encodeCursor py _ _) hafter limit, ← hclauses,
      matching_append]
    have hfilter : ∀ t, decide (Truth.all ([fun t : Thread => keysetAfter ((sortCol f.view t).map (·.1.instant)) t.id
        ((sortCol f.view x).map (·.1.instant)) x.id (f.view ≠ .waiting) true].map fun c => c t) = some true) =
          decide (sortKey f.view t < sortKey f.view x) := by
      intro t
      rw [decide_eq_decide, Truth.all_eq_true, sortKey_lt_iff, ← keysetAfter_iff]
      simp
    simp only [hfilter]
    have hlt := pairwise_matching (d := d) f.view clauses
    rw [hitems] at hlt ⊢
    rw [Keyset.filter_lt_eq hlt]
  · rw [matching, Keyset.length_newestFirst]
    exact Nat.lt_succ_of_le (List.length_filter_le _ _)

/-! ### What a client can send -/

variable (py lower adminId f) in
/-- A thread the view and the filters ask for. -/
def Matches (d : Desk driver) (t : Thread) : Prop :=
  ∃ shared assignee, sharedClauses lower d f = .ok shared ∧ assigneeClause py f.assignee adminId = .ok assignee ∧
    selects (shared ++ viewClause f.view adminId ++ assignee) t = true

variable (py lower f) in
/-- Parameters that can be sent to the database: texts without `U+0000`, and a number of 32 bits for an assignee. -/
structure Sendable : Prop where
  tag : f.tag.getD "" ≠ "" → isText (tagKey lower (f.tag.getD "")) = true
  q : isText (needle f.q) = true
  assignee : f.assignee.getD "" ∉ ["", "me", "none"] →
    ∀ n, py.intOfText (f.assignee.getD "").toList = some n → isInt4 n = true

variable (py driver) in
/-- A cursor of a moment the driver does not take. -/
inductive Refused (cursor : String) : Prop
  | intro {v b : Json} {fields : List (String × Json)} {s : String} {at_ : AwareDatetime} {aware : Bool} {rowId : ℕ}
      (hjson : cursorJson py cursor = .ok v) (hpair : unpackPair v = .ok (.obj fields, b))
      (hfield : fields.lookup "t" = some (.str s)) (hread : py.fromisoformat s = some (at_, aware))
      (huuid : py.uuid (py.str b) = some rowId) (haccepts : driver.accepts at_ aware = false)

theorem exists_sharedClauses_iff :
    (∃ shared, sharedClauses lower d f = .ok shared) ↔
      (f.tag.getD "" ≠ "" → isText (tagKey lower (f.tag.getD "")) = true) ∧ isText (needle f.q) = true := by
  have hempty : isText "" = true := rfl
  rw [sharedClauses, tagClause, searchClause]
  by_cases htag : f.tag.getD "" = "" <;> by_cases hq : needle f.q = "" <;>
    cases hkey : isText (tagKey lower (f.tag.getD "")) <;> cases hneedle : isText (needle f.q) <;>
      simp_all [bind, Except.bind, pure, Except.pure]

theorem exists_assigneeClause_iff :
    (∃ assignee, assigneeClause py f.assignee adminId = .ok assignee) ↔
      (f.assignee.getD "" ∉ ["", "me", "none"] →
        ∀ n, py.intOfText (f.assignee.getD "").toList = some n → isInt4 n = true) := by
  rw [assigneeClause]
  simp only [List.mem_cons, List.not_mem_nil, or_false, not_or]
  split_ifs with h1 h2 h3
  · simp [h1]
  · simp [h2]
  · simp [h3]
  · cases hn : py.intOfText (f.assignee.getD "").toList with
    | none => simp
    | some n => cases hint : isInt4 n <;> simp [h1, h2, h3, hint]

/-- Both sets of conditions are there for parameters that can be sent. -/
theorem sendable_iff (d : Desk driver) (adminId : ℤ) :
    Sendable py lower f ↔ (∃ shared, sharedClauses lower d f = .ok shared) ∧
      ∃ assignee, assigneeClause py f.assignee adminId = .ok assignee := by
  rw [exists_sharedClauses_iff, exists_assigneeClause_iff]
  exact ⟨fun h => ⟨⟨h.tag, h.q⟩, h.assignee⟩, fun h => ⟨h.1.1, h.1.2, h.2⟩⟩

/-- Without conditions there is no answer. -/
theorem exists_clauses_of_fetch {limit : ℤ} {cursor : Option String} {p : List Thread × Option String}
    (h : fetch py lower d adminId f limit cursor = .ok p) :
    (∃ shared, sharedClauses lower d f = .ok shared) ∧
      ∃ assignee, assigneeClause py f.assignee adminId = .ok assignee := by
  rw [fetch, listTickets] at h
  cases hshared : sharedClauses lower d f with
  | error e =>
    rw [hshared] at h
    cases h
  | ok shared =>
    cases hassignee : assigneeClause py f.assignee adminId with
    | error e =>
      rw [hshared, hassignee] at h
      cases h
    | ok assignee => exact ⟨⟨_, rfl⟩, ⟨_, rfl⟩⟩

variable (py lower d adminId f) in
/-- What the desk and its clients rely on: following the cursors from the first page shows every thread that matches once
and in order; a cursor is read back; a text a client sends is read as nothing, or as nothing or a moment with an id, and
is answered. -/
structure CursorsWork (limit : ℤ) (sortValue : Option AwareDatetime) (rowId cursor : String) : Prop where
  complete : ∃ shown, Keyset.follow (fetch py lower d adminId f limit) (d.threads.length + 1) none = .ok (some shown) ∧
    (∀ t, t ∈ shown ↔ t ∈ d.threads ∧ Matches py lower adminId f d t) ∧ shown.Nodup ∧
    shown.Pairwise (ComesBefore f.view)
  roundTrip : Paging.decodeCursor py (some (Paging.encodeCursor sortValue rowId)) = .ok (some (restored sortValue, rowId))
  decodes : ∃ o, Paging.decodeCursor py (some cursor) = .ok o ∧ ∀ p ∈ o, p.1.Sorts
  answers : ∃ page, listTickets py lower d adminId f limit (some cursor) = .ok page

/-- A decoded pair of nothing or a moment and an id is answered, unless the driver does not take the moment. -/
theorem exists_afterClause_iff (py : Interpreter) (driver : Driver) (view : View) {o : Option (SortValue × String)} (hsorts : ∀ p ∈ o, p.1.Sorts) :
    (∃ after, afterClause driver view (o.bind fun p => (py.uuid p.2).map (p.1, ·)) = .ok after) ↔
      ∀ at_ aware rowId n, o = some (.moment at_ aware, rowId) → py.uuid rowId = some n →
        driver.accepts at_ aware = true := by
  rcases o with _ | ⟨s, rowId⟩
  · exact iff_of_true ⟨[], rfl⟩ (by simp)
  · rw [Option.bind_some]
    cases huuid : py.uuid rowId with
    | none =>
      refine iff_of_true ⟨[], rfl⟩ fun at_ aware r n he hn => ?_
      obtain rfl := congrArg Prod.snd (Option.some.inj he)
      exact absurd (huuid.symm.trans hn) (by simp)
    | some n =>
      rw [Option.map_some]
      cases s with
      | plain v =>
        refine iff_of_true ?_ (by simp)
        have hnull : v.isNull = true := hsorts _ rfl
        rw [afterClause, if_pos hnull]
        exact ⟨_, rfl⟩
      | moment at_ aware =>
        rw [afterClause]
        constructor
        · intro h at' aware' r m he _
          obtain ⟨rfl, rfl⟩ := SortValue.moment.inj (congrArg Prod.fst (Option.some.inj he))
          by_contra hnot
          simp [hnot] at h
        · intro h
          rw [if_pos (h at_ aware rowId n rfl huuid)]
          exact ⟨_, rfl⟩

/-- A cursor of a moment, taken apart. -/
theorem exists_moment_iff {cursor : String} {at_ : AwareDatetime} {aware : Bool} {rowId : String} :
    Paging.decodeCursor py (some cursor) = .ok (some (.moment at_ aware, rowId)) ↔
      ∃ v fields b s, cursorJson py cursor = .ok v ∧ unpackPair v = .ok (.obj fields, b) ∧
        fields.lookup "t" = some (.str s) ∧ py.fromisoformat s = some (at_, aware) ∧ rowId = py.str b := by
  constructor
  · intro h
    rw [Paging.decodeCursor] at h
    have hread : readCursor py cursor = .ok (.moment at_ aware, rowId) := by
      split_ifs at h with hempty
      · cases h
      · split at h
        · next pair hpair => rw [hpair, Option.some.inj (Except.ok.inj h)]
        all_goals cases h
    rw [readCursor] at hread
    obtain ⟨v, hjson, hread⟩ := bind_eq_ok.mp hread
    obtain ⟨⟨a, b⟩, hpair, hread⟩ := bind_eq_ok.mp hread
    obtain ⟨r, hrestore, hr⟩ := bind_eq_ok.mp hread
    obtain ⟨rfl, rfl⟩ := Prod.mk.inj (Except.ok.inj hr)
    rw [restore.eq_def] at hrestore
    split at hrestore
    · next fields =>
      split at hrestore
      · cases hrestore
      · next s hs =>
        split at hrestore
        · next at' aware' hat =>
          obtain ⟨rfl, rfl⟩ := SortValue.moment.inj (Except.ok.inj hrestore)
          exact ⟨v, fields, b, s, hjson, hpair, hs, hat, rfl⟩
        · cases hrestore
      · cases hrestore
    · cases hrestore
  · rintro ⟨v, fields, b, s, hjson, hpair, hfield, hat, rfl⟩
    have hne : cursor ≠ "" := by
      rintro rfl
      rw [cursorJson_empty] at hjson
      cases hjson
    have hread : readCursor py cursor = .ok (.moment at_ aware, py.str b) := by
      rw [readCursor, hjson]
      simp only [bind, Except.bind, hpair, restore, hfield, hat]
      rfl
    rw [Paging.decodeCursor, if_neg hne, hread]

/-- **What the desk answers**: the parameters can be sent, and the cursor holds what cursors hold. -/
theorem desk_pages_iff (py : Interpreter) (lower : String → String) (driver : Driver) (d : Desk driver) (adminId : ℤ)
    (f : Filters) (limit : ℤ) (sortValue : Option AwareDatetime) (rowId cursor : String) :
    CursorsWork py lower d adminId f limit sortValue rowId cursor ↔
      Sendable py lower f ∧ ¬Stray py cursor ∧ ¬Refused py driver cursor := by
  constructor
  · intro h
    obtain ⟨page, hpage⟩ := h.answers
    have hfetch : fetch py lower d adminId f limit (some cursor) = .ok (page.items, page.nextCursor) := by
      rw [fetch, hpage]
      rfl
    refine ⟨(sendable_iff d adminId).mpr (exists_clauses_of_fetch hfetch), decodes_iff.mp h.decodes, ?_⟩
    rintro ⟨hjson, hpair, hfield, hread, huuid, haccepts⟩
    have hdecoded := exists_moment_iff.mpr ⟨_, _, _, _, hjson, hpair, hfield, hread, rfl⟩
    obtain ⟨⟨shared, hshared⟩, assignee, hassignee⟩ := exists_clauses_of_fetch hfetch
    rw [listTickets, hshared, hassignee, hdecoded] at hpage
    simp [bind, Except.bind, Except.mapError, huuid, afterClause, haccepts] at hpage
  · rintro ⟨hsend, hstray, hrefused⟩
    obtain ⟨⟨shared, hshared⟩, assignee, hassignee⟩ := (sendable_iff d adminId).mp hsend
    obtain ⟨o, ho, hsorts⟩ := decodes_iff.mpr hstray
    refine ⟨⟨_, follow_listTickets hshared hassignee limit, fun t => ?_, ?_, ?_⟩, Paging.decodeCursor_encodeCursor py _ _,
      ⟨o, ho, hsorts⟩, ?_⟩
    · rw [mem_matching]
      refine and_congr_right fun _ => ⟨fun h => ⟨shared, assignee, hshared, hassignee, h⟩, ?_⟩
      rintro ⟨shared', assignee', hshared', hassignee', h⟩
      obtain rfl := Except.ok.inj (hshared.symm.trans hshared')
      obtain rfl := Except.ok.inj (hassignee.symm.trans hassignee')
      exact h
    · exact (pairwise_matching f.view _).imp fun h => by
        rintro rfl
        exact lt_irrefl _ h
    · exact (pairwise_matching f.view _).imp sortKey_lt_iff.mp
    · obtain ⟨after, hafter⟩ := (exists_afterClause_iff py driver f.view hsorts).mpr
        fun at_ aware r n he hn => by
          by_contra hnot
          obtain ⟨v, fields, b, s, hjson, hpair, hfield, hat, rfl⟩ := exists_moment_iff.mp (ho.trans (congrArg _ he))
          exact hrefused ⟨hjson, hpair, hfield, hat, hn, by simpa using hnot⟩
      have hfetch := fetch_eq hshared hassignee ho hafter limit
      rw [fetch] at hfetch
      cases hlist : listTickets py lower d adminId f limit (some cursor) with
      | error e =>
        rw [hlist] at hfetch
        cases hfetch
      | ok page => exact ⟨page, rfl⟩

end Pages

/-- Reads moments in the extended format only. -/
def plainInterpreter : Interpreter where
  digits := .ascii
  repr _ := ""
  fromisoformat s := (Text.fromisoformat s.toList).map (·, true)
  maxDepth := 1000
  nests := by decide
  reads s d h := by rw [h, Option.map_some]

def openDriver : Driver := ⟨fun _ _ => true⟩

/-- A desk without threads. -/
def emptyDesk : Desk openDriver := ⟨[], fun _ _ => none, by simp, by simp⟩

/-- `[true,"00000000-0000-0000-0000-000000000000"]` -/
def trueText : List Char := '[' :: ("true".toList ++ ',' :: (JsonText.quote (uuidText 0).toList ++ [']']))

theorem loads_trueText {depth : ℕ} (hdepth : 0 < depth) :
    JsonText.loads depth trueText = .ok (.arr [.bool true, .str (uuidText 0)]) := by
  obtain ⟨depth, rfl⟩ := Nat.exists_eq_add_of_lt hdepth
  rw [Nat.zero_add]
  have htrue : ∀ rest, JsonText.scanOnce depth ("true".toList ++ ',' :: rest) = .ok (.bool true, ',' :: rest) := by
    cases depth <;> exact fun _ => rfl
  have hid : JsonText.scanOnce depth (JsonText.quote (uuidText 0).toList ++ [']']) = .ok (.str (uuidText 0), [']']) := by
    cases depth <;> rw [JsonText.scanOnce, JsonText.scanValue_quote, String.ofList_toList]
  have hlen : ∃ n, ("true".toList ++ ',' :: (JsonText.quote (uuidText 0).toList ++ [']'])).length = n + 2 := ⟨_, rfl⟩
  obtain ⟨n, hn⟩ := hlen
  have hlist : JsonText.scanOnce (depth + 1) trueText = .ok (.arr [.bool true, .str (uuidText 0)], []) := by
    rw [trueText, JsonText.scanOnce]
    refine JsonText.scanValue_list (JsonText.skipBlanks_cons (by decide) _) (by simp) ?_
    rw [hn]
    exact JsonText.scanItems_cons (htrue _) (JsonText.skipBlanks_quote _ _) (JsonText.scanItems_last hid)
  have hskip : JsonText.skipBlanks trueText = trueText := JsonText.skipBlanks_cons (by decide) _
  rw [JsonText.loads, hskip, hlist]
  rfl

/-- A cursor with a truth value where the moment belongs is let through, and raises where it is compared. -/
theorem desk_cursor_not_moment :
    ¬CursorsWork plainInterpreter id emptyDesk 1 ⟨.opened, none, none, none, none, none⟩ 25 none (uuidText 0)
      (armored trueText) ∧
    listTickets plainInterpreter id emptyDesk 1 ⟨.opened, none, none, none, none, none⟩ 25 (some (armored trueText)) =
      .error .dataError := by
  have hjson : cursorJson plainInterpreter (armored trueText) = .ok (.arr [.bool true, .str (uuidText 0)]) := by
    rw [cursorJson_armored, loads_trueText]
    decide
  have hread : readCursor plainInterpreter (armored trueText) = .ok (.plain (.bool true), uuidText 0) := by
    rw [readCursor, hjson]
    rfl
  have hne : armored trueText ≠ "" := by
    intro he
    rw [he, cursorJson_empty] at hjson
    cases hjson
  have hdecoded : Paging.decodeCursor plainInterpreter (some (armored trueText)) =
      .ok (some (.plain (.bool true), uuidText 0)) := by
    rw [Paging.decodeCursor, if_neg hne, hread]
  have huuid : plainInterpreter.uuid (uuidText 0) = some 0 := plainInterpreter.toLanguage.uuid_uuidText (by decide)
  have hlist : listTickets plainInterpreter id emptyDesk 1 ⟨.opened, none, none, none, none, none⟩ 25
      (some (armored trueText)) = .error .dataError := by
    rw [listTickets, hdecoded]
    simp only [Except.mapError, bind, Except.bind, Option.bind_some, huuid]
    rfl
  refine ⟨fun h => ?_, hlist⟩
  obtain ⟨page, hpage⟩ := h.answers
  rw [hlist] at hpage
  cases hpage

end Marketplace.DeskPages
