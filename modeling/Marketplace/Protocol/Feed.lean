import Marketplace.Protocol.Events
import Marketplace.Sql.Table
import Mathlib.Data.List.Sort
import Mathlib.Data.Int.Notation

/-!
# A cursor over rows that appear later than their ids

Transactions write rows into a table. A row has the moment its transaction began and an id from a sequence; it is
seen when the transaction commits, so that rows can appear below others that have been seen for long. A reader
walks the table by a cursor on the ids, a page at a time, and deals with the rows it wants. It moves the
cursor past the rows that are older than a margin, in the trust that below them nothing appears any more.

The trust is right exactly where the margin is twice as long as a transaction may take (`lossless_iff`): a
transaction that began just before an id above its own was given out may end a whole transaction later than the
one that has that id, which may have begun a whole transaction before it.
-/

namespace Protocol.Feed

open Sql

/-! ### The machine -/

/-- A transaction that has not committed, with the id its row has been given and the moment it was. -/
structure Writer where
  start : ℤ
  drawn : Option (ℕ × ℤ)
deriving DecidableEq

/-- A row that is seen: the moment its transaction began and the moment its id was given out. -/
structure Row (R : Type) where
  start : ℤ
  drawnAt : ℤ
  data : R
deriving DecidableEq

/-- A turn of the reader: what it takes for settled, and what it has read so far. -/
structure Turn (R : Type) where
  settled : ℤ
  page : Option (List (ℕ × Row R))
  floor : Option ℕ
deriving DecidableEq

structure State (R : Type) where
  now : ℤ
  nextId : ℕ
  writers : Table ℕ Writer
  rows : Table ℕ (Row R)
  cursor : ℕ
  /-- The rows that have been dealt with, in this order. -/
  taken : List ℕ
  turn : Option (Turn R)

/-- How long transactions take at most, the margin of the reader, the length of a page, the rows that are on pages,
those that count for the margin, and those that the reader is to deal with. -/
structure Rules (R : Type) where
  span : ℤ
  settle : ℤ
  batch : ℕ
  listed : R → Bool
  counted : R → Bool
  wanted : R → Bool

inductive Event (R : Type)
  | pass (now : ℤ)
  | start (writer : ℕ)
  | draw (writer : ℕ)
  | commit (writer : ℕ) (data : R)
  | rollback (writer : ℕ)
  /-- A turn begins, with a clock that was read some time ago. -/
  | enter (clock : ℤ)
  | readPage
  | readFloor
  /-- The turn ends; the rows in `failed` could not be dealt with. -/
  | leave (failed : List ℕ)
  | drop
deriving DecidableEq

variable {R : Type}

/-- The next page. -/
def page (F : Rules R) (rows : Table ℕ (Row R)) (cursor : ℕ) : List (ℕ × Row R) :=
  ((rows.rows.filter fun r => decide (cursor < r.1) && F.listed r.2.data).insertionSort
    fun a b => a.1 ≤ b.1).take F.batch

/-- The greatest id of a row that is settled. -/
def floor (F : Rules R) (rows : Table ℕ (Row R)) (settled : ℤ) : ℕ :=
  ((rows.rows.filter fun r => decide (r.2.start < settled) && F.counted r.2.data).map Prod.fst).foldr max 0

/-- Where the cursor goes: to the settled rows, but not past one that is not dealt with, nor past a full page. -/
def advance (cursor floor : ℕ) (unsent : List ℕ) (last : Option ℕ) (full : Bool) : ℕ :=
  let target := match unsent.min? with
    | none => floor
    | some id => min floor (id - 1)
  let target := match last with
    | none => target
    | some id => if full then min target id else target
  max cursor target

/-- The rows of the page that the reader is to deal with. -/
def wantedIds (F : Rules R) (rows : List (ℕ × Row R)) : List ℕ :=
  (rows.filter fun r => F.wanted r.2.data).map Prod.fst

/-- The end of a turn. -/
def State.finish (s : State R) (F : Rules R) (rows : List (ℕ × Row R)) (floor : ℕ) (failed : List ℕ) : State R :=
  let taken := s.taken ++ (wantedIds F rows).filter fun id => decide (id ∉ s.taken ∧ id ∉ failed)
  let unsent := (wantedIds F rows).filter fun id => decide (id ∉ taken)
  { s with
    cursor := advance s.cursor floor unsent (rows.getLast?.map Prod.fst) (rows.length == F.batch)
    taken := taken
    turn := none }

def step (F : Rules R) (s : State R) : Event R → Option (State R)
  | .pass now => if s.now ≤ now then some { s with now := now } else none
  | .start w => if s.writers.get? w = none then some { s with writers := s.writers.insert w ⟨s.now, none⟩ } else none
  | .draw w =>
      match s.writers.get? w with
      | some ⟨start, none⟩ =>
          some { s with writers := s.writers.modify w fun _ => ⟨start, some (s.nextId, s.now)⟩, nextId := s.nextId + 1 }
      | _ => none
  | .commit w data =>
      match s.writers.get? w with
      | some ⟨start, some (id, at')⟩ =>
          if s.rows.get? id = none ∧ s.now ≤ start + F.span then
            some { s with writers := s.writers.erase w, rows := s.rows.insert id ⟨start, at', data⟩ }
          else none
      | _ => none
  | .rollback w => some { s with writers := s.writers.erase w }
  | .enter clock =>
      if s.turn = none ∧ clock ≤ s.now then some { s with turn := some ⟨clock - F.settle, none, none⟩ } else none
  | .readPage =>
      match s.turn with
      | some ⟨settled, none, none⟩ => some { s with turn := some ⟨settled, some (page F s.rows s.cursor), none⟩ }
      | _ => none
  | .readFloor =>
      match s.turn with
      | some ⟨settled, some rows, none⟩ =>
          some { s with turn := some ⟨settled, some rows, some (floor F s.rows settled)⟩ }
      | _ => none
  | .leave failed =>
      match s.turn with
      | some ⟨_, some rows, some floor⟩ => some (s.finish F rows floor failed)
      | _ => none
  | .drop => some { s with turn := none }

/-- Nothing has been written; the first id is 1. -/
def initial (now : ℤ) : State R := ⟨now, 1, Table.empty, Table.empty, 0, [], none⟩

def machine (F : Rules R) : EventMachine (State R) (Event R) := ⟨step F⟩

variable {F : Rules R} {rows : Table ℕ (Row R)}

/-! ### Pages, floors and cursors -/

theorem mem_page {cursor : ℕ} {r : ℕ × Row R} (h : r ∈ page F rows cursor) :
    rows.get? r.1 = some r.2 ∧ cursor < r.1 ∧ F.listed r.2.data = true := by
  have hmem := List.mem_filter.mp ((List.mem_insertionSort _).mp (List.mem_of_mem_take h))
  rw [Bool.and_eq_true] at hmem
  exact ⟨Table.get?_eq_some_iff.mpr hmem.1, of_decide_eq_true hmem.2.1, hmem.2.2⟩

/-- **A row that is listed is on the page, or behind a page that is full.** -/
theorem mem_page_or {cursor id : ℕ} {r : Row R} (hr : rows.get? id = some r) (hid : cursor < id)
    (hlisted : F.listed r.data = true) :
    (id, r) ∈ page F rows cursor ∨
      (page F rows cursor).length = F.batch ∧ ∀ x ∈ page F rows cursor, x.1 < id := by
  let sorted := (rows.rows.filter fun r => decide (cursor < r.1) && F.listed r.2.data).insertionSort
    fun a b => a.1 ≤ b.1
  have hmem : (id, r) ∈ sorted := by
    refine (List.mem_insertionSort _).mpr (List.mem_filter.mpr ⟨Table.get?_eq_some_iff.mp hr, ?_⟩)
    rw [Bool.and_eq_true]
    exact ⟨decide_eq_true hid, hlisted⟩
  have hpair : sorted.Pairwise fun a b => a.1 ≤ b.1 := by
    have : Std.Total fun a b : ℕ × Row R => a.1 ≤ b.1 := ⟨fun a b => le_total a.1 b.1⟩
    have : IsTrans (ℕ × Row R) fun a b => a.1 ≤ b.1 := ⟨fun _ _ _ => le_trans⟩
    exact List.pairwise_insertionSort _ _
  rw [← List.take_append_drop F.batch sorted] at hmem hpair
  rcases List.mem_append.mp hmem with htake | hdrop
  · exact .inl htake
  · by_cases hon : (id, r) ∈ page F rows cursor
    · exact .inl hon
    refine .inr ⟨?_, fun x hx => lt_of_le_of_ne ((List.pairwise_append.mp hpair).2.2 x hx _ hdrop) fun he => hon ?_⟩
    · have hlt : F.batch < sorted.length := by
        by_contra hle
        rw [List.drop_of_length_le (not_lt.mp hle)] at hdrop
        cases hdrop
      exact List.length_take_of_le hlt.le
    · have hx' := (mem_page hx).1
      rw [he] at hx'
      have heq : x = (id, r) := Prod.ext he (Option.some.inj (hx'.symm.trans hr))
      exact heq ▸ hx

theorem nodup_page (cursor : ℕ) : ((page F rows cursor).map Prod.fst).Nodup := by
  have hfilter : ((rows.rows.filter fun r => decide (cursor < r.1) && F.listed r.2.data).map Prod.fst).Nodup :=
    rows.nodup.sublist (List.filter_sublist.map Prod.fst)
  have hsort := ((List.perm_insertionSort (fun a b : ℕ × Row R => a.1 ≤ b.1) _).map Prod.fst).nodup_iff.mpr hfilter
  exact hsort.sublist ((List.take_sublist _ _).map Prod.fst)

/-- Below the floor of a table there is a settled row, if there is anything. -/
theorem exists_of_floor (settled : ℤ) :
    floor F rows settled = 0 ∨ ∃ r, rows.get? (floor F rows settled) = some r ∧ r.start < settled := by
  have hfold : ∀ ids : List ℕ, ids.foldr max 0 = 0 ∨ ids.foldr max 0 ∈ ids := fun ids =>
    List.foldrRecOn (motive := fun top => top = 0 ∨ top ∈ ids) ids max (.inl rfl) fun top htop id hid => by
      rcases max_choice id top with hmax | hmax <;> rw [hmax]
      · exact .inr hid
      · exact htop
  rcases hfold _ with h0 | hmem
  · exact .inl h0
  · obtain ⟨r, hr, hid⟩ := List.mem_map.mp hmem
    obtain ⟨hrow, hsettled⟩ := List.mem_filter.mp hr
    rw [Bool.and_eq_true] at hsettled
    refine .inr ⟨r.2, ?_, of_decide_eq_true hsettled.1⟩
    change rows.get? (List.foldr max 0 _) = some r.2
    rw [← hid]
    exact Table.get?_eq_some_iff.mpr hrow

/-- What the cursor has newly passed is settled, dealt with and not behind a full page. -/
theorem le_advance {cursor floor id : ℕ} {unsent : List ℕ} {last : Option ℕ} {full : Bool}
    (h : id ≤ advance cursor floor unsent last full) (hcursor : cursor < id) (hpos : ∀ i ∈ unsent, 0 < i) :
    id ≤ floor ∧ (∀ i ∈ unsent, id < i) ∧ ∀ i, last = some i → full = true → id ≤ i := by
  -- What is left of the floor when the rows that are not dealt with are taken into account.
  have hunsent : ∀ target, (target = match unsent.min? with | none => floor | some i => min floor (i - 1)) →
      id ≤ target → id ≤ floor ∧ ∀ i ∈ unsent, id < i := by
    rintro target rfl hle
    rcases hmin : unsent.min? with _ | m
    · rw [hmin] at hle
      rw [List.min?_eq_none_iff] at hmin
      subst hmin
      exact ⟨hle, fun i hi => by cases hi⟩
    · rw [hmin] at hle
      obtain ⟨hm, hleast⟩ := List.min?_eq_some_iff.mp hmin
      have hle' : id ≤ min floor (m - 1) := hle
      rw [le_min_iff] at hle'
      have := hpos m hm
      exact ⟨hle'.1, fun i hi => by have := hleast i hi; omega⟩
  rcases le_max_iff.mp h with hold | htarget
  · omega
  · rcases last with _ | i
    · obtain ⟨hfloor, hun⟩ := hunsent _ rfl htarget
      exact ⟨hfloor, hun, fun _ hi => by cases hi⟩
    · rcases full with _ | _
      · obtain ⟨hfloor, hun⟩ := hunsent _ rfl htarget
        exact ⟨hfloor, hun, fun _ _ hf => by cases hf⟩
      · obtain ⟨hle, hlast⟩ := le_min_iff.mp htarget
        obtain ⟨hfloor, hun⟩ := hunsent _ rfl hle
        exact ⟨hfloor, hun, fun j hj _ => by rw [← Option.some.inj hj]; exact hlast⟩

/-! ### What is kept -/

namespace State

/-- The id was given out at this moment. -/
def Drawn (s : State R) (id : ℕ) (at' : ℤ) : Prop :=
  (∃ w start, s.writers.get? w = some ⟨start, some (id, at')⟩) ∨ ∃ r, s.rows.get? id = some r ∧ r.drawnAt = at'

/-- Ids are given out in the order of time, to transactions that take no longer than they may. -/
structure Timed (F : Rules R) (s : State R) : Prop where
  writers : ∀ w writer, s.writers.get? w = some writer → writer.start ≤ s.now ∧
    ∀ id at', writer.drawn = some (id, at') → id < s.nextId ∧ writer.start ≤ at' ∧ at' ≤ s.now
  rows : ∀ id r, s.rows.get? id = some r → id < s.nextId ∧ r.start ≤ r.drawnAt ∧ r.drawnAt ≤ s.now ∧
    r.drawnAt ≤ r.start + F.span
  order : ∀ id at' id' at'', s.Drawn id at' → s.Drawn id' at'' → id ≤ id' → at' ≤ at''

/-- What the reader has read. -/
structure Reading (F : Rules R) (s : State R) (turn : Turn R) : Prop where
  clock : turn.settled + F.settle ≤ s.now
  page : ∀ rows, turn.page = some rows → (rows.map Prod.fst).Nodup ∧
    (∀ x ∈ rows, s.rows.get? x.1 = some x.2 ∧ s.cursor < x.1 ∧ F.listed x.2.data = true) ∧
    ∀ id r, s.rows.get? id = some r → s.cursor < id → F.listed r.data = true →
      (id, r) ∈ rows ∨ rows.length = F.batch ∧ (∀ x ∈ rows, x.1 < id) ∨ turn.settled + F.settle ≤ r.start + F.span
  floor : ∀ id, turn.floor = some id → id = 0 ∨ ∃ r, s.rows.get? id = some r ∧ r.start < turn.settled

/-- **No row is passed that has not been dealt with**, and none will appear below the cursor. -/
structure Invariant (F : Rules R) (s : State R) : Prop where
  timed : s.Timed F
  cursor : s.cursor < s.nextId
  passed : ∀ id r, s.rows.get? id = some r → id ≤ s.cursor → F.listed r.data = true → F.wanted r.data = true →
    id ∈ s.taken
  dead : ∀ w start id at', s.writers.get? w = some ⟨start, some (id, at')⟩ → id ≤ s.cursor → start + F.span < s.now
  reading : ∀ turn, s.turn = some turn → s.Reading F turn
  once : s.taken.Nodup
  sound : ∀ id ∈ s.taken, ∃ r, s.rows.get? id = some r ∧ F.listed r.data = true ∧ F.wanted r.data = true

variable {s : State R}

theorem Invariant.pass (h : s.Invariant F) {now : ℤ} (hnow : s.now ≤ now) :
    ({ s with now := now } : State R).Invariant F :=
  { h with
    timed :=
      { writers := fun w writer hw => by
          obtain ⟨hstart, hdrawn⟩ := h.timed.writers w writer hw
          refine ⟨hstart.trans hnow, fun id at' hid => ?_⟩
          obtain ⟨hlt, hle, hat⟩ := hdrawn id at' hid
          exact ⟨hlt, hle, hat.trans hnow⟩
        rows := fun id r hr => by
          obtain ⟨hlt, hle, hat, hspan⟩ := h.timed.rows id r hr
          exact ⟨hlt, hle, hat.trans hnow, hspan⟩
        order := h.timed.order }
    dead := fun w start id at' hw hid => (h.dead w start id at' hw hid).trans_le hnow
    reading := fun turn ht => { h.reading turn ht with clock := (h.reading turn ht).clock.trans hnow } }

/-- Fewer transactions, or one more that has no id yet. -/
theorem Invariant.writers (h : s.Invariant F) {writers : Table ℕ Writer}
    (hwriters : ∀ w writer, writers.get? w = some writer → s.writers.get? w = some writer ∨ writer = ⟨s.now, none⟩) :
    ({ s with writers := writers } : State R).Invariant F := by
  have hdrawn : ∀ id at', State.Drawn { s with writers := writers } id at' → s.Drawn id at' := by
    rintro id at' (⟨w, start, hw⟩ | hrow)
    · rcases hwriters w _ hw with hold | hnew
      · exact .inl ⟨w, start, hold⟩
      · cases hnew
    · exact .inr hrow
  exact
    { h with
      timed :=
        { writers := fun w writer hw => by
            rcases hwriters w writer hw with hold | rfl
            · exact h.timed.writers w writer hold
            · exact ⟨le_rfl, fun _ _ hid => by cases hid⟩
          rows := h.timed.rows
          order := fun id at' id' at'' hid hid' =>
            h.timed.order id at' id' at'' (hdrawn id at' hid) (hdrawn id' at'' hid') }
      dead := fun w start id at' hw hid => by
        rcases hwriters w _ hw with hold | hnew
        · exact h.dead w start id at' hold hid
        · cases hnew
      reading := fun turn ht => { h.reading turn ht with } }

/-- An id is given out. -/
theorem Invariant.draw (h : s.Invariant F) {w : ℕ} {start : ℤ} (hw : s.writers.get? w = some ⟨start, none⟩) :
    ({ s with writers := s.writers.modify w fun _ => ⟨start, some (s.nextId, s.now)⟩, nextId := s.nextId + 1 } :
      State R).Invariant F := by
  let writers := s.writers.modify w fun _ => (⟨start, some (s.nextId, s.now)⟩ : Writer)
  have hwriters : ∀ w' writer, writers.get? w' = some writer →
      s.writers.get? w' = some writer ∨ writer = ⟨start, some (s.nextId, s.now)⟩ := by
    intro w' writer hw'
    rw [Table.get?_modify] at hw'
    split_ifs at hw' with he
    · rw [he, hw] at hw'
      exact .inr (Option.some.inj hw').symm
    · exact .inl hw'
  have hstart : start ≤ s.now := (h.timed.writers w _ hw).1
  -- An id that was given out before is smaller, and was given out before now.
  have hdrawn : ∀ id at', State.Drawn { s with writers := writers, nextId := s.nextId + 1 } id at' →
      s.Drawn id at' ∧ id < s.nextId ∧ at' ≤ s.now ∨ id = s.nextId ∧ at' = s.now := by
    rintro id at' (⟨w', start', hw'⟩ | ⟨r, hr, rfl⟩)
    · rcases hwriters w' _ hw' with hold | hnew
      · obtain ⟨hlt, -, hle⟩ := (h.timed.writers w' _ hold).2 id at' rfl
        exact .inl ⟨.inl ⟨w', start', hold⟩, hlt, hle⟩
      · cases hnew
        exact .inr ⟨rfl, rfl⟩
    · obtain ⟨hlt, -, hle, -⟩ := h.timed.rows id r hr
      exact .inl ⟨.inr ⟨r, hr, rfl⟩, hlt, hle⟩
  exact
    { h with
      timed :=
        { writers := fun w' writer hw' => by
            rcases hwriters w' writer hw' with hold | rfl
            · obtain ⟨hle, hids⟩ := h.timed.writers w' writer hold
              refine ⟨hle, fun id at' hid => ?_⟩
              obtain ⟨hlt, hrest⟩ := hids id at' hid
              exact ⟨hlt.trans (Nat.lt_succ_self _), hrest⟩
            · refine ⟨hstart, fun id at' hid => ?_⟩
              cases hid
              exact ⟨Nat.lt_succ_self _, hstart, le_rfl⟩
          rows := fun id r hr => by
            obtain ⟨hlt, hrest⟩ := h.timed.rows id r hr
            exact ⟨hlt.trans (Nat.lt_succ_self _), hrest⟩
          order := fun id at' id' at'' hid hid' hle => by
            rcases hdrawn id at' hid with ⟨hold, -, hnow⟩ | ⟨rfl, rfl⟩ <;>
              rcases hdrawn id' at'' hid' with ⟨hold', hlt', -⟩ | ⟨rfl, rfl⟩
            · exact h.timed.order id at' id' at'' hold hold' hle
            · exact hnow
            · omega
            · exact le_rfl }
      cursor := h.cursor.trans (Nat.lt_succ_self _)
      dead := fun w' start' id at' hw' hid => by
        rcases hwriters w' _ hw' with hold | hnew
        · exact h.dead w' start' id at' hold hid
        · cases hnew
          exact absurd hid (not_le.mpr h.cursor)
      reading := fun turn ht => { h.reading turn ht with } }

/-- **A row appears.** It is above the cursor, and a turn that has read its page without it will find it too young to
be passed. -/
theorem Invariant.commit (h : s.Invariant F) {w id : ℕ} {start at' : ℤ} {data : R}
    (hw : s.writers.get? w = some ⟨start, some (id, at')⟩) (hnew : s.rows.get? id = none)
    (hspan : s.now ≤ start + F.span) :
    ({ s with writers := s.writers.erase w, rows := s.rows.insert id ⟨start, at', data⟩ } : State R).Invariant F := by
  obtain ⟨hlt, hstart, hat⟩ := (h.timed.writers w _ hw).2 id at' rfl
  have hwriters : ∀ w' writer, (s.writers.erase w).get? w' = some writer → s.writers.get? w' = some writer :=
    fun _ _ hw' => (Table.get?_of_erase hw').2
  have hrows : ∀ id' r, (s.rows.insert id ⟨start, at', data⟩).get? id' = some r →
      id' = id ∧ r = ⟨start, at', data⟩ ∨ s.rows.get? id' = some r := fun _ _ => Table.get?_of_insert hnew
  have hstay : ∀ id' r, s.rows.get? id' = some r → (s.rows.insert id ⟨start, at', data⟩).get? id' = some r :=
    fun _ _ => Table.stay_insert hnew _
  have habove : s.cursor < id := by
    by_contra hle
    have := h.dead w start id at' hw (not_lt.mp hle)
    omega
  have hdrawn : ∀ id' at'', State.Drawn
      { s with writers := s.writers.erase w, rows := s.rows.insert id ⟨start, at', data⟩ } id' at'' →
        s.Drawn id' at'' := by
    rintro id' at'' (⟨w', start', hw'⟩ | ⟨r, hr, rfl⟩)
    · exact .inl ⟨w', start', hwriters w' _ hw'⟩
    · rcases hrows id' r hr with ⟨rfl, rfl⟩ | hold
      · exact .inl ⟨w, start, hw⟩
      · exact .inr ⟨r, hold, rfl⟩
  exact
    { h with
      timed :=
        { writers := fun w' writer hw' => h.timed.writers w' writer (hwriters w' writer hw')
          rows := fun id' r hr => by
            rcases hrows id' r hr with ⟨rfl, rfl⟩ | hold
            · exact ⟨hlt, hstart, hat, hat.trans hspan⟩
            · exact h.timed.rows id' r hold
          order := fun i a i' a' hi hi' => h.timed.order i a i' a' (hdrawn i a hi) (hdrawn i' a' hi') }
      passed := fun id' r hr hle hlisted hwanted => by
        rcases hrows id' r hr with ⟨rfl, -⟩ | hold
        · exact absurd hle (not_le.mpr habove)
        · exact h.passed id' r hold hle hlisted hwanted
      dead := fun w' start' id' a hw' hle => h.dead w' start' id' a (hwriters w' _ hw') hle
      reading := fun turn ht => by
        have hreading := h.reading turn ht
        have hclock := hreading.clock
        refine ⟨hclock, fun rows hpage => ?_, fun i hi => ?_⟩
        · obtain ⟨hnodup, hmem, hcomplete⟩ := hreading.page rows hpage
          refine ⟨hnodup, fun x hx => ⟨hstay x.1 x.2 (hmem x hx).1, (hmem x hx).2⟩, fun i r hr hi hlisted => ?_⟩
          rcases hrows i r hr with ⟨rfl, rfl⟩ | hold
          · exact .inr (.inr (hclock.trans hspan))
          · exact hcomplete i r hold hi hlisted
        · exact (hreading.floor i hi).imp_right fun ⟨r, hr, hsettled⟩ => ⟨r, hstay i r hr, hsettled⟩
      sound := fun i hi => by
        obtain ⟨r, hr, hrest⟩ := h.sound i hi
        exact ⟨r, hstay i r hr, hrest⟩ }

/-- What a turn reads. -/
theorem Invariant.turn (h : s.Invariant F) {turn : Option (Turn R)} (ht : ∀ t, turn = some t → s.Reading F t) :
    ({ s with turn := turn } : State R).Invariant F :=
  { h with
    timed := { h.timed with }
    reading := fun t htt => { ht t htt with } }

/-- **The end of a turn**, where the margin is twice as long as a transaction may take. -/
theorem Invariant.finish (h : s.Invariant F) (hbatch : 0 < F.batch) (hspan : 2 * F.span ≤ F.settle) {turn : Turn R}
    (ht : s.turn = some turn) {rows : List (ℕ × Row R)} (hpage : turn.page = some rows) {floor : ℕ}
    (hfloor : turn.floor = some floor) (failed : List ℕ) : (s.finish F rows floor failed).Invariant F := by
  obtain ⟨hclock, hreading, hfloors⟩ := h.reading turn ht
  obtain ⟨hnodup, hmem, hcomplete⟩ := hreading rows hpage
  let s' := s.finish F rows floor failed
  have hwantedIds : ∀ id ∈ wantedIds F rows, ∃ r, (id, r) ∈ rows ∧ F.wanted r.data = true := by
    intro id hid
    obtain ⟨x, hx, rfl⟩ := List.mem_map.mp hid
    obtain ⟨hx, hw⟩ := List.mem_filter.mp hx
    exact ⟨x.2, hx, hw⟩
  have htaken : ∀ id ∈ s'.taken, id ∈ s.taken ∨ id ∈ wantedIds F rows ∧ id ∉ s.taken := by
    intro id hid
    rcases List.mem_append.mp hid with hold | hnew
    · exact .inl hold
    · obtain ⟨hid, hnot⟩ := List.mem_filter.mp hnew
      exact .inr ⟨hid, (of_decide_eq_true hnot).1⟩
  -- Where the cursor has newly come to: a settled row is there or above.
  have hpassed : ∀ id, id ≤ s'.cursor → s.cursor < id →
      (∃ settledId r, id ≤ settledId ∧ s.rows.get? settledId = some r ∧ r.start < turn.settled) ∧
        (∀ r, (id, r) ∈ rows → F.wanted r.data = true → id ∈ s'.taken) ∧
        ¬(rows.length = F.batch ∧ ∀ x ∈ rows, x.1 < id) := by
    intro id hid habove
    obtain ⟨hle, hunsent, hlast⟩ := le_advance hid habove fun i hi => by
      obtain ⟨r, hr, -⟩ := hwantedIds i (List.mem_filter.mp hi).1
      exact (Nat.zero_le _).trans_lt (hmem (i, r) hr).2.1
    refine ⟨?_, fun r hr hwanted => ?_, fun ⟨hfull, hbelow⟩ => ?_⟩
    · rcases hfloors floor hfloor with rfl | ⟨r, hr, hsettled⟩
      · omega
      · exact ⟨floor, r, hle, hr, hsettled⟩
    · by_contra hnot
      have hin : id ∈ wantedIds F rows := List.mem_map.mpr ⟨(id, r), List.mem_filter.mpr ⟨hr, hwanted⟩, rfl⟩
      exact lt_irrefl id (hunsent id (List.mem_filter.mpr ⟨hin, decide_eq_true hnot⟩))
    · rcases hgetLast : rows.getLast? with _ | x
      · rw [List.getLast?_eq_none_iff] at hgetLast
        subst hgetLast
        simp only [List.length_nil] at hfull
        omega
      · have hx := hbelow x (List.mem_of_getLast? hgetLast)
        have := hlast x.1 (by rw [hgetLast]; rfl) (by rw [beq_iff_eq]; exact hfull)
        omega
  -- What was given out below a settled row was given out early.
  have hearly : ∀ id at', s.Drawn id at' → id ≤ s'.cursor → s.cursor < id → at' < turn.settled + F.span := by
    intro id at' hdrawn hid habove
    obtain ⟨⟨settledId, r, hle, hr, hsettled⟩, -⟩ := hpassed id hid habove
    have horder := h.timed.order id at' settledId r.drawnAt hdrawn (.inr ⟨r, hr, rfl⟩) hle
    obtain ⟨-, -, -, hend⟩ := h.timed.rows settledId r hr
    omega
  refine
    { timed := { h.timed with }
      cursor := ?_
      passed := fun id r hr hid hlisted hwanted => ?_
      dead := fun w start id at' hw hid => ?_
      reading := fun t htt => by cases htt
      once := ?_
      sound := fun id hid => ?_ }
  · rcases Nat.lt_or_ge s.cursor s'.cursor with habove | hle
    · obtain ⟨⟨settledId, r, hle, hr, -⟩, -⟩ := hpassed _ le_rfl habove
      exact hle.trans_lt (h.timed.rows settledId r hr).1
    · exact hle.trans_lt h.cursor
  · rcases Nat.lt_or_ge s.cursor id with habove | hle
    · obtain ⟨-, hdone, hbehind⟩ := hpassed id hid habove
      rcases hcomplete id r hr habove hlisted with hon | hfull | hyoung
      · exact hdone r hon hwanted
      · exact absurd hfull hbehind
      · have := hearly id r.drawnAt (.inr ⟨r, hr, rfl⟩) hid habove
        obtain ⟨-, hstart, -⟩ := h.timed.rows id r hr
        omega
    · exact List.mem_append_left _ (h.passed id r hr hle hlisted hwanted)
  · rcases Nat.lt_or_ge s.cursor id with habove | hle
    · have := hearly id at' (.inl ⟨w, start, hw⟩) hid habove
      obtain ⟨-, hstart, -⟩ := (h.timed.writers w _ hw).2 id at' rfl
      change start + F.span < s.now
      change start ≤ at' at hstart
      omega
    · exact h.dead w start id at' hw hle
  · refine List.nodup_append.mpr ⟨h.once, ?_, fun i hi j hj he => ?_⟩
    · exact (hnodup.sublist (List.filter_sublist.map Prod.fst)).sublist List.filter_sublist
    · exact (of_decide_eq_true (List.mem_filter.mp hj).2).1 (he ▸ hi)
  · rcases htaken id hid with hold | ⟨hnew, -⟩
    · exact h.sound id hold
    · obtain ⟨r, hr, hwanted⟩ := hwantedIds id hnew
      exact ⟨r, (hmem (id, r) hr).1, (hmem (id, r) hr).2.2, hwanted⟩

theorem Invariant.step (h : s.Invariant F) (hbatch : 0 < F.batch) (hspan : 2 * F.span ≤ F.settle) {e : Event R}
    {s' : State R} (hstep : (machine F).step s e = some s') : s'.Invariant F := by
  change Feed.step F s e = some s' at hstep
  rw [Feed.step.eq_def] at hstep
  split at hstep
  next now =>
    split_ifs at hstep with hnow
    obtain rfl := Option.some.inj hstep
    exact h.pass hnow
  next w =>
    split_ifs at hstep with hw
    obtain rfl := Option.some.inj hstep
    exact h.writers fun w' writer hw' => (Table.get?_of_insert hw hw').symm.imp_right And.right
  next w =>
    split at hstep
    next start hw =>
      obtain rfl := Option.some.inj hstep
      exact h.draw hw
    · cases hstep
  next w data =>
    split at hstep
    next start id at' hw =>
      split_ifs at hstep with hcommit
      obtain rfl := Option.some.inj hstep
      exact h.commit hw hcommit.1 hcommit.2
    · cases hstep
  next w =>
    obtain rfl := Option.some.inj hstep
    exact h.writers fun w' writer hw' => .inl (Table.get?_of_erase hw').2
  -- The turn of the reader.
  next clock =>
    split_ifs at hstep with hclock
    obtain rfl := Option.some.inj hstep
    refine h.turn fun t ht => ?_
    obtain rfl := Option.some.inj ht
    refine ⟨?_, fun _ hp => Option.noConfusion rfl (heq_of_eq hp), fun _ hf => Option.noConfusion rfl (heq_of_eq hf)⟩
    change clock - F.settle + F.settle ≤ s.now
    omega
  next =>
    split at hstep
    next settled ht =>
      obtain rfl := Option.some.inj hstep
      refine h.turn fun t htt => ?_
      obtain rfl := Option.some.inj htt
      refine ⟨(h.reading _ ht).clock, fun rows hp => ?_, fun _ hf => Option.noConfusion rfl (heq_of_eq hf)⟩
      obtain rfl := Option.some.inj hp
      exact ⟨nodup_page _, fun x hx => mem_page hx, fun id r hr hid hlisted =>
        (mem_page_or hr hid hlisted).imp_right .inl⟩
    · cases hstep
  next =>
    split at hstep
    next settled rows ht =>
      obtain rfl := Option.some.inj hstep
      refine h.turn fun t htt => ?_
      obtain rfl := Option.some.inj htt
      refine ⟨(h.reading _ ht).clock, (h.reading _ ht).page, fun id hf => ?_⟩
      obtain rfl := Option.some.inj hf
      exact exists_of_floor settled
    · cases hstep
  next failed =>
    split at hstep
    next settled rows floor ht =>
      obtain rfl := Option.some.inj hstep
      exact h.finish hbatch hspan ht rfl rfl failed
    · cases hstep
  next =>
    obtain rfl := Option.some.inj hstep
    exact h.turn fun t ht => by cases ht

theorem invariant_initial (now : ℤ) : (initial now : State R).Invariant F := by
  have hwriters : ∀ w writer, (initial now : State R).writers.get? w ≠ some writer := fun w writer => by simp [initial]
  have hrows : ∀ id r, (initial now : State R).rows.get? id ≠ some r := fun id r => by simp [initial]
  have hdrawn : ∀ id at', ¬(initial now : State R).Drawn id at' := by
    rintro id at' (⟨w, start, hw⟩ | ⟨r, hr, -⟩)
    · exact hwriters w _ hw
    · exact hrows id r hr
  exact
    { timed :=
        { writers := fun w writer hw => absurd hw (hwriters w writer)
          rows := fun id r hr => absurd hr (hrows id r)
          order := fun id at' _ _ hd => absurd hd (hdrawn id at') }
      cursor := Nat.zero_lt_one
      passed := fun id r hr => absurd hr (hrows id r)
      dead := fun w start id at' hw => absurd hw (hwriters w _)
      reading := fun turn ht => by cases ht
      once := List.nodup_nil
      sound := fun id hid => absurd hid List.not_mem_nil }

end State

/-- Every row that the cursor has passed and that was to be dealt with has been. -/
def State.Lossless (F : Rules R) (s : State R) : Prop :=
  ∀ id r, s.rows.get? id = some r → id ≤ s.cursor → F.listed r.data = true → F.wanted r.data = true → id ∈ s.taken

/-- **Nothing is lost, nothing is taken twice, and nothing else is taken**, where the margin is twice the span. -/
theorem Invariant.runs (hbatch : 0 < F.batch) (hspan : 2 * F.span ≤ F.settle) {may : State R → Event R → Prop} {now : ℤ}
    {s : State R} (h : (machine F).Runs may (initial now) s) : s.Invariant F :=
  h.invariant (fun _ _ _ hs _ hstep => hs.step hbatch hspan hstep) (State.invariant_initial now)

/-- **A row is lost** where a transaction may take longer than half the margin. The one that begins last gets the smaller
id and ends last. -/
theorem exists_lost (hbatch : 0 < F.batch) (hsettle : 0 ≤ F.settle) (hspan : F.settle < 2 * F.span) {data : R}
    (hlisted : F.listed data = true) (hcounted : F.counted data = true) (hwanted : F.wanted data = true) :
    ∃ s, (machine F).Runs (fun _ _ => True) (initial 0) s ∧ ¬s.Lossless F := by
  let clock := max F.span (F.settle + 1)
  have hle : F.span ≤ clock := le_max_left _ _
  have hlt : F.settle < clock := (lt_add_one _).trans_le (le_max_right _ _)
  have hend : clock ≤ F.span + F.span := max_le (by omega) (by omega)
  let early : Row R := ⟨0, F.span, data⟩
  let rows : Table ℕ (Row R) := Table.empty.insert 2 early
  let s₁ : State R := { (initial 0 : State R) with writers := Table.empty.insert 0 ⟨0, none⟩ }
  let s₂ : State R := { s₁ with now := F.span }
  let s₃ : State R := { s₂ with writers := s₂.writers.insert 1 ⟨F.span, none⟩ }
  let s₄ : State R := { s₃ with writers := s₃.writers.modify 1 fun _ => ⟨F.span, some (1, F.span)⟩, nextId := 2 }
  let s₅ : State R := { s₄ with writers := s₄.writers.modify 0 fun _ => ⟨0, some (2, F.span)⟩, nextId := 3 }
  let s₆ : State R := { s₅ with writers := s₅.writers.erase 0, rows := rows }
  let s₇ : State R := { s₆ with now := clock }
  let s₈ : State R := { s₇ with turn := some ⟨clock - F.settle, none, none⟩ }
  let s₉ : State R := { s₈ with turn := some ⟨clock - F.settle, some (page F rows 0), none⟩ }
  let s₁₀ : State R :=
    { s₉ with turn := some ⟨clock - F.settle, some (page F rows 0), some (floor F rows (clock - F.settle))⟩ }
  let s₁₁ : State R := s₁₀.finish F (page F rows 0) (floor F rows (clock - F.settle)) []
  let s₁₂ : State R := { s₁₁ with writers := s₁₁.writers.erase 1, rows := rows.insert 1 ⟨F.span, F.span, data⟩ }
  have hspan₀ : (0 : ℤ) ≤ F.span := by omega
  have h₁ : step F (initial 0) (.start 0) = some s₁ := rfl
  have h₂ : step F s₁ (.pass F.span) = some s₂ := if_pos hspan₀
  have h₃ : step F s₂ (.start 1) = some s₃ := rfl
  have h₄ : step F s₃ (.draw 1) = some s₄ := rfl
  have h₅ : step F s₄ (.draw 0) = some s₅ := rfl
  have h₆ : step F s₅ (.commit 0 data) = some s₆ := if_pos ⟨rfl, by change F.span ≤ 0 + F.span; omega⟩
  have h₇ : step F s₆ (.pass clock) = some s₇ := if_pos hle
  have h₈ : step F s₇ (.enter clock) = some s₈ := if_pos ⟨rfl, le_rfl⟩
  have h₉ : step F s₈ .readPage = some s₉ := rfl
  have h₁₀ : step F s₉ .readFloor = some s₁₀ := rfl
  have h₁₁ : step F s₁₀ (.leave []) = some s₁₁ := rfl
  have h₁₂ : step F s₁₁ (.commit 1 data) = some s₁₂ := if_pos ⟨rfl, hend⟩
  have hpage : page F rows 0 = [(2, early)] := by
    obtain ⟨n, hn⟩ := Nat.exists_eq_succ_of_ne_zero hbatch.ne'
    have hrows : rows.rows = [(2, early)] := rfl
    rw [page, hrows, List.filter_cons_of_pos (by simpa using hlisted), List.filter_nil, hn, List.insertionSort_cons,
      List.insertionSort_nil, List.orderedInsert_nil, List.take_succ_cons, List.take_nil]
  have hfloor : floor F rows (clock - F.settle) = 2 := by
    have hrows : rows.rows = [(2, early)] := rfl
    have hold : (0 : ℤ) < clock - F.settle := by omega
    rw [floor, hrows, List.filter_cons_of_pos (by simpa [early, hcounted] using hold), List.filter_nil]
    rfl
  have hids : wantedIds F [(2, early)] = [2] := by
    have hfilter : [((2 : ℕ), early)].filter (fun r => F.wanted r.2.data) = [(2, early)] :=
      List.filter_cons_of_pos hwanted
    rw [wantedIds, hfilter]
    rfl
  have htaken : s₁₂.taken = [2] := by
    change [] ++ (wantedIds F (page F rows 0)).filter _ = [2]
    rw [hpage, hids]
    rfl
  have hcursor : s₁₂.cursor = 2 := by
    change advance 0 (floor F rows (clock - F.settle)) _ _ _ = 2
    rw [hpage, hids, hfloor]
    rcases hfull : ([((2 : ℕ), early)].length == F.batch) <;> rfl
  have hnext : ∀ {s s' : State R} {e : Event R}, step F s e = some s' → (machine F).Next (fun _ _ => True) s s' :=
    fun {_ _ e} h => ⟨e, trivial, h⟩
  refine ⟨s₁₂, ?_, fun hlossless => ?_⟩
  · exact ((((((((((((Relation.ReflTransGen.single (hnext h₁)).tail (hnext h₂)).tail (hnext h₃)).tail (hnext h₄)).tail
      (hnext h₅)).tail (hnext h₆)).tail (hnext h₇)).tail (hnext h₈)).tail (hnext h₉)).tail (hnext h₁₀)).tail
      (hnext h₁₁)).tail (hnext h₁₂))
  · have hin := hlossless 1 ⟨F.span, F.span, data⟩ rfl (by rw [hcursor]; decide) hlisted hwanted
    rw [htaken] at hin
    simp at hin

/-- **The reader loses nothing exactly where its margin is twice as long as a transaction may take.** -/
theorem lossless_iff (hbatch : 0 < F.batch) (hsettle : 0 ≤ F.settle)
    (hdata : ∃ data, F.listed data = true ∧ F.counted data = true ∧ F.wanted data = true) :
    (∀ now s, (machine F).Runs (fun _ _ => True) (initial now) s → s.Lossless F) ↔ 2 * F.span ≤ F.settle := by
  constructor
  · intro h
    by_contra hspan
    obtain ⟨data, hlisted, hcounted, hwanted⟩ := hdata
    obtain ⟨s, hrun, hlost⟩ := exists_lost hbatch hsettle (not_le.mp hspan) hlisted hcounted hwanted
    exact hlost (h 0 s hrun)
  · intro hspan now s hrun
    exact (Invariant.runs hbatch hspan hrun).passed

end Protocol.Feed
