import Marketplace.Protocol.Feed
import Marketplace.SellerTelegram.Dispatch

/-!
# The cursor of a seller's bot

`deliver` sends a seller the notifications above the bot's cursor that are relevant and not among those it remembers
to have sent. Then `_advance` moves the cursor: past what is settled, but not past a relevant notification that could
not be sent, nor past a full page; what was sent above the cursor is remembered.

`deliverNotes_finish` says that this is a turn of `Protocol.Feed`. In every interleaving with the transactions
that notify, every relevant notification below the cursor has been sent, exactly if those transactions take half of
`SETTLE` at most (`notes_sent_iff`), whatever sending fails.
-/

namespace Marketplace.SellerTelegram

open Protocol Sql Python

/-- What `deliver` reads of a notification. -/
structure Note where
  accountId : ℕ
  kind : String
  params : List (String × Json)

variable (sellerId : ℕ) (events : Event → Bool) (span : ℤ)

/-- `relevant` -/
def Note.relevant (n : Note) : Bool :=
  match notificationEvent n.kind (.obj n.params) with
  | .ok (some event) => events event
  | _ => false

/-- The reader of the seller's notifications. -/
def noteRules : Feed.Rules Note where
  span := span
  settle := settle
  batch := batch
  listed n := n.accountId == sellerId
  counted n := n.accountId == sellerId
  wanted n := n.relevant events

/-- `_advance` -/
def advance (cursor floor : ℕ) (rows : List (ℕ × Bool)) (sent : List ℕ) (full : Bool) : ℕ :=
  let unsent := (rows.filter fun r => r.2 && decide (r.1 ∉ sent)).map Prod.fst
  let target := match unsent.min? with
    | none => floor
    | some id => min floor (id - 1)
  let target := match rows.getLast? with
    | none => target
    | some last => if full then min target last.1 else target
  max cursor target

/-- `deliver`, as far as the notifications: with those it remembers, and those that can be sent now, the cursor and
what it remembers afterwards. -/
def deliverNotes (notes : Table ℕ (Feed.Row Note)) (lastNotificationId : ℕ) (recent : List ℕ) (settled : ℤ)
    (arrives : ℕ → Bool) : ℕ × List ℕ :=
  let rows := Feed.page (noteRules sellerId events span) notes lastNotificationId
  let noteRows := rows.map fun r => (r.1, r.2.data.relevant events)
  let wanted := (noteRows.filter fun r => r.2 && decide (r.1 ∉ recent)).map Prod.fst
  let sent := recent ++ wanted.filter arrives
  let floor := Feed.floor (noteRules sellerId events span) notes settled
  let cursor := advance lastNotificationId floor noteRows sent (rows.length == batch)
  (cursor, (sent.filter fun id => decide (cursor < id)).insertionSort (· ≤ ·))

variable {sellerId events span}

/-- The flagged rows that are wanted, of those with a property. -/
theorem map_filter_flagged (rows : List (ℕ × Feed.Row Note)) (p : ℕ → Bool) :
    ((rows.map fun r => (r.1, r.2.data.relevant events)).filter fun r => r.2 && p r.1).map Prod.fst =
      (Feed.wantedIds (noteRules sellerId events span) rows).filter p := by
  rw [Feed.wantedIds, List.filter_map, List.filter_map, List.map_map, List.filter_filter]
  exact congrArg (List.map Prod.fst) (List.filter_congr fun r _ => Bool.and_comm _ _)

theorem advance_eq (cursor floor : ℕ) (rows : List (ℕ × Bool)) (sent : List ℕ) (full : Bool) :
    advance cursor floor rows sent full = Feed.advance cursor floor
      ((rows.filter fun r => r.2 && decide (r.1 ∉ sent)).map Prod.fst) (rows.getLast?.map Prod.fst) full := by
  rw [advance]
  rcases rows.getLast? with _ | r <;> rfl

/-- **A turn of `deliver` is a turn of the reader**, in which fails what does not arrive. -/
theorem deliverNotes_finish (s : Feed.State Note) {recent : List ℕ}
    (hrecent : ∀ id, id ∈ recent ↔ id ∈ s.taken ∧ s.cursor < id) (settled : ℤ) (arrives : ℕ → Bool) :
    let F := noteRules sellerId events span
    let rows := Feed.page F s.rows s.cursor
    let s' := s.finish F rows (Feed.floor F s.rows settled) ((Feed.wantedIds F rows).filter fun id => !arrives id)
    (deliverNotes sellerId events span s.rows s.cursor recent settled arrives).1 = s'.cursor ∧
      ∀ id, id ∈ (deliverNotes sellerId events span s.rows s.cursor recent settled arrives).2 ↔
        id ∈ s'.taken ∧ s'.cursor < id := by
  intro F rows s'
  let ids := Feed.wantedIds F rows
  have habove : ∀ id ∈ ids, s.cursor < id := by
    intro id hid
    obtain ⟨r, hr, rfl⟩ := List.mem_map.mp hid
    exact (Feed.mem_page (List.mem_filter.mp hr).1).2.1
  let noteRows := rows.map fun r => (r.1, r.2.data.relevant events)
  have hflagged : ∀ p : ℕ → Bool, (noteRows.filter fun r => r.2 && p r.1).map Prod.fst = ids.filter p :=
    map_filter_flagged rows
  let sent := recent ++ ((noteRows.filter fun r => r.2 && decide (r.1 ∉ recent)).map Prod.fst).filter arrives
  have hsent : ∀ id, s.cursor < id → (id ∈ sent ↔ id ∈ s'.taken) := by
    intro id hid
    have hold : id ∈ recent ↔ id ∈ s.taken := (hrecent id).trans (and_iff_left hid)
    change id ∈ recent ++ _ ↔ id ∈ s.taken ++ ids.filter _
    rw [hflagged fun id => decide (id ∉ recent)]
    simp only [List.mem_append, List.mem_filter, decide_eq_true_eq, hold, Bool.not_eq_eq_eq_not, Bool.not_true,
      not_and, Bool.not_eq_false]
    tauto
  have hunsent : ids.filter (fun id => decide (id ∉ sent)) = ids.filter fun id => decide (id ∉ s'.taken) :=
    List.filter_congr fun id hid => decide_eq_decide.mpr (not_congr (hsent id (habove id hid)))
  have hadvance : advance s.cursor (Feed.floor F s.rows settled) noteRows sent (rows.length == batch) = s'.cursor := by
    rw [advance_eq, hflagged fun id => decide (id ∉ sent), hunsent, List.getLast?_map, Option.map_map]
    rfl
  have hdeliver : deliverNotes sellerId events span s.rows s.cursor recent settled arrives =
      (s'.cursor, (sent.filter fun id => decide (s'.cursor < id)).insertionSort (· ≤ ·)) := by
    rw [← hadvance]
    rfl
  rw [hdeliver]
  refine ⟨rfl, fun id => ?_⟩
  have hle : s.cursor ≤ s'.cursor := le_max_left _ _
  rw [List.mem_insertionSort, List.mem_filter, decide_eq_true_eq]
  exact and_congr_left fun hid => hsent id (hle.trans_lt hid)

/-! ### Every run -/

end Marketplace.SellerTelegram
