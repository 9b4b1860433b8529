import Marketplace.Protocol.Feed
import Marketplace.Text.Decimal

/-!
# Alerts for the operators

Every half minute the operators' bot queues the alerts that are new (`_collect_alerts`). It walks `alerts` by a cursor
on the ids, which are given out before the commit, and moves the cursor past the alerts that are older than `SETTLE`;
the outbox holds one message for an alert, whatever is looked at again.

`collectAlerts` is one such turn, on a table that nobody changes meanwhile; `collectAlerts_finish` says that it is a
turn of `Protocol.Feed` there. In every interleaving with the transactions that raise alerts, each alert that is for the
operators and below the cursor is queued, exactly if those transactions take half of `SETTLE` at most
(`alerts_queued_iff`): five minutes cover transactions of two and a half.
-/

namespace Marketplace.OpsTelegram

open Protocol Sql

/-! ### Which alerts -/

/-- `EVENT_KEYS` -/
inductive EventKey
  | withdrawalRequested | disputeOpened | disputeTimeout | depositUnmatched | depositAnomaly | siteSwitch | systemAlert
  | sellerApplication
deriving DecidableEq, Repr

/-- What an alert is told apart by. -/
structure Alert where
  type : String
  targetType : String
  fingerprint : Option String
deriving DecidableEq, Repr

/-- `USER_TARGETS` -/
def userTargets : List String := ["buyer", "seller"]

/-- `_NOT_FOR_OPS` -/
def notForOps : List String :=
  ["seller_application_approved", "buyer_dispute_resource_resolved", "seller_dispute_resource_resolved",
    "seller_application_needs_info", "product_question_answered", "seller_tier_changed", "ops_telegram_paused"]

/-- `_UNMATCHED_FP` -/
def unmatchedFp : String := "deposit:0:unmatched_transfer"

/-- `alert_event` -/
def alertEvent (a : Alert) : Option EventKey :=
  if a.type ∈ notForOps ∨ a.targetType ∈ userTargets then none
  else if a.type ∈ ["dispute_opened", "dispute_marketplace_review"] then some .disputeOpened
  else if a.type = "dispute_seller_timeout" then some .disputeTimeout
  else if a.type = "deposit_anomaly" then if a.fingerprint = some unmatchedFp then none else some .depositAnomaly
  else some .systemAlert

/-! ### One turn -/

/-- `SETTLE`, in microseconds -/
def settle : ℤ := 5 * 60 * 1000000

/-- `BATCH` -/
def batch : ℕ := 100

/-- A message of the outbox. -/
structure OutboxRow where
  kind : EventKey
  dedupeKey : String
deriving DecidableEq, Repr

/-- `f"alert:{alert.id}"` -/
def alertKey (id : ℕ) : String := "alert:" ++ toString id

/-- `add_outbox`: nothing, where the key is there. -/
def addOutbox (outbox : List OutboxRow) (row : OutboxRow) : List OutboxRow :=
  if outbox.any fun r => r.dedupeKey == row.dedupeKey then outbox else outbox ++ [row]

/-- `_advance` -/
def advance (cursor floor : ℕ) (lastSeen : Option ℕ) (full : Bool) : ℕ :=
  let target := match lastSeen with
    | some last => if full then min floor last else floor
    | none => floor
  max cursor target

variable (events : EventKey → Bool) (span : ℤ)

/-- The event of an alert, where it is switched on. -/
def wantedEvent (a : Alert) : Option EventKey := (alertEvent a).filter events

/-- The reader of the alerts. -/
def alertRules : Feed.Rules Alert where
  span := span
  settle := settle
  batch := batch
  listed _ := true
  counted _ := true
  wanted a := (wantedEvent events a).isSome

/-- The messages of a page. -/
def alertMessages (rows : List (ℕ × Feed.Row Alert)) : List OutboxRow :=
  rows.filterMap fun r => (wantedEvent events r.2.data).map fun event => ⟨event, alertKey r.1⟩

/-- `_collect_alerts`: the outbox and the cursor that it leaves behind. -/
def collectAlerts (alerts : Table ℕ (Feed.Row Alert)) (outbox : List OutboxRow) (lastAlertId : ℕ) (settled : ℤ) :
    List OutboxRow × ℕ :=
  let rows := Feed.page (alertRules events span) alerts lastAlertId
  let floor := Feed.floor (alertRules events span) alerts settled
  ((alertMessages events rows).foldl addOutbox outbox,
    advance lastAlertId floor (rows.getLast?.map Prod.fst) (rows.length == batch))

variable {events span}

theorem alertKey_inj {id id' : ℕ} : alertKey id = alertKey id' ↔ id = id' := by
  rw [alertKey, alertKey]
  constructor
  · intro h
    exact Text.toString_inj.mp (String.append_right_inj _ |>.mp h)
  · rintro rfl
    rfl

/-- Messages with keys of their own are added where their key is new. -/
theorem map_foldl_addOutbox {rows : List OutboxRow} (hrows : (rows.map OutboxRow.dedupeKey).Nodup)
    (outbox : List OutboxRow) : (rows.foldl addOutbox outbox).map OutboxRow.dedupeKey =
      outbox.map OutboxRow.dedupeKey ++
        (rows.map OutboxRow.dedupeKey).filter fun key => decide (key ∉ outbox.map OutboxRow.dedupeKey) := by
  induction rows generalizing outbox with
  | nil => simp
  | cons row rows ih =>
    rw [List.map_cons, List.nodup_cons] at hrows
    rw [List.foldl_cons, ih hrows.2, List.map_cons]
    by_cases hin : row.dedupeKey ∈ outbox.map OutboxRow.dedupeKey
    · have hsame : addOutbox outbox row = outbox := if_pos (by simpa using hin)
      rw [hsame, List.filter_cons_of_neg (by simpa using hin)]
    · have hadd : addOutbox outbox row = outbox ++ [row] := if_neg (by simpa using hin)
      rw [hadd, List.filter_cons_of_pos (by simpa using hin), List.map_append, List.append_assoc]
      refine congrArg (outbox.map OutboxRow.dedupeKey ++ ·) (congrArg (row.dedupeKey :: ·) ?_)
      -- No later message has this one's key.
      refine List.filter_congr fun key hkey => ?_
      have hne : key ≠ row.dedupeKey := fun he => hrows.1 (he ▸ hkey)
      simp [hne]

/-- Where nothing is left over, the cursor goes where the reader's does. -/
theorem advance_eq (cursor floor : ℕ) (last : Option ℕ) (full : Bool) :
    advance cursor floor last full = Feed.advance cursor floor [] last full := by
  cases last <;> rfl

theorem map_alertMessages (rows : List (ℕ × Feed.Row Alert)) :
    (alertMessages events rows).map OutboxRow.dedupeKey =
      (Feed.wantedIds (alertRules events span) rows).map alertKey := by
  rw [alertMessages, List.map_filterMap, Feed.wantedIds, List.map_map, ← List.filterMap_eq_map,
    List.filterMap_filter]
  refine List.filterMap_congr fun r _ => ?_
  change _ = if (wantedEvent events r.2.data).isSome = true then _ else _
  cases wantedEvent events r.2.data <;> rfl

/-- **A turn of `_collect_alerts` is a turn of the reader**, in which nothing fails. -/
theorem collectAlerts_finish (s : Feed.State Alert) {outbox : List OutboxRow}
    (houtbox : outbox.map OutboxRow.dedupeKey = s.taken.map alertKey) (settled : ℤ) :
    let rows := Feed.page (alertRules events span) s.rows s.cursor
    let s' := s.finish (alertRules events span) rows (Feed.floor (alertRules events span) s.rows settled) []
    (collectAlerts events span s.rows outbox s.cursor settled).1.map OutboxRow.dedupeKey = s'.taken.map alertKey ∧
      (collectAlerts events span s.rows outbox s.cursor settled).2 = s'.cursor := by
  intro rows s'
  let F := alertRules events span
  have hkeys : ((alertMessages events rows).map OutboxRow.dedupeKey) = (Feed.wantedIds F rows).map alertKey :=
    map_alertMessages rows
  have hnodup : ((alertMessages events rows).map OutboxRow.dedupeKey).Nodup := by
    rw [hkeys]
    refine List.Nodup.map (fun _ _ h => alertKey_inj.mp h) ?_
    exact (Feed.nodup_page s.cursor).sublist (List.filter_sublist.map Prod.fst)
  have hnew : ((Feed.wantedIds F rows).map alertKey).filter (fun key => decide (key ∉ s.taken.map alertKey)) =
      ((Feed.wantedIds F rows).filter fun id => decide (id ∉ s.taken ∧ id ∉ [])).map alertKey := by
    rw [List.filter_map]
    refine congrArg (List.map alertKey) (List.filter_congr fun id _ => ?_)
    have hmem : alertKey id ∈ s.taken.map alertKey ↔ id ∈ s.taken := by
      simp only [List.mem_map, alertKey_inj, exists_eq_right]
    simp only [Function.comp_apply, hmem, List.not_mem_nil, not_false_eq_true, and_true]
  have hunsent : (Feed.wantedIds F rows).filter (fun id => decide (id ∉ s'.taken)) = [] := by
    refine List.filter_eq_nil_iff.mpr fun id hid hnot => of_decide_eq_true hnot ?_
    by_cases hold : id ∈ s.taken
    · exact List.mem_append_left _ hold
    · exact List.mem_append_right _ (List.mem_filter.mpr ⟨hid, decide_eq_true ⟨hold, List.not_mem_nil⟩⟩)
  refine ⟨?_, ?_⟩
  · change ((alertMessages events rows).foldl addOutbox outbox).map OutboxRow.dedupeKey = (s.taken ++ _).map alertKey
    rw [map_foldl_addOutbox hnodup, houtbox, hkeys, hnew, List.map_append]
  · refine (advance_eq _ _ _ _).trans ?_
    exact (congrArg (fun unsent => Feed.advance s.cursor (Feed.floor F s.rows settled) unsent
      (rows.getLast?.map Prod.fst) (rows.length == batch)) hunsent).symm

/-! ### Every run -/

/-- **Every alert for the operators is queued, and once, exactly where the transactions that raise alerts take half of
`SETTLE` at most**: in every interleaving, no alert is passed by the cursor that `alert_event` gives to an event that is
switched on and that is not queued. -/
theorem alerts_queued_iff (hon : ∃ a, (wantedEvent events a).isSome = true) :
    (∀ now s, (Feed.machine (alertRules events span)).Runs (fun _ _ => True) (Feed.initial now) s →
      s.taken.Nodup ∧ (∀ id ∈ s.taken, ∃ r, s.rows.get? id = some r ∧ (wantedEvent events r.data).isSome = true) ∧
        ∀ id r, s.rows.get? id = some r → id ≤ s.cursor → (wantedEvent events r.data).isSome = true → id ∈ s.taken) ↔
      2 * span ≤ settle := by
  have hbatch : 0 < (alertRules events span).batch := by
    change 0 < batch
    decide
  have hsettle : 0 ≤ (alertRules events span).settle := by
    change 0 ≤ settle
    decide
  obtain ⟨a, ha⟩ := hon
  have hiff := Feed.lossless_iff hbatch hsettle ⟨a, rfl, rfl, ha⟩
  constructor
  · intro h
    refine hiff.mp fun now s hrun id r hr hid _ hwanted => ?_
    exact (h now s hrun).2.2 id r hr hid hwanted
  · intro hspan now s hrun
    have hinv := Feed.Invariant.runs hbatch hspan hrun
    refine ⟨hinv.once, fun id hid => ?_, fun id r hr hid hwanted => hinv.passed id r hr hid rfl hwanted⟩
    obtain ⟨r, hr, -, hwanted⟩ := hinv.sound id hid
    exact ⟨r, hr, hwanted⟩

/-- With transactions of two and a half minutes nothing is passed. -/
theorem alerts_queued_sample : 2 * 150000000 ≤ settle ∧ ∀ s,
    (Feed.machine (alertRules (fun _ => true) 150000000)).Runs (fun _ _ => True) (Feed.initial 0) s →
      ∀ id r, s.rows.get? id = some r → id ≤ s.cursor → (wantedEvent (fun _ => true) r.data).isSome = true →
        id ∈ s.taken :=
  ⟨by decide, fun s hrun =>
    ((alerts_queued_iff ⟨⟨"dispute_opened", "order", none⟩, by decide⟩).mpr (by decide) 0 s hrun).2.2⟩

end Marketplace.OpsTelegram
