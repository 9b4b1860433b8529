import Marketplace.Mail.Worker

/-!
# Whose hands a mail is in

The rows a run has claimed are its own only as long as nobody else takes them. The stale sweep takes them
by the instant of the claim, however far the run is, and `deliver_now` takes a row without marking
it. `Careful` is the condition on the events under which this does not happen. Then at most
one run has a row in hand (`Hands`), what it has loaded is what the row still is, and the row's figures
agree with the attempts that have been logged (`RowInv`).
-/

namespace Marketplace.Mail

open Sql Protocol

variable {maxAttempts : ℕ} {m₀ m m' : Mailroom} {id : ℕ} {t : Turn} {slot : ℕ} {r r' : SendRun}

/-! ### What has been attempted -/

/-- How often a mail has been accepted. -/
def successes (tries : List Attempt) : ℕ := tries.countP fun a => a.outcome = .delivered

/-- How often it has not. -/
def failures (tries : List Attempt) : ℕ := tries.countP fun a => a.outcome ≠ .delivered

/-- Some attempt ended in a permanent error. -/
def Refused (tries : List Attempt) : Prop := ∃ a ∈ tries, ∃ error, a.outcome = .permanent error

/-- 1 if the row counts as sent. -/
def MailOutbox.sentMark (v : MailOutbox) : ℕ := if v.status = .sent then 1 else 0

namespace Mailroom

/-- The attempts for a row. -/
def tries (m : Mailroom) (id : ℕ) : List Attempt := m.log.filter fun a => a.row = id

/-- The accepted mails for the rows with a key. -/
def deliveries (m : Mailroom) (key : String) : ℕ :=
  m.log.countP fun a =>
    a.outcome = .delivered ∧ (m.outbox.get? a.row).map MailOutbox.idempotencyKey = some key

/-- The row has this status. -/
def HasStatus (m : Mailroom) (id : ℕ) (status : MailOutboxStatus) : Prop :=
  ∃ v, m.outbox.get? id = some v ∧ v.status = status

/-- The failed attempts the row has behind it. -/
def attemptsOf (m : Mailroom) (id : ℕ) : ℕ := ((m.outbox.get? id).map MailOutbox.attempts).getD 0

/-- 1 if there is the row and it counts as sent. -/
def sentMark (m : Mailroom) (id : ℕ) : ℕ := ((m.outbox.get? id).map MailOutbox.sentMark).getD 0

/-- A run has loaded the row. -/
def TurnOn (m : Mailroom) (id : ℕ) (t : Turn) : Prop :=
  ∃ slot r, m.runs slot = some r ∧ r.turn = some t ∧ t.row = id

/-- Nothing runs yet, nothing has been attempted, and the keys are unique. -/
structure Idle (m : Mailroom) : Prop where
  runs : ∀ slot, m.runs slot = none
  log : m.log = []
  keys : KeysUnique m.outbox

end Mailroom

/-- **The condition**: a claim comes only when the rows in hand that it can see are neither due nor, if it
sweeps, stale; and `deliver_now` is called only for a row that nobody has in hand and that is not
sent yet. -/
def Careful (m : Mailroom) : MailEvent → Prop
  | .claim _ now sweep _ hidden => ∀ id v, m.InHand id → m.outbox.get? id = some v → id ∉ hidden →
      ¬v.IsDue now ∧ (sweep = true → ¬v.IsStale now)
  | .deliverNow _ id _ => ¬m.InHand id ∧ ¬m.HasStatus id .sent
  | _ => True

/-! ### Hands -/

/-- No row is in hand twice. -/
structure Hands (runs : ℕ → Option SendRun) : Prop where
  nodup : ∀ slot r, runs slot = some r → r.hands.Nodup
  alone : ∀ slot slot' r r' id, runs slot = some r → runs slot' = some r' → id ∈ r.hands →
    id ∈ r'.hands → slot = slot'

theorem SendRun.row_mem_hands (h : r.turn = some t) : t.row ∈ r.hands := by
  rw [SendRun.hands, h]
  exact List.mem_cons_self

theorem Mailroom.TurnOn.inHand (h : m.TurnOn id t) : m.InHand id := by
  obtain ⟨slot, r, hr, ht, rfl⟩ := h
  exact ⟨slot, r, hr, SendRun.row_mem_hands ht⟩

/-- What is put into a slot has to have no row of another slot. -/
theorem Hands.update {runs : ℕ → Option SendRun} (h : Hands runs) {x : Option SendRun}
    (hnodup : ∀ r, x = some r → r.hands.Nodup)
    (halone : ∀ r slot' r' id, x = some r → slot' ≠ slot → runs slot' = some r' → id ∈ r.hands →
      id ∉ r'.hands) : Hands (Function.update runs slot x) where
  nodup s q hq := by
    rw [Function.update_apply] at hq
    split_ifs at hq with hs
    · exact hnodup q hq
    · exact h.nodup s q hq
  alone s s' q q' i hq hq' hi hi' := by
    rw [Function.update_apply] at hq hq'
    split_ifs at hq hq' with hs hs' hs'
    · exact hs.trans hs'.symm
    · exact absurd hi' (halone q s' q' i hq hs' hq' hi)
    · exact absurd hi (halone q' s q i hq' hs hq hi')
    · exact h.alone s s' q q' i hq hq' hi hi'

/-- A run may put rows out of its hands. -/
theorem Hands.update_of_sublist {runs : ℕ → Option SendRun} (h : Hands runs)
    (hr : runs slot = some r) (hsub : r'.hands.Sublist r.hands) :
    Hands (Function.update runs slot (some r')) := by
  refine h.update (fun q hq => ?_) fun q s' q' i hq hne hq' hi hi' => ?_
  · obtain rfl := Option.some.inj hq
    exact (h.nodup slot r hr).sublist hsub
  · obtain rfl := Option.some.inj hq
    exact hne (h.alone s' slot q' r i hq' hr hi' (hsub.subset hi))

/-- The turns on a row are those of the run that has it in hand. -/
theorem turnOn_iff (hands : Hands m.runs) (hr : m.runs slot = some r) (hid : id ∈ r.hands) :
    m.TurnOn id t ↔ r.turn = some t ∧ t.row = id := by
  constructor
  · rintro ⟨slot', q, hq, ht, rfl⟩
    obtain rfl := hands.alone slot' slot q r t.row hq hr (SendRun.row_mem_hands ht) hid
    obtain rfl := Option.some.inj (hq.symm.trans hr)
    exact ⟨ht, rfl⟩
  · rintro ⟨ht, hrow⟩
    exact ⟨slot, r, hr, ht, hrow⟩

/-- Whoever had no hand on a row gets no turn on it by what another slot does. -/
theorem turnOn_update {x y : Option SendRun} (hx : m.runs slot = x)
    (hruns : m'.runs = Function.update m.runs slot y)
    (hturn : ∀ t, t.row = id → ((∃ r, y = some r ∧ r.turn = some t) ↔ ∃ r, x = some r ∧ r.turn = some t)) :
    m'.TurnOn id t ↔ m.TurnOn id t := by
  constructor
  · rintro ⟨s, q, hq, ht, hrow⟩
    rw [hruns, Function.update_apply] at hq
    split_ifs at hq with hs
    · obtain ⟨q', hq', ht'⟩ := (hturn t hrow).mp ⟨q, hq, ht⟩
      exact ⟨slot, q', hx.trans hq', ht', hrow⟩
    · exact ⟨s, q, hq, ht, hrow⟩
  · rintro ⟨s, q, hq, ht, hrow⟩
    by_cases hs : s = slot
    · obtain rfl := hs
      obtain ⟨q', hq', ht'⟩ := (hturn t hrow).mpr ⟨q, hx.symm.trans hq, ht⟩
      refine ⟨s, q', ?_, ht', hrow⟩
      rw [hruns, Function.update_self, hq']
    · refine ⟨s, q, ?_, ht, hrow⟩
      rw [hruns, Function.update_of_ne hs, hq]

theorem inHand_of_update {x y : Option SendRun} (hx : m.runs slot = x)
    (hruns : m'.runs = Function.update m.runs slot y)
    (hhand : ∀ r, y = some r → id ∈ r.hands → ∃ r, x = some r ∧ id ∈ r.hands) (h : m'.InHand id) :
    m.InHand id := by
  obtain ⟨s, q, hq, hid⟩ := h
  rw [hruns, Function.update_apply] at hq
  split_ifs at hq with hs
  · obtain ⟨q', hq', hid'⟩ := hhand q hq hid
    exact ⟨slot, q', hx.trans hq', hid'⟩
  · exact ⟨s, q, hq, hid⟩

/-! ### The figures of a row -/

/-- The row is `failed` only for a reason. -/
def FailedFor (maxAttempts : ℕ) (m₀ : Mailroom) (id : ℕ) (tries : List Attempt) : Prop :=
  m₀.HasStatus id .failed ∨ Refused tries ∨ maxAttempts ≤ m₀.attemptsOf id + failures tries

/-- A row agrees with the attempts there were for it. -/
structure Tally (maxAttempts : ℕ) (m₀ : Mailroom) (id : ℕ) (tries : List Attempt)
    (v : MailOutbox) : Prop where
  attempts : v.attempts = m₀.attemptsOf id + failures tries
  successes : successes tries + m₀.sentMark id = v.sentMark
  failed : v.status = .failed → FailedFor maxAttempts m₀ id tries

/-- What holds of every row: as long as an outcome is not committed, the row lags one attempt behind. -/
structure RowInv (maxAttempts : ℕ) (m₀ m : Mailroom) (id : ℕ) : Prop where
  kept : m.outbox.get? id = none → m₀.outbox.get? id = none
  logged : m.outbox.get? id = none → m.tries id = []
  seen : ∀ t, m.TurnOn id t → m.outbox.get? id = some t.seen
  unsent : m.InHand id → ¬m.HasStatus id .sent
  failed : m.HasStatus id .failed → FailedFor maxAttempts m₀ id (m.tries id)
  settled : ∀ v, m.outbox.get? id = some v →
    (∀ t outcome, m.TurnOn id t → t.stage ≠ .answered outcome) →
    Tally maxAttempts m₀ id (m.tries id) v
  owed : ∀ t outcome, m.TurnOn id t → t.stage = .answered outcome →
    Tally maxAttempts m₀ id (m.tries id) (t.seen.after maxAttempts 0 outcome)

variable {tries : List Attempt} {v w : MailOutbox}

theorem MailOutbox.sentMark_eq_zero (h : v.status ≠ .sent) : v.sentMark = 0 := if_neg h

theorem MailOutbox.sentMark_le_one (v : MailOutbox) : v.sentMark ≤ 1 := by
  rw [MailOutbox.sentMark]
  split_ifs <;> omega

/-- Only the status and the attempts matter. -/
theorem Tally.congr (h : Tally maxAttempts m₀ id tries v) (hattempts : w.attempts = v.attempts)
    (hsent : w.sentMark = v.sentMark) (hfailed : w.status = .failed → v.status = .failed) :
    Tally maxAttempts m₀ id tries w where
  attempts := hattempts.trans h.attempts
  successes := h.successes.trans hsent.symm
  failed hw := h.failed (hfailed hw)

theorem successes_append (a : Attempt) :
    successes (tries ++ [a]) = successes tries + if a.outcome = .delivered then 1 else 0 := by
  simp [successes, List.countP_append, List.countP_cons]

theorem failures_append (a : Attempt) :
    failures (tries ++ [a]) = failures tries + if a.outcome = .delivered then 0 else 1 := by
  by_cases h : a.outcome = .delivered <;>
    simp [failures, List.countP_append, h]

theorem FailedFor.append (h : FailedFor maxAttempts m₀ id tries) (a : Attempt) :
    FailedFor maxAttempts m₀ id (tries ++ [a]) := by
  obtain h | ⟨b, hb, herror⟩ | h := h
  · exact .inl h
  · exact .inr (.inl ⟨b, List.mem_append_left _ hb, herror⟩)
  · refine .inr (.inr ?_)
    rw [failures_append]
    omega

/-- **An attempt**: with what the outcome will set, the row agrees again. -/
theorem Tally.attempt (h : Tally maxAttempts m₀ id tries v) (hv : v.status ≠ .sent) {a : Attempt}
    (now : ℕ) :
    Tally maxAttempts m₀ id (tries ++ [a]) (v.after maxAttempts now a.outcome) := by
  have hnone := h.successes
  rw [v.sentMark_eq_zero hv] at hnone
  rcases ha : a.outcome with _ | error | error
  · refine ⟨?_, ?_, fun hfailed => ?_⟩
    · rw [failures_append, ha, if_pos rfl]
      exact h.attempts
    · rw [successes_append, ha, if_pos rfl]
      change _ = 1
      omega
    · cases hfailed
  · have hafter : (v.after maxAttempts now (.permanent error)).status = .failed := by
      simp [MailOutbox.after, MailOutbox.afterError]
    refine ⟨?_, ?_, fun _ => .inr (.inl ⟨a, ?_, error, ha⟩)⟩
    · rw [failures_append, ha, if_neg (by simp), ← add_assoc, ← h.attempts]
      simp [MailOutbox.after, MailOutbox.afterError]
    · rw [successes_append, ha, if_neg (by simp), MailOutbox.sentMark_eq_zero (by simp [hafter])]
      omega
    · exact List.mem_append_right _ (List.mem_singleton_self a)
  · -- an error that may pass: the last one that is allowed fails the row
    have hattempts : (v.after maxAttempts now (.transient error)).attempts = v.attempts + 1 := by
      rw [MailOutbox.after, MailOutbox.afterError]
      split_ifs <;> rfl
    refine ⟨?_, ?_, fun hfailed => .inr (.inr ?_)⟩
    · rw [hattempts, failures_append, ha, if_neg (by simp), ← add_assoc, ← h.attempts]
    · rw [successes_append, ha, if_neg (by simp), MailOutbox.sentMark_eq_zero]
      · omega
      · rw [MailOutbox.after, MailOutbox.afterError]
        split_ifs <;> simp
    · have hmax : maxAttempts ≤ v.attempts + 1 := by
        by_contra hlt
        rw [MailOutbox.after, MailOutbox.afterError, if_neg (by simpa using hlt)] at hfailed
        cases hfailed
      rw [failures_append, ha, if_neg (by simp), ← add_assoc, ← h.attempts]
      exact hmax

/-- The instant of the commit does not matter. -/
theorem Tally.after_now {now now' : ℕ} {outcome : Outcome}
    (h : Tally maxAttempts m₀ id tries (v.after maxAttempts now outcome)) :
    Tally maxAttempts m₀ id tries (v.after maxAttempts now' outcome) := by
  have hsame : (v.after maxAttempts now' outcome).attempts = (v.after maxAttempts now outcome).attempts ∧
      (v.after maxAttempts now' outcome).status = (v.after maxAttempts now outcome).status := by
    rcases outcome with _ | error | error
    · exact ⟨rfl, rfl⟩
    all_goals
      rw [MailOutbox.after, MailOutbox.after, MailOutbox.afterError, MailOutbox.afterError]
      split_ifs <;> exact ⟨rfl, rfl⟩
  exact h.congr hsame.1 (by rw [MailOutbox.sentMark, MailOutbox.sentMark, hsame.2])
    fun hw => hsame.2.symm.trans hw

/-- **What leaves a row and the hands on it alone keeps what holds of it.** -/
theorem RowInv.frame (h : RowInv maxAttempts m₀ m id) (hrow : m'.outbox.get? id = m.outbox.get? id)
    (htries : m'.tries id = m.tries id) (hturn : ∀ t, m'.TurnOn id t ↔ m.TurnOn id t)
    (hhand : m'.InHand id → m.InHand id) : RowInv maxAttempts m₀ m' id where
  kept hid := h.kept (hrow ▸ hid)
  logged hid := htries.trans (h.logged (hrow ▸ hid))
  seen t ht := hrow.trans (h.seen t ((hturn t).mp ht))
  unsent hid := by
    have hnot := h.unsent (hhand hid)
    rwa [Mailroom.HasStatus, hrow]
  failed hid := by
    rw [Mailroom.HasStatus, hrow] at hid
    exact htries ▸ h.failed hid
  settled v hv hno := by
    rw [htries]
    exact h.settled v (hrow ▸ hv) fun t outcome ht => hno t outcome ((hturn t).mpr ht)
  owed t outcome ht hstage := htries ▸ h.owed t outcome ((hturn t).mp ht) hstage

/-! ### One step -/

/-- What holds in every state. -/
structure MailInv (maxAttempts : ℕ) (m₀ m : Mailroom) : Prop where
  keys : KeysUnique m.outbox
  hands : Hands m.runs
  rows : ∀ id, RowInv maxAttempts m₀ m id

theorem Mailroom.Idle.mailInv (h : m.Idle) : MailInv maxAttempts m m where
  keys := h.keys
  hands := by
    refine ⟨fun slot r hr => ?_, fun slot slot' r r' id hr => ?_⟩
    · rw [h.runs slot] at hr
      cases hr
    · rw [h.runs slot] at hr
      cases hr
  rows id := by
    have hhand : ¬m.InHand id := by
      rintro ⟨slot, r, hr, -⟩
      rw [h.runs slot] at hr
      cases hr
    have htries : m.tries id = [] := by rw [Mailroom.tries, h.log, List.filter_nil]
    refine ⟨fun hid => hid, fun _ => htries, fun t ht => absurd ht.inHand hhand,
      fun hid => absurd hid hhand, fun hid => .inl hid, fun v hv _ => ?_,
      fun t _ ht => absurd ht.inHand hhand⟩
    rw [htries]
    exact ⟨by simp [Mailroom.attemptsOf, hv, failures], by simp [Mailroom.sentMark, hv, successes],
      fun hfailed => .inl ⟨v, hv, hfailed⟩⟩

/-- **A run goes on with one row**: what is left to show is about that row. -/
theorem MailInv.turn (h : MailInv maxAttempts m₀ m) (id : ℕ) (hr : m.runs slot = some r)
    (hruns : m'.runs = Function.update m.runs slot (some r')) (hsub : r'.hands.Sublist r.hands)
    (hturn : ∀ t, t.row ≠ id → (r'.turn = some t ↔ r.turn = some t))
    (hkeys : KeysUnique m'.outbox)
    (hother : ∀ i, i ≠ id → m'.outbox.get? i = m.outbox.get? i ∧ m'.tries i = m.tries i)
    (hid : RowInv maxAttempts m₀ m' id) : MailInv maxAttempts m₀ m' where
  keys := hkeys
  hands := hruns ▸ h.hands.update_of_sublist hr hsub
  rows i := by
    by_cases hi : i = id
    · exact hi ▸ hid
    · refine (h.rows i).frame (hother i hi).1 (hother i hi).2 (fun t => ?_) fun hin => ?_
      · refine turnOn_update hr hruns fun t' ht' => ?_
        have hiff := hturn t' (ht' ▸ hi)
        simp only [Option.some.injEq, exists_eq_left']
        exact hiff
      · refine inHand_of_update hr hruns (fun q hq hmem => ⟨r, rfl, ?_⟩) hin
        obtain rfl := Option.some.inj hq
        exact hsub.subset hmem

end Marketplace.Mail
