import Marketplace.Mail.Hands

/-!
# What an event does to the rows in hand

Each event is about at most one row in hand, apart from the claim, which takes rows nobody has in
hand if it is careful. `MailInv.step` puts the events together.
-/

namespace Marketplace.Mail

open Sql Protocol

variable {maxAttempts : ℕ} {m₀ m m' : Mailroom} {id : ℕ} {t : Turn} {slot : ℕ} {r r' : SendRun}
  {v w : MailOutbox}

/-! ### The claim -/

/-- Rows that are selected by what they hold. -/
theorem mem_visible {outbox : Table ℕ MailOutbox} {p : MailOutbox → Prop} [DecidablePred p]
    {hidden : List ℕ} :
    id ∈ (outbox.rows.filter fun r => p r.2 ∧ r.1 ∉ hidden).map Prod.fst ↔
      ∃ v, outbox.get? id = some v ∧ p v ∧ id ∉ hidden := by
  simp only [List.mem_map, List.mem_filter, decide_eq_true_eq, Prod.exists, exists_and_right,
    exists_eq_right, Table.get?_eq_some_iff]

theorem nodup_claimable (now : ℕ) (hidden : List ℕ) (outbox : Table ℕ MailOutbox) :
    (claimable now hidden outbox).Nodup := by
  refine List.Nodup.sublist (List.take_sublist _ _) ?_
  rw [(List.perm_insertionSort _ _).nodup_iff]
  exact outbox.nodup.sublist (List.filter_sublist.map Prod.fst)

/-- The row has changed as a claim changes a row. -/
structure Claimed (now : ℕ) (sweep : Bool) (v w : MailOutbox) : Prop where
  was : v.IsDue now ∨ sweep = true ∧ v.IsStale now
  idempotencyKey : w.idempotencyKey = v.idempotencyKey
  attempts : w.attempts = v.attempts
  status : w.status = .pending ∨ w.status = .sending

theorem Claimed.status_before {now : ℕ} {sweep : Bool} (h : Claimed now sweep v w) :
    v.status = .pending ∨ v.status = .sending := by
  obtain ⟨hdue, -⟩ | ⟨-, hstale, -⟩ := h.was
  · exact .inl hdue
  · exact .inr hstale

/-- The stale sweep changes the rows that are stale. -/
theorem requeueStale_row (now : ℕ) (hidden : List ℕ) (outbox : Table ℕ MailOutbox) (id : ℕ) :
    (requeueStale now hidden outbox).get? id = outbox.get? id ∨
      ∃ v w, outbox.get? id = some v ∧ id ∉ hidden ∧
        (requeueStale now hidden outbox).get? id = some w ∧ Claimed now true v w := by
  rw [requeueStale, Table.get?_modifyAll]
  split_ifs with hmem
  · obtain ⟨v, hv, hstale, hid⟩ := mem_visible.mp hmem
    rw [hv]
    exact .inr ⟨v, _, rfl, hid, rfl, .inr ⟨rfl, hstale⟩, rfl, rfl, .inl rfl⟩
  · exact .inl rfl

/-- The claim changes the rows that are due. -/
theorem claimDue_row (now : ℕ) (adapter : Bool) (hidden : List ℕ) (outbox : Table ℕ MailOutbox)
    (id : ℕ) :
    (claimDue now adapter hidden outbox).1.get? id = outbox.get? id ∧
        id ∉ (claimDue now adapter hidden outbox).2 ∨
      ∃ v w, outbox.get? id = some v ∧ id ∉ hidden ∧
        (claimDue now adapter hidden outbox).1.get? id = some w ∧ Claimed now false v w := by
  by_cases hmem : id ∈ claimable now hidden outbox
  · have hsel := List.mem_of_mem_take hmem
    rw [(List.perm_insertionSort _ _).mem_iff] at hsel
    obtain ⟨v, hv, hdue, hid⟩ := mem_visible.mp hsel
    refine .inr ⟨v, ?_⟩
    rw [claimDue]
    split_ifs
    · rw [Table.get?_modifyAll, if_pos hmem, hv]
      exact ⟨_, rfl, hid, rfl, .inl hdue, rfl, rfl, .inr rfl⟩
    · rw [Table.get?_modifyAll, if_pos hmem, hv]
      exact ⟨_, rfl, hid, rfl, .inl hdue, rfl, rfl, .inl hdue.1⟩
  · refine .inl ?_
    rw [claimDue]
    split_ifs
    · rw [Table.get?_modifyAll, if_neg hmem]
      exact ⟨rfl, hmem⟩
    · rw [Table.get?_modifyAll, if_neg hmem]
      exact ⟨rfl, List.not_mem_nil⟩

/-- **What the claiming transaction does to a row**: nothing, or it takes one it can see that is due or,
with the sweep, stale. -/
theorem claimMails_row (now : ℕ) (sweep adapter : Bool) (hidden : List ℕ)
    (outbox : Table ℕ MailOutbox) (id : ℕ) :
    (claimMails now sweep adapter hidden outbox).1.get? id = outbox.get? id ∧
        id ∉ (claimMails now sweep adapter hidden outbox).2 ∨
      ∃ v w, outbox.get? id = some v ∧ id ∉ hidden ∧
        (claimMails now sweep adapter hidden outbox).1.get? id = some w ∧
        Claimed now sweep v w := by
  cases sweep with
  | false => exact claimDue_row now adapter hidden outbox id
  | true =>
    change (claimDue now adapter hidden (requeueStale now hidden outbox)).1.get? id = _ ∧
        id ∉ (claimDue now adapter hidden (requeueStale now hidden outbox)).2 ∨
      ∃ v w, _ ∧ _ ∧ (claimDue now adapter hidden (requeueStale now hidden outbox)).1.get? id = _ ∧ _
    obtain hsame | ⟨v, w, hv, hid, hw, hswept⟩ := requeueStale_row now hidden outbox id
    · rw [← hsame]
      obtain h | ⟨u, w, hu, hid, hw, hc⟩ :=
        claimDue_row now adapter hidden (requeueStale now hidden outbox) id
      · exact .inl h
      · exact .inr ⟨u, w, hu, hid, hw, .inl (hc.was.resolve_right (by simp)), hc.idempotencyKey,
          hc.attempts, hc.status⟩
    · obtain h | ⟨u, w', hu, -, hw', hc⟩ :=
        claimDue_row now adapter hidden (requeueStale now hidden outbox) id
      · exact .inr ⟨v, w, hv, hid, h.1.trans hw, hswept⟩
      · -- the sweep has put it back, and the claim takes it
        obtain rfl := Option.some.inj (hw.symm.trans hu)
        exact .inr ⟨v, w', hv, hid, hw', hswept.was, hc.idempotencyKey.trans hswept.idempotencyKey,
          hc.attempts.trans hswept.attempts, hc.status⟩

theorem nodup_claimMails (now : ℕ) (sweep adapter : Bool) (hidden : List ℕ)
    (outbox : Table ℕ MailOutbox) : (claimMails now sweep adapter hidden outbox).2.Nodup := by
  rw [claimMails, claimDue]
  cases adapter with
  | true => exact nodup_claimable now hidden _
  | false => exact List.nodup_nil

/-! ### The events -/

/-- Rows that keep their keys keep them unique. -/
theorem KeysUnique.of_kept {outbox outbox' : Table ℕ MailOutbox} (hu : KeysUnique outbox)
    (h : ∀ id w, outbox'.get? id = some w →
      ∃ v, outbox.get? id = some v ∧ v.idempotencyKey = w.idempotencyKey) : KeysUnique outbox' := by
  intro i j w w' hi hj heq
  obtain ⟨v, hv, hkey⟩ := h i w hi
  obtain ⟨v', hv', hkey'⟩ := h j w' hj
  exact hu i j v v' hv hv' (hkey.trans (heq.trans hkey'.symm))

/-- A run that has no outcome of the row yet. -/
theorem RowInv.working (h : RowInv maxAttempts m₀ m id)
    (hrow : m'.outbox.get? id = m.outbox.get? id) (htries : m'.tries id = m.tries id)
    (hhand : m'.InHand id → ¬m.HasStatus id .sent)
    (hbefore : ∀ t outcome, m.TurnOn id t → t.stage ≠ .answered outcome)
    (hafter : ∀ t, m'.TurnOn id t → m.outbox.get? id = some t.seen ∧
      ∀ outcome, t.stage ≠ .answered outcome) : RowInv maxAttempts m₀ m' id where
  kept hid := h.kept (hrow ▸ hid)
  logged hid := htries.trans (h.logged (hrow ▸ hid))
  seen t ht := hrow.trans (hafter t ht).1
  unsent hid := by
    rw [Mailroom.HasStatus, hrow]
    exact hhand hid
  failed hid := by
    rw [Mailroom.HasStatus, hrow] at hid
    exact htries ▸ h.failed hid
  settled v hv _ := htries ▸ h.settled v (hrow ▸ hv) hbefore
  owed t outcome ht hstage := absurd hstage ((hafter t ht).2 outcome)

/-- `enqueue_mail`. -/
theorem MailInv.enqueue (h : MailInv maxAttempts m₀ m) {x : MailRequest}
    {outbox' : Table ℕ MailOutbox} (hid : m.outbox.get? id = none)
    (hrun : enqueueMail m.accounts x id m.clock m.outbox = .ok outbox') :
    MailInv maxAttempts m₀ { m with outbox := outbox' } where
  keys := h.keys.enqueueMail hid hrun
  hands := h.hands
  rows i := by
    obtain rfl | ⟨-, v, rfl, -, hpending, hzero⟩ := enqueueMail_cases hrun
    · exact h.rows i
    · by_cases hi : i = id
      · -- the new row: nothing has been tried for it
        subst hi
        have hold := h.rows i
        have hnew : (m.outbox.insert i v).get? i = some v := Table.get?_insert_self hid v
        have hno : ∀ t, ¬m.TurnOn i t := fun t ht => by
          have hseen := hold.seen t ht
          rw [hid] at hseen
          cases hseen
        refine ⟨fun hnone => ?_, fun hnone => ?_, fun t ht => absurd ht (hno t), fun _ => ?_,
          fun hfailed => ?_, fun w hw _ => ?_, fun t _ ht => absurd ht (hno t)⟩
        · rw [hnew] at hnone
          cases hnone
        · rw [hnew] at hnone
          cases hnone
        · rintro ⟨w, hw, hsent⟩
          obtain rfl := Option.some.inj (hnew.symm.trans hw)
          rw [hpending] at hsent
          cases hsent
        · obtain ⟨w, hw, hfailed⟩ := hfailed
          obtain rfl := Option.some.inj (hnew.symm.trans hw)
          rw [hpending] at hfailed
          cases hfailed
        · obtain rfl := Option.some.inj (hnew.symm.trans hw)
          have htries : Mailroom.tries { m with outbox := m.outbox.insert i v } i = [] := hold.logged hid
          have hm₀ := hold.kept hid
          rw [htries]
          refine ⟨?_, ?_, fun hfailed => ?_⟩
          · rw [hzero, Mailroom.attemptsOf, hm₀]
            rfl
          · rw [Mailroom.sentMark, hm₀, v.sentMark_eq_zero (by simp [hpending])]
            rfl
          · rw [hpending] at hfailed
            cases hfailed
      · exact (h.rows i).frame (Table.get?_insert_of_ne hi v) rfl (fun _ => Iff.rfl) fun hin => hin

/-- The claim of a batch: none of its rows is in hand. -/
theorem MailInv.claim (h : MailInv maxAttempts m₀ m) (hfree : m.runs slot = none) {now : ℕ}
    {sweep adapter : Bool} {hidden : List ℕ}
    (hcareful : Careful m (.claim slot now sweep adapter hidden)) :
    MailInv maxAttempts m₀
      { m.put slot (some ⟨adapter, (claimMails now sweep adapter hidden m.outbox).2, none⟩) with
        outbox := (claimMails now sweep adapter hidden m.outbox).1 } := by
  have hrow := claimMails_row now sweep adapter hidden m.outbox
  have hapart : ∀ i v w, m.outbox.get? i = some v → i ∉ hidden → Claimed now sweep v w →
      ¬m.InHand i := fun i v w hv hvis hc hin => by
    obtain ⟨hdue, hstale⟩ := hcareful i v hin hv hvis
    obtain hwas | ⟨hs, hwas⟩ := hc.was
    · exact hdue hwas
    · exact hstale hs hwas
  refine ⟨h.keys.of_kept fun i w hw => ?_, h.hands.update (fun q hq => ?_) ?_, fun i => ?_⟩
  · obtain ⟨hsame, -⟩ | ⟨v, w', hv, -, hw', hc⟩ := hrow i
    · exact ⟨w, hsame ▸ hw, rfl⟩
    · obtain rfl := Option.some.inj (hw'.symm.trans hw)
      exact ⟨v, hv, hc.idempotencyKey.symm⟩
  · obtain rfl := Option.some.inj hq
    exact nodup_claimMails now sweep adapter hidden m.outbox
  · rintro q slot' q' i hq - hq' hi hi'
    obtain rfl := Option.some.inj hq
    obtain ⟨-, hnot⟩ | ⟨v, w, hv, hvis, -, hc⟩ := hrow i
    · exact hnot hi
    · exact hapart i v w hv hvis hc ⟨slot', q', hq', hi'⟩
  · set claimed := claimMails now sweep adapter hidden m.outbox with hclaimed
    set m₁ : Mailroom := { m.put slot (some ⟨adapter, claimed.2, none⟩) with outbox := claimed.1 }
      with hm₁
    have hturn : ∀ t, m₁.TurnOn i t ↔ m.TurnOn i t := fun t =>
      turnOn_update hfree rfl fun t' _ => by simp
    obtain ⟨hsame, hnot⟩ | ⟨v, w, hv, hvis, hw, hc⟩ := hrow i
    · refine (h.rows i).frame hsame rfl hturn fun hin => ?_
      refine inHand_of_update hfree rfl (fun q hq hi => ?_) hin
      obtain rfl := Option.some.inj hq
      exact absurd hi hnot
    · -- a row that nobody had in hand: there is no turn on it
      have hno : ∀ t, ¬m.TurnOn i t := fun t ht => hapart i v w hv hvis hc ht.inHand
      have hwhas : ∀ status, m₁.HasStatus i status → w.status = status := by
        rintro status ⟨u, hu, hstatus⟩
        obtain rfl := Option.some.inj (hw.symm.trans hu)
        exact hstatus
      have hstatus := hc.status
      have hbefore := hc.status_before
      refine ⟨fun hnone => ?_, fun hnone => ?_, fun t ht => absurd ((hturn t).mp ht) (hno t),
        fun _ hsent => ?_, fun hfailed => ?_, fun u hu _ => ?_,
        fun t _ ht => absurd ((hturn t).mp ht) (hno t)⟩
      · cases hw.symm.trans hnone
      · cases hw.symm.trans hnone
      · have := hwhas _ hsent
        simp [this] at hstatus
      · have := hwhas _ hfailed
        simp [this] at hstatus
      · obtain rfl := Option.some.inj (hw.symm.trans hu)
        refine ((h.rows i).settled v hv fun t _ ht => absurd ht (hno t)).congr hc.attempts ?_ ?_
        · rw [v.sentMark_eq_zero, w.sentMark_eq_zero]
          · obtain hs | hs := hstatus <;> simp [hs]
          · obtain hs | hs := hbefore <;> simp [hs]
        · intro hfailed
          simp [hfailed] at hstatus

theorem Mailroom.put_runs (m : Mailroom) (slot : ℕ) (x : Option SendRun) :
    (m.put slot x).runs = Function.update m.runs slot x := rfl

/-- `deliver_now`: the row is in nobody else's hands. -/
theorem MailInv.deliverNow (h : MailInv maxAttempts m₀ m) (hfree : m.runs slot = none)
    {adapter : Bool} (hcareful : Careful m (.deliverNow slot id adapter))
    (hv : m.outbox.get? id = some v) :
    MailInv maxAttempts m₀ (m.put slot (some ⟨adapter, [], some ⟨id, v, .loaded⟩⟩)) := by
  obtain ⟨hapart, hunsent⟩ := hcareful
  have hhands : Hands (m.put slot (some ⟨adapter, [], some ⟨id, v, .loaded⟩⟩)).runs := by
    refine h.hands.update (fun q hq => ?_) fun q slot' q' i hq _ hq' hi hi' => ?_
    · obtain rfl := Option.some.inj hq
      exact List.nodup_singleton id
    · obtain rfl := Option.some.inj hq
      obtain rfl := List.mem_singleton.mp hi
      exact hapart ⟨slot', q', hq', hi'⟩
  have hrun : (m.put slot (some ⟨adapter, [], some ⟨id, v, .loaded⟩⟩)).runs slot =
      some ⟨adapter, [], some ⟨id, v, .loaded⟩⟩ := Function.update_self ..
  refine ⟨h.keys, hhands, fun i => ?_⟩
  by_cases hi : i = id
  · subst hi
    refine (h.rows i).working rfl rfl (fun _ => hunsent) (fun t _ ht => absurd ht.inHand hapart)
      fun t ht => ?_
    obtain ⟨hturn, -⟩ := (turnOn_iff hhands hrun List.mem_cons_self).mp ht
    obtain rfl := Option.some.inj hturn
    exact ⟨hv, fun outcome => by simp⟩
  · refine (h.rows i).frame rfl rfl (fun t => turnOn_update hfree rfl fun t' ht' => ?_)
      fun hin => inHand_of_update hfree rfl (fun q hq hmem => ?_) hin
    · simp only [Option.some.injEq, exists_eq_left', reduceCtorEq, false_and, exists_false,
        iff_false]
      rintro rfl
      exact hi ht'.symm
    · obtain rfl := Option.some.inj hq
      exact absurd (List.mem_singleton.mp hmem) hi

/-- A run loads the next row of its batch or goes on with the one it has: no outcome comes in. -/
theorem MailInv.goOn (h : MailInv maxAttempts m₀ m) (id : ℕ) (hr : m.runs slot = some r)
    (hid : id ∈ r.hands) (hsub : r'.hands.Sublist r.hands)
    (hbefore : ∀ t, r.turn = some t → t.row = id ∧ ∀ outcome, t.stage ≠ .answered outcome)
    (hafter : ∀ t, r'.turn = some t → t.row = id ∧ m.outbox.get? id = some t.seen ∧
      ∀ outcome, t.stage ≠ .answered outcome) :
    MailInv maxAttempts m₀ (m.put slot (some r')) := by
  have hhands := h.hands.update_of_sublist hr hsub
  refine h.turn id hr rfl hsub (fun t ht => ?_) h.keys (fun i _ => ⟨rfl, rfl⟩)
    ((h.rows id).working rfl rfl (fun _ => (h.rows id).unsent ⟨slot, r, hr, hid⟩)
      (fun t outcome ht => ?_) fun t ht => ?_)
  · exact ⟨fun h' => absurd (hafter t h').1 ht, fun h' => absurd (hbefore t h').1 ht⟩
  · exact (hbefore t ((turnOn_iff h.hands hr hid).mp ht).1).2 outcome
  · obtain ⟨s, q, hq, hturn, hrow⟩ := ht
    by_cases hs : s = slot
    · obtain rfl := hs
      rw [Mailroom.put_runs, Function.update_self] at hq
      obtain rfl := Option.some.inj hq
      exact (hafter t hturn).2
    · -- no other run has a turn on this row
      rw [Mailroom.put_runs, Function.update_of_ne hs] at hq
      exact absurd (h.hands.alone s slot q r id hq hr (hrow ▸ SendRun.row_mem_hands hturn) hid) hs

/-- The row with its turn is there. -/
theorem MailInv.seen (h : MailInv maxAttempts m₀ m) (hr : m.runs slot = some r) (ht : r.turn = some t) :
    m.outbox.get? t.row = some t.seen := (h.rows t.row).seen t ⟨slot, r, hr, ht, rfl⟩

/-- An attempt is over: the outcome is owed to the row. -/
theorem MailInv.answered (h : MailInv maxAttempts m₀ m) (hr : m.runs slot = some r)
    (ht : r.turn = some t) (hstage : ∀ outcome, t.stage ≠ .answered outcome) {q : SendRun}
    (hq : q.batch = r.batch) {u : Turn} (hu : u.row = t.row) (hseen : u.seen = t.seen)
    (outcome : Outcome) (started : ℕ) :
    MailInv maxAttempts m₀ (m.answered slot q u outcome started) := by
  set m₁ := m.answered slot q u outcome started with hm₁
  have hrun : m₁.runs slot = some { q with turn := some { u with stage := .answered outcome } } :=
    Function.update_self ..
  have hhandsEq : ({ q with turn := some { u with stage := .answered outcome } } : SendRun).hands =
      r.hands := by
    rw [SendRun.hands, SendRun.hands, ht, ← hq]
    simp [hu]
  have hsub : ({ q with turn := some { u with stage := .answered outcome } } : SendRun).hands.Sublist
      r.hands := by rw [hhandsEq]
  have hmem : t.row ∈ ({ q with turn := some { u with stage := .answered outcome } } : SendRun).hands := by
    rw [hhandsEq]
    exact SendRun.row_mem_hands ht
  have hhands : Hands m₁.runs := h.hands.update_of_sublist hr hsub
  have hnow : ∀ t', m₁.TurnOn t.row t' ↔ { u with stage := .answered outcome } = t' := fun t' => by
    rw [turnOn_iff hhands hrun hmem]
    constructor
    · rintro ⟨h₁, -⟩
      exact Option.some.inj h₁
    · rintro rfl
      exact ⟨rfl, hu⟩
  have hold : ∀ t', m.TurnOn t.row t' → t' = t := fun t' ht' =>
    Option.some.inj (((turnOn_iff h.hands hr (SendRun.row_mem_hands ht)).mp ht').1.symm.trans ht)
  have hv := h.seen hr ht
  have hrow := h.rows t.row
  have htries : m₁.tries t.row = m.tries t.row ++ [⟨u.row, outcome, started, m.clock⟩] := by
    rw [hm₁, Mailroom.tries, Mailroom.answered, List.filter_append]
    simp [Mailroom.tries, hu]
  have hin : m.InHand t.row := ⟨slot, r, hr, SendRun.row_mem_hands ht⟩
  have hunsent : t.seen.status ≠ .sent := fun hs => hrow.unsent hin ⟨_, hv, hs⟩
  refine h.turn t.row hr rfl hsub (fun t' ht' => ?_) h.keys (fun i hi => ⟨rfl, ?_⟩) ?_
  · refine ⟨fun h' => ?_, fun h' => ?_⟩
    · obtain rfl := Option.some.inj h'
      exact absurd hu ht'
    · obtain rfl := Option.some.inj (ht.symm.trans h')
      exact absurd rfl ht'
  · rw [hm₁, Mailroom.tries, Mailroom.answered, List.filter_append]
    simp [Mailroom.tries, hu, Ne.symm hi]
  · refine ⟨fun hnone => ?_, fun hnone => ?_, fun t' ht' => ?_, fun _ => hrow.unsent hin,
      fun hfailed => ?_, fun v _ hno => ?_, fun t' outcome' ht' hstage' => ?_⟩
    · cases hv.symm.trans hnone
    · cases hv.symm.trans hnone
    · obtain rfl := (hnow t').mp ht'
      exact hseen ▸ hv
    · rw [htries]
      exact (hrow.failed hfailed).append _
    · exact absurd rfl (hno _ outcome ((hnow _).mpr rfl))
    · obtain rfl := (hnow t').mp ht'
      obtain rfl := Stage.answered.inj hstage'
      have htally := hrow.settled t.seen hv fun t' outcome ht' => hold t' ht' ▸ hstage outcome
      have hattempt := htally.attempt hunsent (a := ⟨u.row, outcome, started, m.clock⟩) 0
      rw [htries]
      exact hseen ▸ hattempt

/-- The `UPDATE` of the row as it was loaded writes what was edited. -/
theorem MailOutbox.write_status (v w : MailOutbox) : (v.write w v).status = w.status :=
  writeColumn_self v.status w.status

theorem MailOutbox.write_attempts (v w : MailOutbox) : (v.write w v).attempts = w.attempts :=
  writeColumn_self v.attempts w.attempts

/-- The commit at the end of a turn: the row is out of hand, and agrees with its attempts. -/
theorem MailInv.committed (h : MailInv maxAttempts m₀ m) (hr : m.runs slot = some r)
    (ht : r.turn = some t) {q : SendRun} (hq : q.batch = r.batch) {u : Turn} (hu : u.row = t.row)
    (hseen : u.seen = t.seen) {edited : MailOutbox}
    (htally : Tally maxAttempts m₀ t.row (m.tries t.row) edited) :
    MailInv maxAttempts m₀ (m.committed slot q u edited) := by
  set m₁ := m.committed slot q u edited with hm₁
  have hhands : r.hands = t.row :: r.batch := by
    rw [SendRun.hands, ht]
    rfl
  have hnodup := h.hands.nodup slot r hr
  rw [hhands, List.nodup_cons] at hnodup
  have hsub : ({ q with turn := none } : SendRun).hands.Sublist r.hands := by
    rw [hhands]
    change q.batch.Sublist _
    rw [hq]
    exact List.sublist_cons_self ..
  have hout : ¬m₁.InHand t.row := by
    rintro ⟨s, q', hq', hmem⟩
    change Function.update m.runs slot _ s = _ at hq'
    rw [Function.update_apply] at hq'
    split_ifs at hq' with hs
    · obtain rfl := Option.some.inj hq'
      exact hnodup.1 (hq ▸ hmem)
    · exact hs (h.hands.alone s slot q' r t.row hq' hr hmem (SendRun.row_mem_hands ht))
  have hnew : m₁.outbox.get? t.row = some (t.seen.write edited t.seen) := by
    change (m.outbox.modify u.row (MailOutbox.write u.seen edited)).get? t.row = _
    rw [hu, Table.get?_modify_self, h.seen hr ht, hseen]
    rfl
  have htally₁ : Tally maxAttempts m₀ t.row (m.tries t.row) (t.seen.write edited t.seen) := by
    refine htally.congr (MailOutbox.write_attempts _ _) ?_ fun hfailed => ?_
    · rw [MailOutbox.sentMark, MailOutbox.sentMark, MailOutbox.write_status]
    · rwa [MailOutbox.write_status] at hfailed
  refine h.turn t.row hr rfl hsub (fun t' ht' => ?_) ?_ (fun i hi => ⟨?_, rfl⟩) ?_
  · refine ⟨fun h' => (by cases h'), fun h' => ?_⟩
    obtain rfl := Option.some.inj (ht.symm.trans h')
    exact absurd rfl ht'
  · refine h.keys.of_kept fun i w hw => ?_
    change (m.outbox.modify u.row (MailOutbox.write u.seen edited)).get? i = _ at hw
    rw [Table.get?_modify] at hw
    split_ifs at hw with hi
    · obtain ⟨v, hv, rfl⟩ := Option.map_eq_some_iff.mp hw
      exact ⟨v, hv, rfl⟩
    · exact ⟨w, hw, rfl⟩
  · change (m.outbox.modify u.row _).get? i = _
    rw [hu, Table.get?_modify_of_ne _ hi]
  · refine ⟨fun hnone => ?_, fun hnone => ?_, fun t' ht' => absurd ht'.inHand hout,
      fun hin => absurd hin hout, fun hfailed => ?_, fun v hv _ => ?_,
      fun t' _ ht' => absurd ht'.inHand hout⟩
    · cases hnew.symm.trans hnone
    · cases hnew.symm.trans hnone
    · obtain ⟨v, hv, hfailed⟩ := hfailed
      obtain rfl := Option.some.inj (hnew.symm.trans hv)
      exact htally₁.failed hfailed
    · obtain rfl := Option.some.inj (hnew.symm.trans hv)
      exact htally₁

/-- The run returns, with nothing in its hands. -/
theorem MailInv.done (h : MailInv maxAttempts m₀ m) (hr : m.runs slot = some r) (ht : r.turn = none) :
    MailInv maxAttempts m₀ (m.put slot none) where
  keys := h.keys
  hands := by
    refine h.hands.update (fun q hq => ?_) fun q s q' i hq => ?_
    · cases hq
    · cases hq
  rows i := by
    refine (h.rows i).frame rfl rfl (fun t => turnOn_update hr rfl fun t' _ => ?_) fun hin =>
      inHand_of_update hr rfl (fun q hq => ?_) hin
    · simp [ht]
    · cases hq

/-- **What holds is kept by every event that may come.** -/
theorem MailInv.step (h : MailInv maxAttempts m₀ m) {e : MailEvent} (hc : Careful m e)
    (he : m.step maxAttempts e = some m') : MailInv maxAttempts m₀ m' := by
  cases e with
  | tick seconds =>
    obtain rfl := Option.some.inj he
    exact ⟨h.keys, h.hands, fun i => (h.rows i).frame rfl rfl (fun _ => Iff.rfl) fun hin => hin⟩
  | enqueue x id =>
    rw [Mailroom.step] at he
    split_ifs at he with hid
    split at he
    next outbox' hrun =>
      obtain rfl := Option.some.inj he
      exact h.enqueue hid hrun
    next => cases he
  | claim slot now sweep adapter hidden =>
    rw [Mailroom.step] at he
    split_ifs at he with hfree
    obtain rfl := Option.some.inj he
    exact h.claim hfree.1 hc
  | deliverNow slot id adapter =>
    rw [Mailroom.step] at he
    split_ifs at he with hfree
    obtain ⟨v, hv, rfl⟩ := Option.map_eq_some_iff.mp he
    exact h.deliverNow hfree hc hv
  | load slot =>
    rw [Mailroom.step] at he
    split at he
    next adapter id batch hr =>
      split at he
      next v hv =>
        obtain rfl := Option.some.inj he
        refine h.goOn id hr List.mem_cons_self (List.Sublist.refl _) (fun t ht => by cases ht)
          fun t ht => ?_
        obtain rfl := Option.some.inj ht
        exact ⟨rfl, hv, fun outcome => by simp⟩
      next =>
        obtain rfl := Option.some.inj he
        exact h.goOn id hr List.mem_cons_self (List.sublist_cons_self id batch)
          (fun t ht => by cases ht) fun t ht => by cases ht
    next => cases he
  | send slot =>
    rw [Mailroom.step] at he
    split at he
    next batch id v hr =>
      obtain rfl := Option.some.inj he
      refine h.goOn id hr List.mem_cons_self (List.Sublist.refl _) (fun t ht => ?_) fun t ht => ?_
      · obtain rfl := Option.some.inj ht
        exact ⟨rfl, fun outcome => by simp⟩
      · obtain rfl := Option.some.inj ht
        exact ⟨rfl, h.seen hr rfl, fun outcome => by simp⟩
    next => cases he
  | unrendered slot error =>
    rw [Mailroom.step] at he
    split at he
    next batch id v hr =>
      obtain rfl := Option.some.inj he
      exact h.answered hr rfl (fun outcome => by simp) rfl rfl rfl _ _
    next => cases he
  | answer slot outcome =>
    rw [Mailroom.step] at he
    split at he
    next adapter batch id v since hr =>
      obtain rfl := Option.some.inj he
      exact h.answered hr rfl (fun outcome' => by simp) rfl rfl rfl _ _
    next => cases he
  | persist slot =>
    rw [Mailroom.step] at he
    split at he
    next adapter batch id v outcome hr =>
      obtain rfl := Option.some.inj he
      refine h.committed hr rfl rfl rfl rfl ?_
      exact ((h.rows id).owed _ outcome ⟨slot, _, hr, rfl, rfl⟩ rfl).after_now
    next batch id v hr =>
      -- no adapter: the row waits, with the attempts it had
      obtain rfl := Option.some.inj he
      refine h.committed hr rfl rfl rfl rfl ?_
      have hv := h.seen hr rfl
      have hin : m.InHand id := ⟨slot, _, hr, List.mem_cons_self⟩
      refine ((h.rows id).settled v hv fun t outcome ht => ?_).congr rfl ?_ fun hfailed => ?_
      · obtain ⟨hturn, -⟩ := (turnOn_iff h.hands hr List.mem_cons_self).mp ht
        obtain rfl := Option.some.inj hturn
        simp
      · exact (v.sentMark_eq_zero fun hs => (h.rows id).unsent hin ⟨v, hv, hs⟩).symm
      · cases hfailed
    next => cases he
  | done slot =>
    rw [Mailroom.step] at he
    split at he
    next hr =>
      obtain rfl := Option.some.inj he
      exact h.done hr rfl
    next => cases he

/-- A row that is sent stays sent. -/
theorem MailInv.sent_step (h : MailInv maxAttempts m₀ m) {e : MailEvent}
    (he : m.step maxAttempts e = some m') (hsent : m.HasStatus id .sent) : m'.HasStatus id .sent := by
  have hpersist : ∀ {slot r t q edited}, m.runs slot = some r → r.turn = some t → ∀ {u : Turn},
      u.row = t.row → (m.committed slot q u edited).HasStatus id .sent := by
    intro slot r t q edited hr ht u hu
    have hin : m.InHand t.row := ⟨slot, r, hr, SendRun.row_mem_hands ht⟩
    have hne : id ≠ u.row := fun hid => (h.rows t.row).unsent hin (hu ▸ hid ▸ hsent)
    obtain ⟨v, hv, hstatus⟩ := hsent
    exact ⟨v, (Table.get?_modify_of_ne _ hne _).trans hv, hstatus⟩
  cases e with
  | enqueue x j =>
    rw [Mailroom.step] at he
    split_ifs at he with hj
    split at he
    next outbox' hrun =>
      obtain rfl := Option.some.inj he
      obtain rfl | ⟨-, v, rfl, -⟩ := enqueueMail_cases hrun
      · exact hsent
      · obtain ⟨u, hu, hstatus⟩ := hsent
        have hne : id ≠ j := by
          rintro rfl
          cases hj.symm.trans hu
        exact ⟨u, (Table.get?_insert_of_ne hne v).trans hu, hstatus⟩
    next => cases he
  | claim slot now sweep adapter hidden =>
    rw [Mailroom.step] at he
    split_ifs at he with hfree
    obtain rfl := Option.some.inj he
    obtain ⟨v, hv, hstatus⟩ := hsent
    obtain ⟨hsame, -⟩ | ⟨w, _, hw, -, -, hc⟩ := claimMails_row now sweep adapter hidden m.outbox id
    · exact ⟨v, hsame.trans hv, hstatus⟩
    · -- what is due or stale is not sent
      obtain rfl := Option.some.inj (hv.symm.trans hw)
      have hbefore := hc.status_before
      simp [hstatus] at hbefore
  | persist slot =>
    rw [Mailroom.step] at he
    split at he
    next hr =>
      obtain rfl := Option.some.inj he
      exact hpersist hr rfl rfl
    next hr =>
      obtain rfl := Option.some.inj he
      exact hpersist hr rfl rfl
    next => cases he
  | load slot =>
    rw [Mailroom.step] at he
    split at he
    next =>
      split at he <;> obtain rfl := Option.some.inj he <;> exact hsent
    next => cases he
  | deliverNow slot j adapter =>
    rw [Mailroom.step] at he
    split_ifs at he
    obtain ⟨v, -, rfl⟩ := Option.map_eq_some_iff.mp he
    exact hsent
  | tick =>
    obtain rfl := Option.some.inj he
    exact hsent
  | send | unrendered | answer | done =>
    -- the outbox is not touched
    rw [Mailroom.step] at he
    split at he
    next =>
      obtain rfl := Option.some.inj he
      exact hsent
    next => cases he

end Marketplace.Mail
