import Marketplace.Mail.Steps

/-!
# Every mail is sent once

In a run of careful events no mail is accepted twice, what is sent stays sent, and what has failed has
failed for a reason. Without the condition a batch that takes longer than the sweep waits is sent twice,
though no single mail takes that long.
-/

namespace Marketplace.Mail

open Sql Protocol

variable {maxAttempts : ℕ} {m₀ m m' : Mailroom} {id : ℕ}

/-! ### Whole runs -/

/-- No mail is accepted twice. -/
theorem MailInv.successes_le_one (h : MailInv maxAttempts m₀ m) (id : ℕ) :
    successes (m.tries id) ≤ 1 := by
  have hrow := h.rows id
  have htally : ∀ v : MailOutbox, Tally maxAttempts m₀ id (m.tries id) v →
      successes (m.tries id) ≤ 1 := fun v ht => by
    have hmark := v.sentMark_le_one
    have heq := ht.successes
    omega
  rcases hv : m.outbox.get? id with _ | v
  · rw [hrow.logged hv]
    exact Nat.zero_le 1
  · by_cases howed : ∃ t outcome, m.TurnOn id t ∧ t.stage = .answered outcome
    · obtain ⟨t, outcome, ht, hstage⟩ := howed
      exact htally _ (hrow.owed t outcome ht hstage)
    · exact htally v (hrow.settled v hv fun t outcome ht hstage => howed ⟨t, outcome, ht, hstage⟩)

/-- A row is sent after a success. -/
theorem MailInv.sent_iff (h : MailInv maxAttempts m₀ m) (hsent : m.HasStatus id .sent) :
    m₀.HasStatus id .sent ∨ successes (m.tries id) = 1 := by
  obtain ⟨v, hv, hstatus⟩ := hsent
  have htally := (h.rows id).settled v hv fun t _ ht =>
    absurd ⟨v, hv, hstatus⟩ ((h.rows id).unsent ht.inHand)
  have heq := htally.successes
  rw [MailOutbox.sentMark, if_pos hstatus] at heq
  by_cases hbefore : m₀.sentMark id = 0
  · exact .inr (by omega)
  · refine .inl ?_
    rcases hv₀ : m₀.outbox.get? id with _ | v₀
    · rw [Mailroom.sentMark, hv₀] at hbefore
      exact absurd rfl hbefore
    · rw [Mailroom.sentMark, hv₀] at hbefore
      refine ⟨v₀, hv₀, ?_⟩
      by_contra hne
      exact hbefore (v₀.sentMark_eq_zero hne)

/-- For one key there is one mail. -/
theorem MailInv.deliveries_le_one (h : MailInv maxAttempts m₀ m) (key : String) :
    m.deliveries key ≤ 1 := by
  by_cases hex : ∃ id v, m.outbox.get? id = some v ∧ v.idempotencyKey = key
  · obtain ⟨id, v, hv, rfl⟩ := hex
    refine le_trans ?_ (h.successes_le_one id)
    rw [successes, Mailroom.tries, List.countP_filter, Mailroom.deliveries]
    refine List.countP_mono_left fun a _ ha => ?_
    obtain ⟨hdelivered, hkey⟩ := of_decide_eq_true ha
    obtain ⟨w, hw, hsame⟩ := Option.map_eq_some_iff.mp hkey
    have hid := h.keys a.row id w v hw hv hsame
    simp [hdelivered, hid]
  · refine le_trans (le_of_eq (List.countP_eq_zero.mpr fun a _ ha => hex ?_)) (Nat.zero_le 1)
    obtain ⟨-, hkey⟩ := of_decide_eq_true ha
    obtain ⟨w, hw, hsame⟩ := Option.map_eq_some_iff.mp hkey
    exact ⟨a.row, w, hw, hsame⟩

theorem mailInv_of_runs (hidle : m₀.Idle) (h : (mailMachine maxAttempts).Runs Careful m₀ m) :
    MailInv maxAttempts m₀ m :=
  h.invariant (fun _ _ _ hinv hc he => hinv.step hc he) hidle.mailInv

theorem sent_of_runs (hinv : MailInv maxAttempts m₀ m)
    (h : (mailMachine maxAttempts).Runs Careful m m') (hsent : m.HasStatus id .sent) :
    m'.HasStatus id .sent :=
  EventMachine.Runs.rel (P := MailInv maxAttempts m₀)
    (r := fun m m' => m.HasStatus id .sent → m'.HasStatus id .sent) (fun _ hs => hs)
    (fun _ _ _ h₁ h₂ hs => h₂ (h₁ hs))
    (fun _ _ _ hinv hc he => ⟨hinv.step hc he, hinv.sent_step he⟩) hinv h hsent

/-- **Every mail is sent once**, in the runs in which no row is taken from a run that has it in hand. -/
theorem mails_sent_once (maxAttempts : ℕ) {m₀ m m' : Mailroom} (hidle : m₀.Idle)
    (h : (mailMachine maxAttempts).Runs Careful m₀ m)
    (h' : (mailMachine maxAttempts).Runs Careful m m') :
    (∀ id, successes (m.tries id) ≤ 1) ∧
      (∀ id, m.HasStatus id .sent → m₀.HasStatus id .sent ∨ successes (m.tries id) = 1) ∧
      (∀ id, m.HasStatus id .sent → m'.HasStatus id .sent) ∧
      (∀ id, m.HasStatus id .failed → m₀.HasStatus id .failed ∨ Refused (m.tries id) ∨
        maxAttempts ≤ m₀.attemptsOf id + failures (m.tries id)) ∧
      (∀ x id next, m.step maxAttempts (.enqueue x id) = some next →
        keyStored m.outbox x.idempotencyKey → next.outbox = m.outbox) ∧
      ∀ key, m.deliveries key ≤ 1 := by
  have hinv := mailInv_of_runs hidle h
  refine ⟨hinv.successes_le_one, fun id => hinv.sent_iff, fun id => sent_of_runs hinv h',
    fun id => (hinv.rows id).failed, fun x id next hstep hkey => ?_, hinv.deliveries_le_one⟩
  rw [Mailroom.step] at hstep
  split_ifs at hstep
  split at hstep
  next outbox' hrun =>
    obtain rfl := Option.some.inj hstep
    exact enqueueMail_of_keyStored hkey hrun
  next => cases hstep

/-- A mail that waits. -/
def sampleRow : MailOutbox :=
  ⟨"a", "admin_test", "a@example.org", none, "vi", .pending, 0, none, 0, none, 0⟩

/-- One mail waits, and nothing runs. -/
def sampleMailroom : Mailroom := ⟨0, .empty, .insert .empty 1 sampleRow, fun _ => none, []⟩

theorem idle_sampleMailroom : sampleMailroom.Idle where
  runs _ := rfl
  log := rfl
  keys i j v w hi hj _ := by
    rw [sampleMailroom, Table.get?_insert rfl] at hi hj
    split_ifs at hi hj with h₁ h₂
    · exact h₁.trans h₂.symm
    · cases hj
    · cases hi
    · cases hi

/-- Events for which nothing has to be checked. -/
def MailEvent.plain : MailEvent → Bool
  | .claim .. | .deliverNow .. => false
  | _ => true

theorem careful_of_plain (m : Mailroom) (e : MailEvent) (h : e.plain = true) : Careful m e := by
  cases e with
  | claim | deliverNow => cases h
  | tick | enqueue | load | send | unrendered | answer | persist | done => trivial

/-- A mail that is claimed, sent and committed. -/
theorem mails_sent_once_sample : ∃ m, (mailMachine 5).Runs Careful sampleMailroom m ∧
    m.HasStatus 1 .sent ∧ (sampleMailroom.HasStatus 1 .sent ∨ successes (m.tries 1) = 1) := by
  have hcareful : Careful sampleMailroom (.claim 0 0 true true []) := by
    rintro id v ⟨slot, r, hr, -⟩
    cases hr
  obtain ⟨m, hrun, hm⟩ := EventMachine.exists_of_play (M := mailMachine 5)
    (fun _ e => e.plain) careful_of_plain
    [.load 0, .send 0, .tick 2, .answer 0 .delivered, .persist 0, .done 0]
    (s := { sampleMailroom.put 0
        (some ⟨true, (claimMails 0 true true [] sampleMailroom.outbox).2, none⟩) with
      outbox := (claimMails 0 true true [] sampleMailroom.outbox).1 })
    (P := fun m => (m.outbox.get? 1).map MailOutbox.status = some .sent) (by decide)
  have hall : (mailMachine 5).Runs Careful sampleMailroom m :=
    Relation.ReflTransGen.head ⟨_, hcareful, rfl⟩ hrun
  obtain ⟨v, hv, hstatus⟩ := Option.map_eq_some_iff.mp hm
  exact ⟨m, hall, ⟨v, hv, hstatus⟩,
    (mails_sent_once 5 idle_sampleMailroom hall (.refl m)).2.1 1 ⟨v, hv, hstatus⟩⟩

/-! ### A batch that takes longer than the sweep waits -/

/-- Nothing has happened yet. -/
def emptyMailroom : Mailroom := ⟨0, .empty, .empty, fun _ => none, []⟩

/-- A mail to somebody without an account. -/
def sampleMail (key : String) : MailRequest := ⟨"admin_test", key, none, some "a@example.org", "vi"⟩

/-- A run claims two mails and is busy with the first for 400 seconds; while it sends the second, the sweep of
another run finds that row stale, and the mail is sent again. -/
theorem mail_sent_twice : ∃ m, (mailMachine 5).Runs (fun _ _ => True) emptyMailroom m ∧
    (∀ a ∈ m.log, a.ended - a.started < staleSending) ∧ successes (m.tries 2) = 2 :=
  EventMachine.exists_of_play (fun _ _ => true) (fun _ _ _ => trivial)
    [.enqueue (sampleMail "a") 1, .enqueue (sampleMail "b") 2, .claim 0 0 true true [],
      .load 0, .send 0, .tick 400, .answer 0 .delivered, .persist 0, .load 0, .send 0, .tick 250,
      .claim 1 650 true true [], .load 1, .send 1, .tick 10, .answer 0 .delivered, .persist 0,
      .answer 1 .delivered, .persist 1] (by decide)

end Marketplace.Mail
