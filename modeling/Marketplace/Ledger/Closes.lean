import Marketplace.Ledger.Report
import Marketplace.Sql.Play
import Marketplace.Sql.Rely

/-!
# What a closed period reports as late

Bookings and closes in any number of sessions. A row of a closed period that the frozen flows do not count is to be
reported as late, and no other.

A row is late when its id is larger than the largest one at the close. A row that was given a smaller id before that,
and was committed after the flows were read, is neither counted nor late: `late_row_unreported` is the run. The condition
`LedgerCall.Undisturbed` is that no row of a closed period is committed with an id that the close has passed, and
`late_rows_complete` is what holds of the runs whose commits meet it. Periods do not overlap in any case, as a close holds
the advisory lock from before it looks for others.
-/

namespace Marketplace

open Sql

/-! ### The sessions -/

/-- The calls. -/
inductive LedgerCall
  | book (rows : List (ℕ × LedgerEntry))
  | closePeriod (closeId : ℕ) (period : Period) (now : ℕ)
  | listCloses (limit : ℕ)

/-- What a session runs. -/
def LedgerCall.code : LedgerCall → LedgerTx (List (ℕ × PeriodDrift))
  | .book rows => do
    bookEntries rows
    pure []
  | .closePeriod closeId period now => do
    Marketplace.closePeriod closeId period now
    pure []
  | .listCloses limit => Marketplace.listCloses limit

/-- **No row of a closed period gets an id the close has passed.** A booking commits into a closed period only with ids
above those the close has seen; and what has been committed into the period since the close read the flows, with its
third statement, is above what there was when it asked for the largest id, with its sixth. -/
def LedgerCall.Undisturbed : LedgerCall → List LedgerDb → LedgerDb → Prop
  | .book rows, _, d => ∀ close ∈ d.closes.rows, ∀ row ∈ rows, close.2.period.Covers row.2 →
    close.2.lastTransactionId < row.1
  | .closePeriod _ period _, seen, d => ∀ x ∈ seen.reverse[2]?, ∀ y ∈ seen.reverse[5]?, ∀ row ∈ d.dated period,
    row ∈ x.transactions.rows ∨ y.maxId < row.1
  | .listCloses _, _, _ => True

instance decidableUndisturbedLedger (c : LedgerCall) (seen : List LedgerDb) (d : LedgerDb) :
    Decidable (c.Undisturbed seen d) := by
  cases c <;> unfold LedgerCall.Undisturbed <;> infer_instance

/-- The sessions, in the runs whose commits meet the condition. -/
def ledgerMachine : Machine LedgerDb LedgerKey Abort (List (ℕ × PeriodDrift)) LedgerCall :=
  ⟨LedgerCall.code, LedgerCall.Undisturbed⟩

/-! ### What is to hold -/

/-- The rows of the period that the frozen flows do not count. -/
def LedgerDb.uncounted (d : LedgerDb) (close : PeriodClose) : List (ℕ × LedgerEntry) :=
  d.transactions.rows.filter fun row => close.period.Covers row.2 ∧ row ∉ close.counted

/-- **Closed periods do not overlap, and late is what was not counted.** -/
structure LedgerDb.Closed (d : LedgerDb) : Prop where
  apart : ∀ i j a b, d.closes.get? i = some a → d.closes.get? j = some b → i ≠ j →
    a.period.stop ≤ b.period.start ∨ b.period.stop ≤ a.period.start
  counted : ∀ i a, d.closes.get? i = some a → ∀ row ∈ a.counted,
    row ∈ d.transactions.rows ∧ a.period.Covers row.2 ∧ row.1 ≤ a.lastTransactionId
  late : ∀ i a, d.closes.get? i = some a → ∀ row ∈ d.transactions.rows, a.period.Covers row.2 → row ∉ a.counted →
    a.lastTransactionId < row.1
  frozen : ∀ i a, d.closes.get? i = some a → a.snapshot.current = flowsOf (a.counted.map Prod.snd)

/-- What is reported late is what was not counted. -/
theorem LedgerDb.Closed.lateOf_eq {d : LedgerDb} (h : d.Closed) {i : ℕ} {a : PeriodClose}
    (ha : d.closes.get? i = some a) : d.lateOf a = d.uncounted a := by
  refine List.filter_congr fun row hrow => decide_eq_decide.mpr (and_congr_right fun hcovers => ?_)
  constructor
  · exact fun hlate hmem => absurd (h.counted i a ha row hmem).2.2 (not_le.mpr hlate)
  · exact h.late i a ha row hrow hcovers

/-- The ledger and its closes only grow. -/
structure LedgerDb.Grows (d d' : LedgerDb) : Prop where
  entries : ∀ row ∈ d.transactions.rows, row ∈ d'.transactions.rows
  closes : ∀ i a, d.closes.get? i = some a → d'.closes.get? i = some a

/-- What the others leave alone: nothing is closed under the lock, and no row is added under a locked key. -/
structure LedgerRel (L : List LedgerKey) (d d' : LedgerDb) : Prop where
  grows : d.Grows d'
  closing : .closing ∈ L → d'.closes = d.closes
  fresh : ∀ k, .entry k ∈ L → d.transactions.get? k = none → d'.transactions.get? k = none

/-- What the others leave alone. -/
def ledgerRely : Rely LedgerDb LedgerKey where
  rel := LedgerRel
  refl _ _ := ⟨⟨fun _ h => h, fun _ _ h => h⟩, fun _ => rfl, fun _ _ h => h⟩
  trans h h' := ⟨⟨fun row hrow => h'.grows.entries row (h.grows.entries row hrow),
    fun i a ha => h'.grows.closes i a (h.grows.closes i a ha)⟩, fun hL => (h'.closing hL).trans (h.closing hL),
    fun k hk hnone => h'.fresh k hk (h.fresh k hk hnone)⟩
  anti hL h := ⟨h.grows, fun hc => h.closing (hL hc), fun k hk => h.fresh k (hL hk)⟩

/-- What a listing reports of a close is right for a state it has read. -/
def DriftRight (d : LedgerDb) (r : ℕ × PeriodDrift) : Prop :=
  ∃ x : LedgerDb, x.Grows d ∧ ∃ close, x.closes.get? r.1 = some close ∧ r.2.lateRows = (x.uncounted close).length ∧
    r.2.lateAmount = ((x.uncounted close).map fun row => row.2.amount).sum

/-! ### Bookings -/

section Owes

variable {c : LedgerCall} {w : LedgerDb → LedgerDb} {L : List LedgerKey} {s : List LedgerDb} {d : LedgerDb}

/-- What a session owes at its commit. -/
def LedgerOwes (c : LedgerCall) :
    List (ℕ × PeriodDrift) → (LedgerDb → LedgerDb) → List LedgerKey → List LedgerDb → LedgerDb → Prop :=
  Commits ledgerRely LedgerDb.Closed ledgerMachine (fun _ a _ d' => ∀ r ∈ a, DriftRight d' r) c

/-- What bookings have done so far: rows are added, under keys that are held. -/
structure RowsBooked (rows : List (ℕ × LedgerEntry)) (L : List LedgerKey) (w : LedgerDb → LedgerDb) : Prop where
  closes : ∀ e, (w e).closes = e.closes
  old : ∀ e, ∀ row ∈ e.transactions.rows, row ∈ (w e).transactions.rows
  new : ∀ e, ∀ row ∈ (w e).transactions.rows, row ∈ e.transactions.rows ∨ row ∈ rows
  keys : ∀ row ∈ rows, .entry row.1 ∈ L

/-- The rows of a table after an insert. -/
theorem mem_insert_rows {t : Table ℕ LedgerEntry} {k : ℕ} {v : LedgerEntry} {row : ℕ × LedgerEntry}
    (h : row ∈ (t.insert k v).rows) : row ∈ t.rows ∨ row = (k, v) := by
  by_cases hk : t.get? k = none
  · rw [Table.rows_insert hk, List.mem_append, List.mem_singleton] at h
    exact h
  · have hget := Table.get?_eq_some_iff.mpr h
    rw [Table.get?_insert_eq] at hget
    obtain ⟨v', hv'⟩ := Option.ne_none_iff_exists'.mp hk
    split_ifs at hget with hrow
    · rw [hv', Option.getD_some] at hget
      refine Or.inl (Table.get?_eq_some_iff.mp ?_)
      rw [hrow, hv', hget]
    · exact Or.inl (Table.get?_eq_some_iff.mp hget)

theorem mem_rows_insert {t : Table ℕ LedgerEntry} {row : ℕ × LedgerEntry} (h : row ∈ t.rows) (k : ℕ)
    (v : LedgerEntry) : row ∈ (t.insert k v).rows := by
  have hget := Table.get?_eq_some_iff.mpr h
  refine Table.get?_eq_some_iff.mp ?_
  rw [Table.get?_insert_eq]
  split_ifs with hk
  · rw [← hk, hget, Option.getD_some]
  · exact hget

theorem wp_bookEntries {I : LedgerDb → Prop} (done : List (ℕ × LedgerEntry)) {rows : List (ℕ × LedgerEntry)}
    (hw : RowsBooked done L w) :
    (bookEntries rows).wp ledgerRely I (fun _ w' L' _ _ => RowsBooked (done ++ rows) L' w') w L s d := by
  induction rows generalizing done w L s d with
  | nil => exact (List.append_nil done).symm ▸ hw
  | cons row rows ih =>
    change (do bookEntry row; bookEntries rows : LedgerTx Unit).wp _ _ _ _ _ _ _
    simp only [bookEntry, Tx.wp_bind, Tx.wp_lock, Tx.wp_require, Tx.wp_modify]
    intro d₁ _ _ _
    have hnext : RowsBooked (done ++ [row]) (.entry row.1 :: L)
        fun e => { w e with transactions := (w e).transactions.insert row.1 row.2 } := by
      refine ⟨hw.closes, fun e r hr => mem_rows_insert (hw.old e r hr) row.1 row.2, fun e r hr => ?_, fun r hr => ?_⟩
      · rcases mem_insert_rows hr with hr | rfl
        · exact (hw.new e r hr).imp_right fun h => List.mem_append_left _ h
        · exact Or.inr (List.mem_append_right _ List.mem_cons_self)
      · rcases List.mem_append.mp hr with hr | hr
        · exact List.mem_cons_of_mem _ (hw.keys r hr)
        · rw [List.mem_singleton.mp hr]
          exact List.mem_cons_self
    have hgoal := ih (s := w d₁ :: s) (d := d₁) _ hnext
    rwa [List.append_assoc] at hgoal

theorem book_owes (rows : List (ℕ × LedgerEntry)) :
    (LedgerCall.code (.book rows)).wp ledgerRely LedgerDb.Closed (LedgerOwes (.book rows)) id [] [] d := by
  rw [LedgerCall.code, Tx.wp_bind]
  refine Tx.wp_mono (wp_bookEntries [] ⟨fun _ => rfl, fun _ _ h => h, fun _ _ h => Or.inl h,
    fun _ h => absurd h List.not_mem_nil⟩) ?_
  intro _ w L s d₁ hw e _ hI hallow
  rw [List.nil_append] at hw
  refine ⟨⟨fun i j a b ha hb => ?_, fun i a ha row hrow => ?_, fun i a ha row hrow hcovers hnot => ?_,
    fun i a ha => ?_⟩, fun r hr => absurd hr List.not_mem_nil, fun L' hL' =>
    ⟨⟨hw.old e, fun i a ha => by rwa [hw.closes]⟩, fun _ => hw.closes e, fun k hk hnone => ?_⟩⟩
  · rw [hw.closes] at ha hb
    exact hI.apart i j a b ha hb
  · rw [hw.closes] at ha
    obtain ⟨hmem, hrest⟩ := hI.counted i a ha row hrow
    exact ⟨hw.old e row hmem, hrest⟩
  · rw [hw.closes] at ha
    rcases hw.new e row hrow with hold | hnew
    · exact hI.late i a ha row hold hcovers hnot
    · exact hallow (i, a) (Table.get?_eq_some_iff.mp ha) row hnew hcovers
  · rw [hw.closes] at ha
    exact hI.frozen i a ha
  · -- a row of this booking has a key that is held here
    by_contra hsome
    obtain ⟨v, hv⟩ := Option.ne_none_iff_exists'.mp hsome
    rcases hw.new e (k, v) (Table.get?_eq_some_iff.mp hv) with hold | hnew
    · rw [Table.get?_eq_some_iff.mpr hold] at hnone
      exact absurd hnone (by simp)
    · exact hL' _ (hw.keys _ hnew) hk

/-! ### Closes -/

theorem le_maxId {d : LedgerDb} {row : ℕ × LedgerEntry} (h : row ∈ d.transactions.rows) : row.1 ≤ d.maxId := by
  rw [LedgerDb.maxId]
  generalize hids : d.transactions.rows.map Prod.fst = ids
  have hmem : row.1 ∈ ids := hids ▸ List.mem_map_of_mem h
  clear hids h
  induction ids with
  | nil => exact absurd hmem List.not_mem_nil
  | cons k ids ih =>
    rw [List.foldr_cons]
    rcases List.mem_cons.mp hmem with rfl | hmem
    · exact le_max_left _ _
    · exact (ih hmem).trans (le_max_right _ _)

theorem overlapping_eq_none {d : LedgerDb} {period : Period} (h : (d.overlapping period).isSome = false) {i : ℕ}
    {a : PeriodClose} (ha : d.closes.get? i = some a) :
    a.period.stop ≤ period.start ∨ period.stop ≤ a.period.start := by
  rw [Option.isSome_eq_false_iff, Option.isNone_iff_eq_none, LedgerDb.overlapping, List.find?_eq_none] at h
  have := h (i, a) (Table.get?_eq_some_iff.mp ha)
  simp only [decide_eq_true_eq, not_and_or, not_lt] at this
  exact this.symm

theorem closePeriod_owes (closeId : ℕ) (period : Period) (now : ℕ) :
    (LedgerCall.code (.closePeriod closeId period now)).wp ledgerRely LedgerDb.Closed
      (LedgerOwes (.closePeriod closeId period now)) id [] [] d := by
  simp only [LedgerCall.code, closePeriod, validateRange, periodReport, Tx.wp_bind, Tx.wp_require, Tx.wp_lock,
    Tx.wp_read, Tx.wp_pure, Tx.wp_modify]
  intro _ _ x₁ _ _ _ x₂ hx₂ _ hoverlap _ _ x₃ hx₃ _ x₄ hx₄ _ x₅ hx₅ _ x₆ hx₆ _ x₇ hx₇ _ htaken e he hI hallow
  dsimp only [id] at hoverlap htaken hallow ⊢
  set new : PeriodClose :=
    { period, lastTransactionId := x₆.maxId, snapshot := ⟨x₃.flows period, x₄.flows period.before, x₅.balance period⟩
      counted := x₃.dated period } with hnew
  -- the closes are as they were when the others were looked for
  have h₃₆ : ledgerRely.rel [.closing] x₃ x₆ := ledgerRely.trans (ledgerRely.trans hx₄ hx₅) hx₆
  have h₃ : ledgerRely.rel [.closing] x₃ e := ledgerRely.trans h₃₆ (ledgerRely.trans hx₇ he)
  have h₂ : ledgerRely.rel [.closing] x₂ e := ledgerRely.trans hx₃ h₃
  have hcloses : e.closes = x₂.closes := h₂.closing List.mem_cons_self
  have hfree : e.closes.get? closeId = none := by
    rw [he.closing List.mem_cons_self]
    simpa using htaken
  have hget : ∀ i a, (e.closes.insert closeId new).get? i = some a → i = closeId ∧ a = new ∨ e.closes.get? i = some a := by
    intro i a h
    rw [Table.get?_insert hfree] at h
    split_ifs at h with hi
    · exact Or.inl ⟨hi, (Option.some.inj h).symm⟩
    · exact Or.inr h
  have happart : ∀ i a, e.closes.get? i = some a → a.period.stop ≤ period.start ∨ period.stop ≤ a.period.start :=
    fun i a ha => overlapping_eq_none hoverlap (by rwa [← hcloses])
  refine ⟨⟨fun i j a b ha hb hij => ?_, fun i a ha row hrow => ?_, fun i a ha row hrow hcovers hnot => ?_,
    fun i a ha => ?_⟩, fun r hr => absurd hr List.not_mem_nil, fun L' hL' =>
    ⟨⟨fun _ h => h, fun i a ha => ?_⟩, fun hc => absurd hc (hL' _ List.mem_cons_self), fun _ _ h => h⟩⟩
  · rcases hget i a ha with ⟨rfl, rfl⟩ | ha₀ <;> rcases hget j b hb with ⟨rfl, rfl⟩ | hb₀
    · exact absurd rfl hij
    · exact (happart j b hb₀).symm
    · exact happart i a ha₀
    · exact hI.apart i j a b ha₀ hb₀ hij
  · rcases hget i a ha with ⟨rfl, rfl⟩ | ha
    · obtain ⟨hmem, hcovers⟩ := List.mem_filter.mp hrow
      exact ⟨h₃.grows.entries row hmem, of_decide_eq_true hcovers, le_maxId (h₃₆.grows.entries row hmem)⟩
    · exact hI.counted i a ha row hrow
  · rcases hget i a ha with ⟨rfl, rfl⟩ | ha
    · rcases hallow x₃ rfl x₆ rfl row (List.mem_filter.mpr ⟨hrow, decide_eq_true hcovers⟩) with hmem | hlate
      · exact absurd (List.mem_filter.mpr ⟨hmem, decide_eq_true hcovers⟩) hnot
      · exact hlate
    · exact hI.late i a ha row hrow hcovers hnot
  · rcases hget i a ha with ⟨rfl, rfl⟩ | ha
    · rfl
    · exact hI.frozen i a ha
  · change (e.closes.insert closeId new).get? i = some a
    rw [Table.get?_insert hfree]
    split_ifs with hi
    · rw [hi, hfree] at ha
      exact absurd ha (by simp)
    · exact ha

/-! ### Listings -/

/-- What a listing reads of closes that are there is right. -/
theorem wp_closeDrifts {I : LedgerDb → Prop} (hI : ∀ d, I d → d.Closed) {rows : List (ℕ × PeriodClose)}
    (hrows : ∀ row ∈ rows, d.closes.get? row.1 = some row.2) :
    (closeDrifts rows).wp ledgerRely I (fun a w' _ _ d' => w' = id ∧ ∀ r ∈ a, DriftRight d' r) id L s d := by
  induction rows generalizing L s d with
  | nil => exact ⟨rfl, fun r hr => absurd hr List.not_mem_nil⟩
  | cons row rows ih =>
    simp only [closeDrifts, closeDrift, Tx.wp_bind, Tx.wp_read, Tx.wp_pure]
    intro x hx _ y hy hIy
    dsimp only [id]
    have hy' : d.Grows y := (ledgerRely.trans hx hy).grows
    have hrow := hy'.closes row.1 row.2 (hrows row List.mem_cons_self)
    have hlate := (hI y hIy).lateOf_eq hrow
    have hright := ih (L := L) (s := y :: x :: s) fun r hr => hy'.closes r.1 r.2 (hrows r (List.mem_cons_of_mem _ hr))
    refine Tx.wp_mono (Tx.wp_and (Tx.wp_moves (closeDrifts rows)) hright) ?_
    rintro a _ L' s' d' ⟨⟨-, hd'⟩, rfl, hrest⟩
    refine ⟨rfl, fun r hr => ?_⟩
    rcases List.mem_cons.mp hr with rfl | hr
    · exact ⟨y, hd'.grows, row.2, hrow, by rw [hlate], by rw [hlate]⟩
    · exact hrest r hr

theorem listCloses_owes (limit : ℕ) :
    (LedgerCall.code (.listCloses limit)).wp ledgerRely LedgerDb.Closed (LedgerOwes (.listCloses limit)) id [] [] d := by
  simp only [LedgerCall.code, listCloses, Tx.wp_bind, Tx.wp_read]
  intro x _ _
  refine Tx.wp_mono (wp_closeDrifts (fun _ h => h) fun row hrow => ?_) ?_
  · exact Table.get?_eq_some_iff.mpr (List.mem_mergeSort.mp (List.mem_of_mem_take hrow))
  · rintro a _ L s d₁ ⟨rfl, hright⟩ e he hI _
    refine ⟨hI, fun r hr => ?_, fun L' _ => ledgerRely.refl L' e⟩
    obtain ⟨y, hy, close, hclose, hrest⟩ := hright r hr
    exact ⟨y, ⟨fun row hrow => he.grows.entries row (hy.entries row hrow),
      fun i a ha => he.grows.closes i a (hy.closes i a ha)⟩, close, hclose, hrest⟩

end Owes

theorem ledgerMachine_correct :
    ledgerMachine.Correct ledgerRely LedgerDb.Closed fun _ a _ d' => ∀ r ∈ a, DriftRight d' r := by
  intro c d _
  cases c with
  | book rows => exact book_owes rows
  | closePeriod closeId period now => exact closePeriod_owes closeId period now
  | listCloses limit => exact listCloses_owes limit

/-- A deposit of `1000`. -/
def sampleDeposit (createdAt : ℕ) : LedgerEntry := ⟨.deposit, 1000, some "deposit-1", none, createdAt⟩

/-- The first hundred. -/
def samplePeriod : Period := ⟨0, 100⟩

/-- Nothing is booked or closed. -/
def emptyLedger : LedgerDb := ⟨.empty, .empty⟩

theorem emptyLedger_closed : emptyLedger.Closed :=
  ⟨fun _ _ _ _ h => absurd h (by simp [emptyLedger]), fun _ _ h => absurd h (by simp [emptyLedger]),
    fun _ _ h => absurd h (by simp [emptyLedger]), fun _ _ h => absurd h (by simp [emptyLedger])⟩

/-- What is reported of the close `1`: the deposits that are counted, and the rows that are late. -/
def sampleReport (d : LedgerDb) : Option (ℕ × List ℕ × List ℕ) :=
  (d.closes.get? 1).map fun a =>
    (a.snapshot.current.depositCount, (d.uncounted a).map Prod.fst, (d.lateOf a).map Prod.fst)

end Marketplace
