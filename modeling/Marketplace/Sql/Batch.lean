import Marketplace.Sql.Tx

/-!
# A loop of transactions in one session

A job that loads a list of objects, then runs one transaction for each, all in the same session. A
transaction that fails is rolled back, and the loop goes on with the next object.

A rollback *expires* every object the session has loaded: reading a column of one of them has to
load its row again, which code outside an awaited query cannot do. So the iteration after a failed one
raises as soon as it touches its object, and if that happens outside the `try` block the loop
is over. `Batch.run` is the loop, `Batch.settleEach` what it is meant to come to: every
transaction that succeeds at its turn takes effect, the others leave no trace.

`Batch.run_eq_finished_iff` says when the two agree: when nothing but the last transaction
fails.
-/

namespace Sql

variable {D K ε α : Type}

/-- One iteration of a loop. -/
inductive Attempt (D : Type)
  /-- There is nothing to do any more. -/
  | skipped
  /-- The transaction committed. -/
  | committed (d : D)
  /-- The transaction raised and was rolled back. -/
  | failed

/-- How a loop ends. -/
inductive Ending (D : Type)
  /-- It went through all objects. -/
  | finished (d : D)
  /-- It raised. -/
  | raised (d : D)

/-- A loop over objects of type `α`. -/
structure Batch (D K ε α : Type) where
  /-- There is nothing to do for the object. -/
  skip : α → D → Bool
  /-- The transaction of the object. -/
  step : α → Tx D K ε Unit
  /-- The objects whose iteration raises for a reason that is not in the transaction. -/
  faulty : α → Bool

namespace Batch

variable (B : Batch D K ε α)

/-- The `try` block of an iteration. -/
def attempt (a : α) (d : D) : Attempt D :=
  if B.faulty a then .failed
  else if B.skip a d then .skipped
  else
    match (B.step a).run d with
    | .ok (_, d') => .committed d'
    | .error _ => .failed

/-- The loop; `expired` says that the session was rolled back since the objects were loaded. -/
def run (expired : Bool) : List α → D → Ending D
  | [], d => .finished d
  | a :: as, d =>
    -- The object's key is read before the `try` block.
    if expired then .raised d
    else
      match B.attempt a d with
      | .skipped => run false as d
      | .committed d' => run false as d'
      | .failed => run true as d

/-- Each transaction takes effect if it succeeds at its turn. -/
def settleEach : List α → D → D
  | [], d => d
  | a :: as, d =>
    match B.attempt a d with
    | .committed d' => settleEach as d'
    | _ => settleEach as d

/-- Nothing but the last transaction fails. -/
def OnlyLastFails (as : List α) (d : D) : Prop :=
  ∀ before a after, as = before ++ a :: after →
    B.attempt a (B.settleEach before d) = .failed → after = []

theorem settleEach_append (as bs : List α) (d : D) :
    B.settleEach (as ++ bs) d = B.settleEach bs (B.settleEach as d) := by
  induction as generalizing d with
  | nil => rfl
  | cons a as ih =>
    rw [List.cons_append, settleEach, settleEach]
    split <;> exact ih _

/-- What the condition says about the rest of the list. -/
theorem onlyLastFails_cons (a : α) (as : List α) (d : D) :
    B.OnlyLastFails (a :: as) d ↔
      (B.attempt a d = .failed → as = []) ∧ B.OnlyLastFails as (B.settleEach [a] d) := by
  constructor
  · intro h
    refine ⟨fun hf => h [] a as rfl hf, fun before b after hb hf => ?_⟩
    refine h (a :: before) b after (by rw [hb, List.cons_append]) ?_
    rwa [← List.singleton_append, settleEach_append]
  · rintro ⟨hhead, htail⟩ before b after hb hf
    rcases before with _ | ⟨a', before⟩
    · obtain ⟨rfl, rfl⟩ : a = b ∧ as = after := by simpa using hb
      exact hhead hf
    · obtain ⟨rfl, rfl⟩ : a = a' ∧ as = before ++ b :: after := by simpa using hb
      refine htail before b after rfl ?_
      rwa [← List.singleton_append, settleEach_append] at hf

/-- **The loop does what it is meant to exactly when nothing but its last transaction fails.** -/
theorem run_eq_finished_iff (as : List α) (d : D) :
    B.run false as d = .finished (B.settleEach as d) ↔ B.OnlyLastFails as d := by
  induction as generalizing d with
  | nil =>
    refine ⟨fun _ before a after h => ?_, fun _ => rfl⟩
    exact absurd h (by simp)
  | cons a as ih =>
    rw [onlyLastFails_cons, run, settleEach, settleEach]
    rcases hat : B.attempt a d with _ | d' | _
    · simpa [settleEach] using ih d
    · simpa [settleEach] using ih d'
    · rcases as with _ | ⟨b, as⟩
      · refine ⟨fun _ => ⟨fun _ => rfl, fun before c after h => ?_⟩, fun _ => rfl⟩
        exact absurd h (by simp)
      · simp [run]

end Batch

end Sql
