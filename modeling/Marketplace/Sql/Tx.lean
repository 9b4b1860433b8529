import Mathlib.Tactic

/-!
# Transactions as programs

What a service does between opening a session and `COMMIT`, as a finite tree of
statements. A statement sees the database *as it is when the statement runs*: the last
committed state with the transaction's own writes on top, which is what the read-committed
isolation level gives. A statement may also take row locks (`SELECT … FOR UPDATE`), which
the transaction then holds until it ends.

* `Tx.stmt keys next` runs a query: it waits until it holds the rows `keys`, then goes on
  with what it sees.
* `Tx.write f next` changes the transaction's own view; nobody else sees it before the end.
* `Tx.pure a` is the commit, with result `a`; `Tx.throw e` is a rollback.

The sequential meaning of a transaction, the one it has when nothing else runs, is
`Tx.run`. Reading `Tx.run` back from a successful result is what every proof about
a single operation does, and the lemmas that do it are collected in this file; the
interleaved meaning is in `Marketplace.Sql.Sessions`.
-/

namespace Sql

/-- A transaction over databases `D` with row locks `K`, failing with `ε`, returning `α`. -/
inductive Tx (D K ε α : Type) : Type
  /-- Commit, with a result. -/
  | pure (a : α) : Tx D K ε α
  /-- Roll back. -/
  | throw (e : ε) : Tx D K ε α
  /-- Take the rows `keys`, then read. -/
  | stmt (keys : D → List K) (next : D → Tx D K ε α) : Tx D K ε α
  /-- Change the transaction's own view. -/
  | write (f : D → D) (next : Tx D K ε α) : Tx D K ε α

namespace Tx

variable {D K ε α β γ : Type}

/-- Sequential composition. -/
def bind : Tx D K ε α → (α → Tx D K ε β) → Tx D K ε β
  | .pure a, f => f a
  | .throw e, _ => .throw e
  | .stmt keys next, f => .stmt keys fun d => (next d).bind f
  | .write g next, f => .write g (next.bind f)

instance : Monad (Tx D K ε) where
  pure := Tx.pure
  bind := Tx.bind

/-! ### The statements a program is written with -/

/-- `SELECT` without a lock. -/
def read (f : D → α) : Tx D K ε α := .stmt (fun _ => []) fun d => .pure (f d)

/-- `SELECT … FOR UPDATE` of one row. -/
def lock (k : K) (f : D → α) : Tx D K ε α := .stmt (fun _ => [k]) fun d => .pure (f d)

/-- `INSERT`, `UPDATE` or an assignment to a loaded row. -/
def modify (f : D → D) : Tx D K ε Unit := .write f (.pure ())

/-- A result that has to be there. -/
def getOrElse (a : Option α) (e : ε) : Tx D K ε α :=
  match a with
  | some x => .pure x
  | none => .throw e

/-- A condition that has to hold. -/
def require (p : Prop) [Decidable p] (e : ε) : Tx D K ε Unit :=
  if p then .pure () else .throw e

/-- A step taken only under a condition. -/
def when (p : Prop) [Decidable p] (t : Tx D K ε Unit) : Tx D K ε Unit :=
  if p then t else .pure ()

/-- One step for every element of a list. -/
def forEach : List α → (α → Tx D K ε Unit) → Tx D K ε Unit
  | [], _ => .pure ()
  | a :: as, f => (f a).bind fun _ => forEach as f

/-! ### Running a transaction alone -/

/-- The transaction run from beginning to end with nothing else going on: its result and the
database it leaves, or the error it rolled back with. -/
def run : Tx D K ε α → D → Except ε (α × D)
  | .pure a, d => .ok (a, d)
  | .throw e, _ => .error e
  | .stmt _ next, d => (next d).run d
  | .write f next, d => next.run (f d)

/-- The committed state after the transaction ran alone: a rollback leaves it as it was. -/
def exec (t : Tx D K ε α) (d : D) : D :=
  match t.run d with
  | .ok (_, d') => d'
  | .error _ => d

section Run

variable {d d' : D} {a : α}

@[simp] theorem run_pure : (Pure.pure a : Tx D K ε α).run d = .ok (a, d) := rfl

@[simp] theorem run_pure' : (Tx.pure a : Tx D K ε α).run d = .ok (a, d) := rfl

@[simp] theorem run_throw (e : ε) : (Tx.throw e : Tx D K ε α).run d = .error e := rfl

@[simp] theorem run_read (f : D → α) : (read f : Tx D K ε α).run d = .ok (f d, d) := rfl

@[simp] theorem run_lock (k : K) (f : D → α) : (lock k f : Tx D K ε α).run d = .ok (f d, d) := rfl

@[simp] theorem run_modify (f : D → D) : (modify f : Tx D K ε Unit).run d = .ok ((), f d) := rfl

theorem run_bind (t : Tx D K ε α) (f : α → Tx D K ε β) :
    (t >>= f).run d = match t.run d with
      | .ok (a, d') => (f a).run d'
      | .error e => .error e := by
  induction t generalizing d with
  | pure a => rfl
  | throw e => rfl
  | stmt keys next ih => exact ih d
  | write g next ih => exact ih

/-- **A composition succeeds exactly when its parts do, in order.** Read from left to right
this takes a successful run apart, statement by statement. -/
@[simp] theorem run_bind_eq_ok (t : Tx D K ε α) (f : α → Tx D K ε β) (r : β × D) :
    (t >>= f).run d = .ok r ↔ ∃ a d', t.run d = .ok (a, d') ∧ (f a).run d' = .ok r := by
  rw [run_bind]
  rcases h : t.run d with e | ⟨a, d'⟩
  · simp
  · constructor
    · intro hf
      exact ⟨a, d', rfl, hf⟩
    · rintro ⟨a', d'', h', hf⟩
      obtain ⟨rfl, rfl⟩ : a = a' ∧ d' = d'' := by simpa using h'
      exact hf

@[simp] theorem run_getOrElse_eq_ok (o : Option α) (e : ε) (r : α × D) :
    (getOrElse o e : Tx D K ε α).run d = .ok r ↔ o = some r.1 ∧ r.2 = d := by
  obtain ⟨a, d'⟩ := r
  cases o with
  | none => simp [getOrElse]
  | some x => simp [getOrElse, eq_comm]

@[simp] theorem run_require_eq_ok (p : Prop) [Decidable p] (e : ε) (r : Unit × D) :
    (require p e : Tx D K ε Unit).run d = .ok r ↔ p ∧ r.2 = d := by
  obtain ⟨⟨⟩, d'⟩ := r
  by_cases hp : p <;> simp [require, hp, eq_comm]

theorem run_require_bind (p : Prop) [Decidable p] (e : ε) (f : Unit → Tx D K ε β) :
    (require p e >>= f).run d = if p then (f ()).run d else .error e := by
  rw [run_bind, require]
  split_ifs <;> rfl

theorem run_when (p : Prop) [Decidable p] (t : Tx D K ε Unit) :
    (when p t).run d = if p then t.run d else .ok ((), d) := by
  by_cases hp : p <;> simp [when, hp]

theorem run_forEach_cons_eq_ok (a : α) (as : List α) (f : α → Tx D K ε Unit) (r : Unit × D) :
    (forEach (a :: as) f).run d = .ok r ↔
      ∃ d', (f a).run d = .ok ((), d') ∧ (forEach as f).run d' = .ok r := by
  have h := run_bind_eq_ok (d := d) (f a) (fun _ => forEach as f) r
  refine h.trans ⟨?_, ?_⟩
  · rintro ⟨⟨⟩, d', h1, h2⟩
    exact ⟨d', h1, h2⟩
  · rintro ⟨d', h1, h2⟩
    exact ⟨(), d', h1, h2⟩

theorem exec_of_ok {t : Tx D K ε α} (h : t.run d = .ok (a, d')) : t.exec d = d' := by
  rw [exec, h]

/-- A transaction run alone either committed a successful run or left the database alone. -/
theorem exec_cases (t : Tx D K ε α) (d : D) :
    (∃ a, t.run d = .ok (a, t.exec d)) ∨ t.exec d = d := by
  rcases h : t.run d with e | ⟨a, d'⟩
  · exact Or.inr (by rw [exec, h])
  · exact Or.inl ⟨a, by rw [exec, h]⟩

/-- The transaction commits, run alone. -/
def commits (t : Tx D K ε α) (d : D) : Bool :=
  match t.run d with
  | .ok _ => true
  | .error _ => false

theorem run_of_commits {t : Tx D K ε Unit} (h : t.commits d = true) :
    t.run d = .ok ((), t.exec d) := by
  rcases hr : t.run d with e | ⟨⟨⟩, d'⟩
  · rw [commits, hr] at h
    exact absurd h (by simp)
  · rw [exec_of_ok hr]

/-- The error the transaction rolls back with, run alone. -/
def aborts (t : Tx D K ε α) (d : D) : Option ε :=
  match t.run d with
  | .ok _ => none
  | .error e => some e

theorem run_of_aborts {t : Tx D K ε α} {e : ε} (h : t.aborts d = some e) : t.run d = .error e := by
  rcases hr : t.run d with e' | r
  · rw [aborts, hr] at h
    rw [Option.some.inj h]
  · rw [aborts, hr] at h
    exact absurd h (by simp)

end Run

end Tx

end Sql
