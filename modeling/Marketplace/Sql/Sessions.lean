import Marketplace.Sql.Tx
import Mathlib.Logic.Relation

/-!
# Concurrent sessions

Many sessions run transactions against one database. Each is somewhere in the middle of
its program; it has changes nobody else sees yet (`Session.pending`) and row locks
nobody else may take (`Session.held`). `Step` lets any session take its next statement,
write, commit or disappear, in any order: a run of the machine is an interleaving of the
sessions' *statements*, not of whole transactions.

What a session sees in a statement is the last committed state with its own
changes on top, whatever the other sessions are in the middle of, which is read-committed
isolation. A statement that locks rows fires only when no other session
holds them, and then sees the state as it is at that moment, which is what
`SELECT … FOR UPDATE` returns after waiting.

A session may close at any time, which covers a rollback after an error, a crash, a lost
connection and a `SKIP LOCKED` that came back empty.

The machine also carries a condition on commits, `Machine.allows`. A machine whose condition
is always true is the system as it is; restricting it singles out the runs in which every
commit met the condition, where the condition may speak of what the session's statements
saw (`Session.seen`) and of the state it commits onto.
-/

namespace Sql

variable {D K ε ρ σ ι : Type}

/-- The programs of the clients, and the commits that are let through. -/
structure Machine (D K ε ρ σ : Type) where
  /-- The transaction a client runs. -/
  code : σ → Tx D K ε ρ
  /-- What a commit of the client may depend on: the states its statements saw, the latest
  first, and the state it commits onto. -/
  allows : σ → List D → D → Prop

/-- The machine without a condition on commits. -/
def Machine.ofCode (code : σ → Tx D K ε ρ) : Machine D K ε ρ σ := ⟨code, fun _ _ _ => True⟩

/-- A session in the middle of its transaction. -/
structure Session (D K ε ρ σ : Type) where
  /-- Who runs it. -/
  client : σ
  /-- What is left of the program. -/
  prog : Tx D K ε ρ
  /-- Its uncommitted changes, as a function of the committed state. -/
  pending : D → D
  /-- The rows it has locked. -/
  held : List K
  /-- The states its statements saw, the latest first. -/
  seen : List D

/-- A session that has not run a statement yet. -/
def Machine.fresh (M : Machine D K ε ρ σ) (c : σ) : Session D K ε ρ σ :=
  ⟨c, M.code c, id, [], []⟩

/-- The committed state and the open sessions. -/
structure Config (D K ε ρ σ ι : Type) where
  /-- The committed state. -/
  db : D
  /-- The open sessions. -/
  session : ι → Option (Session D K ε ρ σ)

namespace Config

/-- The configuration without sessions. -/
def idle (d : D) : Config D K ε ρ σ ι := ⟨d, fun _ => none⟩

/-- No session other than `i` has locked the row `k`. -/
def Free (C : Config D K ε ρ σ ι) (i : ι) (k : K) : Prop :=
  ∀ j s, j ≠ i → C.session j = some s → k ∉ s.held

variable [DecidableEq ι]

/-- Replace what runs in slot `i`. -/
def put (C : Config D K ε ρ σ ι) (i : ι) (s : Option (Session D K ε ρ σ)) :
    Config D K ε ρ σ ι :=
  { C with session := Function.update C.session i s }

@[simp] theorem put_db (C : Config D K ε ρ σ ι) (i : ι) (s : Option (Session D K ε ρ σ)) :
    (C.put i s).db = C.db := rfl

theorem put_session (C : Config D K ε ρ σ ι) (i j : ι) (s : Option (Session D K ε ρ σ)) :
    (C.put i s).session j = if j = i then s else C.session j :=
  Function.update_apply C.session i s j

end Config

/-- A session takes a step. A commit is labelled with the client and its result, everything
else with nothing. -/
inductive Step [DecidableEq ι] (M : Machine D K ε ρ σ) :
    Config D K ε ρ σ ι → Option (σ × ρ) → Config D K ε ρ σ ι → Prop
  /-- A client opens a session. -/
  | begin {C : Config D K ε ρ σ ι} {i : ι} (c : σ) (h : C.session i = none) :
      Step M C none (C.put i (some (M.fresh c)))
  /-- A session runs a query, once it can have the rows the query locks. -/
  | stmt {C : Config D K ε ρ σ ι} {i : ι} {s : Session D K ε ρ σ} {keys : D → List K}
      {next : D → Tx D K ε ρ} (h : C.session i = some s) (hp : s.prog = .stmt keys next)
      (hfree : ∀ k ∈ keys (s.pending C.db), C.Free i k) :
      Step M C none (C.put i (some
        { s with
          prog := next (s.pending C.db)
          held := keys (s.pending C.db) ++ s.held
          seen := s.pending C.db :: s.seen }))
  /-- A session changes its own view. -/
  | write {C : Config D K ε ρ σ ι} {i : ι} {s : Session D K ε ρ σ} {f : D → D}
      {next : Tx D K ε ρ} (h : C.session i = some s) (hp : s.prog = .write f next) :
      Step M C none (C.put i (some
        { s with prog := next, pending := fun d => f (s.pending d) }))
  /-- A session commits. -/
  | commit {C : Config D K ε ρ σ ι} {i : ι} {s : Session D K ε ρ σ} {a : ρ}
      (h : C.session i = some s) (hp : s.prog = .pure a)
      (hallow : M.allows s.client s.seen C.db) :
      Step M C (some (s.client, a)) { C.put i none with db := s.pending C.db }
  /-- A session ends without a commit. -/
  | close {C : Config D K ε ρ σ ι} {i : ι} {s : Session D K ε ρ σ}
      (h : C.session i = some s) : Step M C none (C.put i none)

/-- Some session takes a step. -/
def Steps [DecidableEq ι] (M : Machine D K ε ρ σ) (C C' : Config D K ε ρ σ ι) : Prop :=
  ∃ l, Step M C l C'

/-- What can be reached from the idle configuration over a database. -/
def Reachable [DecidableEq ι] (M : Machine D K ε ρ σ) (d : D)
    (C : Config D K ε ρ σ ι) : Prop :=
  Relation.ReflTransGen (Steps M) (Config.idle d) C

/-- Only a commit changes the committed state. -/
theorem Step.db_eq [DecidableEq ι] {M : Machine D K ε ρ σ} {C C' : Config D K ε ρ σ ι}
    (h : Step M C none C') : C'.db = C.db := by
  generalize hl : (none : Option (σ × ρ)) = l at h
  cases h with
  | begin c h => rfl
  | stmt h hp hfree => rfl
  | write h hp => rfl
  | commit h hp hallow => exact absurd hl (by simp)
  | close h => rfl

end Sql
