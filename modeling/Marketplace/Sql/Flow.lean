import Marketplace.Sql.Sessions

/-!
# Programs that also talk to the outside

A background task or a job is more than a transaction: it calls other systems on the way, it commits
and goes on in a new transaction, it catches an error and rolls back. `Flow` is `Tx` with three more
kinds of step.

* `Flow.call act next` is a call: the outside picks an answer `a` for which `act a d` is possible, and
  what the call does is there for everybody at once and survives a rollback. A row written in a
  session of its own is a call, too.
* `Flow.commit next` and `Flow.rollback next` end a transaction and begin the next one.

`FlowStep` lets every task take its next step in any order. A task may disappear at any time, which is
what a crash is: nothing it had pending is left, everything it called is.

`FlowMachine.play` runs a list of moves, and `FlowMachine.play_reaches` says that what it comes to is
reachable; runs on fixed inputs are computed with it.
-/

namespace Sql

/-- A task over databases `D` with row locks `K` and answers `A` from outside, failing with `ε`,
returning `α`. -/
inductive Flow (D K A ε α : Type) : Type
  | pure (a : α) : Flow D K A ε α
  | throw (e : ε) : Flow D K A ε α
  /-- Take the rows `keys`, then read. -/
  | query (keys : D → List K) (next : D → Flow D K A ε α) : Flow D K A ε α
  /-- Change the transaction's own view. -/
  | write (f : D → D) (next : Flow D K A ε α) : Flow D K A ε α
  /-- Call the outside: with the answer `a` the call does what `act a` says. -/
  | call (act : A → D → Option D) (next : A → Flow D K A ε α) : Flow D K A ε α
  /-- Commit and go on in a new transaction. -/
  | commit (next : Flow D K A ε α) : Flow D K A ε α
  /-- Roll back and go on in a new transaction. -/
  | rollback (next : Flow D K A ε α) : Flow D K A ε α

namespace Flow

variable {D K A ε α β : Type}

/-- Sequential composition. -/
def bind : Flow D K A ε α → (α → Flow D K A ε β) → Flow D K A ε β
  | .pure a, f => f a
  | .throw e, _ => .throw e
  | .query keys next, f => .query keys fun d => (next d).bind f
  | .write g next, f => .write g (next.bind f)
  | .call act next, f => .call act fun a => (next a).bind f
  | .commit next, f => .commit (next.bind f)
  | .rollback next, f => .rollback (next.bind f)

instance : Monad (Flow D K A ε) where
  pure := Flow.pure
  bind := Flow.bind

/-- `try … except`: what to do about an error. -/
def handle : Flow D K A ε α → (ε → Flow D K A ε α) → Flow D K A ε α
  | .pure a, _ => .pure a
  | .throw e, h => h e
  | .query keys next, h => .query keys fun d => (next d).handle h
  | .write g next, h => .write g (next.handle h)
  | .call act next, h => .call act fun a => (next a).handle h
  | .commit next, h => .commit (next.handle h)
  | .rollback next, h => .rollback (next.handle h)

/-- A part of a transaction that calls nothing. -/
def ofTx : Tx D K ε α → Flow D K A ε α
  | .pure a => .pure a
  | .throw e => .throw e
  | .stmt keys next => .query keys fun d => ofTx (next d)
  | .write f next => .write f (ofTx next)

/-- `SELECT` without a lock. -/
def read (f : D → α) : Flow D K A ε α := .query (fun _ => []) fun d => .pure (f d)

/-- `SELECT … FOR UPDATE` of one row. -/
def lock (k : K) (f : D → α) : Flow D K A ε α := .query (fun _ => [k]) fun d => .pure (f d)

/-- A call, for its answer. -/
def ask (act : A → D → Option D) : Flow D K A ε A := .call act .pure

/-- `db.commit()`. -/
def save : Flow D K A ε Unit := .commit (.pure ())

/-- `db.rollback()`. -/
def undo : Flow D K A ε Unit := .rollback (.pure ())

/-- One step for every element of a list. -/
def forEach : List α → (α → Flow D K A ε Unit) → Flow D K A ε Unit
  | [], _ => .pure ()
  | a :: as, f => (f a).bind fun _ => forEach as f

end Flow

/-! ### Tasks side by side -/

variable {D K A ε σ ι : Type}

/-- What a condition on steps can tell apart. -/
inductive FlowEvent (A : Type)
  | query
  | call (a : A)
  | commit

/-- The programs of the clients, and the steps that are let through. -/
structure FlowMachine (D K A ε σ : Type) where
  code : σ → Flow D K A ε Unit
  /-- What a step of the client may depend on: the states its transaction has seen, the latest first,
  and the state it finds. -/
  allows : σ → FlowEvent A → List D → D → Prop

/-- The machine without a condition on steps. -/
def FlowMachine.ofCode (code : σ → Flow D K A ε Unit) : FlowMachine D K A ε σ :=
  ⟨code, fun _ _ _ _ => True⟩

/-- A task in the middle of its program. -/
structure Task (D K A ε σ : Type) where
  client : σ
  prog : Flow D K A ε Unit
  /-- Its uncommitted changes, as a function of the committed state. -/
  pending : D → D
  held : List K
  /-- The states its transaction has seen, the latest first. -/
  seen : List D

/-- A task that has not begun. -/
def FlowMachine.fresh (M : FlowMachine D K A ε σ) (c : σ) : Task D K A ε σ :=
  ⟨c, M.code c, id, [], []⟩

/-- The committed state and the running tasks. -/
structure FlowConfig (D K A ε σ ι : Type) where
  db : D
  task : ι → Option (Task D K A ε σ)

namespace FlowConfig

/-- The configuration without tasks. -/
def idle (d : D) : FlowConfig D K A ε σ ι := ⟨d, fun _ => none⟩

/-- The rows a task has locked. -/
def held (C : FlowConfig D K A ε σ ι) (i : ι) : List K := ((C.task i).map Task.held).getD []

theorem held_of_task {C : FlowConfig D K A ε σ ι} {i : ι} {t : Task D K A ε σ}
    (h : C.task i = some t) : C.held i = t.held := by
  rw [held, h, Option.map_some, Option.getD_some]

/-- No task other than `i` has locked the row `k`. -/
def Free (C : FlowConfig D K A ε σ ι) (i : ι) (k : K) : Prop := ∀ j, j ≠ i → k ∉ C.held j

instance [Fintype ι] [DecidableEq ι] [DecidableEq K] (C : FlowConfig D K A ε σ ι) (i : ι) (k : K) :
    Decidable (C.Free i k) := by
  unfold Free
  infer_instance

variable [DecidableEq ι]

/-- Replace what runs in slot `i`. -/
def put (C : FlowConfig D K A ε σ ι) (i : ι) (t : Option (Task D K A ε σ)) :
    FlowConfig D K A ε σ ι :=
  { C with task := Function.update C.task i t }

theorem put_task (C : FlowConfig D K A ε σ ι) (i j : ι) (t : Option (Task D K A ε σ)) :
    (C.put i t).task j = if j = i then t else C.task j :=
  Function.update_apply C.task i t j

end FlowConfig

/-- A task takes a step. -/
inductive FlowStep [DecidableEq ι] (M : FlowMachine D K A ε σ) :
    FlowConfig D K A ε σ ι → FlowConfig D K A ε σ ι → Prop
  | begin {C : FlowConfig D K A ε σ ι} {i : ι} (c : σ) (h : C.task i = none) :
      FlowStep M C (C.put i (some (M.fresh c)))
  /-- A query, once the task can have the rows it locks. -/
  | query {C : FlowConfig D K A ε σ ι} {i : ι} {t : Task D K A ε σ} {keys : D → List K}
      {next : D → Flow D K A ε Unit} (h : C.task i = some t) (hp : t.prog = .query keys next)
      (hallow : M.allows t.client .query t.seen C.db)
      (hfree : ∀ k ∈ keys (t.pending C.db), C.Free i k) :
      FlowStep M C (C.put i (some
        { t with
          prog := next (t.pending C.db)
          held := keys (t.pending C.db) ++ t.held
          seen := t.pending C.db :: t.seen }))
  | write {C : FlowConfig D K A ε σ ι} {i : ι} {t : Task D K A ε σ} {f : D → D}
      {next : Flow D K A ε Unit} (h : C.task i = some t) (hp : t.prog = .write f next) :
      FlowStep M C (C.put i (some { t with prog := next, pending := fun d => f (t.pending d) }))
  /-- A call, with one of the answers that are possible. -/
  | call {C : FlowConfig D K A ε σ ι} {i : ι} {t : Task D K A ε σ} {act : A → D → Option D}
      {next : A → Flow D K A ε Unit} {a : A} {d : D} (h : C.task i = some t)
      (hp : t.prog = .call act next) (hallow : M.allows t.client (.call a) t.seen C.db)
      (hact : act a C.db = some d) :
      FlowStep M C { C.put i (some { t with prog := next a }) with db := d }
  | commit {C : FlowConfig D K A ε σ ι} {i : ι} {t : Task D K A ε σ} {next : Flow D K A ε Unit}
      (h : C.task i = some t) (hp : t.prog = .commit next)
      (hallow : M.allows t.client .commit t.seen C.db) :
      FlowStep M C
        { C.put i (some ⟨t.client, next, id, [], []⟩) with db := t.pending C.db }
  | rollback {C : FlowConfig D K A ε σ ι} {i : ι} {t : Task D K A ε σ} {next : Flow D K A ε Unit}
      (h : C.task i = some t) (hp : t.prog = .rollback next) :
      FlowStep M C (C.put i (some ⟨t.client, next, id, [], []⟩))
  /-- A task ends, or its process dies. -/
  | close {C : FlowConfig D K A ε σ ι} {i : ι} {t : Task D K A ε σ} (h : C.task i = some t) :
      FlowStep M C (C.put i none)

/-- What can be reached from the idle configuration over a database. -/
def FlowReachable [DecidableEq ι] (M : FlowMachine D K A ε σ) (d : D)
    (C : FlowConfig D K A ε σ ι) : Prop :=
  Relation.ReflTransGen (FlowStep M) (FlowConfig.idle d) C

section

variable [DecidableEq ι] {M : FlowMachine D K A ε σ} {C : FlowConfig D K A ε σ ι} {i : ι}

theorem flowStep_begin (c : σ) (h : C.task i = none) :
    ∃ C', FlowStep M C C' ∧ C'.db = C.db ∧ C'.task i = some (M.fresh c) :=
  ⟨_, .begin c h, rfl, (C.put_task i i _).trans (if_pos rfl)⟩

/-- A task that reads without a lock. -/
theorem flowStep_read {α : Type} {f : D → α} {g : α → Flow D K A ε Unit} {t : Task D K A ε σ}
    (h : C.task i = some t) (hp : t.prog = Flow.read f >>= g)
    (hallow : M.allows t.client .query t.seen C.db) :
    ∃ C', FlowStep M C C' ∧ C'.db = C.db ∧ C'.task i = some
      { t with prog := g (f (t.pending C.db)), seen := t.pending C.db :: t.seen } :=
  ⟨_, .query h hp hallow fun _ hk => absurd hk List.not_mem_nil, rfl,
    (C.put_task i i _).trans (if_pos rfl)⟩

/-- A task that calls, and whose process dies before it has heard the answer. -/
theorem flowStep_call_dies {t : Task D K A ε σ} {act : A → D → Option D} {next : A → Flow D K A ε Unit}
    {a : A} {d : D} (h : C.task i = some t) (hp : t.prog = .call act next)
    (hallow : M.allows t.client (.call a) t.seen C.db) (hact : act a C.db = some d) :
    ∃ C', Relation.ReflTransGen (FlowStep M) C C' ∧ C'.db = d ∧ C'.task i = none := by
  have hcall := FlowStep.call h hp hallow hact
  have htask : ({ C.put i (some { t with prog := next a }) with db := d } :
      FlowConfig D K A ε σ ι).task i = some { t with prog := next a } :=
    (C.put_task i i _).trans (if_pos rfl)
  exact ⟨_, (Relation.ReflTransGen.single hcall).tail (.close htask), rfl,
    (FlowConfig.put_task _ i i _).trans (if_pos rfl)⟩

/-- A task that gives up its transaction. -/
theorem flowStep_rollback {t : Task D K A ε σ} {next : Flow D K A ε Unit} (h : C.task i = some t)
    (hp : t.prog = .rollback next) :
    ∃ C', FlowStep M C C' ∧ C'.db = C.db ∧ C'.task i = some ⟨t.client, next, id, [], []⟩ :=
  ⟨_, .rollback h hp, rfl, (C.put_task i i _).trans (if_pos rfl)⟩

end

/-! ### Playing a run -/

/-- A move of a run: who steps, and what the outside answers. -/
inductive FlowMove (A σ ι : Type)
  | begin (i : ι) (c : σ)
  /-- The next query, write, commit or rollback. -/
  | step (i : ι)
  | call (i : ι) (a : A)
  | close (i : ι)

namespace FlowMachine

variable [DecidableEq ι] [Fintype ι] [DecidableEq K]

/-- One move, if it is possible and `ok` lets it through. -/
def move (M : FlowMachine D K A ε σ) (ok : σ → FlowEvent A → List D → D → Bool)
    (C : FlowConfig D K A ε σ ι) : FlowMove A σ ι → Option (FlowConfig D K A ε σ ι)
  | .begin i c => if (C.task i).isNone then some (C.put i (some (M.fresh c))) else none
  | .step i =>
    match C.task i with
    | none => none
    | some t =>
      match t.prog with
      | .query keys next =>
        if ok t.client .query t.seen C.db = true ∧ ∀ k ∈ keys (t.pending C.db), C.Free i k then
          some (C.put i (some
            { t with
              prog := next (t.pending C.db)
              held := keys (t.pending C.db) ++ t.held
              seen := t.pending C.db :: t.seen }))
        else none
      | .write f next =>
        some (C.put i (some { t with prog := next, pending := fun d => f (t.pending d) }))
      | .commit next =>
        if ok t.client .commit t.seen C.db = true then
          some { C.put i (some ⟨t.client, next, id, [], []⟩) with db := t.pending C.db }
        else none
      | .rollback next => some (C.put i (some ⟨t.client, next, id, [], []⟩))
      | _ => none
  | .call i a =>
    match C.task i with
    | none => none
    | some t =>
      match t.prog with
      | .call act next =>
        if ok t.client (.call a) t.seen C.db = true then
          (act a C.db).map fun d => { C.put i (some { t with prog := next a }) with db := d }
        else none
      | _ => none
  | .close i => if (C.task i).isSome then some (C.put i none) else none

variable {M : FlowMachine D K A ε σ} {ok : σ → FlowEvent A → List D → D → Bool}

theorem move_step (hok : ∀ c e s d, ok c e s d = true → M.allows c e s d)
    {C C' : FlowConfig D K A ε σ ι} {m : FlowMove A σ ι} (h : M.move ok C m = some C') :
    FlowStep M C C' := by
  cases m with
  | begin i c =>
    simp only [move, Option.ite_none_right_eq_some, Option.isNone_iff_eq_none,
      Option.some.injEq] at h
    obtain ⟨hi, rfl⟩ := h
    exact .begin c hi
  | step i =>
    rcases hi : C.task i with _ | t
    · simp [move, hi] at h
    rcases hp : t.prog with a | e | ⟨keys, next⟩ | ⟨f, next⟩ | ⟨act, next⟩ | next | next
    all_goals simp only [move, hi, hp] at h
    · cases h
    · cases h
    · rw [Option.ite_none_right_eq_some] at h
      obtain ⟨⟨hallow, hfree⟩, h⟩ := h
      obtain rfl := Option.some.inj h
      exact .query hi hp (hok _ _ _ _ hallow) hfree
    · obtain rfl := Option.some.inj h
      exact .write hi hp
    · cases h
    · rw [Option.ite_none_right_eq_some] at h
      obtain ⟨hallow, h⟩ := h
      obtain rfl := Option.some.inj h
      exact .commit hi hp (hok _ _ _ _ hallow)
    · obtain rfl := Option.some.inj h
      exact .rollback hi hp
  | call i a =>
    rcases hi : C.task i with _ | t
    · simp [move, hi] at h
    rcases hp : t.prog with a | e | ⟨keys, next⟩ | ⟨f, next⟩ | ⟨act, next⟩ | next | next
    all_goals simp only [move, hi, hp] at h
    · cases h
    · cases h
    · cases h
    · cases h
    · rw [Option.ite_none_right_eq_some] at h
      obtain ⟨hallow, h⟩ := h
      obtain ⟨d, hd, rfl⟩ := Option.map_eq_some_iff.mp h
      exact .call hi hp (hok _ _ _ _ hallow) hd
    · cases h
    · cases h
  | close i =>
    simp only [move, Option.ite_none_right_eq_some, Option.isSome_iff_exists,
      Option.some.injEq] at h
    obtain ⟨⟨t, hi⟩, rfl⟩ := h
    exact .close hi

/-- A list of moves, one after the other. -/
def play (M : FlowMachine D K A ε σ) (ok : σ → FlowEvent A → List D → D → Bool) :
    FlowConfig D K A ε σ ι → List (FlowMove A σ ι) → Option (FlowConfig D K A ε σ ι)
  | C, [] => some C
  | C, m :: ms => (M.move ok C m).bind fun C' => play M ok C' ms

/-- **What is played is reached.** -/
theorem play_reaches (hok : ∀ c e s d, ok c e s d = true → M.allows c e s d)
    {C C' : FlowConfig D K A ε σ ι} {ms : List (FlowMove A σ ι)} (h : M.play ok C ms = some C') :
    Relation.ReflTransGen (FlowStep M) C C' := by
  induction ms generalizing C with
  | nil =>
    obtain rfl := Option.some.inj h
    exact .refl
  | cons m ms ih =>
    obtain ⟨C₁, h₁, h₂⟩ := Option.bind_eq_some_iff.mp h
    exact .head (move_step hok h₁) (ih h₂)

/-- A run whose last state has a property that can be decided. -/
theorem reaches_of_play (ok : σ → FlowEvent A → List D → D → Bool) (ms : List (FlowMove A σ ι))
    {P : D → Prop} [DecidablePred P] (hok : ∀ c e s d, ok c e s d = true → M.allows c e s d) {d : D}
    (h : ((M.play ok (FlowConfig.idle d : FlowConfig D K A ε σ ι) ms).map
      fun C => decide (P C.db)) = some true) :
    ∃ C : FlowConfig D K A ε σ ι, FlowReachable M d C ∧ P C.db := by
  obtain ⟨C, hC, hP⟩ := Option.map_eq_some_iff.mp h
  exact ⟨C, play_reaches hok hC, of_decide_eq_true hP⟩

end FlowMachine

end Sql
