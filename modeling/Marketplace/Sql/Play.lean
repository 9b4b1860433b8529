import Marketplace.Sql.Sessions

/-!
# Playing a run of sessions

`Machine.move` lets one session take its next step and `Machine.play` a list of such moves, one after
the other. What is played is reachable (`Machine.play_reaches`), so a run on fixed inputs, in which
transactions overtake each other at chosen statements, is a computation.
-/

namespace Sql

variable {D K ε ρ σ ι : Type}

/-- A move of a run. -/
inductive Move (σ ι : Type)
  | begin (i : ι) (c : σ)
  /-- The next query or write, or the commit. -/
  | step (i : ι)
  | close (i : ι)

namespace Machine

variable [DecidableEq ι] [Fintype ι] [DecidableEq K]

/-- No other session holds any of the rows. -/
def canLock (C : Config D K ε ρ σ ι) (i : ι) (keys : List K) : Bool :=
  decide (∀ j, j ≠ i → (C.session j).all fun s => keys.all fun k => k ∉ s.held)

theorem free_of_canLock {C : Config D K ε ρ σ ι} {i : ι} {keys : List K}
    (h : canLock C i keys = true) : ∀ k ∈ keys, C.Free i k := by
  intro k hk j s hj hs
  have hall := of_decide_eq_true h j hj
  rw [hs, Option.all_some, List.all_eq_true] at hall
  exact of_decide_eq_true (hall k hk)

/-- One move, if it is possible and `ok` lets it through, with the label of the step. -/
def move (M : Machine D K ε ρ σ) (ok : σ → List D → D → Bool) (C : Config D K ε ρ σ ι) :
    Move σ ι → Option (Option (σ × ρ) × Config D K ε ρ σ ι)
  | .begin i c => if (C.session i).isNone then some (none, C.put i (some (M.fresh c))) else none
  | .step i =>
    match C.session i with
    | none => none
    | some s =>
      match s.prog with
      | .stmt keys next =>
        if canLock C i (keys (s.pending C.db)) = true then
          some (none, C.put i (some
            { s with
              prog := next (s.pending C.db)
              held := keys (s.pending C.db) ++ s.held
              seen := s.pending C.db :: s.seen }))
        else none
      | .write f next =>
        some (none, C.put i (some { s with prog := next, pending := fun d => f (s.pending d) }))
      | .pure a =>
        if ok s.client s.seen C.db = true then
          some (some (s.client, a), { C.put i none with db := s.pending C.db })
        else none
      | .throw _ => none
  | .close i => if (C.session i).isSome then some (none, C.put i none) else none

variable {M : Machine D K ε ρ σ} {ok : σ → List D → D → Bool}

theorem move_step (hok : ∀ c s d, ok c s d = true → M.allows c s d) {C C' : Config D K ε ρ σ ι}
    {m : Move σ ι} {l : Option (σ × ρ)} (h : M.move ok C m = some (l, C')) : Step M C l C' := by
  cases m with
  | begin i c =>
    simp only [move, Option.ite_none_right_eq_some, Option.isNone_iff_eq_none, Option.some.injEq,
      Prod.mk.injEq] at h
    obtain ⟨hi, rfl, rfl⟩ := h
    exact .begin c hi
  | step i =>
    rcases hi : C.session i with _ | s
    · simp [move, hi] at h
    rcases hp : s.prog with a | e | ⟨keys, next⟩ | ⟨f, next⟩
    all_goals simp only [move, hi, hp] at h
    · rw [Option.ite_none_right_eq_some, Option.some.injEq, Prod.mk.injEq] at h
      obtain ⟨hallow, rfl, rfl⟩ := h
      exact .commit hi hp (hok _ _ _ hallow)
    · cases h
    · rw [Option.ite_none_right_eq_some, Option.some.injEq, Prod.mk.injEq] at h
      obtain ⟨hfree, rfl, rfl⟩ := h
      exact .stmt hi hp (free_of_canLock hfree)
    · rw [Option.some.injEq, Prod.mk.injEq] at h
      obtain ⟨rfl, rfl⟩ := h
      exact .write hi hp
  | close i =>
    simp only [move, Option.ite_none_right_eq_some, Option.isSome_iff_exists, Option.some.injEq,
      Prod.mk.injEq] at h
    obtain ⟨⟨s, hi⟩, rfl, rfl⟩ := h
    exact .close hi

/-- A list of moves, one after the other. -/
def play (M : Machine D K ε ρ σ) (ok : σ → List D → D → Bool) :
    Config D K ε ρ σ ι → List (Move σ ι) → Option (Config D K ε ρ σ ι)
  | C, [] => some C
  | C, m :: ms => (M.move ok C m).bind fun r => play M ok r.2 ms

/-- What commits has been let through. -/
theorem ok_of_move {C C' : Config D K ε ρ σ ι} {m : Move σ ι} {l : Option (σ × ρ)}
    (h : M.move ok C m = some (l, C')) : ∀ r ∈ l, ∃ seen, ok r.1 seen C.db = true := by
  rintro r rfl
  cases m with
  | begin i c => simp [move] at h
  | step i =>
    rcases hi : C.session i with _ | s
    · simp [move, hi] at h
    rcases hp : s.prog with a | e | ⟨keys, next⟩ | ⟨f, next⟩
    all_goals simp only [move, hi, hp] at h
    · rw [Option.ite_none_right_eq_some, Option.some.injEq, Prod.mk.injEq] at h
      obtain ⟨hallow, hr, -⟩ := h
      obtain rfl := Option.some.inj hr
      exact ⟨s.seen, hallow⟩
    · cases h
    · simp at h
    · simp at h
  | close i => simp [move] at h

/-- What is played is a run whose commits have what `ok` asks of them. -/
theorem play_run {Q : σ → D → Prop} (hok : ∀ c s d, ok c s d = true → M.allows c s d ∧ Q c d)
    {C C' : Config D K ε ρ σ ι} {ms : List (Move σ ι)} (h : M.play ok C ms = some C') :
    Relation.ReflTransGen (fun C C' => ∃ l, Step M C l C' ∧ ∀ r ∈ l, Q r.1 C.db) C C' := by
  induction ms generalizing C with
  | nil =>
    obtain rfl := Option.some.inj h
    exact .refl
  | cons m ms ih =>
    obtain ⟨⟨l, C₁⟩, h₁, h₂⟩ := Option.bind_eq_some_iff.mp h
    refine .head ⟨l, move_step (fun c s d h => (hok c s d h).1) h₁, fun r hr => ?_⟩ (ih h₂)
    obtain ⟨seen, hseen⟩ := ok_of_move h₁ r hr
    exact (hok _ _ _ hseen).2

/-- **What is played is reached.** -/
theorem play_reaches (hok : ∀ c s d, ok c s d = true → M.allows c s d) {C C' : Config D K ε ρ σ ι}
    {ms : List (Move σ ι)} (h : M.play ok C ms = some C') :
    Relation.ReflTransGen (Steps M) C C' := by
  induction ms generalizing C with
  | nil =>
    obtain rfl := Option.some.inj h
    exact .refl
  | cons m ms ih =>
    obtain ⟨⟨l, C₁⟩, h₁, h₂⟩ := Option.bind_eq_some_iff.mp h
    exact .head ⟨l, move_step hok h₁⟩ (ih h₂)

/-- A run whose last state has a property that can be decided. -/
theorem reaches_of_play (ok : σ → List D → D → Bool) (ms : List (Move σ ι)) {P : D → Prop}
    [DecidablePred P] (hok : ∀ c s d, ok c s d = true → M.allows c s d) {d : D}
    (h : ((M.play ok (Config.idle d : Config D K ε ρ σ ι) ms).map fun C => decide (P C.db)) =
      some true) :
    ∃ C : Config D K ε ρ σ ι, Reachable M d C ∧ P C.db := by
  obtain ⟨C, hC, hP⟩ := Option.map_eq_some_iff.mp h
  exact ⟨C, play_reaches hok hC, of_decide_eq_true hP⟩

/-- A run after which no session is open, and whose last state has a property that can be decided. -/
theorem settles_of_play (ok : σ → List D → D → Bool) (ms : List (Move σ ι)) {P : D → Prop}
    [DecidablePred P] (hok : ∀ c s d, ok c s d = true → M.allows c s d) {d : D}
    (h : ((M.play ok (Config.idle d : Config D K ε ρ σ ι) ms).map fun C =>
      decide ((∀ i, (C.session i).isNone = true) ∧ P C.db)) = some true) :
    ∃ C : Config D K ε ρ σ ι, Reachable M d C ∧ (∀ i, C.session i = none) ∧ P C.db := by
  obtain ⟨C, hC, h⟩ := Option.map_eq_some_iff.mp h
  obtain ⟨hidle, hP⟩ := of_decide_eq_true h
  exact ⟨C, play_reaches hok hC, fun i => Option.isNone_iff_eq_none.mp (hidle i), hP⟩

/-- A run whose last step is a commit, with a property of the commit that can be decided. -/
theorem commits_of_play (ok : σ → List D → D → Bool) (ms : List (Move σ ι)) (m : Move σ ι)
    {P : σ → ρ → D → D → Prop} [∀ c a d d', Decidable (P c a d d')]
    (hok : ∀ c s d, ok c s d = true → M.allows c s d) {d : D}
    (h : ((M.play ok (Config.idle d : Config D K ε ρ σ ι) ms).bind fun C =>
      (M.move ok C m).bind fun r => r.1.map fun l => decide (P l.1 l.2 C.db r.2.db)) = some true) :
    ∃ (C C' : Config D K ε ρ σ ι) (c : σ) (a : ρ), Reachable M d C ∧ Step M C (some (c, a)) C' ∧
      P c a C.db C'.db := by
  obtain ⟨C, hC, h⟩ := Option.bind_eq_some_iff.mp h
  obtain ⟨⟨l, C'⟩, hm, h⟩ := Option.bind_eq_some_iff.mp h
  obtain ⟨⟨c, a⟩, rfl, hP⟩ := Option.map_eq_some_iff.mp h
  exact ⟨C, C', c, a, play_reaches hok hC, move_step hok hm, of_decide_eq_true hP⟩

/-- A commit, and a run after it whose commits have what `ok'` asks of them. -/
theorem runs_of_play (ok ok' : σ → List D → D → Bool) (ms : List (Move σ ι)) (m : Move σ ι) (ms' : List (Move σ ι))
    {Q : σ → D → Prop} {P : σ → ρ → D → D → D → Prop} [∀ c a d d' d'', Decidable (P c a d d' d'')]
    (hok : ∀ c s d, ok c s d = true → M.allows c s d)
    (hok' : ∀ c s d, ok' c s d = true → M.allows c s d ∧ Q c d) {d : D}
    (h : ((M.play ok (Config.idle d : Config D K ε ρ σ ι) ms).bind fun C =>
      (M.move ok C m).bind fun r => r.1.bind fun l =>
        (M.play ok' r.2 ms').map fun C' => decide (P l.1 l.2 C.db r.2.db C'.db)) = some true) :
    ∃ (C C₁ C₂ : Config D K ε ρ σ ι) (c : σ) (a : ρ), Reachable M d C ∧ Step M C (some (c, a)) C₁ ∧
      Relation.ReflTransGen (fun C C' => ∃ l, Step M C l C' ∧ ∀ r ∈ l, Q r.1 C.db) C₁ C₂ ∧
        P c a C.db C₁.db C₂.db := by
  obtain ⟨C, hC, h⟩ := Option.bind_eq_some_iff.mp h
  obtain ⟨⟨l, C₁⟩, hm, h⟩ := Option.bind_eq_some_iff.mp h
  obtain ⟨⟨c, a⟩, rfl, h⟩ := Option.bind_eq_some_iff.mp h
  obtain ⟨C₂, hC₂, hP⟩ := Option.map_eq_some_iff.mp h
  exact ⟨C, C₁, C₂, c, a, play_reaches hok hC, move_step hok hm, play_run hok' hC₂, of_decide_eq_true hP⟩

/-- A commit, and another one later in the run. -/
theorem later_of_play (ok : σ → List D → D → Bool) (ms : List (Move σ ι)) (m : Move σ ι) (ms' : List (Move σ ι))
    (m' : Move σ ι) {P : σ → ρ → σ → D → D → Prop} [∀ c a c' d d', Decidable (P c a c' d d')]
    (hok : ∀ c s d, ok c s d = true → M.allows c s d) {d : D}
    (h : ((M.play ok (Config.idle d : Config D K ε ρ σ ι) ms).bind fun C =>
      (M.move ok C m).bind fun r => r.1.bind fun l =>
        (M.play ok r.2 ms').bind fun C' => (M.move ok C' m').bind fun r' => r'.1.map fun l' =>
          decide (P l.1 l.2 l'.1 C'.db r'.2.db)) = some true) :
    ∃ (C C₁ C₂ C₃ : Config D K ε ρ σ ι) (c : σ) (a : ρ) (c' : σ) (a' : ρ), Reachable M d C ∧
      Step M C (some (c, a)) C₁ ∧ Relation.ReflTransGen (Steps M) C₁ C₂ ∧ Step M C₂ (some (c', a')) C₃ ∧
        P c a c' C₂.db C₃.db := by
  obtain ⟨C, hC, h⟩ := Option.bind_eq_some_iff.mp h
  obtain ⟨⟨l, C₁⟩, hm, h⟩ := Option.bind_eq_some_iff.mp h
  obtain ⟨⟨c, a⟩, rfl, h⟩ := Option.bind_eq_some_iff.mp h
  obtain ⟨C₂, hC₂, h⟩ := Option.bind_eq_some_iff.mp h
  obtain ⟨⟨l', C₃⟩, hm', h⟩ := Option.bind_eq_some_iff.mp h
  obtain ⟨⟨c', a'⟩, rfl, hP⟩ := Option.map_eq_some_iff.mp h
  exact ⟨C, C₁, C₂, C₃, c, a, c', a', play_reaches hok hC, move_step hok hm, play_reaches hok hC₂, move_step hok hm',
    of_decide_eq_true hP⟩

end Machine

end Sql
