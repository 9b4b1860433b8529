import Marketplace.Sql.Flow
import Marketplace.Sql.Rely

/-!
# Rely–guarantee reasoning about tasks

`Flow.wp` is for tasks what `Tx.wp` is for transactions. A call and a commit both change what the others
see, so at both a task owes what a commit of a transaction owes: the invariant is kept, and nothing
another task may rely on is changed. After a commit or a rollback a task starts again without locks.

An exception has a postcondition of its own (`X`), which is what `Flow.wp_handle` needs.
`FlowMachine.Correct.reachable` is the soundness theorem: if every client's program can be run under the
rely and the invariant, the invariant holds in every reachable state.
-/

namespace Sql

variable {D K A ε σ ι α β : Type}

/-- What a change of the committed state owes: the invariant, and whatever holders of other locks
rely on. -/
structure Owed (R : Rely D K) (I : D → Prop) (L : List K) (d d' : D) : Prop where
  inv : I d'
  guar : ∀ L', LocksDisjoint L L' → R.rel L' d d'

namespace Flow

/-- A postcondition: of the result, the pending change, the locks, the states seen and the committed
state. -/
abbrev Post (D K α : Type) : Type := α → (D → D) → List K → List D → D → Prop

variable (R : Rely D K) (I : D → Prop) (G : FlowEvent A → List D → D → Prop)

/-- The program, started with the pending change `w`, the locks `L` and the states `s` seen so far while
the committed state is `d`, never fails what it owes, and ends where `Q` holds or raises where `X`
does. `G` says which steps are let through. -/
def wp : Flow D K A ε α → Post D K α → Post D K ε → (D → D) → List K → List D → D → Prop
  | .pure a, Q, _, w, L, s, d => Q a w L s d
  | .throw e, _, X, w, L, s, d => X e w L s d
  | .query keys next, Q, X, w, L, s, d =>
      ∀ d', R.rel L d d' → I d' → G .query s d' →
        (next (w d')).wp Q X w (keys (w d') ++ L) (w d' :: s) d'
  | .write f next, Q, X, w, L, s, d => next.wp Q X (fun d => f (w d)) L s d
  | .call act next, Q, X, w, L, s, d =>
      ∀ d', R.rel L d d' → I d' → ∀ a d'', act a d' = some d'' → G (.call a) s d' →
        Owed R I L d' d'' ∧ (next a).wp Q X w L s d''
  | .commit next, Q, X, w, L, s, d =>
      ∀ d', R.rel L d d' → I d' → G .commit s d' →
        Owed R I L d' (w d') ∧ next.wp Q X id [] [] (w d')
  | .rollback next, Q, X, _, _, _, d => next.wp Q X id [] [] d

variable {R I G} {Q Q' : Post D K α} {X X' : Post D K ε} {w : D → D} {L : List K} {s : List D}
  {d d' : D}

theorem wp_mono {t : Flow D K A ε α} (h : t.wp R I G Q X w L s d)
    (hQ : ∀ a w L s d, Q a w L s d → Q' a w L s d)
    (hX : ∀ e w L s d, X e w L s d → X' e w L s d) : t.wp R I G Q' X' w L s d := by
  induction t generalizing w L s d with
  | pure a => exact hQ a w L s d h
  | throw e => exact hX e w L s d h
  | query keys next ih =>
    intro d' hd hI hG
    exact ih (w d') (h d' hd hI hG)
  | write f next ih => exact ih h
  | call act next ih =>
    intro d' hd hI a d'' hact hG
    obtain ⟨howed, hnext⟩ := h d' hd hI a d'' hact hG
    exact ⟨howed, ih a hnext⟩
  | commit next ih =>
    intro d' hd hI hG
    obtain ⟨howed, hnext⟩ := h d' hd hI hG
    exact ⟨howed, ih hnext⟩
  | rollback next ih => exact ih h

/-- The postcondition may be strengthened where the exception's stays. -/
theorem wp_imp {t : Flow D K A ε α} (h : t.wp R I G Q X w L s d)
    (hQ : ∀ a w L s d, Q a w L s d → Q' a w L s d) : t.wp R I G Q' X w L s d :=
  wp_mono h hQ fun _ _ _ _ _ => id

/-- **Sequential composition.** -/
theorem wp_bind {t : Flow D K A ε α} {f : α → Flow D K A ε β} {Q : Post D K β} :
    (t >>= f).wp R I G Q X w L s d ↔
      t.wp R I G (fun a w L s d => (f a).wp R I G Q X w L s d) X w L s d := by
  change (t.bind f).wp R I G Q X w L s d ↔ _
  induction t generalizing w L s d with
  | pure a => exact Iff.rfl
  | throw e => exact Iff.rfl
  | query keys next ih =>
    refine forall_congr' fun d' => forall_congr' fun _ => forall_congr' fun _ =>
      forall_congr' fun _ => ?_
    exact ih (w d')
  | write g next ih => exact ih
  | call act next ih =>
    refine forall_congr' fun d' => forall_congr' fun _ => forall_congr' fun _ =>
      forall_congr' fun a => forall_congr' fun d'' => forall_congr' fun _ => forall_congr' fun _ => ?_
    exact and_congr_right fun _ => ih a
  | commit next ih =>
    refine forall_congr' fun d' => forall_congr' fun _ => forall_congr' fun _ =>
      forall_congr' fun _ => ?_
    exact and_congr_right fun _ => ih
  | rollback next ih => exact ih

/-- **Catching an error.** -/
theorem wp_handle {t : Flow D K A ε α} {h : ε → Flow D K A ε α} :
    (t.handle h).wp R I G Q X w L s d ↔
      t.wp R I G Q (fun e w L s d => (h e).wp R I G Q X w L s d) w L s d := by
  induction t generalizing w L s d with
  | pure a => exact Iff.rfl
  | throw e => exact Iff.rfl
  | query keys next ih =>
    refine forall_congr' fun d' => forall_congr' fun _ => forall_congr' fun _ =>
      forall_congr' fun _ => ?_
    exact ih (w d')
  | write g next ih => exact ih
  | call act next ih =>
    refine forall_congr' fun d' => forall_congr' fun _ => forall_congr' fun _ =>
      forall_congr' fun a => forall_congr' fun d'' => forall_congr' fun _ => forall_congr' fun _ => ?_
    exact and_congr_right fun _ => ih a
  | commit next ih =>
    refine forall_congr' fun d' => forall_congr' fun _ => forall_congr' fun _ =>
      forall_congr' fun _ => ?_
    exact and_congr_right fun _ => ih
  | rollback next ih => exact ih

/-- What is owed from here on is owed as well after the others have moved on, if the postconditions
bear it. -/
theorem wp_stable {t : Flow D K A ε α} (hQ : Tx.Stable R Q) (hX : Tx.Stable R X)
    (h : t.wp R I G Q X w L s d) (hR : R.rel L d d') : t.wp R I G Q X w L s d' := by
  induction t generalizing w L s d d' with
  | pure a => exact hQ a w L s d d' h hR
  | throw e => exact hX e w L s d d' h hR
  | query keys next ih =>
    intro d'' hd hI hG
    exact h d'' (R.trans hR hd) hI hG
  | write f next ih => exact ih h hR
  | call act next ih =>
    intro d'' hd hI a d₁ hact hG
    exact h d'' (R.trans hR hd) hI a d₁ hact hG
  | commit next ih =>
    intro d'' hd hI hG
    exact h d'' (R.trans hR hd) hI hG
  | rollback next ih => exact ih h (R.anti (List.nil_subset L) hR)

/-- **While a task runs, the committed state moves as everybody may rely on**, by the others' steps and by
its own. -/
theorem wp_moves {t : Flow D K A ε α} (h : t.wp R I G Q X w L s d) {d₀ : D} (h₀ : R.rel [] d₀ d) :
    t.wp R I G (fun a w L s d => Q a w L s d ∧ R.rel [] d₀ d) X w L s d := by
  have hnil : ∀ {L d d'}, R.rel L d d' → R.rel [] d d' := fun h => R.anti (List.nil_subset _) h
  have howed : ∀ {L d d'}, Owed R I L d d' → R.rel [] d d' := fun h =>
    h.guar [] fun _ _ => List.not_mem_nil
  induction t generalizing w L s d with
  | pure a => exact ⟨h, h₀⟩
  | throw e => exact h
  | query keys next ih =>
    intro d' hd hI hG
    exact ih (w d') (h d' hd hI hG) (R.trans h₀ (hnil hd))
  | write f next ih => exact ih h h₀
  | call act next ih =>
    intro d' hd hI a d'' hact hG
    obtain ⟨hown, hnext⟩ := h d' hd hI a d'' hact hG
    exact ⟨hown, ih a hnext (R.trans h₀ (R.trans (hnil hd) (howed hown)))⟩
  | commit next ih =>
    intro d' hd hI hG
    obtain ⟨hown, hnext⟩ := h d' hd hI hG
    exact ⟨hown, ih hnext (R.trans h₀ (R.trans (hnil hd) (howed hown)))⟩
  | rollback next ih => exact ih h h₀

/-- **A part that is a transaction** owes nothing before the commit. -/
theorem wp_ofTx {t : Tx D K ε α} (h : t.wp R I Q w L s d) (hX : ∀ e w L s d, X e w L s d) :
    (ofTx t : Flow D K A ε α).wp R I G Q X w L s d := by
  induction t generalizing w L s d with
  | pure a => exact h
  | throw e => exact hX e w L s d
  | stmt keys next ih =>
    intro d' hd hI _
    exact ih (w d') (h d' hd hI)
  | write f next ih => exact ih h

/-! ### The statements -/

theorem wp_pure {a : α} :
    (Pure.pure a : Flow D K A ε α).wp R I G Q X w L s d ↔ Q a w L s d := Iff.rfl

theorem wp_read {f : D → α} : (read f : Flow D K A ε α).wp R I G Q X w L s d ↔
    ∀ d', R.rel L d d' → I d' → G .query s d' → Q (f (w d')) w L (w d' :: s) d' := Iff.rfl

theorem wp_lock {k : K} {f : D → α} : (lock k f : Flow D K A ε α).wp R I G Q X w L s d ↔
    ∀ d', R.rel L d d' → I d' → G .query s d' → Q (f (w d')) w (k :: L) (w d' :: s) d' := Iff.rfl

theorem wp_ask {act : A → D → Option D} {Q : Post D K A} :
    (ask act : Flow D K A ε A).wp R I G Q X w L s d ↔
      ∀ d', R.rel L d d' → I d' → ∀ a d'', act a d' = some d'' → G (.call a) s d' →
        Owed R I L d' d'' ∧ Q a w L s d'' := Iff.rfl

theorem wp_save {Q : Post D K Unit} :
    (save : Flow D K A ε Unit).wp R I G Q X w L s d ↔
      ∀ d', R.rel L d d' → I d' → G .commit s d' → Owed R I L d' (w d') ∧ Q () id [] [] (w d') :=
  Iff.rfl

theorem wp_undo {Q : Post D K Unit} :
    (undo : Flow D K A ε Unit).wp R I G Q X w L s d ↔ Q () id [] [] d := Iff.rfl

theorem wp_ite {p : Prop} [Decidable p] {t u : Flow D K A ε α} :
    (if p then t else u).wp R I G Q X w L s d ↔
      (p → t.wp R I G Q X w L s d) ∧ (¬p → u.wp R I G Q X w L s d) := by
  by_cases h : p <;> simp [h]

/-- **A loop** keeps what each of its rounds keeps. -/
theorem wp_forEach {J : (D → D) → List K → List D → D → Prop} {as : List α}
    {f : α → Flow D K A ε Unit} (h : J w L s d)
    (hstep : ∀ a ∈ as, ∀ w L s d, J w L s d → (f a).wp R I G (fun _ => J) X w L s d) :
    (forEach as f).wp R I G (fun _ => J) X w L s d := by
  induction as generalizing w L s d with
  | nil => exact h
  | cons a as ih =>
    refine wp_bind.mpr (wp_imp (hstep a List.mem_cons_self w L s d h) fun _ w L s d h => ?_)
    exact ih h fun b hb => hstep b (List.mem_cons_of_mem a hb)

end Flow

/-! ### State that is protected by locks

Often all a row lock protects is a part of the state: whoever does not hold the row leaves its
`view` alone. A task that holds the row then knows what it sees there, until it changes it itself. -/

section Views

variable {J : Type} {V : J → Type} (key : J → K) (view : ∀ j, D → V j)

/-- The others leave the views of the rows alone that are locked. -/
def viewRely : Rely D K where
  rel L d d' := ∀ j, key j ∈ L → view j d' = view j d
  refl _ _ _ _ := rfl
  trans h h' j hj := (h' j hj).trans (h j hj)
  anti hL h j hj := h j (hL hj)

/-- A task holds the row `j`, sees `v` there, and has only changes in `P` pending. -/
structure Holding (P : (D → D) → Prop) (j : J) (v : V j) (w : D → D) (L : List K) (d : D) : Prop where
  pending : P w
  mem : key j ∈ L
  sees : view j d = v

variable {key view} {R : Rely D K} {I : D → Prop} {G : FlowEvent A → List D → D → Prop}
  {P : (D → D) → Prop} {w : D → D} {L : List K} {s : List D} {d d' : D}

/-- A change of the views of one's own rows is all that a task does to the others. -/
theorem Owed.of_views (hI : I d') (h : ∀ j, key j ∉ L → view j d' = view j d) :
    Owed (viewRely key view) I L d d' :=
  ⟨hI, fun _ hL j hj => h j fun hmem => hL (key j) hmem hj⟩

theorem Owed.refl (hI : I d) : Owed R I L d d := ⟨hI, fun L' _ => R.refl L' d⟩

theorem Holding.moves {j : J} {v : V j} (h : Holding key view P j v w L d)
    (hR : (viewRely key view).rel L d d') : Holding key view P j v w L d' :=
  ⟨h.pending, h.mem, (hR j h.mem).trans h.sees⟩

theorem Holding.lock {j : J} {v : V j} (h : Holding key view P j v w L d) (k : List K) :
    Holding key view P j v w (k ++ L) d :=
  ⟨h.pending, List.mem_append_right k h.mem, h.sees⟩

/-- **A part that is a transaction** leaves what is seen as it was. -/
theorem Flow.wp_ofTx_holding {j : J} {v : V j} (hid : P id)
    (hcomp : ∀ f g, P f → P g → P fun d => g (f d)) {X : Flow.Post D K ε} {t : Tx D K ε α}
    (ht : t.Writes P) (h : Holding key view P j v w L d) (hX : ∀ e w L s d, X e w L s d) :
    (Flow.ofTx t : Flow D K A ε α).wp (viewRely key view) I G
      (fun _ w L _ d => Holding key view P j v w L d) X w L s d := by
  refine Flow.wp_ofTx (Tx.wp_mono (Tx.wp_frame hid hcomp ht) ?_) hX
  rintro a w' L' s' d' ⟨g, hg, rfl, hL, -, hd⟩
  exact ⟨hcomp w g h.pending hg, hL h.mem, (hd j h.mem).trans h.sees⟩

/-- A part that is a transaction has only such changes pending after it. -/
theorem Flow.wp_ofTx_pending (hid : P id) (hcomp : ∀ f g, P f → P g → P fun d => g (f d))
    {X : Flow.Post D K ε} {t : Tx D K ε α} (ht : t.Writes P) (h : P w)
    (hX : ∀ e w L s d, X e w L s d) :
    (Flow.ofTx t : Flow D K A ε α).wp R I G (fun _ w _ _ _ => P w) X w L s d := by
  refine Flow.wp_ofTx (Tx.wp_mono (Tx.wp_frame hid hcomp ht) ?_) hX
  rintro a w' L' s' d' ⟨g, hg, rfl, -, -, -⟩
  exact hcomp w g h hg

end Views

/-! ### Soundness -/

section FlowSoundness

variable (R : Rely D K) (I : D → Prop) (M : FlowMachine D K A ε σ)

/-- Nothing is asked of the end of a task. -/
abbrev Flow.Anything (D K α : Type) : Flow.Post D K α := fun _ _ _ _ _ => True

/-- Every client's program does what it owes. -/
def FlowMachine.Correct : Prop :=
  ∀ c d, I d → (M.code c).wp R I (M.allows c) (Flow.Anything D K Unit) (Flow.Anything D K ε) id [] []
    d

/-- What is true of every reachable configuration. -/
structure FlowMachine.Sound (C : FlowConfig D K A ε σ ι) : Prop where
  inv : I C.db
  locks : ∀ i j, i ≠ j → LocksDisjoint (C.held i) (C.held j)
  task : ∀ i t, C.task i = some t →
    t.prog.wp R I (M.allows t.client) (Flow.Anything D K Unit) (Flow.Anything D K ε) t.pending t.held
      t.seen C.db

variable {R I M} [DecidableEq ι] {C C' : FlowConfig D K A ε σ ι}

theorem FlowConfig.held_put (C : FlowConfig D K A ε σ ι) (i j : ι) (t : Option (Task D K A ε σ)) :
    (C.put i t).held j = if j = i then (t.map Task.held).getD [] else C.held j := by
  rw [FlowConfig.held, FlowConfig.put_task]
  split_ifs <;> rfl

/-- Replacing one task and moving the state keeps soundness, if the others bear the move. -/
theorem FlowMachine.Sound.put (h : M.Sound R I C) {i : ι} {t : Option (Task D K A ε σ)} {d : D}
    (hI : I d) (hfree : ∀ k ∈ (t.map Task.held).getD [], C.Free i k)
    (ht : ∀ u, t = some u → u.prog.wp R I (M.allows u.client) (Flow.Anything D K Unit)
      (Flow.Anything D K ε) u.pending u.held u.seen d)
    (hothers : ∀ j, j ≠ i → R.rel (C.held j) C.db d) :
    M.Sound R I { C.put i t with db := d } := by
  have hheld : ∀ j, ({ C.put i t with db := d } : FlowConfig D K A ε σ ι).held j =
      if j = i then (t.map Task.held).getD [] else C.held j := fun j => C.held_put i j t
  refine ⟨hI, fun j k hjk l hl hl' => ?_, fun j u hu => ?_⟩
  · rw [hheld] at hl hl'
    by_cases hj : j = i
    · rw [if_pos hj] at hl
      rw [if_neg fun hk => hjk (hj.trans hk.symm)] at hl'
      exact hfree l hl k (fun hk => hjk (hj.trans hk.symm)) hl'
    · rw [if_neg hj] at hl
      by_cases hk : k = i
      · rw [if_pos hk] at hl'
        exact hfree l hl' j hj hl
      · rw [if_neg hk] at hl'
        exact h.locks j k hjk l hl hl'
  · change (C.put i t).task j = some u at hu
    rw [FlowConfig.put_task] at hu
    by_cases hj : j = i
    · rw [if_pos hj] at hu
      exact ht u hu
    · rw [if_neg hj] at hu
      have hrel := hothers j hj
      rw [FlowConfig.held_of_task hu] at hrel
      exact Flow.wp_stable (fun _ _ _ _ _ _ _ _ => trivial) (fun _ _ _ _ _ _ _ _ => trivial)
        (h.task j u hu) hrel

/-- **One step keeps soundness.** -/
theorem FlowMachine.Correct.step (hM : M.Correct R I) (h : M.Sound R I C)
    (hstep : FlowStep M C C') : M.Sound R I C' := by
  have hstay : ∀ j, R.rel (C.held j) C.db C.db := fun j => R.refl _ _
  have hmine : ∀ {i t}, C.task i = some t → ∀ k ∈ t.held, C.Free i k := fun hi k hk j hj hk' =>
    h.locks _ j (Ne.symm hj) k (FlowConfig.held_of_task hi ▸ hk) hk'
  have hothers : ∀ {i : ι} {t : Task D K A ε σ} {d : D}, C.task i = some t →
      Owed R I t.held C.db d → ∀ j, j ≠ i → R.rel (C.held j) C.db d := fun {i t d} hi howed j hj =>
    howed.guar (C.held j) (FlowConfig.held_of_task hi ▸ h.locks i j (Ne.symm hj))
  cases hstep with
  | begin c hi =>
    exact h.put h.inv (fun k hk => absurd hk (by simp [FlowMachine.fresh]))
      (fun u hu => Option.some.inj hu ▸ hM c C.db h.inv) fun j _ => hstay j
  | @query i t keys next hi hp hallow hfree =>
    refine h.put h.inv (fun k hk => ?_) (fun u hu => ?_) fun j _ => hstay j
    · rcases List.mem_append.mp hk with hk | hk
      · exact hfree k hk
      · exact hmine hi k hk
    · obtain rfl := Option.some.inj hu
      have hw := h.task i t hi
      rw [hp] at hw
      exact hw C.db (R.refl _ _) h.inv hallow
  | @write i t f next hi hp =>
    refine h.put h.inv (fun k hk => hmine hi k hk) (fun u hu => ?_) fun j _ => hstay j
    obtain rfl := Option.some.inj hu
    have hw := h.task i t hi
    rw [hp] at hw
    exact hw
  | @call i t act next a d hi hp hallow hact =>
    have hw := h.task i t hi
    rw [hp] at hw
    obtain ⟨howed, hnext⟩ := hw C.db (R.refl _ _) h.inv a d hact hallow
    refine h.put howed.inv (fun k hk => hmine hi k hk) (fun u hu => ?_) (hothers hi howed)
    obtain rfl := Option.some.inj hu
    exact hnext
  | @commit i t next hi hp hallow =>
    have hw := h.task i t hi
    rw [hp] at hw
    obtain ⟨howed, hnext⟩ := hw C.db (R.refl _ _) h.inv hallow
    refine h.put howed.inv (fun k hk => absurd hk (by simp)) (fun u hu => ?_) (hothers hi howed)
    obtain rfl := Option.some.inj hu
    exact hnext
  | @rollback i t next hi hp =>
    refine h.put h.inv (fun k hk => absurd hk (by simp)) (fun u hu => ?_) fun j _ => hstay j
    obtain rfl := Option.some.inj hu
    have hw := h.task i t hi
    rw [hp] at hw
    exact hw
  | @close i t hi =>
    exact h.put h.inv (fun k hk => absurd hk (by simp)) (fun u hu => absurd hu (by simp))
      fun j _ => hstay j

omit [DecidableEq ι] in
theorem FlowMachine.Sound.idle {d : D} (h : I d) :
    M.Sound R I (FlowConfig.idle d : FlowConfig D K A ε σ ι) :=
  ⟨h, fun _ _ _ k hk => absurd hk (by simp [FlowConfig.held, FlowConfig.idle]),
    fun i t ht => absurd ht (by simp [FlowConfig.idle])⟩

/-- **The invariant holds in every reachable state.** -/
theorem FlowMachine.Correct.reachable (hM : M.Correct R I) {d : D} (hd : I d)
    (h : FlowReachable M d C) : I C.db := by
  suffices hs : M.Sound R I C from hs.inv
  induction h with
  | refl => exact FlowMachine.Sound.idle hd
  | tail _ hstep ih => exact hM.step ih hstep

/-- **Every step moves the state as everybody may rely on.** -/
theorem FlowMachine.Correct.moves (hM : M.Correct R I) {d : D} (hd : I d) (h : FlowReachable M d C)
    (hrun : Relation.ReflTransGen (FlowStep M) C C') : FlowReachable M d C' ∧ R.rel [] C.db C'.db := by
  have hsound : ∀ {C : FlowConfig D K A ε σ ι}, FlowReachable M d C → M.Sound R I C := by
    intro C h
    induction h with
    | refl => exact FlowMachine.Sound.idle hd
    | tail _ hstep ih => exact hM.step ih hstep
  have howed : ∀ {L : List K} {d₁ d₂ : D}, Owed R I L d₁ d₂ → R.rel [] d₁ d₂ := fun howed =>
    howed.guar [] fun _ _ => List.not_mem_nil
  induction hrun with
  | refl => exact ⟨h, R.refl [] C.db⟩
  | @tail C₁ C₂ _ hstep ih =>
    obtain ⟨hreach, hrel⟩ := ih
    have hS := hsound hreach
    refine ⟨hreach.tail hstep, R.trans hrel ?_⟩
    cases hstep with
    | @call i t act next a d' hi hp hallow hact =>
      have hw := hS.task i t hi
      rw [hp] at hw
      exact howed (hw C₁.db (R.refl _ _) hS.inv a d' hact hallow).1
    | @commit i t next hi hp hallow =>
      have hw := hS.task i t hi
      rw [hp] at hw
      exact howed (hw C₁.db (R.refl _ _) hS.inv hallow).1
    | _ => exact R.refl [] C₁.db

end FlowSoundness

end Sql
