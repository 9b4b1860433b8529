import Marketplace.Sql.Sessions

/-!
# Rely–guarantee reasoning about sessions

To reason about one transaction without looking at what the others are doing, one
needs to know what the others may change while it holds certain row locks. This is a
`Rely`: a preorder `rel L` on databases for every list `L` of locks, which gets smaller as more
rows are locked.

`Tx.wp` is the weakest precondition of a transaction under a rely and an invariant of the
committed states. Between two statements the committed state may move along
`rel L`, where `L` is what the transaction holds at that point; a commit is reached with
the locks it took, the states it saw and its pending change.

The rule that makes this sound is `Machine.Correct`: a transaction that commits keeps the
invariant and moves the committed state along `rel L'` for every list `L'` of locks
*disjoint from its own*. Nobody can hold a lock it holds, so that is exactly what the
other sessions rely on. `Machine.Correct.reachable` then gives the invariant in every
reachable configuration, and `Machine.Correct.commit` the postcondition of every commit.

The two rules below it are what proofs about a single transaction use: `Tx.wp_bind` for the
sequence of its parts, and `Tx.wp_frame` for a part that only has to be known by a
property of its writes.
-/

namespace Sql

variable {D K ε ρ σ ι α β : Type}

/-- What other sessions may do to the database, given the rows one has locked. -/
structure Rely (D K : Type) where
  /-- The changes that are possible while the rows are locked. -/
  rel : List K → D → D → Prop
  refl : ∀ L d, rel L d d
  trans : ∀ {L d₁ d₂ d₃}, rel L d₁ d₂ → rel L d₂ d₃ → rel L d₁ d₃
  /-- More locks, fewer changes. -/
  anti : ∀ {L L' d₁ d₂}, L ⊆ L' → rel L' d₁ d₂ → rel L d₁ d₂

/-- Two sessions do not hold a row in common. -/
def LocksDisjoint (L L' : List K) : Prop := ∀ k ∈ L, k ∉ L'

/-! ### The weakest precondition of a transaction -/

namespace Tx

variable (R : Rely D K) (I : D → Prop)

/-- The transaction, started with the pending change `w`, the locks `L` and the states `s`
seen so far while the committed state is `d`, reaches its end only where `Q` holds. -/
def wp : Tx D K ε α → (α → (D → D) → List K → List D → D → Prop) →
    (D → D) → List K → List D → D → Prop
  | .pure a, Q, w, L, s, d => Q a w L s d
  | .throw _, _, _, _, _, _ => True
  | .stmt keys next, Q, w, L, s, d =>
      ∀ d', R.rel L d d' → I d' →
        (next (w d')).wp Q w (keys (w d') ++ L) (w d' :: s) d'
  | .write f next, Q, w, L, s, d => next.wp Q (fun d => f (w d)) L s d

variable {R I}
variable {Q Q' : α → (D → D) → List K → List D → D → Prop}
variable {w : D → D} {L : List K} {s : List D} {d d' : D}

theorem wp_mono {t : Tx D K ε α} (h : t.wp R I Q w L s d)
    (hQ : ∀ a w L s d, Q a w L s d → Q' a w L s d) : t.wp R I Q' w L s d := by
  induction t generalizing w L s d with
  | pure a => exact hQ a w L s d h
  | throw e => exact trivial
  | stmt keys next ih =>
    intro d' hd hI
    exact ih (w d') (h d' hd hI)
  | write f next ih => exact ih h

/-- What holds anywhere holds at the end. -/
theorem wp_of_forall (hQ : ∀ a w L s d, Q a w L s d) (t : Tx D K ε α) : t.wp R I Q w L s d := by
  induction t generalizing w L s d with
  | pure a => exact hQ a w L s d
  | throw e => exact trivial
  | stmt keys next ih => exact fun d' _ _ => ih (w d')
  | write f next ih => exact ih

/-- While a transaction runs, the others move the committed state as its locks allow. -/
theorem wp_moves (t : Tx D K ε α) :
    t.wp R I (fun _ _ L' _ d' => L ⊆ L' ∧ R.rel L d d') w L s d := by
  suffices h : ∀ (w' : D → D) (L' : List K) (s' : List D) (d' : D), L ⊆ L' → R.rel L d d' →
      t.wp R I (fun _ _ L' _ d' => L ⊆ L' ∧ R.rel L d d') w' L' s' d' from
    h w L s d (List.Subset.refl L) (R.refl L d)
  induction t with
  | pure a => exact fun _ _ _ _ hL hd => ⟨hL, hd⟩
  | throw e => exact fun _ _ _ _ _ _ => trivial
  | stmt keys next ih =>
    intro w' L' s' d' hL hd d'' hd' _
    exact ih (w' d'') w' _ _ d'' (List.Subset.trans hL (List.subset_append_right _ _))
      (R.trans hd (R.anti hL hd'))
  | write f next ih => exact fun _ L' s' d' => ih _ L' s' d'

/-- Two things a transaction achieves it achieves together. -/
theorem wp_and {t : Tx D K ε α} (h : t.wp R I Q w L s d) (h' : t.wp R I Q' w L s d) :
    t.wp R I (fun a w L s d => Q a w L s d ∧ Q' a w L s d) w L s d := by
  induction t generalizing w L s d with
  | pure a => exact ⟨h, h'⟩
  | throw e => exact trivial
  | stmt keys next ih =>
    intro d' hd hI
    exact ih (w d') (h d' hd hI) (h' d' hd hI)
  | write f next ih => exact ih h h'

/-- What a transaction achieves among others, it achieves among others that do less. -/
theorem wp_rely {R' : Rely D K} {I' : D → Prop} (hR : ∀ L d d', R'.rel L d d' → R.rel L d d')
    (hI : ∀ d, I' d → I d) {t : Tx D K ε α} (h : t.wp R I Q w L s d) : t.wp R' I' Q w L s d := by
  induction t generalizing w L s d with
  | pure a => exact h
  | throw e => exact trivial
  | stmt keys next ih =>
    intro d' hd hI'
    exact ih (w d') (h d' (hR L d d' hd) (hI d' hI'))
  | write f next ih => exact ih h

/-- **Sequential composition.** -/
theorem wp_bind {t : Tx D K ε α} {f : α → Tx D K ε β}
    {Q : β → (D → D) → List K → List D → D → Prop} :
    (t >>= f).wp R I Q w L s d ↔
      t.wp R I (fun a w L s d => (f a).wp R I Q w L s d) w L s d := by
  change (t.bind f).wp R I Q w L s d ↔ _
  induction t generalizing w L s d with
  | pure a => exact Iff.rfl
  | throw e => exact Iff.rfl
  | stmt keys next ih =>
    refine forall_congr' fun d' => forall_congr' fun _ => forall_congr' fun _ => ?_
    exact ih (w d')
  | write g next ih => exact ih

/-- A postcondition is stable when the other sessions cannot undo it. -/
def Stable (R : Rely D K) (Q : α → (D → D) → List K → List D → D → Prop) : Prop :=
  ∀ a w L s d d', Q a w L s d → R.rel L d d' → Q a w L s d'

/-- What a transaction achieves, it achieves as well after the others have moved on. -/
theorem wp_stable {t : Tx D K ε α} (hQ : Stable R Q) (h : t.wp R I Q w L s d)
    (hR : R.rel L d d') : t.wp R I Q w L s d' := by
  induction t generalizing w L s with
  | pure a => exact hQ a w L s d d' h hR
  | throw e => exact trivial
  | stmt keys next ih =>
    intro d'' hd hI
    exact h d'' (R.trans hR hd) hI
  | write f next ih => exact ih h hR

/-! ### The statements -/

section WpStatements

theorem wp_pure {a : α} : (Pure.pure a : Tx D K ε α).wp R I Q w L s d ↔ Q a w L s d := Iff.rfl

theorem wp_read {f : D → α} : (read f : Tx D K ε α).wp R I Q w L s d ↔
    ∀ d', R.rel L d d' → I d' → Q (f (w d')) w L (w d' :: s) d' := Iff.rfl

theorem wp_lock {k : K} {f : D → α} : (lock k f : Tx D K ε α).wp R I Q w L s d ↔
    ∀ d', R.rel L d d' → I d' → Q (f (w d')) w (k :: L) (w d' :: s) d' := Iff.rfl

theorem wp_modify {f : D → D} {Q : Unit → (D → D) → List K → List D → D → Prop} :
    (modify f : Tx D K ε Unit).wp R I Q w L s d ↔ Q () (fun d => f (w d)) L s d := Iff.rfl

theorem wp_getOrElse {o : Option α} {e : ε} :
    (getOrElse o e : Tx D K ε α).wp R I Q w L s d ↔ ∀ a, o = some a → Q a w L s d := by
  cases o with
  | none => simp [getOrElse, wp]
  | some a => simp [getOrElse, wp]

theorem wp_require {p : Prop} [Decidable p] {e : ε}
    {Q : Unit → (D → D) → List K → List D → D → Prop} :
    (require p e : Tx D K ε Unit).wp R I Q w L s d ↔ (p → Q () w L s d) := by
  by_cases h : p <;> simp [require, h, wp]

theorem wp_when {p : Prop} [Decidable p] {t : Tx D K ε Unit}
    {Q : Unit → (D → D) → List K → List D → D → Prop} :
    (when p t).wp R I Q w L s d ↔
      (p → t.wp R I Q w L s d) ∧ (¬p → Q () w L s d) := by
  by_cases h : p <;> simp [when, h, wp]

theorem wp_ite {p : Prop} [Decidable p] {t u : Tx D K ε α} :
    (if p then t else u).wp R I Q w L s d ↔
      (p → t.wp R I Q w L s d) ∧ (¬p → u.wp R I Q w L s d) := by
  by_cases h : p <;> simp [h]

theorem wp_forEach_modify {as : List α} {f : α → D → D}
    {Q : Unit → (D → D) → List K → List D → D → Prop} :
    (forEach as fun a => (modify (f a) : Tx D K ε Unit)).wp R I Q w L s d ↔
      Q () (fun d => as.foldl (fun d a => f a d) (w d)) L s d := by
  induction as generalizing w with
  | nil => exact Iff.rfl
  | cons a as ih => exact ih (w := fun d => f a (w d))

end WpStatements

/-! ### Transactions known by their writes -/

/-- Every change the transaction makes has the property `P`. -/
def Writes (P : (D → D) → Prop) : Tx D K ε α → Prop
  | .pure _ => True
  | .throw _ => True
  | .stmt _ next => ∀ d, (next d).Writes P
  | .write f next => P f ∧ next.Writes P

theorem Writes.bind {P : (D → D) → Prop} {t : Tx D K ε α} {f : α → Tx D K ε β}
    (ht : t.Writes P) (hf : ∀ a, (f a).Writes P) : (t >>= f).Writes P := by
  change (t.bind f).Writes P
  induction t with
  | pure a => exact hf a
  | throw e => exact trivial
  | stmt keys next ih =>
    intro d
    exact ih d (ht d)
  | write g next ih => exact ⟨ht.1, ih ht.2⟩

theorem Writes.mono {P P' : (D → D) → Prop} (hP : ∀ f, P f → P' f) {t : Tx D K ε α}
    (ht : t.Writes P) : t.Writes P' := by
  induction t with
  | pure a => exact trivial
  | throw e => exact trivial
  | stmt keys next ih =>
    intro d
    exact ih d (ht d)
  | write g next ih => exact ⟨hP g ht.1, ih ht.2⟩

/-- Run alone, a transaction does what its changes do one after the other. -/
theorem Writes.run_rel {P : (D → D) → Prop} {r : D → D → Prop} (hrefl : ∀ d, r d d)
    (htrans : ∀ d₁ d₂ d₃, r d₁ d₂ → r d₂ d₃ → r d₁ d₃) (hP : ∀ f, P f → ∀ d, r d (f d))
    {t : Tx D K ε α} (ht : t.Writes P) {d d' : D} {a : α} (h : t.run d = .ok (a, d')) :
    r d d' := by
  induction t generalizing d with
  | pure x =>
    obtain ⟨-, rfl⟩ : x = a ∧ d = d' := by simpa using h
    exact hrefl d
  | throw e => cases h
  | stmt keys next ih => exact ih d (ht d) h
  | write f next ih => exact htrans _ _ _ (hP f ht.1 d) (ih ht.2 h)

/-- A transaction that changes nothing leaves the state as it is. -/
theorem Writes.run_id {t : Tx D K ε α} (ht : t.Writes (· = id)) {d d' : D} {a : α}
    (h : t.run d = .ok (a, d')) : d' = d :=
  ht.run_rel (r := fun d d' => d' = d) (fun _ => rfl) (fun _ _ _ h h' => h'.trans h)
    (fun f hf d => by rw [hf, id]) h

section Statements

variable {P : (D → D) → Prop}

theorem writes_pure (a : α) : (Pure.pure a : Tx D K ε α).Writes P := trivial

theorem writes_throw (e : ε) : (Tx.throw e : Tx D K ε α).Writes P := trivial

theorem writes_read (f : D → α) : (read f : Tx D K ε α).Writes P := fun _ => trivial

theorem writes_lock (k : K) (f : D → α) : (lock k f : Tx D K ε α).Writes P := fun _ => trivial

theorem writes_modify {f : D → D} : (modify f : Tx D K ε Unit).Writes P ↔ P f :=
  ⟨fun h => h.1, fun h => ⟨h, trivial⟩⟩

theorem writes_getOrElse (o : Option α) (e : ε) : (getOrElse o e : Tx D K ε α).Writes P := by
  cases o <;> exact trivial

theorem writes_require (p : Prop) [Decidable p] (e : ε) :
    (require p e : Tx D K ε Unit).Writes P := by
  by_cases h : p <;> simp [require, h, Writes]

theorem writes_when {p : Prop} [Decidable p] {t : Tx D K ε Unit} (ht : t.Writes P) :
    (when p t).Writes P := by
  by_cases h : p
  · simpa [when, h] using ht
  · simp [when, h, Writes]

theorem writes_forEach_of_mem {as : List α} {f : α → Tx D K ε Unit} (hf : ∀ a ∈ as, (f a).Writes P) :
    (forEach as f).Writes P := by
  induction as with
  | nil => exact trivial
  | cons a as ih =>
    exact Writes.bind (hf a List.mem_cons_self) fun _ => ih fun b hb => hf b (List.mem_cons_of_mem _ hb)

theorem writes_forEach {as : List α} {f : α → Tx D K ε Unit} (hf : ∀ a, (f a).Writes P) :
    (forEach as f).Writes P := writes_forEach_of_mem fun a _ => hf a

end Statements

/-- **The frame rule.** A transaction whose changes all have a property that composes makes
one change with that property, on top of what was pending; it gives up no lock, and what
it saw before it still has seen. -/
theorem wp_frame {P : (D → D) → Prop} (hid : P id)
    (hcomp : ∀ f g, P f → P g → P (fun d => g (f d))) {t : Tx D K ε α} (ht : t.Writes P) :
    t.wp R I (fun _ w' L' s' d' => ∃ g, P g ∧ (w' = fun d => g (w d)) ∧ L ⊆ L' ∧ s <:+ s' ∧
      R.rel L d d') w L s d := by
  suffices h : ∀ (w' : D → D) (L' : List K) (s' : List D) (d' : D),
      (∃ g, P g ∧ (w' = fun d => g (w d)) ∧ L ⊆ L' ∧ s <:+ s' ∧ R.rel L d d') →
      t.wp R I (fun _ w' L' s' d' => ∃ g, P g ∧ (w' = fun d => g (w d)) ∧ L ⊆ L' ∧ s <:+ s' ∧
        R.rel L d d') w' L' s' d' from
    h w L s d ⟨id, hid, rfl, List.Subset.refl L, List.suffix_refl s, R.refl L d⟩
  induction t with
  | pure a => exact fun w' L' s' d' h => h
  | throw e => exact fun _ _ _ _ _ => trivial
  | stmt keys next ih =>
    rintro w' L' s' d' ⟨g, hg, hw, hL, hs, hd⟩ d'' hd' hI
    exact ih (w' d'') (ht (w' d'')) w' _ _ d'' ⟨g, hg, hw, List.Subset.trans hL (List.subset_append_right _ _),
      hs.trans (List.suffix_cons _ _), R.trans hd (R.anti hL hd')⟩
  | write f next ih =>
    rintro w' L' s' d' ⟨g, hg, hw, hL, hs, hd⟩
    refine ih ht.2 _ L' s' d' ⟨fun d => f (g d), hcomp g f hg ht.1, ?_, hL, hs, hd⟩
    rw [hw]

/-- **The frame rule of a loop**, when every round makes one change with the property. -/
theorem wp_forEach_frame {P : (D → D) → Prop} (hid : P id) (hcomp : ∀ f g, P f → P g → P (fun d => g (f d)))
    {as : List α} {f : α → Tx D K ε Unit}
    (h : ∀ a ∈ as, ∀ w L s d, (f a).wp R I (fun _ w' L' s' d' => ∃ g, P g ∧ (w' = fun d => g (w d)) ∧ L ⊆ L' ∧
      s <:+ s' ∧ R.rel L d d') w L s d) :
    (forEach as f).wp R I (fun _ w' L' s' d' => ∃ g, P g ∧ (w' = fun d => g (w d)) ∧ L ⊆ L' ∧ s <:+ s' ∧
      R.rel L d d') w L s d := by
  induction as generalizing w L s d with
  | nil => exact ⟨id, hid, rfl, List.Subset.refl L, List.suffix_refl s, R.refl L d⟩
  | cons a as ih =>
    change (f a >>= fun _ => forEach as f).wp R I _ w L s d
    rw [wp_bind]
    refine wp_mono (h a List.mem_cons_self w L s d) ?_
    rintro _ w₁ L₁ s₁ d₁ ⟨g, hg, rfl, hL, hs, hd⟩
    refine wp_mono (ih fun b hb => h b (List.mem_cons_of_mem _ hb)) ?_
    rintro _ w₂ L₂ s₂ d₂ ⟨g', hg', rfl, hL', hs', hd'⟩
    exact ⟨fun d => g' (g d), hcomp g g' hg hg', rfl, List.Subset.trans hL hL', hs.trans hs', R.trans hd (R.anti hL hd')⟩

/-- The frame rule for a transaction each of whose changes moves the state along a preorder. -/
theorem wp_writes {T : D → D → Prop} (hrefl : ∀ d, T d d)
    (htrans : ∀ {d₁ d₂ d₃}, T d₁ d₂ → T d₂ d₃ → T d₁ d₃) {t : Tx D K ε α}
    (ht : t.Writes fun f => ∀ d, T d (f d)) :
    t.wp R I (fun _ w' L' s' d' => ∃ g : D → D, (∀ d, T d (g d)) ∧ (w' = fun d => g (w d)) ∧
      L ⊆ L' ∧ s <:+ s' ∧ R.rel L d d') w L s d :=
  wp_frame (P := fun f => ∀ d, T d (f d)) hrefl (fun f _ hf hg d => htrans (hf d) (hg (f d))) ht

end Tx

/-! ### Soundness -/

section Soundness

variable (R : Rely D K) (I : D → Prop) (M : Machine D K ε ρ σ)

/-- What a client's transaction owes when it commits, wherever the committed state has moved
to by then: if the commit is let through, it keeps the invariant, does what `Post` says, and
changes nothing that another session may rely on. -/
def Commits (Post : σ → ρ → D → D → Prop) (c : σ) :
    ρ → (D → D) → List K → List D → D → Prop :=
  fun a w L s d => ∀ d', R.rel L d d' → I d' → M.allows c s d' →
    I (w d') ∧ Post c a d' (w d') ∧ ∀ L', LocksDisjoint L L' → R.rel L' d' (w d')

/-- Every client's transaction does what it owes. -/
def Machine.Correct (Post : σ → ρ → D → D → Prop) : Prop :=
  ∀ c d, I d → (M.code c).wp R I (Commits R I M Post c) id [] [] d

variable {R I M} {Post : σ → ρ → D → D → Prop}

theorem commits_stable (c : σ) : Tx.Stable R (Commits R I M Post c) := by
  intro a w L s d d' h hR d'' hd
  exact h d'' (R.trans hR hd)

/-- What is true of every reachable configuration: the invariant of the committed state, no
row locked twice, and every open session on its way to a correct commit. -/
structure Machine.Sound (R : Rely D K) (I : D → Prop) (M : Machine D K ε ρ σ)
    (Post : σ → ρ → D → D → Prop) (C : Config D K ε ρ σ ι) : Prop where
  inv : I C.db
  locks : ∀ i j s t, i ≠ j → C.session i = some s → C.session j = some t →
    LocksDisjoint s.held t.held
  session : ∀ i s, C.session i = some s →
    s.prog.wp R I (Commits R I M Post s.client) s.pending s.held s.seen C.db

variable [DecidableEq ι] {C C' : Config D K ε ρ σ ι}

/-- Replacing one session keeps soundness, if the new one is sound and its locks are free. -/
theorem Machine.Sound.put (h : M.Sound R I Post C) {i : ι} {s : Session D K ε ρ σ}
    (hfree : ∀ k ∈ s.held, C.Free i k)
    (hs : s.prog.wp R I (Commits R I M Post s.client) s.pending s.held s.seen C.db) :
    M.Sound R I Post (C.put i (some s)) := by
  refine ⟨h.inv, fun j k t u hjk ht hu => ?_, fun j t ht => ?_⟩
  · rw [Config.put_session] at ht hu
    by_cases hj : j = i
    · obtain rfl : s = t := by simpa [hj] using ht
      rw [if_neg fun hk => hjk (hj.trans hk.symm)] at hu
      exact fun l hl => hfree l hl k u (fun hk => hjk (hj.trans hk.symm)) hu
    · rw [if_neg hj] at ht
      by_cases hk : k = i
      · obtain rfl : s = u := by simpa [hk] using hu
        exact fun l hl hl' => hfree l hl' j t hj ht hl
      · rw [if_neg hk] at hu
        exact h.locks j k t u hjk ht hu
  · rw [Config.put_session] at ht
    by_cases hj : j = i
    · obtain rfl : s = t := by simpa [hj] using ht
      exact hs
    · rw [if_neg hj] at ht
      exact h.session j t ht

theorem Machine.Sound.close (h : M.Sound R I Post C) (i : ι) :
    M.Sound R I Post (C.put i none) := by
  have hold : ∀ j t, (C.put i none).session j = some t → C.session j = some t := by
    intro j t ht
    rw [Config.put_session] at ht
    by_cases hj : j = i
    · simp [hj] at ht
    · rwa [if_neg hj] at ht
  exact ⟨h.inv, fun j k t u hjk ht hu => h.locks j k t u hjk (hold j t ht) (hold k u hu),
    fun j t ht => h.session j t (hold j t ht)⟩

/-- **One step keeps soundness**, and a commit does what its postcondition says. -/
theorem Machine.Correct.step (hM : M.Correct R I Post) (h : M.Sound R I Post C)
    {l : Option (σ × ρ)} (hstep : Step M C l C') :
    M.Sound R I Post C' ∧ ∀ c a, l = some (c, a) → Post c a C.db C'.db := by
  cases hstep with
  | begin c hi =>
    refine ⟨h.put (fun k hk => absurd hk (by simp [Machine.fresh])) (hM c C.db h.inv), ?_⟩
    simp
  | @stmt i s keys next hi hp hfree =>
    refine ⟨h.put (fun k hk => ?_) ?_, by simp⟩
    · rcases List.mem_append.mp hk with hk | hk
      · exact hfree k hk
      · exact fun j t hj ht => h.locks i j s t (Ne.symm hj) hi ht k hk
    · have hw := h.session i s hi
      rw [hp] at hw
      exact hw C.db (R.refl s.held C.db) h.inv
  | @write i s f next hi hp =>
    refine ⟨h.put (fun k hk j t hj ht => h.locks i j s t (Ne.symm hj) hi ht k hk) ?_, by simp⟩
    have hw := h.session i s hi
    rw [hp] at hw
    exact hw
  | @commit i s a hi hp hallow =>
    have hw := h.session i s hi
    rw [hp] at hw
    obtain ⟨hI, hpost, hguar⟩ := hw C.db (R.refl s.held C.db) h.inv hallow
    have hclose := h.close i
    refine ⟨⟨hI, hclose.locks, fun j t ht => ?_⟩, ?_⟩
    · have hj : j ≠ i := by
        rintro rfl
        simp [Config.put_session] at ht
      have hjt : C.session j = some t := by
        change (C.put i none).session j = some t at ht
        rwa [Config.put_session, if_neg hj] at ht
      exact Tx.wp_stable (commits_stable t.client) (h.session j t hjt)
        (hguar t.held (h.locks i j s t (Ne.symm hj) hi hjt))
    · intro c b hcb
      obtain ⟨rfl, rfl⟩ : s.client = c ∧ a = b := by simpa using hcb
      exact hpost
  | @close i s hi => exact ⟨h.close i, by simp⟩

omit [DecidableEq ι] in
theorem Machine.Sound.idle {d : D} (h : I d) :
    M.Sound R I Post (Config.idle d : Config D K ε ρ σ ι) :=
  ⟨h, fun i j s t _ hs => absurd hs (by simp [Config.idle]),
    fun i s hs => absurd hs (by simp [Config.idle])⟩

/-- **Soundness of every reachable configuration.** -/
theorem Machine.Correct.reachable (hM : M.Correct R I Post) {d : D} (hd : I d)
    (h : Reachable M d C) : M.Sound R I Post C := by
  induction h with
  | refl => exact Machine.Sound.idle hd
  | tail _ hstep ih =>
    obtain ⟨l, hl⟩ := hstep
    exact (hM.step ih hl).1

/-- **Every commit of a run does what its postcondition says.** -/
theorem Machine.Correct.commit (hM : M.Correct R I Post) {d : D} (hd : I d)
    (h : Reachable M d C) {c : σ} {a : ρ} (hstep : Step M C (some (c, a)) C') :
    Post c a C.db C'.db :=
  (hM.step (hM.reachable hd h) hstep).2 c a rfl

end Soundness

end Sql
