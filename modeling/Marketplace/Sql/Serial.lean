import Marketplace.Sql.Rely

/-!
# Strict two-phase locking

A transaction is *serial* under a rely when everything it reads is protected by the locks it
holds from that moment on: whatever the other sessions do afterwards, the same statement would
still return the same. Such a transaction, interleaved with any number of others, does
at its commit exactly what it would have done had it run alone, from beginning to end, on the state it
commits onto (`Tx.Serial.wp`). This is the classical theorem about strict two-phase
locking, for programs rather than for histories.

It reduces the concurrent correctness of a system to the sequential correctness of
its transactions: `Machine.correct_of_serial` asks for nothing but a `Tx.run` fact per
client.

`Atomic` is the machine in which transactions run one at a time; a theorem about its runs is a
theorem about sequences of committed operations.
-/

namespace Sql

variable {D K ε ρ σ α β : Type}

namespace Tx

variable (R : Rely D K) (I : D → Prop)

/-- Every statement reads only what stays as it is while the locks taken so far are held, and the
transaction ends with locks that `H` accepts. -/
def Serial (H : α → List K → Prop) : Tx D K ε α → (D → D) → List K → D → Prop
  | .pure a, _, L, _ => H a L
  | .throw _, _, _, _ => True
  | .stmt keys next, w, L, d =>
      ∀ d', R.rel L d d' → I d' →
        (∀ d'', R.rel (keys (w d') ++ L) d' d'' → I d'' → next (w d'') = next (w d')) ∧
          (next (w d')).Serial H w (keys (w d') ++ L) d'
  | .write f next, w, L, d => next.Serial H (fun d => f (w d)) L d

variable {R I} {H : α → List K → Prop}

/-- A serial remainder `t` of `t₀` ends with the pending change `t₀` makes when it runs alone. -/
theorem Serial.wp_aux {t₀ t : Tx D K ε α} {w : D → D} {L : List K} {s : List D} {d : D}
    (ht : t.Serial R I H w L d)
    (hrun : ∀ d', R.rel L d d' → I d' → t₀.run d' = t.run (w d')) :
    t.wp R I (fun a w L _ d => H a L ∧ ∀ d', R.rel L d d' → I d' → t₀.run d' = .ok (a, w d'))
      w L s d := by
  induction t generalizing w L s d with
  | pure a => exact ⟨ht, hrun⟩
  | throw e => exact trivial
  | stmt keys next ih =>
    intro d' hd hI
    obtain ⟨hstable, hnext⟩ := ht d' hd hI
    refine ih (w d') hnext fun d'' hd' hI' => ?_
    rw [hrun d'' (R.trans hd (R.anti (List.subset_append_right _ _) hd')) hI']
    change (next (w d'')).run (w d'') = _
    rw [hstable d'' hd' hI']
  | write f next ih => exact ih ht hrun

theorem Serial.mono {H' : α → List K → Prop} {t : Tx D K ε α} {w : D → D} {L : List K} {d : D}
    (ht : t.Serial R I H w L d) (hH : ∀ a L, H a L → H' a L) : t.Serial R I H' w L d := by
  induction t generalizing w L d with
  | pure a => exact hH a L ht
  | throw e => exact trivial
  | stmt keys next ih =>
    intro d' hd hI
    obtain ⟨hstable, hnext⟩ := ht d' hd hI
    exact ⟨hstable, ih (w d') hnext⟩
  | write f next ih => exact ih ht

/-- **A serial transaction commits what it would have done alone.** -/
theorem Serial.wp {t : Tx D K ε α} {d : D} (ht : t.Serial R I H id [] d) :
    t.wp R I (fun a w L _ d => H a L ∧ ∀ d', R.rel L d d' → I d' → t.run d' = .ok (a, w d'))
      id [] [] d :=
  ht.wp_aux fun _ _ _ => rfl

end Tx

namespace Tx

/-! ### One lock, then no statement -/

/-- The transaction runs no statement. -/
def Straight : Tx D K ε α → Prop
  | .pure _ => True
  | .throw _ => True
  | .stmt _ _ => False
  | .write _ next => next.Straight

theorem Straight.bind {t : Tx D K ε α} {f : α → Tx D K ε β} (ht : t.Straight)
    (hf : ∀ a, (f a).Straight) : (t >>= f).Straight := by
  change (t.bind f).Straight
  induction t with
  | pure a => exact hf a
  | throw e => exact trivial
  | stmt keys next ih => exact ht.elim
  | write g next ih => exact ih ht

theorem straight_modify (f : D → D) : (modify f : Tx D K ε Unit).Straight := trivial

theorem straight_getOrElse (o : Option α) (e : ε) : (getOrElse o e : Tx D K ε α).Straight := by
  cases o <;> exact trivial

theorem straight_require (p : Prop) [Decidable p] (e : ε) :
    (require p e : Tx D K ε Unit).Straight := by
  by_cases h : p <;> simp [require, h, Straight]

variable {R : Rely D K} {I : D → Prop}

theorem Straight.serial {t : Tx D K ε α} (ht : t.Straight) {P : List K → Prop} {w : D → D}
    {L : List K} {d : D} (hP : P L) : t.Serial R I (fun _ L => P L) w L d := by
  induction t generalizing w with
  | pure a => exact hP
  | throw e => exact trivial
  | stmt keys next ih => exact ht.elim
  | write g next ih => exact ih ht

/-- Nothing a transaction does after its last statement can keep it from being serial. -/
theorem Serial.bind_straight {H : α → List K → Prop} {t : Tx D K ε α} {f : α → Tx D K ε β}
    {w : D → D} {L : List K} {d : D} (ht : t.Serial R I H w L d) (hf : ∀ a, (f a).Straight) :
    (t >>= f).Serial R I (fun _ L => ∃ a, H a L) w L d := by
  change (t.bind f).Serial R I _ w L d
  induction t generalizing w L d with
  | pure a => exact (hf a).serial ⟨a, ht⟩
  | throw e => exact trivial
  | stmt keys next ih =>
    intro d' hd hI
    obtain ⟨hstable, hnext⟩ := ht d' hd hI
    refine ⟨fun d'' hd' hI' => ?_, ih (w d') hnext⟩
    change (next (w d'')).bind f = (next (w d')).bind f
    rw [hstable d'' hd' hI']
  | write g next ih => exact ih ht

/-- A lock on what is read makes what follows as serial as it is with the lock held. -/
theorem Serial.lock_bind {H : β → List K → Prop} {k : K} {f : D → α} {g : α → Tx D K ε β}
    {w : D → D} {L : List K} {d : D}
    (hf : ∀ d d', R.rel (k :: L) d d' → f (w d') = f (w d))
    (hg : ∀ a d, (g a).Serial R I H w (k :: L) d) : (lock k f >>= g).Serial R I H w L d := by
  intro d' _ _
  refine ⟨fun d'' hd _ => ?_, hg _ d'⟩
  change (Tx.pure (f (w d''))).bind g = (Tx.pure (f (w d'))).bind g
  rw [hf d' d'' hd]

/-- **A transaction whose one statement locks the row it reads is serial.** -/
theorem serial_lock {k : K} {f : D → α} {g : α → Tx D K ε β}
    (hf : ∀ d d', R.rel [k] d d' → f d' = f d) (hg : ∀ a, (g a).Straight) (d : D) :
    (lock k f >>= g).Serial R I (fun _ L => k ∈ L) id [] d :=
  .lock_bind hf fun a _ => (hg a).serial List.mem_cons_self

end Tx

/-- **Sequential correctness is enough.** If every client's transaction is serial and, run
alone, keeps the invariant, has its postcondition and changes only what the locks it ends with
cover, then every interleaving is correct. -/
theorem Machine.correct_of_serial {R : Rely D K} {I : D → Prop} {code : σ → Tx D K ε ρ}
    {Post : σ → ρ → D → D → Prop} (H : σ → ρ → List K → Prop)
    (hserial : ∀ c d, I d → (code c).Serial R I (H c) id [] d)
    (hrun : ∀ c d a d', I d → (code c).run d = .ok (a, d') →
      I d' ∧ Post c a d d' ∧ ∀ L L', H c a L → LocksDisjoint L L' → R.rel L' d d') :
    (Machine.ofCode code).Correct R I Post := by
  intro c d hd
  refine Tx.wp_mono (hserial c d hd).wp ?_
  rintro a w L s d₁ ⟨hH, heq⟩ d₂ hd₂ hI _
  obtain ⟨hI', hpost, hguar⟩ := hrun c d₂ a (w d₂) hI (heq d₂ hd₂ hI)
  exact ⟨hI', hpost, fun L' hL' => hguar L L' hH hL'⟩

/-! ### One transaction at a time -/

/-- One client's transaction runs alone and commits. -/
def Atomic (code : σ → Tx D K ε ρ) (d d' : D) : Prop :=
  ∃ c a, (code c).run d = .ok (a, d')

/-- What any finite sequence of committed transactions reaches. -/
def Runs (code : σ → Tx D K ε ρ) : D → D → Prop := Relation.ReflTransGen (Atomic code)

/-- Running a list of transactions one after the other, each committing or rolling back, is a
run. -/
theorem Runs.exec_list (code : σ → Tx D K ε ρ) (cs : List σ) (d : D) :
    Runs code d (cs.foldl (fun d c => (code c).exec d) d) := by
  induction cs generalizing d with
  | nil => exact Relation.ReflTransGen.refl
  | cons c cs ih =>
    rw [List.foldl_cons]
    rcases (code c).exec_cases d with ⟨a, h⟩ | h
    · exact Relation.ReflTransGen.head ⟨c, a, h⟩ (ih _)
    · rw [h]
      exact ih d

/-! ### Running alone is a way of running -/

section Alone

variable {ι : Type} [DecidableEq ι] {M : Machine D K ε ρ σ}

theorem put_session_self (C : Config D K ε ρ σ ι) (i : ι) (s : Session D K ε ρ σ) :
    (C.put i (some s)).session i = some s := by rw [Config.put_session, if_pos rfl]

theorem put_put (C : Config D K ε ρ σ ι) (i : ι) (s s' : Option (Session D K ε ρ σ)) :
    (C.put i s).put i s' = C.put i s' := by simp [Config.put]

/-- A session reads, without a lock. -/
theorem reaches_read {C : Config D K ε ρ σ ι} {i : ι} {c : σ} {t : Tx D K ε ρ} {w : D → D}
    {L : List K} {s : List D} {keys : D → List K} {next : D → Tx D K ε ρ}
    (ht : t = .stmt keys next) (hkeys : keys (w C.db) = []) :
    Relation.ReflTransGen (Steps M) (C.put i (some ⟨c, t, w, L, s⟩))
      (C.put i (some ⟨c, next (w C.db), w, L, w C.db :: s⟩)) := by
  subst ht
  have hstep := Step.stmt (M := M) (put_session_self C i ⟨c, .stmt keys next, w, L, s⟩) rfl
    fun k hk => by
      have hk : k ∈ keys (w C.db) := hk
      exact absurd (hkeys ▸ hk) List.not_mem_nil
  simp only [put_put, Config.put_db, hkeys, List.nil_append] at hstep
  exact Relation.ReflTransGen.single ⟨none, hstep⟩

/-- A session runs what is left of its transaction up to its commit, while nobody else has a row
locked and nobody else moves. -/
theorem reaches_commit {C : Config D K ε ρ σ ι} {c : σ} {a : ρ} {d' : D} {i : ι}
    (hfree : ∀ k, C.Free i k) {t : Tx D K ε ρ} {w : D → D} {L : List K} {s : List D}
    (h : t.run (w C.db) = .ok (a, d')) :
    ∃ w' L' s', w' C.db = d' ∧ Relation.ReflTransGen (Steps M) (C.put i (some ⟨c, t, w, L, s⟩))
      (C.put i (some ⟨c, .pure a, w', L', s'⟩)) := by
  induction t generalizing w L s with
  | pure b =>
    obtain ⟨rfl, rfl⟩ : b = a ∧ w C.db = d' := by simpa using h
    exact ⟨w, L, s, rfl, Relation.ReflTransGen.refl⟩
  | throw e => exact absurd h (by simp)
  | stmt keys next ih =>
    have hstep := Step.stmt (M := M) (put_session_self C i ⟨c, .stmt keys next, w, L, s⟩) rfl
      fun k _ j u hj hu => by
        rw [Config.put_session, if_neg hj] at hu
        exact hfree k j u hj hu
    rw [put_put] at hstep
    obtain ⟨w', L', s', hw, hreach⟩ := ih (w C.db) (w := w) (L := keys (w C.db) ++ L)
      (s := w C.db :: s) h
    exact ⟨w', L', s', hw, Relation.ReflTransGen.head ⟨none, hstep⟩ hreach⟩
  | write f next ih =>
    have hstep := Step.write (M := M) (put_session_self C i ⟨c, .write f next, w, L, s⟩) rfl
    rw [put_put] at hstep
    obtain ⟨w', L', s', hw, hreach⟩ := ih (w := fun d => f (w d)) (L := L) (s := s) h
    exact ⟨w', L', s', hw, Relation.ReflTransGen.head ⟨none, hstep⟩ hreach⟩

/-- A session runs what is left of its transaction while nobody else has a row locked and nobody
else moves. -/
theorem reaches_of_run {C : Config D K ε ρ σ ι} {c : σ} {a : ρ} {d' : D} {i : ι}
    (hfree : ∀ k, C.Free i k) (hallow : ∀ s, M.allows c s C.db) {t : Tx D K ε ρ} {w : D → D}
    {L : List K} {s : List D} (h : t.run (w C.db) = .ok (a, d')) :
    Relation.ReflTransGen (Steps M) (C.put i (some ⟨c, t, w, L, s⟩)) { C.put i none with db := d' } := by
  obtain ⟨w', L', s', rfl, hreach⟩ := reaches_commit (M := M) (c := c) (L := L) (s := s) hfree h
  have hstep := Step.commit (M := M) (put_session_self C i ⟨c, .pure a, w', L', s'⟩) rfl (hallow s')
  rw [put_put] at hstep
  exact hreach.tail ⟨some (c, a), hstep⟩

/-- A transaction that would commit if run alone can run from beginning to end between two
statements of the others, if these have no row locked. -/
theorem reaches_between {C : Config D K ε ρ σ ι} (i : ι) {c : σ} {a : ρ} {d' : D}
    (hnone : C.session i = none) (hfree : ∀ k, C.Free i k) (hallow : ∀ s, M.allows c s C.db)
    (h : (M.code c).run C.db = .ok (a, d')) :
    Relation.ReflTransGen (Steps M) C { C with db := d' } := by
  have hrun := reaches_of_run (M := M) (w := id) (L := []) (s := []) hfree hallow h
  have hclose : C.put i none = C := by rw [Config.put, ← hnone, Function.update_eq_self]
  rw [hclose] at hrun
  exact Relation.ReflTransGen.head ⟨none, Step.begin c hnone⟩ hrun

/-- A transaction that would commit if run alone takes an idle machine to an idle machine. -/
theorem reaches_of_code (i : ι) {c : σ} {a : ρ} {d d' : D} (hallow : ∀ s, M.allows c s d)
    (h : (M.code c).run d = .ok (a, d')) :
    Relation.ReflTransGen (Steps M) (Config.idle d : Config D K ε ρ σ ι) (Config.idle d') :=
  reaches_between i rfl (fun _ _ _ _ hs => absurd hs (by simp [Config.idle])) hallow h

/-- **A transaction is overtaken.** Between its first statement, if that one locks nothing, and the
rest of it another transaction can run from beginning to end. -/
theorem reaches_overtaken {i j : ι} (hij : i ≠ j) {c b : σ} {a e : ρ} {d d₁ d₂ : D}
    {keys : D → List K} {next : D → Tx D K ε ρ} (hallow : ∀ c s d, M.allows c s d)
    (hcode : M.code c = .stmt keys next) (hkeys : keys d = [])
    (h' : (M.code b).run d = .ok (e, d₁)) (h : (next d).run d₁ = .ok (a, d₂)) :
    ∃ C : Config D K ε ρ σ ι, C.db = d₁ ∧
      Relation.ReflTransGen (Steps M) (Config.idle d) C ∧
      Relation.ReflTransGen (Steps M) C (Config.idle d₂) := by
  have hidle : ∀ d i k, (Config.idle d : Config D K ε ρ σ ι).Free i k :=
    fun d i k j s _ hs => absurd hs (by simp [Config.idle])
  -- The first session after its first statement.
  let s : Session D K ε ρ σ := ⟨c, next d, id, [], [d]⟩
  have hread : Relation.ReflTransGen (Steps M) (Config.idle d : Config D K ε ρ σ ι)
      ((Config.idle d).put i (some s)) :=
    .head ⟨none, Step.begin (i := i) c rfl⟩ (reaches_read hcode hkeys)
  have hover : Relation.ReflTransGen (Steps M) ((Config.idle d : Config D K ε ρ σ ι).put i (some s))
      ((Config.idle d₁).put i (some s)) := by
    refine reaches_between (C := (Config.idle d).put i (some s)) j ?_ (fun k l t _ ht => ?_)
      (fun s => hallow b s _) h'
    · rw [Config.put_session, if_neg hij.symm]
      rfl
    · rw [Config.put_session] at ht
      by_cases hl : l = i
      · obtain rfl : s = t := by simpa [hl] using ht
        exact List.not_mem_nil
      · rw [if_neg hl] at ht
        exact absurd ht (by simp [Config.idle])
  refine ⟨_, rfl, hread.trans hover, ?_⟩
  have hrest := reaches_of_run (M := M) (C := Config.idle d₁) (w := id) (L := []) (s := [d])
    (hidle d₁ i) (fun s => hallow c s _) h
  have hclose : (Config.idle d₁ : Config D K ε ρ σ ι).put i none = Config.idle d₁ := by
    simp [Config.put, Config.idle]
  rw [hclose] at hrest
  exact hrest

/-- **What transactions reach one at a time they reach in the interleaved machine as well.** -/
theorem Runs.reachable {code : σ → Tx D K ε ρ} (i : ι) {d d' : D} (h : Runs code d d') :
    Reachable (Machine.ofCode code) d (Config.idle d' : Config D K ε ρ σ ι) := by
  induction h with
  | refl => exact Relation.ReflTransGen.refl
  | tail _ hstep ih =>
    obtain ⟨c, a, hrun⟩ := hstep
    exact Relation.ReflTransGen.trans ih (reaches_of_code i (fun _ => trivial) hrun)

end Alone

end Sql
