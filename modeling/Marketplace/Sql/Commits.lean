import Mathlib.Tactic

/-!
# A session that commits on the way

A function that is given a session may commit it, alone or through another function it calls, and go on. When it
raises later, the caller closes the session: what was changed since the last commit is gone, and what was committed
stays. `Work` is such a function with nothing else going on, `Work.closed` what it leaves, and `Work.moments` all that
was committed at some time, which is what others see.

A part that only edits the rows (`Work.edit`) leaves what is committed as it is.
-/

namespace Sql

/-- What is committed and was so before, and what the session sees: that, with its own changes. -/
structure View (D : Type) where
  past : List D
  committed : D
  pending : D

/-- A function of a session. -/
def Work (D ε α : Type) : Type := View D → Except ε α × View D

namespace Work

variable {D ε α β : Type}

instance : Monad (Work D ε) where
  pure a v := (.ok a, v)
  bind w f v :=
    match w v with
    | (.ok a, v') => f a v'
    | (.error e, v') => (.error e, v')

/-- Queries and assignments; they may raise. -/
def edit (f : D → Except ε D) : Work D ε Unit := fun v =>
  match f v.pending with
  | .ok d => (.ok (), ⟨v.past, v.committed, d⟩)
  | .error e => (.error e, v)

/-- `await db.commit()` -/
def commit : Work D ε Unit := fun v => (.ok (), ⟨v.committed :: v.past, v.pending, v.pending⟩)

/-- What is computed of the rows; it may raise. -/
def answer (f : D → Except ε α) : Work D ε α := fun v => (f v.pending, v)

/-- What the function returns or raises, and what is committed when its session is closed. -/
def closed (w : Work D ε α) (d : D) : Except ε α × D :=
  let r := w ⟨[], d, d⟩
  (r.1, r.2.committed)

/-- All that was committed while the function ran, from what it found to what it leaves. -/
def moments (w : Work D ε α) (d : D) : List D :=
  let r := w ⟨[], d, d⟩
  (r.2.committed :: r.2.past).reverse

theorem bind_eq (w : Work D ε α) (f : α → Work D ε β) (v : View D) :
    (w >>= f) v = match w v with
      | (.ok a, v') => f a v'
      | (.error e, v') => (.error e, v') := rfl

theorem edit_bind (f : D → Except ε D) (g : Unit → Work D ε β) (v : View D) :
    (edit f >>= g) v = match f v.pending with
      | .ok d => g () ⟨v.past, v.committed, d⟩
      | .error e => (.error e, v) := by
  rw [bind_eq, edit]
  cases f v.pending <;> rfl

theorem commit_bind (g : Unit → Work D ε β) (v : View D) :
    (commit >>= g) v = g () ⟨v.committed :: v.past, v.pending, v.pending⟩ := rfl

/-! ### What every commit has -/

/-- From a view that has committed nothing but `P`, with pending rows that are `pre`, the function commits nothing
but `P`, and where it returns, the rows are `post`. -/
def Commits (P pre : D → Prop) (w : Work D ε α) (post : α → D → Prop) : Prop :=
  ∀ v : View D, (∀ d ∈ v.committed :: v.past, P d) → pre v.pending →
    (∀ d ∈ (w v).2.committed :: (w v).2.past, P d) ∧ ∀ a, (w v).1 = .ok a → post a (w v).2.pending

variable {P pre : D → Prop} {mid : α → D → Prop} {post : β → D → Prop} {w : Work D ε α}

theorem Commits.pure {a : α} {post : α → D → Prop} (h : ∀ d, pre d → post a d) :
    Commits P pre (Pure.pure a : Work D ε α) post := by
  intro v hcommitted hpending
  refine ⟨hcommitted, fun b hb => ?_⟩
  obtain rfl : a = b := Except.ok.inj hb
  exact h _ hpending

theorem Commits.bind {f : α → Work D ε β} (hw : Commits P pre w mid) (hf : ∀ a, Commits P (mid a) (f a) post) :
    Commits P pre (w >>= f) post := by
  intro v hcommitted hpending
  obtain ⟨hcommitted', hmid⟩ := hw v hcommitted hpending
  rw [bind_eq]
  rcases hv : w v with ⟨e | a, v'⟩
  · rw [hv] at hcommitted'
    exact ⟨hcommitted', fun b hb => by cases hb⟩
  · rw [hv] at hcommitted' hmid
    exact hf a v' hcommitted' (hmid a rfl)

theorem Commits.edit {f : D → Except ε D} {post : Unit → D → Prop}
    (h : ∀ d d', pre d → f d = .ok d' → post () d') : Commits P pre (edit f) post := by
  intro v hcommitted hpending
  rw [Work.edit]
  rcases hf : f v.pending with e | d
  · exact ⟨hcommitted, fun _ hb => by cases hb⟩
  · exact ⟨hcommitted, fun _ _ => h _ _ hpending hf⟩

/-- A commit is where the rows have to be `P`. -/
theorem Commits.commit {post : Unit → D → Prop} (hP : ∀ d, pre d → P d) (hpost : ∀ d, pre d → post () d) :
    Commits P pre (commit : Work D ε Unit) post := by
  intro v hcommitted hpending
  refine ⟨?_, fun _ _ => hpost _ hpending⟩
  rintro d hd
  rcases List.mem_cons.mp hd with rfl | hd
  · exact hP _ hpending
  · exact hcommitted d hd

theorem Commits.answer {f : D → Except ε α} {post : α → D → Prop} (h : ∀ d a, pre d → f d = .ok a → post a d) :
    Commits P pre (answer f) post :=
  fun _ hcommitted hpending => ⟨hcommitted, fun a ha => h _ a hpending ha⟩

/-- All moments of a function are `P`. -/
theorem Commits.moments {post : α → D → Prop} (h : Commits P pre w post) {d : D} (hP : P d) (hpre : pre d) :
    ∀ d' ∈ w.moments d, P d' := by
  intro d' hd'
  refine (h ⟨[], d, d⟩ ?_ hpre).1 d' (List.mem_reverse.mp hd')
  rintro x hx
  obtain rfl := List.mem_singleton.mp hx
  exact hP

/-- What is left is one of the moments. -/
theorem closed_mem_moments (w : Work D ε α) (d : D) : (w.closed d).2 ∈ w.moments d :=
  List.mem_reverse.mpr List.mem_cons_self

end Work

end Sql
