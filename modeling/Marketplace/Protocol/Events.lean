import Mathlib.Logic.Relation

/-!
# Machines that are driven by events

A machine has a step for every event that is possible in a state. `EventMachine.Runs` are its finite
runs, under a condition on which event may come in which state; what every step keeps every run keeps
(`Runs.invariant`). `EventMachine.play` computes a run from a list of events.
-/

namespace Protocol

/-- States, events, and what an event does where it is possible. -/
structure EventMachine (S E : Type) where
  step : S → E → Option S

namespace EventMachine

variable {S E : Type} (M : EventMachine S E)

/-- One step, with an event that may come. -/
def Next (may : S → E → Prop) (s s' : S) : Prop := ∃ e, may s e ∧ M.step s e = some s'

/-- Any number of steps. -/
def Runs (may : S → E → Prop) : S → S → Prop := Relation.ReflTransGen (M.Next may)

variable {M} {may : S → E → Prop} {s s' s'' : S}

theorem Runs.refl (s : S) : M.Runs may s s := Relation.ReflTransGen.refl

/-- **What every step keeps, every run keeps.** -/
theorem Runs.invariant {P : S → Prop} (hstep : ∀ s e s', P s → may s e → M.step s e = some s' → P s')
    (hs : P s) (h : M.Runs may s s') : P s' := by
  induction h with
  | refl => exact hs
  | tail _ hnext ih =>
    obtain ⟨e, he, hs'⟩ := hnext
    exact hstep _ e _ ih he hs'

/-- What every step moves along, every run moves along; `P` may be used on the way. -/
theorem Runs.rel {P : S → Prop} {r : S → S → Prop} (hrefl : ∀ s, r s s)
    (htrans : ∀ s s' s'', r s s' → r s' s'' → r s s'')
    (hstep : ∀ s e s', P s → may s e → M.step s e = some s' → P s' ∧ r s s') (hs : P s)
    (h : M.Runs may s s') : r s s' := by
  suffices hboth : P s' ∧ r s s' from hboth.2
  induction h with
  | refl => exact ⟨hs, hrefl s⟩
  | tail _ hnext ih =>
    obtain ⟨e, he, hs'⟩ := hnext
    obtain ⟨hP, hr⟩ := hstep _ e _ ih.1 he hs'
    exact ⟨hP, htrans _ _ _ ih.2 hr⟩

variable (M) (ok : S → E → Bool)

/-- The run with these events, as long as all of them are possible and `ok` lets them through. -/
def play : S → List E → Option S
  | s, [] => some s
  | s, e :: es => if ok s e then (M.step s e).bind fun s' => play s' es else none

variable {M ok}

/-- **What is played is a run.** -/
theorem runs_of_play (hok : ∀ s e, ok s e = true → may s e) {es : List E}
    (h : M.play ok s es = some s') : M.Runs may s s' := by
  induction es generalizing s with
  | nil =>
    obtain rfl := Option.some.inj h
    exact .refl s
  | cons e es ih =>
    rw [play] at h
    split at h
    next he =>
      obtain ⟨s₁, hs₁, hrest⟩ := Option.bind_eq_some_iff.mp h
      exact Relation.ReflTransGen.head ⟨e, hok s e he, hs₁⟩ (ih hrest)
    next => cases h

/-- A run whose last state has a property that can be decided. -/
theorem exists_of_play (ok : S → E → Bool) (hok : ∀ s e, ok s e = true → may s e) (es : List E)
    {P : S → Prop} [DecidablePred P] (h : (M.play ok s es).any (fun s' => decide (P s')) = true) :
    ∃ s', M.Runs may s s' ∧ P s' := by
  rcases hplay : M.play ok s es with _ | s'
  · rw [hplay] at h
    cases h
  · rw [hplay] at h
    exact ⟨s', runs_of_play hok hplay, of_decide_eq_true h⟩

end EventMachine

end Protocol
