import Mathlib.Data.List.Basic
import Mathlib.Data.Option.Basic

/-!
# A slot that its first claimant holds

Offers come in one after another, each under a key. The first that claims the slot holds it from
then on, under its key, and only offers under that key can still settle it; some settle it at once.
`SlotRules` says which offers do what, `SlotRules.phase` is where the slot stands after a
list of offers.

Which offer settles the slot depends on the order: `phase_eq_settled_iff` looks for an offer that
settles it and at the *first* claimant before that one, whose key it must share.
-/

namespace Protocol

/-- Where a slot stands. -/
inductive SlotPhase (κ : Type)
  | free
  | held (key : κ)
  | settled
  deriving DecidableEq, Repr

/-- What offers do to a slot. -/
structure SlotRules (α κ : Type) where
  key : α → κ
  /-- The offer takes the slot when it is free. -/
  claims : α → Bool
  /-- The offer settles the slot when it is free. -/
  settlesFree : α → Bool
  /-- The offer settles the slot when it is held under the key of the offer. -/
  settlesHeld : α → Bool

namespace SlotRules

variable {α κ : Type} [DecidableEq κ] (rules : SlotRules α κ)

/-- One offer. -/
def step : SlotPhase κ → α → SlotPhase κ
  | .free, a =>
    if rules.settlesFree a then .settled else if rules.claims a then .held (rules.key a) else .free
  | .held k, a => if rules.key a = k ∧ rules.settlesHeld a then .settled else .held k
  | .settled, _ => .settled

/-- Where the slot stands after the offers. -/
def phase (ph : SlotPhase κ) (as : List α) : SlotPhase κ := as.foldl rules.step ph

@[simp] theorem phase_nil (ph : SlotPhase κ) : rules.phase ph [] = ph := rfl

@[simp] theorem phase_cons (ph : SlotPhase κ) (a : α) (as : List α) :
    rules.phase ph (a :: as) = rules.phase (rules.step ph a) as := rfl

@[simp] theorem phase_settled (as : List α) : rules.phase .settled as = .settled := by
  induction as with
  | nil => rfl
  | cons a as ih => rw [phase_cons]; exact ih

/-- A slot that is held is settled by an offer under the key of its holder. -/
theorem phase_held_iff (k : κ) (as : List α) :
    rules.phase (.held k) as = .settled ↔ ∃ a ∈ as, rules.key a = k ∧ rules.settlesHeld a = true := by
  induction as with
  | nil => simp
  | cons a as ih =>
    rw [phase_cons, step]
    split
    next h => exact iff_of_true (phase_settled rules as) ⟨a, by simp, h.1, h.2⟩
    next h =>
      rw [ih]
      constructor
      · rintro ⟨b, hb, hk⟩
        exact ⟨b, List.mem_cons_of_mem _ hb, hk⟩
      · rintro ⟨b, hb, hk⟩
        rcases List.mem_cons.mp hb with rfl | hb
        · exact absurd hk h
        · exact ⟨b, hb, hk⟩

/-- The offer settles a slot that was free before the offers `before`. -/
def SettlesAfter (before : List α) (a : α) : Prop :=
  match before.find? rules.claims with
  | none => rules.settlesFree a = true
  | some b => rules.key a = rules.key b ∧ rules.settlesHeld a = true

instance (before : List α) (a : α) : Decidable (rules.SettlesAfter before a) := by
  unfold SettlesAfter
  split <;> infer_instance

variable {rules} in
omit [DecidableEq κ] in
theorem settlesAfter_cons_of_claims {b : α} (hb : rules.claims b = true) (before : List α) (a : α) :
    rules.SettlesAfter (b :: before) a ↔ rules.key a = rules.key b ∧ rules.settlesHeld a = true := by
  rw [SettlesAfter, List.find?_cons_of_pos hb]

variable {rules} in
omit [DecidableEq κ] in
theorem settlesAfter_cons_of_not_claims {b : α} (hb : rules.claims b = false) (before : List α)
    (a : α) : rules.SettlesAfter (b :: before) a ↔ rules.SettlesAfter before a := by
  rw [SettlesAfter, List.find?_cons_of_neg (by simp [hb]), SettlesAfter]

/-- **A free slot is settled when an offer comes that settles it and shares the key of the first
claimant before it.** -/
theorem phase_eq_settled_iff (as : List α) :
    rules.phase .free as = .settled ↔
      ∃ before a after, as = before ++ a :: after ∧ rules.SettlesAfter before a := by
  induction as with
  | nil => simp
  | cons b as ih =>
    rw [phase_cons, step]
    split
    next hset => exact iff_of_true (phase_settled rules as) ⟨[], b, as, rfl, hset⟩
    next hset =>
      split
      next hclaims =>
        rw [phase_held_iff]
        constructor
        · rintro ⟨a, ha, hkey⟩
          obtain ⟨before, after, rfl⟩ := List.append_of_mem ha
          exact ⟨b :: before, a, after, rfl, (settlesAfter_cons_of_claims hclaims before a).mpr hkey⟩
        · rintro ⟨before, a, after, heq, hafter⟩
          rcases before with _ | ⟨c, before⟩
          · obtain ⟨rfl, rfl⟩ : b = a ∧ as = after := by simpa using heq
            exact absurd hafter hset
          · obtain ⟨rfl, rfl⟩ : b = c ∧ as = before ++ a :: after := by simpa using heq
            exact ⟨a, by simp, (settlesAfter_cons_of_claims hclaims before a).mp hafter⟩
      next hclaims =>
        have hclaims' : rules.claims b = false := by simpa using hclaims
        rw [ih]
        constructor
        · rintro ⟨before, a, after, rfl, hafter⟩
          exact ⟨b :: before, a, after, rfl,
            (settlesAfter_cons_of_not_claims hclaims' before a).mpr hafter⟩
        · rintro ⟨before, a, after, heq, hafter⟩
          rcases before with _ | ⟨c, before⟩
          · obtain ⟨rfl, rfl⟩ : b = a ∧ as = after := by simpa using heq
            exact absurd hafter hset
          · obtain ⟨rfl, rfl⟩ : b = c ∧ as = before ++ a :: after := by simpa using heq
            exact ⟨before, a, after, rfl,
              (settlesAfter_cons_of_not_claims hclaims' before a).mp hafter⟩

/-! ### Offers without effect -/

/-- The offer does nothing, and never will: what does not claim a free slot and does not settle it
stays without effect when another holds it only if it could not settle it then. -/
def Spent : SlotPhase κ → α → Prop
  | .free, a => rules.settlesFree a = false ∧ rules.claims a = false ∧ rules.settlesHeld a = false
  | .held k, a => ¬ (rules.key a = k ∧ rules.settlesHeld a = true)
  | .settled, _ => True

variable {rules}

theorem Spent.step_eq {ph : SlotPhase κ} {a : α} (h : rules.Spent ph a) : rules.step ph a = ph := by
  cases ph with
  | free => simp [step, h.1, h.2.1]
  | held k => exact if_neg h
  | settled => rfl

/-- What is spent stays spent. -/
theorem Spent.step {ph : SlotPhase κ} {a : α} (h : rules.Spent ph a) (b : α) :
    rules.Spent (rules.step ph b) a := by
  cases ph with
  | free =>
    rw [SlotRules.step]
    split
    · trivial
    · split
      · exact fun hk => absurd hk.2 (by simp [h.2.2])
      · exact h
  | held k =>
    rw [SlotRules.step]
    split
    · trivial
    · exact h
  | settled => trivial

end SlotRules

end Protocol
