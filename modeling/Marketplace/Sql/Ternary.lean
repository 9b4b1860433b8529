import Mathlib.Logic.Basic

/-!
# Truth in SQL

A condition is true, false or, where it asks for a `NULL`, unknown. A row is kept where its condition is true;
of what conditions are made up of by `AND` and `OR`, this asks for the truth of the parts only.
-/

namespace Sql

/-- What a condition says of a row; `none` is unknown. -/
abbrev Truth := Option Bool

namespace Truth

/-- `AND` -/
def conj : Truth → Truth → Truth
  | some false, _ | _, some false => some false
  | some true, some true => some true
  | _, _ => none

/-- `OR` -/
def disj : Truth → Truth → Truth
  | some true, _ | _, some true => some true
  | some false, some false => some false
  | _, _ => none

/-- A comparison of two columns. -/
def compare {α : Type} (r : α → α → Bool) (a b : Option α) : Truth := a.bind fun x => b.map fun y => r x y

/-- `IS NULL` -/
def isNull {α : Type} (a : Option α) : Truth := some a.isNone

/-- Conditions that are all asked for. -/
def all (conditions : List Truth) : Truth := conditions.foldr conj (some true)

@[simp] theorem conj_eq_true {a b : Truth} : conj a b = some true ↔ a = some true ∧ b = some true := by
  rcases a with _ | _ | _ <;> rcases b with _ | _ | _ <;> simp [conj]

@[simp] theorem disj_eq_true {a b : Truth} : disj a b = some true ↔ a = some true ∨ b = some true := by
  rcases a with _ | _ | _ <;> rcases b with _ | _ | _ <;> simp [disj]

@[simp] theorem compare_eq_true {α : Type} {r : α → α → Bool} {a b : Option α} :
    compare r a b = some true ↔ ∃ x, a = some x ∧ ∃ y, b = some y ∧ r x y = true := by
  cases a <;> cases b <;> simp [compare]

@[simp] theorem isNull_eq_true {α : Type} {a : Option α} : isNull a = some true ↔ a = none := by
  simp [isNull]

@[simp] theorem all_eq_true {conditions : List Truth} : all conditions = some true ↔ ∀ c ∈ conditions, c = some true := by
  induction conditions with
  | nil => simp [all]
  | cons c conditions ih =>
    rw [all, List.foldr_cons, conj_eq_true, List.forall_mem_cons, ← ih]
    rfl

end Truth

end Sql
