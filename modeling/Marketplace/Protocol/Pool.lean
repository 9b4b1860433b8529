import Marketplace.Sql.Derived
import Mathlib.Logic.Relation

/-!
# Units taken out of a pool

A pool has a number of units that are free; the others were taken out in lots, each under the key
of its taker. A lot is held until its units are used or given back, and then it is settled: `Pool.Step` has
no other moves. So units are neither made nor lost (`Pool.Runs.total`), and a settled lot
stays as it is, so that no units are given back twice, or after they were used
(`Pool.Runs.settled`).
-/

namespace Protocol

open Sql

/-- What became of the units one taker took out. -/
inductive Lot
  | held (n : ℕ)
  | used (n : ℕ)
  | returned
  deriving DecidableEq, Repr

namespace Lot

/-- The units that are not back in the pool. -/
def units : Lot → ℕ
  | held n => n
  | used n => n
  | returned => 0

/-- The units are used or given back. -/
def IsSettled : Lot → Prop
  | held _ => False
  | _ => True

end Lot

/-- A pool of units. -/
@[ext] structure Pool (ι : Type) where
  free : ℕ
  lots : Table ι Lot

namespace Pool

variable {ι : Type} [DecidableEq ι]

/-- All units, wherever they are. -/
def total (P : Pool ι) : ℕ := P.free + P.lots.sum fun _ l => l.units

/-- What can happen to a pool. -/
inductive Step : Pool ι → Pool ι → Prop
  | idle (P : Pool ι) : Step P P
  | take (P : Pool ι) (k : ι) (n : ℕ) (fresh : P.lots.get? k = none) (enough : n ≤ P.free) :
      Step P ⟨P.free - n, P.lots.insert k (.held n)⟩
  | use (P : Pool ι) (k : ι) (n : ℕ) (held : P.lots.get? k = some (.held n)) :
      Step P ⟨P.free, P.lots.modify k fun _ => .used n⟩
  | giveBack (P : Pool ι) (k : ι) (n : ℕ) (held : P.lots.get? k = some (.held n)) :
      Step P ⟨P.free + n, P.lots.modify k fun _ => .returned⟩

/-- Any number of steps. -/
def Runs : Pool ι → Pool ι → Prop := Relation.ReflTransGen Step

/-- Settling a held lot takes its units out of the sum, and what is left of it in again. -/
theorem sum_settle {t : Table ι Lot} {k : ι} {n : ℕ} (h : t.get? k = some (.held n)) (l : Lot) :
    (t.modify k fun _ => l).sum (fun _ l => l.units) + n = t.sum (fun _ l => l.units) + l.units := by
  have := Table.sum_modify h (fun _ => l) (fun _ l => l.units)
  simpa [Lot.units] using this

theorem Step.total {P P' : Pool ι} (h : Step P P') : P'.total = P.total := by
  cases h with
  | idle => rfl
  | take k n fresh enough =>
    rw [Pool.total, Pool.total, Table.sum_insert fresh]
    change P.free - n + (_ + n) = _
    omega
  | use k n held =>
    have := sum_settle held (.used n)
    rw [Pool.total, Pool.total]
    change _ + n = _ + n at this
    dsimp only
    omega
  | giveBack k n held =>
    have := sum_settle held .returned
    rw [Pool.total, Pool.total]
    change _ + n = _ + 0 at this
    dsimp only
    omega

theorem Step.settled {P P' : Pool ι} (h : Step P P') {k : ι} {l : Lot} (hl : P.lots.get? k = some l)
    (hs : l.IsSettled) : P'.lots.get? k = some l := by
  cases h with
  | idle => exact hl
  | take k' n fresh enough =>
    have hk : k ≠ k' := fun hk => by simp [hk, fresh] at hl
    rwa [Table.get?_insert_of_ne hk]
  | use k' n held =>
    have hk : k ≠ k' := by
      rintro rfl
      obtain rfl := Option.some.inj (hl.symm.trans held)
      exact hs
    rwa [Table.get?_modify_of_ne _ hk]
  | giveBack k' n held =>
    have hk : k ≠ k' := by
      rintro rfl
      obtain rfl := Option.some.inj (hl.symm.trans held)
      exact hs
    rwa [Table.get?_modify_of_ne _ hk]

/-- The free units grow only by the units of one held lot, which is settled by that. -/
theorem Step.of_free_lt {P P' : Pool ι} (h : Step P P') (hlt : P.free < P'.free) :
    ∃ k n, P.lots.get? k = some (.held n) ∧ P'.free = P.free + n ∧
      P'.lots.get? k = some .returned := by
  cases h with
  | idle => exact absurd hlt (by omega)
  | take k n fresh enough =>
    dsimp only at hlt
    omega
  | use k n held => exact absurd hlt (by simp)
  | giveBack k n held =>
    exact ⟨k, n, held, rfl, by rw [Table.get?_modify_self, held, Option.map_some]⟩

/-- **Units are neither made nor lost.** -/
theorem Runs.total {P P' : Pool ι} (h : Runs P P') : P'.total = P.total := by
  induction h with
  | refl => rfl
  | tail _ hs ih => exact hs.total.trans ih

/-- **A settled lot stays settled as it is.** -/
theorem Runs.settled {P P' : Pool ι} (h : Runs P P') {k : ι} {l : Lot}
    (hl : P.lots.get? k = some l) (hs : l.IsSettled) : P'.lots.get? k = some l := by
  induction h with
  | refl => exact hl
  | tail _ hstep ih => exact hstep.settled ih hs

end Pool

end Protocol
