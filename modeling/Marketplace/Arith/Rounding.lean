import Mathlib.Tactic
import Mathlib.Data.Rat.Floor

/-!
# Whole amounts out of fractions

Two ways a program turns a fraction of a whole amount into a whole amount:
`percentOf` cuts the decimals off, `roundDiv` rounds to the nearest whole number and a half to the
even one. Both are computed in integers; `percentOf_eq_floor` and `abs_roundDiv_sub_le`
say what they compute in the rationals. What users of the amounts need is that the part never exceeds the
whole: `percentOf_le` and `roundDiv_le`.
-/

namespace Arith

/-- `p` percent of an amount that is not negative, decimals cut off. -/
def percentOf (amount : ℤ) (p : ℚ) : ℤ := amount * p.num / (100 * p.den)

theorem percentOf_eq_floor (amount : ℤ) (p : ℚ) :
    percentOf amount p = ⌊(amount : ℚ) * p / 100⌋ := by
  have h : (amount : ℚ) * p / 100 = ((amount * p.num : ℤ) : ℚ) / ((100 * p.den : ℕ) : ℚ) := by
    conv_lhs => rw [← Rat.num_div_den p]
    have hden : (p.den : ℚ) ≠ 0 := by exact_mod_cast p.den_ne_zero
    push_cast
    field_simp
  rw [h, Rat.floor_intCast_div_natCast, percentOf]
  push_cast
  rfl

theorem percentOf_nonneg {amount : ℤ} {p : ℚ} (ha : 0 ≤ amount) (hp : 0 ≤ p) :
    0 ≤ percentOf amount p := by
  rw [percentOf_eq_floor, Int.floor_nonneg]
  have : (0 : ℚ) ≤ amount := by exact_mod_cast ha
  positivity

theorem percentOf_le {amount : ℤ} {p : ℚ} (ha : 0 ≤ amount) (hp : p ≤ 100) :
    percentOf amount p ≤ amount := by
  have ha' : (0 : ℚ) ≤ amount := by exact_mod_cast ha
  have h : (amount : ℚ) * p / 100 ≤ amount := by
    rw [div_le_iff₀ (by norm_num)]
    exact mul_le_mul_of_nonneg_left hp ha'
  rw [percentOf_eq_floor]
  exact_mod_cast (Int.floor_le _).trans h

/-! ### How far two cuts are apart -/

/-- Cutting the decimals off a product over a whole number is the division of whole numbers. -/
theorem ediv_eq_floor (a : ℤ) {b : ℤ} (hb : 0 < b) : a / b = ⌊(a : ℚ) / b⌋ := by
  lift b to ℕ using hb.le
  rw [Int.cast_natCast, Rat.floor_intCast_div_natCast]

/-- Taking `e` away before the decimals are cut off lowers the result by at most `k` whole units
exactly when the decimals of `x` make up for what `e` exceeds `k` by. -/
theorem floor_sub_floor_le_iff (x e : ℚ) (k : ℤ) : ⌊x⌋ - ⌊x - e⌋ ≤ k ↔ e ≤ k + Int.fract x := by
  have h : ⌊x⌋ - k ≤ ⌊x - e⌋ ↔ ((⌊x⌋ - k : ℤ) : ℚ) ≤ x - e := Int.le_floor
  have hx : (⌊x⌋ : ℚ) + Int.fract x = x := Int.floor_add_fract x
  push_cast at h
  constructor
  · intro hle
    have := h.mp (by omega)
    linarith
  · intro hle
    have := h.mpr (by linarith)
    omega

/-! ### Rounding to the nearest -/

/-- `a / b` rounded to the nearest whole number, a half to the even one. -/
def roundDiv (a b : ℤ) : ℤ :=
  let q := a / b
  let r := a % b
  if 2 * r < b then q
  else if b < 2 * r then q + 1
  else if q % 2 = 0 then q
  else q + 1

theorem roundDiv_cases {a b : ℤ} :
    (roundDiv a b = a / b ∧ 2 * (a % b) ≤ b) ∨ (roundDiv a b = a / b + 1 ∧ b ≤ 2 * (a % b)) := by
  rcases lt_trichotomy (2 * (a % b)) b with h | h | h
  · exact Or.inl ⟨by simp [roundDiv, h], h.le⟩
  · by_cases hq : a / b % 2 = 0
    · exact Or.inl ⟨by simp [roundDiv, h, hq], h.le⟩
    · exact Or.inr ⟨by simp [roundDiv, h, hq], h.ge⟩
  · exact Or.inr ⟨by simp [roundDiv, h, not_lt.mpr h.le], h.le⟩

/-- **It is a nearest whole number.** -/
theorem abs_roundDiv_sub_le {a b : ℤ} (hb : 0 < b) : |2 * (roundDiv a b * b - a)| ≤ b := by
  have hdiv : b * (a / b) + a % b = a := Int.mul_ediv_add_emod a b
  have hnonneg : 0 ≤ a % b := Int.emod_nonneg a hb.ne'
  have hlt : a % b < b := Int.emod_lt_of_pos a hb
  rcases roundDiv_cases (a := a) (b := b) with ⟨h, hr⟩ | ⟨h, hr⟩
  · rw [h, abs_le]
    constructor <;> nlinarith
  · rw [h, abs_le]
    constructor <;> nlinarith

/-- The rounded part `t * k / n` of a whole `t` does not exceed the whole. -/
theorem roundDiv_le {t k n : ℤ} (ht : 0 ≤ t) (hkn : k ≤ n) (hn : 0 < n) :
    roundDiv (t * k) n ≤ t := by
  by_contra hlt
  rw [not_le] at hlt
  have habs := (abs_le.mp (abs_roundDiv_sub_le (a := t * k) hn)).2
  have h1 : (t + 1) * n ≤ roundDiv (t * k) n * n :=
    mul_le_mul_of_nonneg_right (by omega) hn.le
  have h2 : t * k ≤ t * n := mul_le_mul_of_nonneg_left hkn ht
  nlinarith

theorem roundDiv_self {t n : ℤ} (hn : 0 < n) : roundDiv (t * n) n = t := by
  have h1 : t * n / n = t := Int.mul_ediv_cancel t hn.ne'
  have h2 : t * n % n = 0 := Int.mul_emod_left t n
  simp [roundDiv, h1, h2, hn]

end Arith
