import Marketplace.Arith.Rounding
import Marketplace.Python.Text
import Mathlib.Data.Int.Log

/-!
# Numbers in double precision

`Double.round` is the double nearest to a rational number, the even one where two are equally near, and an
infinity beyond the largest. The two zeros are one here: nothing below tells them apart.

`Language.floatOfText` is `float` of a text. A text of ASCII digits with at most one point inside, the only
kind of number every reader of texts understands alike, is a *plain* decimal (`plainDecimal`);
`floatOfText_plain` says that `float` reads it as the double nearest to its value.
-/

namespace Python

open Text

namespace Double

/-- The exponent of the last of the 53 places of a number. -/
def lastPlace (q : ℚ) : ℤ := max (Int.log 2 |q| - 52) (-1074)

/-- A number in its 53 places. -/
def roundPlaces (q : ℚ) : ℚ :=
  let scaled := q / 2 ^ lastPlace q
  Arith.roundDiv scaled.num scaled.den * 2 ^ lastPlace q

/-- The nearest double. -/
def round (q : ℚ) : Double :=
  if |roundPlaces q| < 2 ^ 1024 then .finite (roundPlaces q) else .inf (q < 0)

/-- `x + y` -/
def add : Double → Double → Double
  | .finite a, .finite b => round (a + b)
  | .nan, _ | _, .nan => .nan
  | .inf s, .inf t => if s = t then .inf s else .nan
  | .inf s, .finite _ | .finite _, .inf s => .inf s

/-- `x * y` -/
def mul : Double → Double → Double
  | .finite a, .finite b => round (a * b)
  | .nan, _ | _, .nan => .nan
  | .inf s, .inf t => .inf (s != t)
  | .inf s, .finite a | .finite a, .inf s => if a = 0 then .nan else .inf (s != (a < 0))

/-- `x / b`, for a number that is not zero. -/
def divBy (b : ℚ) : Double → Double
  | .finite a => round (a / b)
  | .inf s => .inf (s != (b < 0))
  | .nan => .nan

/-- `x <= n`, for a whole number. -/
def leInt (n : ℤ) : Double → Bool
  | .finite a => a ≤ n
  | .inf s => s
  | .nan => false

/-- A negative number is not rounded to a positive one. -/
theorem roundPlaces_nonpos {q : ℚ} (h : q < 0) : roundPlaces q ≤ 0 := by
  have hplace : (0 : ℚ) < 2 ^ lastPlace q := by positivity
  have hscaled : q / 2 ^ lastPlace q < 0 := div_neg_of_neg_of_pos h hplace
  have hnum : (q / 2 ^ lastPlace q).num < 0 := Rat.num_neg.mpr hscaled
  have hden : (0 : ℤ) < (q / 2 ^ lastPlace q).den := by exact_mod_cast (q / 2 ^ lastPlace q).den_pos
  have hround : Arith.roundDiv (q / 2 ^ lastPlace q).num (q / 2 ^ lastPlace q).den ≤ 0 := by
    rcases Arith.roundDiv_cases (a := (q / 2 ^ lastPlace q).num) (b := ((q / 2 ^ lastPlace q).den : ℤ)) with
      ⟨hr, -⟩ | ⟨hr, -⟩
    · rw [hr]
      exact (Int.ediv_neg_of_neg_of_pos hnum hden).le
    · have := Int.ediv_neg_of_neg_of_pos hnum hden
      omega
  rw [roundPlaces]
  exact mul_nonpos_of_nonpos_of_nonneg (by exact_mod_cast hround) hplace.le

/-- A negative number is not read as a positive double. -/
theorem nonpos_of_round {q v : ℚ} (h : q < 0) (hv : round q = .finite v) : v ≤ 0 := by
  rw [round] at hv
  split_ifs at hv with hfin
  obtain rfl := Double.finite.inj hv
  exact roundPlaces_nonpos h

/-- **A whole number of at most 53 places is itself a double.** -/
theorem round_natCast {n : ℕ} (h : n < 2 ^ 53) : round n = .finite n := by
  have hlog : Int.log 2 |(n : ℚ)| ≤ 52 := by
    rw [Nat.abs_cast, Int.log_natCast]
    have := Nat.log_lt_of_lt_pow' (b := 2) (by decide) h
    omega
  -- the last place is one of a whole number or behind the point
  obtain ⟨k, hk⟩ : ∃ k : ℕ, lastPlace n = -(k : ℤ) := by
    refine ⟨(-lastPlace n).toNat, ?_⟩
    have : lastPlace n ≤ 0 := by
      rw [lastPlace]
      omega
    omega
  have hscaled : (n : ℚ) / 2 ^ lastPlace n = ((n * 2 ^ k : ℤ) : ℚ) := by
    rw [hk, zpow_neg, div_inv_eq_mul, zpow_natCast]
    push_cast
    rfl
  have hplaces : roundPlaces n = n := by
    have hround : Arith.roundDiv ((n : ℤ) * 2 ^ k) 1 = n * 2 ^ k := by
      simpa using Arith.roundDiv_self (t := (n : ℤ) * 2 ^ k) Int.one_pos
    rw [roundPlaces]
    simp only [hscaled, Rat.num_intCast, Rat.den_intCast, Nat.cast_one, hround]
    rw [hk, zpow_neg, zpow_natCast]
    push_cast
    field_simp
  rw [round, hplaces, if_pos]
  rw [Nat.abs_cast]
  calc (n : ℚ) < 2 ^ 53 := by exact_mod_cast h
    _ ≤ 2 ^ 1024 := pow_le_pow_right₀ (by norm_num) (by decide)

end Double

/-! ### Plain decimals -/

/-- What stands before the point, and what stands behind it. -/
def splitPoint (cs : List Char) : List Char × List Char :=
  (cs.takeWhile (· ≠ '.'), cs.dropWhile (· ≠ '.'))

/-- The value of digits, of which `places` stand behind the point, under a power of ten. -/
def decimalValue (n : ℕ) (places : ℕ) (exponent : ℤ) : ℚ := n * 10 ^ (exponent - places)

/-- The characters are digits of ASCII, and there are some. -/
def asciiDigits (cs : List Char) : Bool := !cs.isEmpty && cs.all Char.isDigit

/-- Digits of ASCII, and digits behind a point or none; with blanks around. -/
def plainDecimal (blank : Char → Bool) (text : List Char) : Option ℚ :=
  let (whole, fraction) := splitPoint (stripChars blank text)
  if asciiDigits whole ∧ (fraction = [] ∨ asciiDigits fraction.tail) then
    (DigitClass.ascii.int? (whole ++ fraction.tail)).map fun n => decimalValue n fraction.tail.length 0
  else none

namespace Language

variable (py : Language)

/-! ### `float` -/

/-- Digits, with single underscores between them, or nothing. -/
def digitRun (cs : List Char) : Option (List Char) :=
  if cs = [] then some []
  else if (cs.splitOn '_').all fun g => !g.isEmpty then some (cs.splitOn '_').flatten else none

/-- The exponent of a number: nothing, or `e` and digits. -/
def readExponent : List Char → Option ℤ
  | [] => some 0
  | _ :: cs =>
    let (negative, ds) := readSign cs
    ((digitRun ds).bind py.digits.int?).map fun (n : ℕ) => if negative then -(n : ℤ) else (n : ℤ)

/-- A number without its sign. -/
def readDecimal (cs : List Char) : Option ℚ := do
  let exponent ← py.readExponent (cs.dropWhile fun c => ¬(c = 'e' ∨ c = 'E'))
  let (whole, fraction) := splitPoint (cs.takeWhile fun c => ¬(c = 'e' ∨ c = 'E'))
  let w ← digitRun whole
  let f ← digitRun fraction.tail
  let n ← py.digits.int? (w ++ f)
  pure (decimalValue n f.length exponent)

/-- `float(text)`; `none` is the `ValueError`. -/
def floatOfText (text : List Char) : Option Double :=
  let (negative, cs) := readSign (stripChars isSpace text)
  let lower := String.ofList (cs.map Char.toLower)
  if lower = "inf" ∨ lower = "infinity" then some (.inf negative)
  else if lower = "nan" then some .nan
  else (py.readDecimal cs).map fun q => Double.round (if negative then -q else q)

/-- `float(value)` -/
def toFloat : Json → Except Error Double
  | .int n => match Double.round n with
    | .inf _ => .error .overflowError
    | x => .ok x
  | .bool b => .ok (.finite (if b then 1 else 0))
  | .float x => .ok x
  | .str s => match py.floatOfText s.toList with
    | some x => .ok x
    | none => .error .valueError
  | .null | .arr _ | .obj _ => .error .typeError

end Language

/-! ### Plain decimals are read -/

variable {py : Language} {blank : Char → Bool}

theorem asciiDigits_iff {cs : List Char} : asciiDigits cs = true ↔ cs ≠ [] ∧ ∀ c ∈ cs, c.isDigit = true := by
  rw [asciiDigits]
  cases cs <;> simp

theorem splitPoint_of_digits {whole fraction : List Char} (hw : ∀ c ∈ whole, c.isDigit = true)
    (hf : fraction = [] ∨ fraction.head? = some '.') : splitPoint (whole ++ fraction) = (whole, fraction) := by
  have hne : ∀ c ∈ whole, decide (c ≠ '.') = true := by
    intro c hc
    have hd := hw c hc
    simp only [decide_eq_true_eq]
    rintro rfl
    exact absurd hd (by decide)
  rw [splitPoint, List.takeWhile_append_of_pos hne, List.dropWhile_append_of_pos hne]
  rcases hf with rfl | hf
  · simp
  · cases fraction with
    | nil => simp at hf
    | cons c rest =>
      obtain rfl : c = '.' := by simpa using hf
      simp

/-- What is plain: digits, and digits behind a point, between blanks. -/
theorem plainDecimal_eq_some {text : List Char} {q : ℚ} (h : plainDecimal blank text = some q) :
    ∃ whole fraction n, stripChars blank text = whole ++ fraction ∧ asciiDigits whole = true ∧
      (fraction = [] ∨ ∃ ds, fraction = '.' :: ds ∧ asciiDigits ds = true) ∧
      DigitClass.ascii.int? (whole ++ fraction.tail) = some n ∧ q = decimalValue n fraction.tail.length 0 := by
  simp only [plainDecimal] at h
  split_ifs at h with hplain
  obtain ⟨n, hn, rfl⟩ := Option.map_eq_some_iff.mp h
  refine ⟨_, _, n, (List.takeWhile_append_dropWhile).symm, hplain.1, ?_, hn, rfl⟩
  rcases hplain.2 with hnil | hds
  · exact .inl hnil
  · right
    have hhead := List.head?_dropWhile_not (fun c => decide (c ≠ '.')) (stripChars blank text)
    simp only [splitPoint] at hds ⊢
    cases hdrop : (stripChars blank text).dropWhile (fun c => decide (c ≠ '.')) with
    | nil =>
      rw [hdrop] at hds
      simp [asciiDigits] at hds
    | cons c ds =>
      rw [hdrop] at hhead hds
      refine ⟨ds, ?_, hds⟩
      simpa using hhead

theorem digitRun_of_digits {cs : List Char} (h : ∀ c ∈ cs, c.isDigit = true) : Language.digitRun cs = some cs := by
  rw [Language.digitRun]
  split_ifs with hnil hall
  · rw [hnil]
  · rw [List.splitOn_eq_singleton fun hm => absurd (h _ hm) (by decide)]
    simp
  · rw [List.splitOn_eq_singleton fun hm => absurd (h _ hm) (by decide)] at hall
    simp [hnil] at hall

/-- Digits of ASCII have their value in every version of Unicode. -/
theorem int?_of_digits {digits : DigitClass} {cs : List Char} (h : ∀ c ∈ cs, c.isDigit = true) :
    digits.int? cs = DigitClass.ascii.int? cs := by
  rw [DigitClass.int?, DigitClass.int?]
  split_ifs
  · rfl
  · rw [DigitClass.foldlM_value digits h, DigitClass.foldlM_value DigitClass.ascii h]

theorem toLower_of_isDigit {c : Char} (h : c.isDigit = true) : c.toLower = c := by
  have h57 : c.toNat ≤ 57 := (Char.isDigit_iff_toNat.mp h).2
  refine dif_neg ?_
  rintro ⟨hA, -⟩
  rw [ge_iff_le, UInt32.le_iff_toNat_le] at hA
  have h65 : 65 ≤ c.toNat := hA
  omega

variable (py) in
/-- **A plain decimal is read as the double nearest to its value.** -/
theorem floatOfText_plain {text : List Char} {q : ℚ} (hblank : ∀ c, blank c = true → isSpace c = true)
    (h : plainDecimal blank text = some q) : py.floatOfText text = some (Double.round q) := by
  obtain ⟨whole, fraction, n, htext, hwhole, hfraction, hn, rfl⟩ := plainDecimal_eq_some h
  obtain ⟨hne, hw⟩ := asciiDigits_iff.mp hwhole
  -- The characters left are digits and a point, none of which is a space, a sign or an `e`.
  have hds : ∀ c ∈ fraction.tail, c.isDigit = true := by
    rcases hfraction with rfl | ⟨ds, rfl, hds⟩
    · simp
    · exact (asciiDigits_iff.mp hds).2
  have hchars : ∀ c ∈ whole ++ fraction, c.isDigit = true ∨ c = '.' := by
    intro c hc
    rcases List.mem_append.mp hc with hc | hc
    · exact .inl (hw c hc)
    · rcases hfraction with rfl | ⟨ds, rfl, -⟩
      · simp at hc
      · rcases List.mem_cons.mp hc with rfl | hc
        · exact .inr rfl
        · exact .inl (hds c hc)
  have hstrip : stripChars isSpace text = whole ++ fraction := by
    rw [← stripChars_stripChars hblank, htext]
    refine stripChars_eq_self fun c hc => ?_
    rcases hchars c hc with hd | rfl
    · exact isSpace_of_isDigit hd
    · decide
  obtain ⟨d, rest, rfl⟩ : ∃ d rest, whole = d :: rest := List.exists_cons_of_ne_nil hne
  have hd : d.isDigit = true := hw d (by simp)
  have hsign : readSign (d :: rest ++ fraction) = (false, d :: rest ++ fraction) := by
    rw [readSign.eq_def]
    split
    · next heq =>
      obtain ⟨rfl, -⟩ := List.cons.inj heq
      exact absurd hd (by decide)
    · next heq =>
      obtain ⟨rfl, -⟩ := List.cons.inj heq
      exact absurd hd (by decide)
    · rfl
  have hword : ∀ w : String, ∀ l ls, w.toList = l :: ls → l.isDigit = false →
      String.ofList ((d :: rest ++ fraction).map Char.toLower) ≠ w := by
    intro w l ls hwl hl he
    rw [← String.toList_inj, String.toList_ofList, hwl, List.cons_append, List.map_cons] at he
    have hlow : d.toLower = l := (List.cons.inj he).1
    rw [toLower_of_isDigit hd] at hlow
    rw [hlow, hl] at hd
    exact absurd hd (by decide)
  have hexp : ∀ c ∈ d :: rest ++ fraction, decide (¬(c = 'e' ∨ c = 'E')) = true := by
    intro c hc
    rcases hchars c hc with hd | rfl
    · simp only [decide_eq_true_eq]
      rintro (rfl | rfl) <;> exact absurd hd (by decide)
    · decide
  have hread : py.readDecimal (d :: rest ++ fraction) = some (decimalValue n fraction.tail.length 0) := by
    have htake : (d :: rest ++ fraction).takeWhile (fun c => decide (¬(c = 'e' ∨ c = 'E'))) = d :: rest ++ fraction := by
      rw [List.takeWhile_eq_self_iff]
      exact hexp
    have hdrop : (d :: rest ++ fraction).dropWhile (fun c => decide (¬(c = 'e' ∨ c = 'E'))) = [] := by
      rw [List.dropWhile_eq_nil_iff]
      exact hexp
    have hsplit : splitPoint (d :: rest ++ fraction) = (d :: rest, fraction) := by
      refine splitPoint_of_digits hw ?_
      rcases hfraction with rfl | ⟨ds, rfl, -⟩
      · exact .inl rfl
      · exact .inr rfl
    have hint : py.digits.int? (d :: rest ++ fraction.tail) = some n := by
      rw [← hn]
      refine int?_of_digits fun c hc => ?_
      rcases List.mem_append.mp hc with hc | hc
      · exact hw c hc
      · exact hds c hc
    simp only [Language.readDecimal, hdrop, htake, hsplit, Language.readExponent, digitRun_of_digits hw,
      digitRun_of_digits hds, Option.bind_eq_bind, Option.bind_some, hint, Option.pure_def]
  rw [Language.floatOfText, hstrip, hsign]
  simp only [hread, Option.map_some, Bool.false_eq_true, if_false]
  rw [if_neg, if_neg]
  · exact hword "nan" 'n' ['a', 'n'] rfl (by decide)
  · rintro (hinf | hinf)
    · exact hword "inf" 'i' ['n', 'f'] rfl (by decide) hinf
    · exact hword "infinity" 'i' ['n', 'f', 'i', 'n', 'i', 't', 'y'] rfl (by decide) hinf

end Python
