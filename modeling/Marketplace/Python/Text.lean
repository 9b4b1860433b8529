import Marketplace.Python.Json

/-!
# Texts in Python

Upper case and `casefold`, which map a character to one or several and are left open beyond ASCII
(`Casing`), and `int` of a text all of whose characters are digits. There are characters, such as `²`,
that `isdigit` takes for digits and `int` does not, and a text may be too long to be converted: `Numeral` is
what a text of digits has to be for `int` to return (`exists_intOfText_iff`).
-/

namespace Python

open Text

/-- The case of characters. -/
structure Casing where
  upper : Char → List Char
  fold : Char → List Char
  upper_ascii : ∀ c : Char, c.toNat < 128 → upper c = [c.toUpper]
  fold_ascii : ∀ c : Char, c.toNat < 128 → fold c = [c.toLower]
  upper_ne : ∀ c, upper c ≠ []
  fold_ne : ∀ c, fold c ≠ []

namespace Casing

/-- No letters but those of ASCII have a case. -/
def ascii : Casing where
  upper c := if c.toNat < 128 then [c.toUpper] else [c]
  fold c := if c.toNat < 128 then [c.toLower] else [c]
  upper_ascii _ h := if_pos h
  fold_ascii _ h := if_pos h
  upper_ne c := by split_ifs <;> simp
  fold_ne c := by split_ifs <;> simp

variable (casing : Casing)

/-- `text.casefold()` -/
def casefold (text : String) : String := String.ofList (text.toList.flatMap casing.fold)

/-- `text.upper()` -/
def toUpper (text : String) : String := String.ofList (text.toList.flatMap casing.upper)

/-- What is not empty does not become so. -/
theorem casefold_eq_empty_iff {text : String} : casing.casefold text = "" ↔ text = "" := by
  rw [casefold, ← String.toList_inj, String.toList_ofList, ← String.toList_inj]
  cases text.toList with
  | nil => simp
  | cons c cs => simp [casing.fold_ne c]

end Casing

/-! ### Digits -/

variable (py : Language)

/-- A text that is not all digits, or one that `int` converts. -/
def Numeral (text : List Char) : Prop :=
  py.digits.allDigits text = true → (∀ c ∈ text, py.digits.isDecimal c = true) ∧ text.length ≤ maxStrDigits

variable {py}

/-- A character of ASCII that is no digit. -/
theorem not_mem_of_allDigits {text : List Char} (h : py.digits.allDigits text = true) {c : Char} (hc : c.toNat < 128)
    (hd : c.isDigit = false) : c ∉ text := by
  intro hmem
  simp only [DigitClass.allDigits, Bool.and_eq_true, List.all_eq_true] at h
  have := h.2 c hmem
  rw [py.digits.isdigit_ascii c hc, hd] at this
  exact absurd this (by decide)

/-- The digits of a number are converted where each has a value. -/
theorem isSome_foldlM_value {f : ℕ → ℕ → ℕ} {value : Char → Option ℕ} {cs : List Char} (n : ℕ) :
    (cs.foldlM (fun n c => (value c).map (f n)) n).isSome = true ↔ ∀ c ∈ cs, (value c).isSome = true := by
  induction cs generalizing n with
  | nil => simp
  | cons c cs ih =>
    rw [List.foldlM_cons]
    cases hc : value c with
    | none => simp [hc]
    | some d => simpa [hc] using ih (f n d)

/-- **A text of digits is converted exactly where it is a numeral.** -/
theorem exists_intOfText_iff {text : List Char} (hstrip : stripChars isSpace text = text)
    (hdigits : py.digits.allDigits text = true) : (∃ n, py.intOfText text = some n) ↔ Numeral py text := by
  have hminus := not_mem_of_allDigits hdigits (c := '-') (by decide) (by decide)
  have hplus := not_mem_of_allDigits hdigits (c := '+') (by decide) (by decide)
  have hscore := not_mem_of_allDigits hdigits (c := '_') (by decide) (by decide)
  have hne : text ≠ [] := by
    rintro rfl
    simp [DigitClass.allDigits] at hdigits
  have hsign : readSign text = (false, text) := by
    rw [readSign.eq_def]
    split
    · simp at hminus
    · simp at hplus
    · rfl
  have hfilter : text.filter (· ≠ '_') = text := by
    refine List.filter_eq_self.mpr fun c hc => ?_
    simpa using fun h : c = '_' => hscore (h ▸ hc)
  have hread : readDigits py.digits.value 10 text = text.foldlM (fun n c => (py.digits.value c).map (10 * n + ·)) 0 := by
    rw [readDigits, List.splitOn_eq_singleton hscore]
    simp [hne]
  have hall : (text.foldlM (fun n c => (py.digits.value c).map (10 * n + ·)) 0).isSome = true ↔
      ∀ c ∈ text, py.digits.isDecimal c = true := isSome_foldlM_value (f := fun n d => 10 * n + d) 0
  rw [Language.intOfText, hstrip, hsign]
  simp only [hfilter, hread, Numeral, hdigits, true_imp_iff]
  rw [← hall]
  by_cases hlen : text.length ≤ maxStrDigits
  · simp only [hlen, if_true, and_true, ← Option.isSome_iff_exists, Option.isSome_map]
  · simp only [hlen, if_false, and_false, reduceCtorEq, exists_false]

end Python
