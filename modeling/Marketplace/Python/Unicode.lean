import Marketplace.Python.Text

/-!
# Letters of Unicode

What Python reads off the tables of Unicode about a single character, left open beyond ASCII
(`Alphabet`), and the decomposed form of a text, `unicodedata.normalize("NFD", text)`: each character is
replaced by what it is composed of, and the marks that follow a letter are put in the order of their
classes.
-/

namespace Python

open Text

/-- What the tables say about characters: what a character is composed of, and its combining class, which
is 0 unless it is a mark. -/
structure Alphabet where
  casing : Casing
  digits : DigitClass
  isalpha : Char → Bool
  isnumeric : Char → Bool
  decompose : Char → List Char
  combining : Char → ℕ
  isalpha_ascii : ∀ c : Char, c.toNat < 128 → isalpha c = c.isAlpha
  isnumeric_ascii : ∀ c : Char, c.toNat < 128 → isnumeric c = c.isDigit
  decompose_ascii : ∀ c : Char, c.toNat < 128 → decompose c = [c]
  combining_ascii : ∀ c : Char, c.toNat < 128 → combining c = 0
  isdigit_of_isDecimal : ∀ c, digits.isDecimal c = true → digits.isdigit c = true

namespace Alphabet

variable (abc : Alphabet)

/-- A mark is put behind the marks of a lower class that follow it. -/
def place (c : Char) : List Char → List Char
  | [] => [c]
  | d :: ds =>
    if 0 < abc.combining d ∧ abc.combining d < abc.combining c then d :: place c ds else c :: d :: ds

/-- `unicodedata.normalize("NFD", text)` -/
def nfd (text : List Char) : List Char := (text.flatMap abc.decompose).foldr abc.place []

/-- The characters that are no marks. -/
def base (text : List Char) : List Char := text.filter fun c => abc.combining c = 0

/-- `c.isalnum()` -/
def isalnum (c : Char) : Bool :=
  abc.isalpha c || abc.digits.isDecimal c || abc.digits.isdigit c || abc.isnumeric c

/-- No letters but those of ASCII, and `ß`. -/
def german : Alphabet where
  casing :=
    { upper c := if c = 'ß' then ['S', 'S'] else Casing.ascii.upper c
      fold c := if c = 'ß' then ['s', 's'] else Casing.ascii.fold c
      upper_ascii c h := by
        rw [if_neg (by rintro rfl; exact absurd h (by decide)), Casing.ascii.upper_ascii c h]
      fold_ascii c h := by
        rw [if_neg (by rintro rfl; exact absurd h (by decide)), Casing.ascii.fold_ascii c h]
      upper_ne c := by
        split_ifs
        · simp
        · exact Casing.ascii.upper_ne c
      fold_ne c := by
        split_ifs
        · simp
        · exact Casing.ascii.fold_ne c }
  digits := .ascii
  isalpha c := c.isAlpha || c = 'ß'
  isnumeric := Char.isDigit
  decompose c := [c]
  combining _ := 0
  isalpha_ascii c h := by
    have : c ≠ 'ß' := by
      rintro rfl
      exact absurd h (by decide)
    simp [this]
  isnumeric_ascii := DigitClass.ascii.isdigit_ascii
  decompose_ascii _ _ := rfl
  combining_ascii _ _ := rfl
  isdigit_of_isDecimal c h := by
    simp only [DigitClass.isDecimal, DigitClass.ascii] at h ⊢
    by_contra hc
    simp [hc] at h

end Alphabet

end Python
