import Marketplace.Text.IsoFormat
import Marketplace.Text.Regex
import Marketplace.Text.Strip

/-!
# Values of JSON documents in Python

What `json.loads` returns, any tree of it, and what Python makes of such a value: whether it is true,
what a dict holds under a key, what a number is equal to, `str(value)` and `int(value)`. The numbers
include those JSON itself does not have, `NaN` and the infinities, which a literal such as `1e999` also
becomes.

A conversion returns a value or raises, and the exceptions are kept apart (`Error`): code that
catches some of them lets the others through. `toInt_eq_overflow_iff` says which value
`int` refuses in a way of its own: an infinity, and nothing else.

What depends on the version of Unicode, and the texts of floats, lists and dicts, are left open in
`Language`.
-/

namespace Python

open Text

/-! ### Values -/

/-- The exceptions of the conversions. -/
inductive Error
  | valueError | typeError | attributeError | overflowError | recursionError
  deriving DecidableEq, Repr

/-- A `float`. -/
inductive Double
  | finite (q : ℚ)
  | inf (negative : Bool)
  | nan
  deriving DecidableEq, Repr

/-- A value `json.loads` can return; a dict by its items. -/
inductive Json
  | null
  | bool (b : Bool)
  | int (n : ℤ)
  | float (x : Double)
  | str (s : String)
  | arr (items : List Json)
  | obj (fields : List (String × Json))

/-- A block of statements returns where each of them does. -/
theorem bind_eq_ok {ε α β : Type} {x : Except ε α} {f : α → Except ε β} {b : β} :
    (x >>= f) = .ok b ↔ ∃ a, x = .ok a ∧ f a = .ok b := by
  cases x <;> simp [bind, Except.bind]

namespace Json

/-- `bool(value)` -/
def truthy : Json → Bool
  | .null => false
  | .bool b => b
  | .int n => n ≠ 0
  | .float (.finite q) => q ≠ 0
  | .float _ => true
  | .str s => s ≠ ""
  | .arr items => !items.isEmpty
  | .obj fields => !fields.isEmpty

/-- `fields.get(key)`; `None` where there is none. -/
def get (fields : List (String × Json)) (key : String) : Json := (fields.lookup key).getD .null

/-- `value is None` -/
def isNull : Json → Bool
  | .null => true
  | _ => false

/-- `value is True` -/
def isTrue : Json → Bool
  | .bool b => b
  | _ => false

/-- `value is False` -/
def isFalse : Json → Bool
  | .bool b => !b
  | _ => false

/-- `value == text` -/
def isText (s : String) : Json → Bool
  | .str t => t = s
  | _ => false

/-- `value == n`: a truth value counts as 0 or 1, and a float may be equal to it as well. -/
def isInt (n : ℤ) : Json → Bool
  | .bool b => n = if b then 1 else 0
  | .int m => m = n
  | .float (.finite q) => q = n
  | _ => false

/-- `value if isinstance(value, str) and value else None` -/
def text? : Json → Option String
  | .str s => if s = "" then none else some s
  | _ => none

/-- The items of a dict, where the value is one. -/
def fields? : Json → Option (List (String × Json))
  | .obj fields => some fields
  | _ => none

end Json

/-! ### Conversions -/

/-- What the conversions rest on beyond this text: the digits of Unicode, the texts of floats, lists and
dicts, and the reader of moments, which returns a moment and whether the text names its zone, and
raises nothing but `ValueError`. -/
structure Language where
  digits : DigitClass
  repr : Json → String
  fromisoformat : String → Option (AwareDatetime × Bool)

/-- The longest text of digits that is still converted. -/
def maxStrDigits : ℕ := 4300

/-- Digits of a base, with single underscores between them. -/
def readDigits (value : Char → Option ℕ) (base : ℕ) (cs : List Char) : Option ℕ :=
  let groups := cs.splitOn '_'
  if groups.all fun g => !g.isEmpty then
    groups.flatten.foldlM (fun n c => (value c).map (base * n + ·)) 0
  else none

/-- A sign and what it stands before. -/
def readSign : List Char → Bool × List Char
  | '-' :: cs => (true, cs)
  | '+' :: cs => (false, cs)
  | cs => (false, cs)

namespace Language

variable (py : Language)

/-- `int(text)` -/
def intOfText (text : List Char) : Option ℤ :=
  let (negative, cs) := readSign (stripChars isSpace text)
  if (cs.filter (· ≠ '_')).length ≤ maxStrDigits then
    (readDigits py.digits.value 10 cs).map fun (n : ℕ) => if negative then -(n : ℤ) else (n : ℤ)
  else none

/-- `int(value)`: a float is cut off towards zero. -/
def toInt : Json → Except Error ℤ
  | .int n => .ok n
  | .bool b => .ok (if b then 1 else 0)
  | .float (.finite q) => .ok (if q < 0 then ⌈q⌉ else ⌊q⌋)
  | .float (.inf _) => .error .overflowError
  | .float .nan => .error .valueError
  | .str s =>
    match py.intOfText s.toList with
    | some n => .ok n
    | none => .error .valueError
  | .null | .arr _ | .obj _ => .error .typeError

/-- `str(value)` -/
def str : Json → String
  | .null => "None"
  | .bool b => if b then "True" else "False"
  | .int n => toString n
  | .str s => s
  | v => py.repr v

end Language

/-- The value is an infinite number. -/
def Json.isInfinite : Json → Bool
  | .float (.inf _) => true
  | _ => false

/-- **Only an infinity overflows.** -/
theorem Language.toInt_eq_overflow_iff (py : Language) (v : Json) :
    py.toInt v = .error .overflowError ↔ v.isInfinite = true := by
  cases v with
  | float x => cases x <;> simp [toInt, Json.isInfinite]
  | str s => cases h : py.intOfText s.toList <;> simp [toInt, h, Json.isInfinite]
  | _ => simp [toInt, Json.isInfinite]

/-- The other values are converted, or refused as the callers expect. -/
theorem Language.toInt_cases (py : Language) {v : Json} (h : v.isInfinite = false) :
    (∃ n, py.toInt v = .ok n) ∨ py.toInt v = .error .valueError ∨
      py.toInt v = .error .typeError := by
  cases v with
  | float x => cases x <;> simp_all [toInt, Json.isInfinite]
  | str s => cases hs : py.intOfText s.toList <;> simp [toInt, hs]
  | _ => simp [toInt]

end Python
