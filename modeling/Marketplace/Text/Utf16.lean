import Mathlib

/-!
# Texts in UTF-16

A text of JavaScript is any list of 16-bit code units. Read by code points it has characters, each one
unit or a pair of surrogates, and surrogates that stand alone; `JSON.stringify` escapes the latter, so
what it returns is a text of characters only, whatever the units were, and has a length in UTF-8.
-/

namespace Utf16

/-- A leading surrogate. -/
def isHigh (u : UInt16) : Bool := 0xd800 ≤ u && u ≤ 0xdbff

/-- A trailing surrogate. -/
def isLow (u : UInt16) : Bool := 0xdc00 ≤ u && u ≤ 0xdfff

/-- A code point of a text: a character, or a surrogate without its other half. -/
inductive CodePoint
  | scalar (c : Char)
  | lone (u : UInt16)
  deriving DecidableEq

/-- The character two surrogates stand for. -/
def pair (high low : UInt16) : Char :=
  Char.ofNat (0x10000 + (high.toNat - 0xd800) * 0x400 + (low.toNat - 0xdc00))

/-- The text by code points. -/
def codePoints : List UInt16 → List CodePoint
  | [] => []
  | u :: rest =>
    if isHigh u then
      match rest with
      | v :: rest' => if isLow v then .scalar (pair u v) :: codePoints rest' else .lone u :: codePoints (v :: rest')
      | [] => [.lone u]
    else if isLow u then .lone u :: codePoints rest
    else .scalar (Char.ofNat u.toNat) :: codePoints rest

/-- Four digits of base 16. -/
def hex4 (n : ℕ) : List Char :=
  [Nat.digitChar (n / 4096 % 16), Nat.digitChar (n / 256 % 16), Nat.digitChar (n / 16 % 16), Nat.digitChar (n % 16)]

/-- `\uXXXX` -/
def unicodeEscape (n : ℕ) : List Char := '\\' :: 'u' :: hex4 n

/-- A code point as it stands between the quotes of a JSON text. -/
def quoteCodePoint : CodePoint → List Char
  | .scalar c =>
    if c.toNat = 0x08 then ['\\', 'b']
    else if c.toNat = 0x09 then ['\\', 't']
    else if c.toNat = 0x0a then ['\\', 'n']
    else if c.toNat = 0x0c then ['\\', 'f']
    else if c.toNat = 0x0d then ['\\', 'r']
    else if c.toNat = 0x22 then ['\\', '"']
    else if c.toNat = 0x5c then ['\\', '\\']
    else if c.toNat < 0x20 then unicodeEscape c.toNat
    else [c]
  | .lone u => unicodeEscape u.toNat

/-- `JSON.stringify(value)` -/
def jsonStringify (value : List UInt16) : String :=
  String.ofList ('"' :: ((codePoints value).flatMap quoteCodePoint ++ ['"']))

/-! ### Lengths in UTF-8 -/

/-- The length of a text in UTF-8, by its characters. -/
def utf8Length (cs : List Char) : ℕ := (cs.map Char.utf8Size).sum

@[simp] theorem utf8Length_nil : utf8Length [] = 0 := rfl

@[simp] theorem utf8Length_cons (c : Char) (cs : List Char) :
    utf8Length (c :: cs) = c.utf8Size + utf8Length cs := by
  simp [utf8Length]

@[simp] theorem utf8Length_append (cs ds : List Char) :
    utf8Length (cs ++ ds) = utf8Length cs + utf8Length ds := by
  simp [utf8Length]

theorem utf8ByteSize_ofList (cs : List Char) : (String.ofList cs).utf8ByteSize = utf8Length cs := by
  induction cs with
  | nil => simp
  | cons c cs ih => rw [String.ofList_cons, String.utf8ByteSize_append, String.utf8ByteSize_singleton, ih,
      utf8Length_cons]

/-- The length of a character in UTF-8, by its number. -/
theorem utf8Size_eq (c : Char) :
    c.utf8Size = if c.toNat < 0x80 then 1 else if c.toNat < 0x800 then 2 else if c.toNat < 0x10000 then 3 else 4 := by
  have hv : c.val.toNat = c.toNat := rfl
  have h1 := c.utf8Size_eq_one_iff
  have h2 := c.utf8Size_eq_two_iff
  have h3 := c.utf8Size_eq_three_iff
  have h4 := c.utf8Size_eq_four_iff
  simp only [UInt32.le_iff_toNat_le, UInt32.lt_iff_toNat_lt, UInt32.reduceToNat, hv] at h1 h2 h3 h4
  split_ifs <;> omega

/-- A digit of base 16 takes one byte. -/
theorem utf8Size_digitChar {d : ℕ} (h : d < 16) : (Nat.digitChar d).utf8Size = 1 := by
  have : ∀ d < 16, (Nat.digitChar d).utf8Size = 1 := by decide
  exact this d h

/-- An escaped code point takes six bytes. -/
theorem utf8Length_unicodeEscape (n : ℕ) : utf8Length (unicodeEscape n) = 6 := by
  have hd : ∀ m : ℕ, (Nat.digitChar (m % 16)).utf8Size = 1 := fun m => utf8Size_digitChar (by omega)
  have hu : 'u'.utf8Size = 1 := by decide
  have hb : '\\'.utf8Size = 1 := by decide
  simp [unicodeEscape, hex4, hd, hu, hb]

/-- The number of a character in one unit. -/
theorem toNat_ofNat_unit {u : UInt16} (hh : isHigh u = false) (hl : isLow u = false) :
    (Char.ofNat u.toNat).toNat = u.toNat := by
  have hu := u.toNat_lt
  simp only [isHigh, isLow, Bool.and_eq_false_iff, decide_eq_false_iff_not, UInt16.le_iff_toNat_le,
    UInt16.reduceToNat] at hh hl
  rw [Char.toNat_ofNat, if_pos]
  show _ ∨ _
  omega

/-- The number of a character in two units lies above those in one. -/
theorem toNat_pair {u v : UInt16} (hu : isHigh u = true) (hv : isLow v = true) : 0x10000 ≤ (pair u v).toNat := by
  simp only [isHigh, isLow, Bool.and_eq_true, decide_eq_true_eq, UInt16.le_iff_toNat_le,
    UInt16.reduceToNat] at hu hv
  rw [pair, Char.toNat_ofNat, if_pos]
  · omega
  · show _ ∨ _
    omega

/-! ### Writing -/

/-- The units a character is written in. -/
def unitsOf (c : Char) : List UInt16 :=
  if c.toNat < 0x10000 then [UInt16.ofNat c.toNat]
  else [UInt16.ofNat (0xd800 + (c.toNat - 0x10000) / 0x400), UInt16.ofNat (0xdc00 + (c.toNat - 0x10000) % 0x400)]

theorem toNat_ofNat_of_lt {n : ℕ} (h : n < 0x10000) : (UInt16.ofNat n).toNat = n :=
  UInt16.toNat_ofNat_of_lt' h

/-- A character is read back from its units. -/
theorem codePoints_unitsOf (c : Char) (us : List UInt16) : codePoints (unitsOf c ++ us) = .scalar c :: codePoints us := by
  have hvalid : c.toNat < 0xd800 ∨ 0xdfff < c.toNat ∧ c.toNat < 0x110000 := c.valid
  rw [unitsOf]
  split_ifs with hsmall
  · have hn : (UInt16.ofNat c.toNat).toNat = c.toNat := toNat_ofNat_of_lt hsmall
    have hhigh : isHigh (UInt16.ofNat c.toNat) = false := by
      simp only [isHigh, Bool.and_eq_false_iff, decide_eq_false_iff_not, UInt16.le_iff_toNat_le, UInt16.reduceToNat, hn]
      omega
    have hlow : isLow (UInt16.ofNat c.toNat) = false := by
      simp only [isLow, Bool.and_eq_false_iff, decide_eq_false_iff_not, UInt16.le_iff_toNat_le, UInt16.reduceToNat, hn]
      omega
    rw [List.singleton_append, codePoints.eq_def]
    simp [hhigh, hlow, hn]
  · set high := 0xd800 + (c.toNat - 0x10000) / 0x400 with hh
    set low := 0xdc00 + (c.toNat - 0x10000) % 0x400 with hl
    have hhn : (UInt16.ofNat high).toNat = high := toNat_ofNat_of_lt (by omega)
    have hln : (UInt16.ofNat low).toNat = low := toNat_ofNat_of_lt (by omega)
    have hhigh : isHigh (UInt16.ofNat high) = true := by
      simp only [isHigh, Bool.and_eq_true, decide_eq_true_eq, UInt16.le_iff_toNat_le, UInt16.reduceToNat, hhn]
      omega
    have hlow : isLow (UInt16.ofNat low) = true := by
      simp only [isLow, Bool.and_eq_true, decide_eq_true_eq, UInt16.le_iff_toNat_le, UInt16.reduceToNat, hln]
      omega
    have hpair : pair (UInt16.ofNat high) (UInt16.ofNat low) = c := by
      have he : 0x10000 + (high - 0xd800) * 0x400 + (low - 0xdc00) = c.toNat := by omega
      rw [pair, hhn, hln, he, Char.ofNat_toNat]
    rw [List.cons_append, List.singleton_append, codePoints.eq_def]
    simp only [if_pos hhigh, if_pos hlow, hpair]

/-- A text of characters is read back. -/
theorem codePoints_flatMap_unitsOf (cs : List Char) : codePoints (cs.flatMap unitsOf) = cs.map .scalar := by
  induction cs with
  | nil => rfl
  | cons c cs ih => rw [List.flatMap_cons, codePoints_unitsOf, ih, List.map_cons]

end Utf16
