import Mathlib.Data.List.DropRight
import Mathlib.Tactic.IntervalCases
import Mathlib.Data.Nat.Notation

/-!
# Base 64 in Python

`base64.urlsafe_b64encode` writes three bytes as four characters and fills up the last four with `=`;
`urlsafe_b64decode` reads them back, passing over every character that is none of its alphabet, and takes
`+` and `/` for `-` and `_` as well. A text that has lost its `=` is read once they are put back:
`decode_padded`.
-/

namespace Python.Base64

/-! ### Writing -/

/-- A character of the alphabet, by its number. -/
def encodeSextet (n : ℕ) : Char :=
  if n < 26 then Char.ofNat ('A'.toNat + n)
  else if n < 52 then Char.ofNat ('a'.toNat + (n - 26))
  else if n < 62 then Char.ofNat ('0'.toNat + (n - 52))
  else if n = 62 then '-'
  else '_'

/-- What the bytes are written as without the `=`. -/
def encodeBare : List UInt8 → List Char
  | [] => []
  | [a] => [encodeSextet (a.toNat / 4), encodeSextet (a.toNat % 4 * 16)]
  | [a, b] =>
    [encodeSextet (a.toNat / 4), encodeSextet (a.toNat % 4 * 16 + b.toNat / 16), encodeSextet (b.toNat % 16 * 4)]
  | a :: b :: c :: rest =>
    encodeSextet (a.toNat / 4) :: encodeSextet (a.toNat % 4 * 16 + b.toNat / 16) ::
      encodeSextet (b.toNat % 16 * 4 + c.toNat / 64) :: encodeSextet (c.toNat % 64) :: encodeBare rest

/-- `"=" * (-len(text) % 4)` -/
def padding (text : List Char) : List Char := List.replicate ((4 - text.length % 4) % 4) '='

/-- `urlsafe_b64encode` -/
def encode (bytes : List UInt8) : List Char := encodeBare bytes ++ padding (encodeBare bytes)

/-! ### Reading -/

/-- The number of a character, in either alphabet. -/
def sextet (c : Char) : Option ℕ :=
  if 'A' ≤ c ∧ c ≤ 'Z' then some (c.toNat - 'A'.toNat)
  else if 'a' ≤ c ∧ c ≤ 'z' then some (c.toNat - 'a'.toNat + 26)
  else if '0' ≤ c ∧ c ≤ '9' then some (c.toNat - '0'.toNat + 52)
  else if c = '-' ∨ c = '+' then some 62
  else if c = '_' ∨ c = '/' then some 63
  else none

/-- `a2b_base64` behind `pos` characters of a group of four, with what they have left over and the number of
`=` since the last of them; `none` is the error. -/
def decodeFrom : ℕ → ℕ → ℕ → List Char → Option (List UInt8)
  | pos, _, _, [] => if pos = 0 then some [] else none
  | pos, left, pads, c :: cs =>
    if c = '=' then
      if pos < 2 then decodeFrom pos left pads cs
      else if 4 ≤ pos + (pads + 1) then some []
      else decodeFrom pos left (pads + 1) cs
    else
      match sextet c with
      | none => decodeFrom pos left pads cs
      | some v =>
        match pos with
        | 0 => decodeFrom 1 v 0 cs
        | 1 => (decodeFrom 2 (v % 16) 0 cs).map (UInt8.ofNat (left * 4 + v / 16) :: ·)
        | 2 => (decodeFrom 3 (v % 4) 0 cs).map (UInt8.ofNat (left * 16 + v / 4) :: ·)
        | _ => (decodeFrom 0 0 0 cs).map (UInt8.ofNat (left * 64 + v) :: ·)

-- generated once, here: most lemmas below unfold one of the two
attribute [grind =] encodeBare decodeFrom

/-- `urlsafe_b64decode` -/
def decode (text : List Char) : Option (List UInt8) := decodeFrom 0 0 0 text

/-! ### The round trip -/

/-- A character of the alphabet is read as its number and is no `=`. -/
theorem sextet_encodeSextet {n : ℕ} (h : n < 64) :
    sextet (encodeSextet n) = some n ∧ encodeSextet n ≠ '=' := by
  interval_cases n <;> decide

section Read

variable {n : ℕ} (h : n < 64) (left pads : ℕ) (cs : List Char)
include h

/-- A character of the alphabet is not passed over. -/
theorem decodeFrom_first : decodeFrom 0 left pads (encodeSextet n :: cs) = decodeFrom 1 n 0 cs := by
  obtain ⟨hsextet, hne⟩ := sextet_encodeSextet h
  rw [decodeFrom, if_neg hne, hsextet]
  rfl

theorem decodeFrom_second : decodeFrom 1 left pads (encodeSextet n :: cs) =
    (decodeFrom 2 (n % 16) 0 cs).map (UInt8.ofNat (left * 4 + n / 16) :: ·) := by
  obtain ⟨hsextet, hne⟩ := sextet_encodeSextet h
  rw [decodeFrom, if_neg hne, hsextet]
  rfl

theorem decodeFrom_third : decodeFrom 2 left pads (encodeSextet n :: cs) =
    (decodeFrom 3 (n % 4) 0 cs).map (UInt8.ofNat (left * 16 + n / 4) :: ·) := by
  obtain ⟨hsextet, hne⟩ := sextet_encodeSextet h
  rw [decodeFrom, if_neg hne, hsextet]
  rfl

theorem decodeFrom_fourth : decodeFrom 3 left pads (encodeSextet n :: cs) =
    (decodeFrom 0 0 0 cs).map (UInt8.ofNat (left * 64 + n) :: ·) := by
  obtain ⟨hsextet, hne⟩ := sextet_encodeSextet h
  rw [decodeFrom, if_neg hne, hsextet]
  rfl

end Read

theorem ofNat_eq {a : UInt8} {n : ℕ} (h : n = a.toNat) : UInt8.ofNat n = a := by
  rw [h, UInt8.ofNat_toNat]

/-- The characters of three bytes are a group of four. -/
theorem padding_encodeBare_cons (a b c : UInt8) (rest : List UInt8) :
    padding (encodeBare (a :: b :: c :: rest)) = padding (encodeBare rest) := by
  have h : (encodeBare (a :: b :: c :: rest)).length = (encodeBare rest).length + 4 := by simp [encodeBare]
  rw [padding, padding, h, Nat.add_mod_right]

/-- **What was written is read back**, with the `=` that belong to it. -/
theorem decode_padded (bytes : List UInt8) : decode (encodeBare bytes ++ padding (encodeBare bytes)) = some bytes := by
  -- three bytes at a time; one or two are left in the end
  induction bytes using encodeBare.induct with
  | case1 => rfl
  | case2 a =>
    have ha := a.toNat_lt
    have hpad : padding (encodeBare [a]) = ['=', '='] := rfl
    have hend : decodeFrom 2 (a.toNat % 4 * 16 % 16) 0 ['=', '='] = some [] := rfl
    rw [hpad, encodeBare, decode]
    simp only [List.cons_append, List.nil_append]
    rw [decodeFrom_first (by omega), decodeFrom_second (by omega), hend, ofNat_eq (a := a) (by omega)]
    rfl
  | case3 a b =>
    have ha := a.toNat_lt
    have hb := b.toNat_lt
    have hpad : padding (encodeBare [a, b]) = ['='] := rfl
    have hend : decodeFrom 3 (b.toNat % 16 * 4 % 4) 0 ['='] = some [] := rfl
    rw [hpad, encodeBare, decode]
    simp only [List.cons_append, List.nil_append]
    rw [decodeFrom_first (by omega), decodeFrom_second (by omega), decodeFrom_third (by omega), hend,
      ofNat_eq (a := a) (by omega)]
    simp only [Option.map_some]
    rw [ofNat_eq (a := b) (by omega)]
  | case4 a b c rest ih =>
    have ha := a.toNat_lt
    have hb := b.toNat_lt
    have hc := c.toNat_lt
    rw [decode] at ih
    rw [padding_encodeBare_cons, encodeBare, decode]
    simp only [List.cons_append]
    rw [decodeFrom_first (by omega), decodeFrom_second (by omega), decodeFrom_third (by omega),
      decodeFrom_fourth (by omega), ih]
    simp only [Option.map_some]
    rw [ofNat_eq (a := a) (by omega), ofNat_eq (a := b) (by omega), ofNat_eq (a := c) (by omega)]

theorem ne_of_mem_encodeBare {bytes : List UInt8} {c : Char} (h : c ∈ encodeBare bytes) : c ≠ '=' := by
  have hn : ∀ n < 64, encodeSextet n ≠ '=' := fun n hn => (sextet_encodeSextet hn).2
  induction bytes using encodeBare.induct with
  | case1 => simp [encodeBare] at h
  | case2 a =>
    have ha := a.toNat_lt
    simp only [encodeBare, List.mem_cons, List.not_mem_nil, or_false] at h
    rcases h with rfl | rfl
    all_goals exact hn _ (by omega)
  | case3 a b =>
    have ha := a.toNat_lt
    have hb := b.toNat_lt
    simp only [encodeBare, List.mem_cons, List.not_mem_nil, or_false] at h
    rcases h with rfl | rfl | rfl
    all_goals exact hn _ (by omega)
  | case4 a b c rest ih =>
    have ha := a.toNat_lt
    have hb := b.toNat_lt
    have hc := c.toNat_lt
    simp only [encodeBare, List.mem_cons] at h
    rcases h with rfl | rfl | rfl | rfl | h
    iterate 4 exact hn _ (by omega)
    exact ih h

/-- `encode(bytes).rstrip("=")` -/
theorem rdropWhile_encode (bytes : List UInt8) : (encode bytes).rdropWhile (· = '=') = encodeBare bytes := by
  have hpad : ∀ (n : ℕ) (cs : List Char), (∀ c ∈ cs, c ≠ '=') →
      (cs ++ List.replicate n '=').rdropWhile (· = '=') = cs := by
    intro n cs hcs
    induction n with
    | zero =>
      rw [List.replicate_zero, List.append_nil, List.rdropWhile_eq_self_iff]
      exact fun hne h => hcs _ (List.getLast_mem hne) (by simpa using h)
    | succ n ih =>
      rw [List.replicate_succ', ← List.append_assoc, List.rdropWhile_concat_pos _ _ _ (by simp)]
      exact ih
  exact hpad _ _ fun c hc => ne_of_mem_encodeBare hc

end Python.Base64
