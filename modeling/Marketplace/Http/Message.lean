import Marketplace.Text.Regex
import Marketplace.Text.Strip

/-!
# Messages of HTTP

A message is a method, the target of the request line, fields of bytes and a body. A field is found by its name,
written in small letters; where a name stands twice the first field answers (`Fields.get?`). A server makes a text
of a value by Latin-1 (`latin1Text`).

Latin-1 has digits that ASCII has not, the superscripts, and they are no decimal digits: `isdigit` takes a text
that `int` refuses (`DigitClass.int?_latin1_eq_none_iff`).
-/

/-! ### Digits of Latin-1 -/

namespace Text.DigitClass

/-- The digits `²`, `³` and `¹`. -/
def isSuperscript (c : Char) : Bool := c.toNat = 0xb2 || c.toNat = 0xb3 || c.toNat = 0xb9

theorem not_isDigit_of_isSuperscript {c : Char} (h : isSuperscript c = true) : c.isDigit = false := by
  by_contra hdigit
  have hlt := toNat_lt_of_isDigit (Bool.not_eq_false _ ▸ hdigit)
  simp only [isSuperscript, Bool.or_eq_true, decide_eq_true_eq] at h
  omega

/-- What is a digit among the characters of Latin-1. -/
def latin1 : DigitClass where
  value c := if c.isDigit then some (c.toNat - '0'.toNat) else none
  isdigit c := c.isDigit || isSuperscript c
  value_ascii := ascii.value_ascii
  isdigit_ascii c hc := by
    have : isSuperscript c = false := by
      simp only [isSuperscript, Bool.or_eq_false_iff, decide_eq_false_iff_not]
      omega
    rw [this, Bool.or_false]

/-- **`int` raises on a text of digits if there is a superscript in it.** -/
theorem int?_latin1_eq_none_iff {cs : List Char} (h : latin1.allDigits cs = true) :
    latin1.int? cs = none ↔ ∃ c ∈ cs, isSuperscript c = true := by
  simp only [allDigits, Bool.and_eq_true, Bool.not_eq_true', List.isEmpty_eq_false_iff, List.all_eq_true, latin1,
    Bool.or_eq_true] at h
  obtain ⟨hne, hall⟩ := h
  constructor
  · intro hnone
    by_contra hno
    have hdigits : ∀ c ∈ cs, c.isDigit = true := fun c hc => (hall c hc).resolve_right fun hs => hno ⟨c, hc, hs⟩
    rw [int?, if_neg hne, foldlM_value latin1 hdigits] at hnone
    cases hnone
  · rintro ⟨c, hc, hs⟩
    rw [int?, if_neg hne]
    -- the fold ends at the superscript, whatever it has read before
    have hend : ∀ (n : ℕ), cs.foldlM (fun n c => (latin1.value c).map (10 * n + ·)) n = none := by
      clear hall hne
      induction cs with
      | nil => cases hc
      | cons d ds ih =>
        intro n
        rw [List.foldlM_cons]
        rcases List.mem_cons.mp hc with rfl | hc
        · have : latin1.value c = none := by
            show (if c.isDigit then some _ else none) = none
            rw [not_isDigit_of_isSuperscript hs]
            rfl
          rw [this]
          rfl
        · cases (latin1.value d).map (10 * n + ·) with
          | none => rfl
          | some m => exact ih hc m
    exact hend 0

end Text.DigitClass

namespace Http

open Text

/-! ### Latin-1 -/

/-- The text of these bytes, a character for each. -/
def latin1Text (bs : List UInt8) : List Char := bs.map fun b => Char.ofNat b.toNat

/-- The bytes of a text of Latin-1. -/
def latin1Bytes (cs : List Char) : List UInt8 := cs.map fun c => UInt8.ofNat c.toNat

theorem latin1Bytes_append (cs ds : List Char) : latin1Bytes (cs ++ ds) = latin1Bytes cs ++ latin1Bytes ds :=
  List.map_append

theorem latin1Text_latin1Bytes {cs : List Char} (h : ∀ c ∈ cs, c.toNat < 0x100) :
    latin1Text (latin1Bytes cs) = cs := by
  rw [latin1Text, latin1Bytes, List.map_map]
  calc cs.map _ = cs.map id := List.map_congr_left fun c hc => ?_
    _ = cs := List.map_id cs
  have : (UInt8.ofNat c.toNat).toNat = c.toNat := by
    rw [UInt8.toNat_ofNat']
    exact Nat.mod_eq_of_lt (h c hc)
  show Char.ofNat (UInt8.ofNat c.toNat).toNat = c
  rw [this, Char.ofNat_toNat]

theorem latin1Bytes_latin1Text (bs : List UInt8) : latin1Bytes (latin1Text bs) = bs := by
  rw [latin1Bytes, latin1Text, List.map_map]
  calc bs.map _ = bs.map id := List.map_congr_left fun b _ => ?_
    _ = bs := List.map_id bs
  have hvalid : b.toNat.isValidChar := Or.inl (lt_trans b.toNat_lt (by decide))
  have htoNat : (Char.ofNat b.toNat).toNat = b.toNat := by
    rw [Char.ofNat, dif_pos hvalid]
    rfl
  show UInt8.ofNat (Char.ofNat b.toNat).toNat = b
  rw [htoNat, UInt8.ofNat_toNat]

/-- The bytes say which text it was. -/
theorem latin1Bytes_inj {cs ds : List Char} (hcs : ∀ c ∈ cs, c.toNat < 0x100) (hds : ∀ d ∈ ds, d.toNat < 0x100) :
    latin1Bytes cs = latin1Bytes ds ↔ cs = ds := by
  constructor
  · intro h
    rw [← latin1Text_latin1Bytes hcs, h, latin1Text_latin1Bytes hds]
  · rintro rfl
    rfl

theorem not_mem_latin1Bytes {cs : List Char} (h : ∀ c ∈ cs, c.toNat < 0x100) {d : Char} (hd : d.toNat < 0x100)
    (hmem : d ∉ cs) : UInt8.ofNat d.toNat ∉ latin1Bytes cs := by
  intro hb
  obtain ⟨c, hc, he⟩ := List.mem_map.mp hb
  have hc' := h c hc
  have : c.toNat = d.toNat := by
    have := congrArg UInt8.toNat he
    rwa [UInt8.toNat_ofNat', UInt8.toNat_ofNat', Nat.mod_eq_of_lt hc', Nat.mod_eq_of_lt hd] at this
  exact hmem (Char.toNat_inj.mp this ▸ hc)

/-! ### Methods -/

def isTokenChar (c : Char) : Bool :=
  c.isAlphanum || ['!', '#', '$', '%', '&', '\'', '*', '+', '-', '.', '^', '_', '`', '|', '~'].contains c

/-- The method of a request, which is a token. -/
structure Method where
  chars : List Char
  ne_nil : chars ≠ []
  isToken : chars.all isTokenChar = true
  deriving DecidableEq

namespace Method

/-- The method in capitals. -/
def upper (m : Method) : List Char := m.chars.map Char.toUpper

/-- A token is printed ASCII, also in capitals. -/
theorem bounds_of_mem_upper {m : Method} {c : Char} (hc : c ∈ m.upper) : 0x20 < c.toNat ∧ c.toNat < 0x80 := by
  obtain ⟨d, hd, rfl⟩ := List.mem_map.mp hc
  have htoken := List.all_eq_true.mp m.isToken d hd
  have hlt : d.toNat < 0x80 := by
    rw [isTokenChar, Bool.or_eq_true] at htoken
    rcases htoken with h | h
    · exact toNat_lt_of_isAlphanum h
    · have hall : ['!', '#', '$', '%', '&', '\'', '*', '+', '-', '.', '^', '_', '`', '|', '~'].all (·.toNat < 0x80) =
          true := by decide
      exact of_decide_eq_true (List.all_eq_true.mp hall d (List.contains_iff_mem.mp h))
  have hall : ∀ n < 0x80, isTokenChar (Char.ofNat n) = true →
      0x20 < (Char.ofNat n).toUpper.toNat ∧ (Char.ofNat n).toUpper.toNat < 0x80 := by decide
  simpa using hall d.toNat hlt (by simpa using htoken)

/-- The method of a request that names none. -/
def get : Method := ⟨"GET".toList, by decide, by decide⟩

/-- The methods that `fetch` writes in capitals. -/
def normalized : List Method :=
  [⟨"DELETE".toList, by decide, by decide⟩, get, ⟨"HEAD".toList, by decide, by decide⟩,
    ⟨"OPTIONS".toList, by decide, by decide⟩, ⟨"POST".toList, by decide, by decide⟩, ⟨"PUT".toList, by decide, by decide⟩]

/-- The method as `fetch` sends it. -/
def sent (m : Method) : Method := (normalized.find? (·.upper = m.upper)).getD m

@[simp] theorem upper_sent (m : Method) : m.sent.upper = m.upper := by
  rw [sent]
  cases h : normalized.find? (·.upper = m.upper) with
  | none => rfl
  | some n => simpa using List.find?_some h

end Method

/-! ### Fields -/

/-- Fields of a header, by their names in small letters. -/
abbrev Fields := List (List UInt8 × List UInt8)

namespace Fields

/-- The value of the first field of that name. -/
def get? (fields : Fields) (name : List UInt8) : Option (List UInt8) := (fields.find? (·.1 = name)).map Prod.snd

/-- `headers.delete(name)` -/
def delete (fields : Fields) (name : List UInt8) : Fields := fields.filter (·.1 ≠ name)

/-- `headers.set(name, value)`: the first field of that name takes the value and the others go. -/
def set (name value : List UInt8) : Fields → Fields
  | [] => [(name, value)]
  | field :: fields => if field.1 = name then (name, value) :: delete fields name else field :: set name value fields

theorem get?_set_self (fields : Fields) (name value : List UInt8) : get? (set name value fields) name = some value := by
  induction fields with
  | nil => simp [set, get?]
  | cons field fields ih =>
    rw [set]
    split_ifs with h
    · simp [get?]
    · rw [get?, List.find?_cons_of_neg (by simpa using h)]
      exact ih

theorem get?_delete_of_ne (fields : Fields) {name other : List UInt8} (h : other ≠ name) :
    get? (delete fields name) other = get? fields other := by
  rw [get?, delete, List.find?_filter, get?]
  congr 2
  funext field
  by_cases he : field.1 = other
  · simp [he, h]
  · simp [he]

/-- The fields of other names stay. -/
theorem get?_set_of_ne (fields : Fields) {name other : List UInt8} (value : List UInt8) (h : other ≠ name) :
    get? (set name value fields) other = get? fields other := by
  induction fields with
  | nil => simp [set, get?, h.symm]
  | cons field fields ih =>
    rw [set]
    split_ifs with hname
    · have hfirst : get? ((name, value) :: delete fields name) other = get? (delete fields name) other := by
        rw [get?, List.find?_cons_of_neg (by simpa using h.symm), get?]
      rw [hfirst, get?_delete_of_ne fields h, get?, get?, List.find?_cons_of_neg]
      simpa [hname] using h.symm
    · rw [get?, get?, List.find?_cons, List.find?_cons]
      split
      · rfl
      · exact ih

end Fields

/-- Blanks around a value. -/
def isBlank (c : Char) : Bool := c = ' ' || c = '\t' || c = '\n' || c = '\r'

/-- A text as the value of a field; `none` is a `TypeError`. -/
def fieldValue (text : List Char) : Option (List UInt8) :=
  let value := stripChars isBlank text
  if value.all fun c => c.toNat < 0x100 && c.toNat ≠ 0 && c ≠ '\n' && c ≠ '\r' then some (latin1Bytes value) else none

/-- A value with no blanks around it is sent as it is. -/
theorem fieldValue_eq {text : List Char} (h : ∀ c ∈ text, 0x20 < c.toNat ∧ c.toNat < 0x80) :
    fieldValue text = some (latin1Bytes text) := by
  have hne : ∀ c ∈ text, ∀ d : Char, d.toNat ≤ 0x20 → c ≠ d := by
    rintro c hc d hd rfl
    have := (h c hc).1
    omega
  have hstrip : stripChars isBlank text = text := stripChars_eq_self fun c hc => by
    simp [isBlank, hne c hc ' ' (by decide), hne c hc '\t' (by decide), hne c hc '\n' (by decide),
      hne c hc '\r' (by decide)]
  simp only [fieldValue, hstrip]
  rw [if_pos]
  refine List.all_eq_true.mpr fun c hc => ?_
  have := h c hc
  simp only [Bool.and_eq_true, decide_eq_true_eq]
  exact ⟨⟨⟨by omega, by omega⟩, hne c hc '\n' (by decide)⟩, hne c hc '\r' (by decide)⟩

/-! ### Messages -/

structure Message where
  method : Method
  target : List UInt8
  fields : Fields
  body : List UInt8
  deriving DecidableEq

end Http
