import Marketplace.Python.Float
import Marketplace.Python.Uuid
import Marketplace.Text.Utf16

/-!
# JSON texts in Python

`json.loads`, which takes more than JSON (`NaN`, the infinities) and less: an integer of too many digits is
refused, and lists and objects that are nested too deeply are a `RecursionError`. How deep is too deep is a
setting of the interpreter. A name that an object gives twice keeps its place and its last value, and a
surrogate that stands alone is read as `U+FFFD`.

`quote` is what `json.dumps` makes of a text, in ASCII, and `scanString_quote` reads it back.
`error_of_loads` says what a text can be refused with.
-/

namespace Python.JsonText

open Text Utf16

/-- What is read off the front of a text, and the rest of it. -/
abbrev Scan (α : Type) := List Char → Except Error (α × List Char)

/-! ### Texts -/

/-- Four digits of base 16. -/
def hex4? (a b c d : Char) : Option ℕ :=
  [a, b, c, d].foldlM (fun n c => (hexValue .ascii c).map (16 * n + ·)) 0

/-- What a character stands for behind a backslash. -/
def unescape : Char → Option ℕ
  | '"' => some 0x22
  | '\\' => some 0x5c
  | '/' => some 0x2f
  | 'b' => some 0x08
  | 'f' => some 0x0c
  | 'n' => some 0x0a
  | 'r' => some 0x0d
  | 't' => some 0x09
  | _ => none

/-- The units of a text, from behind its first quote on. -/
def scanUnits : List Char → Option (List UInt16 × List Char)
  | [] => none
  | '"' :: cs => some ([], cs)
  | '\\' :: 'u' :: a :: b :: c :: d :: cs => do
    let n ← hex4? a b c d
    let (us, rest) ← scanUnits cs
    pure (UInt16.ofNat n :: us, rest)
  | '\\' :: c :: cs => do
    let n ← unescape c
    let (us, rest) ← scanUnits cs
    pure (UInt16.ofNat n :: us, rest)
  | c :: cs =>
    -- a control character may not stand in a text as it is
    if c.toNat < 0x20 then none
    else do
      let (us, rest) ← scanUnits cs
      pure (unitsOf c ++ us, rest)

/-- The text that is written in these units. -/
def textOf (us : List UInt16) : String :=
  String.ofList ((codePoints us).map fun
    | .scalar c => c
    | .lone _ => '\uFFFD')

def scanString : Scan String := fun cs =>
  match scanUnits cs with
  | some (us, rest) => .ok (textOf us, rest)
  | none => .error .valueError

/-! ### Numbers -/

/-- `0` or digits that do not start with one. -/
def scanWhole : List Char → Option (List Char × List Char)
  | '0' :: cs => some (['0'], cs)
  | cs => if (cs.takeWhile Char.isDigit).isEmpty then none else some (cs.span Char.isDigit)

/-- `.` and digits, where they stand there. -/
def scanFraction : List Char → List Char × List Char
  | '.' :: cs => if (cs.takeWhile Char.isDigit).isEmpty then ([], '.' :: cs) else cs.span Char.isDigit
  | cs => ([], cs)

/-- An exponent, where one stands there. -/
def scanExponent : List Char → Option ℤ × List Char
  | [] => (none, [])
  | e :: cs =>
    let (negative, ds) := readSign cs
    if (e = 'e' ∨ e = 'E') ∧ (ds.takeWhile Char.isDigit).isEmpty = false then
      let n : ℤ := Nat.ofDigitChars 10 (ds.takeWhile Char.isDigit) 0
      (some (if negative then -n else n), ds.dropWhile Char.isDigit)
    else (none, e :: cs)

/-- A number without its sign. -/
def scanUnsigned (negative : Bool) : Scan Json := fun cs =>
  match scanWhole cs with
  | none => .error .valueError
  | some (whole, rest) =>
    let (fraction, rest) := scanFraction rest
    let (exponent, rest) := scanExponent rest
    let sign : ℤ := if negative then -1 else 1
    if fraction = [] ∧ exponent = none then
      if whole.length ≤ maxStrDigits then .ok (.int (sign * Nat.ofDigitChars 10 whole 0), rest)
      else .error .valueError
    else
      let value := decimalValue (Nat.ofDigitChars 10 (whole ++ fraction) 0) fraction.length (exponent.getD 0)
      .ok (.float (Double.round (sign * value)), rest)

def scanNumber : Scan Json
  | '-' :: cs => scanUnsigned true cs
  | cs => scanUnsigned false cs

/-! ### Values -/

/-- The values that have a name. -/
def constants : List (List Char × Json) :=
  [("null".toList, .null), ("true".toList, .bool true), ("false".toList, .bool false),
    ("NaN".toList, .float .nan), ("Infinity".toList, .float (.inf false)), ("-Infinity".toList, .float (.inf true))]

def scanConstant (cs : List Char) : Option (Json × List Char) :=
  constants.findSome? fun p => if p.1 <+: cs then some (p.2, cs.drop p.1.length) else none

def isBlank (c : Char) : Bool := c = ' ' ∨ c = '\t' ∨ c = '\n' ∨ c = '\r'

def skipBlanks (cs : List Char) : List Char := cs.dropWhile isBlank

/-- The items of a list and its bracket; there are no more of them than characters. -/
def scanItems (value : Scan Json) : ℕ → Scan (List Json)
  | 0, _ => .error .valueError
  | n + 1, cs => do
    let (v, rest) ← value cs
    match skipBlanks rest with
    | ']' :: rest => pure ([v], rest)
    | ',' :: rest => do
      let (vs, rest) ← scanItems value n (skipBlanks rest)
      pure (v :: vs, rest)
    | _ => .error .valueError

/-- `fields[name] = value` -/
def setItem (name : String) (value : Json) : List (String × Json) → List (String × Json)
  | [] => [(name, value)]
  | p :: fields => if p.1 = name then (name, value) :: fields else p :: setItem name value fields

/-- The fields of an object and its brace, after those that were read before. -/
def scanFields (value : Scan Json) : ℕ → List (String × Json) → Scan (List (String × Json))
  | n + 1, fields, '"' :: cs => do
    let (name, rest) ← scanString cs
    match skipBlanks rest with
    | ':' :: rest => do
      let (v, rest) ← value (skipBlanks rest)
      match skipBlanks rest with
      | '}' :: rest => pure (setItem name v fields, rest)
      | ',' :: rest => scanFields value n (setItem name v fields) (skipBlanks rest)
      | _ => .error .valueError
    | _ => .error .valueError
  | _, _, _ => .error .valueError

/-- A value, of which those inside are read by `nested`; there is none where they would be too deep. -/
def scanValue (nested : Option (Scan Json)) : Scan Json
  | '"' :: cs => (scanString cs).map fun p => (.str p.1, p.2)
  | '[' :: cs =>
    match nested with
    | none => .error .recursionError
    | some value =>
      match skipBlanks cs with
      | ']' :: rest => .ok (.arr [], rest)
      | cs => (scanItems value cs.length cs).map fun p => (.arr p.1, p.2)
  | '{' :: cs =>
    match nested with
    | none => .error .recursionError
    | some value =>
      match skipBlanks cs with
      | '}' :: rest => .ok (.obj [], rest)
      | cs => (scanFields value cs.length [] cs).map fun p => (.obj p.1, p.2)
  | cs =>
    match scanConstant cs with
    | some p => .ok p
    | none => scanNumber cs

/-- A value with lists and objects in it no more than `depth` deep. -/
def scanOnce : ℕ → Scan Json
  | 0 => scanValue none
  | depth + 1 => scanValue (some (scanOnce depth))

/-- `json.loads(text)` -/
def loads (depth : ℕ) (text : List Char) : Except Error Json := do
  let (v, rest) ← scanOnce depth (skipBlanks text)
  if skipBlanks rest = [] then .ok v else .error .valueError

/-! ### Writing texts -/

/-- `json.dumps` of a character of a text. -/
def quoteChar (c : Char) : List Char :=
  if c = '"' then ['\\', '"']
  else if c = '\\' then ['\\', '\\']
  else if c = '\n' then ['\\', 'n']
  else if c = '\r' then ['\\', 'r']
  else if c = '\t' then ['\\', 't']
  else if c.toNat = 0x0c then ['\\', 'f']
  else if c.toNat = 0x08 then ['\\', 'b']
  else if ' ' ≤ c ∧ c ≤ '~' then [c]
  else (unitsOf c).flatMap fun u => unicodeEscape u.toNat

/-- `json.dumps(text)` -/
def quote (text : List Char) : List Char := '"' :: (text.flatMap quoteChar ++ ['"'])

/-! ### The round trip -/

theorem hex4?_hex4 {n : ℕ} (h : n < 0x10000) {a b c d : Char} (hn : hex4 n = [a, b, c, d]) : hex4? a b c d = some n := by
  have hdigits : hex4 n = hexDigits 4 n := by
    simp only [hexDigits, List.nil_append, List.cons_append, Nat.div_div_eq_div_mul, Nat.reduceMul]
    rfl
  have hmod : n % 16 ^ 4 = n := Nat.mod_eq_of_lt h
  rw [hex4?, ← hn, hdigits, foldlM_hexValue, Nat.zero_mul, Nat.zero_add, hmod]

/-- An escape of a unit is read back. -/
theorem scanUnits_unicodeEscape {n : ℕ} (h : n < 0x10000) (cs : List Char) :
    scanUnits (unicodeEscape n ++ cs) = (scanUnits cs).map fun p => (UInt16.ofNat n :: p.1, p.2) := by
  have hhex : ∃ a b c d, hex4 n = [a, b, c, d] := ⟨_, _, _, _, rfl⟩
  obtain ⟨a, b, c, d, hn⟩ := hhex
  rw [unicodeEscape, hn]
  simp only [List.cons_append, List.nil_append]
  rw [scanUnits, hex4?_hex4 h hn]
  cases scanUnits cs <;> rfl

/-- A character stands for itself where it needs no escape. -/
theorem scanUnits_cons {c : Char} (hquote : c ≠ '"') (hslash : c ≠ '\\') (hcontrol : 0x20 ≤ c.toNat) (cs : List Char) :
    scanUnits (c :: cs) = (scanUnits cs).map fun p => (unitsOf c ++ p.1, p.2) := by
  rw [scanUnits.eq_def]
  split
  · contradiction
  · next he => exact absurd (List.cons.inj he).1 hquote
  · next he => exact absurd (List.cons.inj he).1 hslash
  · next he => exact absurd (List.cons.inj he).1 hslash
  · next c' cs' _ _ _ he =>
    obtain ⟨rfl, rfl⟩ := List.cons.inj he
    rw [if_neg (by omega)]
    cases scanUnits cs <;> rfl

/-- **A character is read back.** -/
theorem scanUnits_quoteChar (c : Char) (cs : List Char) :
    scanUnits (quoteChar c ++ cs) = (scanUnits cs).map fun p => (unitsOf c ++ p.1, p.2) := by
  have hescape : ∀ {d : Char} {n : ℕ}, d ≠ 'u' → unescape d = some n → c.toNat = n → n < 0x10000 →
      scanUnits ('\\' :: d :: cs) = (scanUnits cs).map fun p => (unitsOf c ++ p.1, p.2) := by
    intro d n hd hn hc hlt
    have hunits : unitsOf c = [UInt16.ofNat n] := by rw [unitsOf, if_pos (by omega), hc]
    rw [scanUnits, hn, hunits]
    · cases scanUnits cs <;> rfl
    · rintro - - - - - rfl
      exact absurd rfl hd
  rw [quoteChar]
  split_ifs with h1 h2 h3 h4 h5 h6 h7 h8
  · exact hescape (by decide) rfl (by rw [h1]; rfl) (by decide)
  · exact hescape (by decide) rfl (by rw [h2]; rfl) (by decide)
  · exact hescape (by decide) rfl (by rw [h3]; rfl) (by decide)
  · exact hescape (by decide) rfl (by rw [h4]; rfl) (by decide)
  · exact hescape (by decide) rfl (by rw [h5]; rfl) (by decide)
  · exact hescape (by decide) rfl h6 (by decide)
  · exact hescape (by decide) rfl h7 (by decide)
  · exact scanUnits_cons h1 h2 (UInt32.le_iff_toNat_le.mp h8.1) cs
  · -- one unit after the other
    have hunits : ∀ (us : List UInt16) (cs : List Char),
        scanUnits ((us.flatMap fun u => unicodeEscape u.toNat) ++ cs) =
          (scanUnits cs).map fun p => (us ++ p.1, p.2) := by
      intro us
      induction us with
      | nil => intro cs; simp
      | cons u us ih =>
        intro cs
        rw [List.flatMap_cons, List.append_assoc, scanUnits_unicodeEscape u.toNat_lt, ih, UInt16.ofNat_toNat]
        cases scanUnits cs <;> rfl
    exact hunits _ _

/-- **A text is read back.** -/
theorem scanString_quote (text rest : List Char) :
    scanString (text.flatMap quoteChar ++ '"' :: rest) = .ok (String.ofList text, rest) := by
  have hunits : scanUnits (text.flatMap quoteChar ++ '"' :: rest) = some (text.flatMap unitsOf, rest) := by
    induction text with
    | nil => rfl
    | cons c text ih =>
      rw [List.flatMap_cons, List.append_assoc, scanUnits_quoteChar, ih, List.flatMap_cons]
      rfl
  rw [scanString, hunits]
  simp only [textOf, codePoints_flatMap_unitsOf, List.map_map]
  congr 3
  exact List.map_id _

/-! ### Reading what was written -/

variable {value : Scan Json} {v : Json} {vs : List Json} {cs cs' rest : List Char} {n : ℕ}

theorem skipBlanks_cons {c : Char} (h : isBlank c = false) (cs : List Char) : skipBlanks (c :: cs) = c :: cs := by
  rw [skipBlanks, List.dropWhile_cons_of_neg (by simp [h])]

theorem skipBlanks_quote (text rest : List Char) : skipBlanks (quote text ++ rest) = quote text ++ rest :=
  skipBlanks_cons (by decide) _

/-- **A text in quotes is read back as a value.** -/
theorem scanValue_quote (nested : Option (Scan Json)) (text rest : List Char) :
    scanValue nested (quote text ++ rest) = .ok (.str (String.ofList text), rest) := by
  have happ : quote text ++ rest = '"' :: (text.flatMap quoteChar ++ '"' :: rest) := by simp [quote]
  rw [happ, scanValue, scanString_quote]
  rfl

/-- The last item of a list. -/
theorem scanItems_last (hv : value cs = .ok (v, ']' :: rest)) : scanItems value (n + 1) cs = .ok ([v], rest) := by
  rw [scanItems, hv]
  simp only [bind, Except.bind]
  rw [skipBlanks_cons (by decide)]
  rfl

/-- An item of a list that another one follows. -/
theorem scanItems_cons (hv : value cs = .ok (v, ',' :: cs')) (hblank : skipBlanks cs' = cs')
    (hvs : scanItems value n cs' = .ok (vs, rest)) : scanItems value (n + 1) cs = .ok (v :: vs, rest) := by
  rw [scanItems, hv]
  simp only [bind, Except.bind]
  rw [skipBlanks_cons (by decide)]
  simp only [hblank, hvs]
  rfl

/-- The last field of an object. -/
theorem scanFields_last {fields : List (String × Json)} {name : List Char} (hblank : skipBlanks cs = cs)
    (hv : value cs = .ok (v, '}' :: rest)) :
    scanFields value (n + 1) fields (quote name ++ ':' :: cs) =
      .ok (setItem (String.ofList name) v fields, rest) := by
  have happ : quote name ++ ':' :: cs = '"' :: (name.flatMap quoteChar ++ '"' :: ':' :: cs) := by simp [quote]
  rw [happ, scanFields, scanString_quote]
  simp only [bind, Except.bind]
  rw [skipBlanks_cons (by decide)]
  simp only [hblank, hv]
  rw [skipBlanks_cons (by decide)]
  rfl

/-- A list that does not start with its bracket. -/
theorem scanValue_list (hblank : skipBlanks cs = cs) (hne : cs.head? ≠ some ']')
    (hvs : scanItems value cs.length cs = .ok (vs, rest)) : scanValue (some value) ('[' :: cs) = .ok (.arr vs, rest) := by
  rw [scanValue, hblank]
  split
  · simp at hne
  · rw [hvs]
    rfl

theorem scanValue_object {fields : List (String × Json)} (hblank : skipBlanks cs = cs) (hne : cs.head? ≠ some '}')
    (hfields : scanFields value cs.length [] cs = .ok (fields, rest)) :
    scanValue (some value) ('{' :: cs) = .ok (.obj fields, rest) := by
  rw [scanValue, hblank]
  split
  · simp at hne
  · rw [hfields]
    rfl

/-! ### What a text may be refused with -/

/-- What is read by this scanner is refused as no JSON, or as nested too deeply. -/
def Refuses {α : Type} (scan : Scan α) : Prop := ∀ cs e, scan cs = .error e → e = .valueError ∨ e = .recursionError

theorem refuses_scanString : Refuses scanString := by
  intro cs e h
  rw [scanString] at h
  split at h
  · cases h
  · exact .inl (Except.error.inj h).symm

theorem refuses_scanUnsigned (negative : Bool) : Refuses (scanUnsigned negative) := by
  intro cs e h
  rw [scanUnsigned] at h
  split at h
  · exact .inl (Except.error.inj h).symm
  · simp only at h
    split_ifs at h
    exact .inl (Except.error.inj h).symm

theorem refuses_scanNumber : Refuses scanNumber := by
  intro cs e h
  rw [scanNumber.eq_def] at h
  split at h <;> exact refuses_scanUnsigned _ _ e h

/-- The first of two scanners refuses, or the second does. -/
theorem eq_error_of_bind {α β : Type} {x : Except Error α} {f : α → Except Error β} {e : Error}
    (h : x >>= f = .error e) : x = .error e ∨ ∃ a, x = .ok a ∧ f a = .error e := by
  cases x with
  | error e' => exact .inl (congrArg Except.error (Except.error.inj h))
  | ok a => exact .inr ⟨a, rfl, h⟩

theorem refuses_scanItems (hvalue : Refuses value) (n : ℕ) : Refuses (scanItems value n) := by
  induction n with
  | zero => exact fun cs e h => .inl (Except.error.inj h).symm
  | succ n ih =>
    intro cs e h
    rw [scanItems] at h
    rcases eq_error_of_bind h with h | ⟨⟨v, rest⟩, -, h⟩
    · exact hvalue cs e h
    · simp only at h
      split at h
      · cases h
      · rcases eq_error_of_bind h with h | ⟨q, -, h⟩
        · exact ih _ e h
        · cases h
      · exact .inl (Except.error.inj h).symm

theorem refuses_scanFields (hvalue : Refuses value) (n : ℕ) (fields : List (String × Json)) :
    Refuses (scanFields value n fields) := by
  induction n generalizing fields with
  | zero =>
    intro cs e h
    rw [scanFields.eq_def] at h
    exact .inl (Except.error.inj h).symm
  | succ n ih =>
    intro cs e h
    rw [scanFields.eq_def] at h
    split at h
    · next m fields' cs' hm =>
      obtain rfl := Nat.succ.inj hm
      rcases eq_error_of_bind h with h | ⟨⟨name, rest⟩, -, h⟩
      · exact refuses_scanString _ e h
      · simp only at h
        split at h
        · rcases eq_error_of_bind h with h | ⟨⟨v, rest'⟩, -, h⟩
          · exact hvalue _ e h
          · simp only at h
            split at h
            · cases h
            · exact ih _ _ e h
            · exact .inl (Except.error.inj h).symm
        · exact .inl (Except.error.inj h).symm
    · exact .inl (Except.error.inj h).symm

theorem eq_error_of_map {α β : Type} {x : Except Error α} {f : α → β} {e : Error} (h : x.map f = .error e) :
    x = .error e := by
  cases x with
  | error e' => exact congrArg Except.error (Except.error.inj h)
  | ok a => cases h

theorem refuses_scanValue {nested : Option (Scan Json)} (hnested : ∀ value ∈ nested, Refuses value) :
    Refuses (scanValue nested) := by
  intro cs e h
  rw [scanValue.eq_def] at h
  split at h
  · exact refuses_scanString _ e (eq_error_of_map h)
  · split at h
    · exact .inr (Except.error.inj h).symm
    · next value =>
      split at h
      · cases h
      · exact refuses_scanItems (hnested value rfl) _ _ e (eq_error_of_map h)
  · split at h
    · exact .inr (Except.error.inj h).symm
    · next value =>
      split at h
      · cases h
      · exact refuses_scanFields (hnested value rfl) _ _ _ e (eq_error_of_map h)
  · split at h
    · cases h
    · exact refuses_scanNumber _ e h

theorem refuses_scanOnce (depth : ℕ) : Refuses (scanOnce depth) := by
  induction depth with
  | zero => exact refuses_scanValue (by simp)
  | succ depth ih => exact refuses_scanValue (by simpa using ih)

/-- **A text that is not read is no JSON, or nested too deeply.** -/
theorem error_of_loads {depth : ℕ} {text : List Char} {e : Error} (h : loads depth text = .error e) :
    e = .valueError ∨ e = .recursionError := by
  rcases eq_error_of_bind h with h | ⟨p, -, h⟩
  · exact refuses_scanOnce depth _ e h
  · simp only at h
    split_ifs at h
    exact .inl (Except.error.inj h).symm

end Python.JsonText
