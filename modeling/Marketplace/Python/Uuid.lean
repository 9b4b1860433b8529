import Marketplace.Python.Json

/-!
# UUIDs

Python's `UUID(text)`, which takes the number out of many spellings, and `str(uuid)`, the one spelling it
gives back: `uuidText`, 32 hexadecimal digits in groups of 8, 4, 4, 4 and 12. The constructor ignores
`urn:`, `uuid:`, braces and hyphens, and reads what is left of them with `int(hex, 16)`, so that signs,
spaces, underscores and a `0x` count among the 32 characters where they stand.

`uuid_uuidText` says that the canonical spelling is read back, whatever the digits of Unicode are.
-/

namespace Python

open Text

/-! ### Hexadecimal texts -/

/-- The last `w` hexadecimal digits of a number, zeros in front. -/
def hexDigits : ℕ → ℕ → List Char
  | 0, _ => []
  | w + 1, n => hexDigits w (n / 16) ++ [Nat.digitChar (n % 16)]

@[simp] theorem length_hexDigits (w n : ℕ) : (hexDigits w n).length = w := by
  induction w generalizing n with
  | zero => rfl
  | succ w ih => simp [hexDigits, ih]

theorem exists_digitChar {w n : ℕ} {c : Char} (hc : c ∈ hexDigits w n) :
    ∃ d < 16, c = Nat.digitChar d := by
  induction w generalizing n with
  | zero => simp [hexDigits] at hc
  | succ w ih =>
    rcases List.mem_append.mp hc with hc | hc
    · exact ih hc
    · exact ⟨n % 16, Nat.mod_lt n (by decide), by simpa using hc⟩

/-- What no hexadecimal digit is. -/
theorem not_mem_hexDigits {w n : ℕ} {c : Char} (hc : ∀ d < 16, c ≠ Nat.digitChar d) :
    c ∉ hexDigits w n := by
  intro hmem
  obtain ⟨d, hd, rfl⟩ := exists_digitChar hmem
  exact hc d hd rfl

/-- The value of a character of base 16. -/
def hexValue (digits : DigitClass) (c : Char) : Option ℕ :=
  match digits.value c with
  | some d => some d
  | none =>
    if 'a' ≤ c ∧ c ≤ 'f' then some (c.toNat - 'a'.toNat + 10)
    else if 'A' ≤ c ∧ c ≤ 'F' then some (c.toNat - 'A'.toNat + 10)
    else none

theorem hexValue_digitChar (digits : DigitClass) {d : ℕ} (hd : d < 16) :
    hexValue digits (Nat.digitChar d) = some d := by
  have hascii : (Nat.digitChar d).toNat < 128 := by
    interval_cases d <;> decide
  rw [hexValue, digits.value_ascii _ hascii]
  interval_cases d <;> rfl

theorem foldlM_hexValue (digits : DigitClass) (w n init : ℕ) :
    (hexDigits w n).foldlM (fun n c => (hexValue digits c).map (16 * n + ·)) init =
      some (init * 16 ^ w + n % 16 ^ w) := by
  induction w generalizing n with
  | zero => simp [hexDigits, Nat.mod_one]
  | succ w ih =>
    rw [hexDigits, List.foldlM_append, ih]
    simp only [List.foldlM_cons, List.foldlM_nil, hexValue_digitChar digits (Nat.mod_lt n (by decide)),
      Option.map_some, Option.bind_eq_bind, Option.bind_some, Option.pure_def]
    congr 1
    have hmod : n % 16 ^ (w + 1) = 16 * (n / 16 % 16 ^ w) + n % 16 := by
      rw [pow_succ', Nat.mod_mul, add_comm]
    rw [hmod, pow_succ]
    ring

/-! ### The constructor -/

/-- `text.replace(word, "")`, with the characters of the word that are still to be passed over. -/
def removeFrom (word : List Char) : ℕ → List Char → List Char
  | _, [] => []
  | k + 1, _ :: cs => removeFrom word k cs
  | 0, c :: cs =>
    if word <+: c :: cs then removeFrom word (word.length - 1) cs else c :: removeFrom word 0 cs

/-- `text.replace(word, "")` -/
def removeWord (word : String) (cs : List Char) : List Char := removeFrom word.toList 0 cs

/-- Without the word's first character, there is nothing to remove. -/
theorem removeFrom_eq_self {u : Char} {word cs : List Char} (h : u ∉ cs) :
    removeFrom (u :: word) 0 cs = cs := by
  induction cs with
  | nil => rfl
  | cons c cs ih =>
    have hne : ¬ u :: word <+: c :: cs := by
      intro hpre
      obtain rfl : u = c := (List.cons_prefix_cons.mp hpre).1
      exact h List.mem_cons_self
    rw [removeFrom, if_neg hne, ih fun hm => h (List.mem_cons_of_mem _ hm)]

/-- `0x` and one underscore, where they stand in front. -/
def dropHexPrefix : List Char → List Char
  | '0' :: c :: cs =>
    if c = 'x' ∨ c = 'X' then (if cs.head? = some '_' then cs.tail else cs) else '0' :: c :: cs
  | cs => cs

/-- How many UUIDs there are. -/
def uuidCount : ℕ := 2 ^ 128

namespace Language

variable (py : Language)

/-- `int(text, 16)` -/
def hexOfText (text : List Char) : Option ℤ :=
  let (negative, cs) := readSign (stripChars isSpace text)
  (readDigits (hexValue py.digits) 16 (dropHexPrefix cs)).map
    fun (n : ℕ) => if negative then -(n : ℤ) else (n : ℤ)

/-- `UUID(text)`, by its number; `none` is the `ValueError`. -/
def uuid (text : String) : Option ℕ :=
  let unwrapped := removeWord "uuid:" (removeWord "urn:" text.toList)
  let hex := (stripChars (fun c => c = '{' ∨ c = '}') unwrapped).filter (· ≠ '-')
  if hex.length = 32 then
    (py.hexOfText hex).bind fun n => if 0 ≤ n ∧ n < uuidCount then some n.toNat else none
  else none

end Language

/-- `str(uuid)` -/
def uuidText (n : ℕ) : String :=
  let hex := hexDigits 32 n
  String.ofList (hex.take 8 ++ '-' :: ((hex.drop 8).take 4 ++ '-' :: ((hex.drop 12).take 4 ++
    '-' :: ((hex.drop 16).take 4 ++ '-' :: hex.drop 20))))

/-- The text is the canonical spelling of a UUID. -/
def IsCanonicalUuid (text : String) : Prop := ∃ n < uuidCount, text = uuidText n

theorem Language.uuid_lt {py : Language} {text : String} {n : ℕ} (h : py.uuid text = some n) :
    n < uuidCount := by
  rw [Language.uuid] at h
  split at h
  · obtain ⟨m, -, hm⟩ := Option.bind_eq_some_iff.mp h
    split at hm
    · next hrange =>
      obtain rfl : m.toNat = n := Option.some.inj hm
      omega
    · cases hm
  · cases h

/-! ### The canonical spelling is read back -/

theorem mem_uuidText {n : ℕ} {c : Char} (hc : c ∈ (uuidText n).toList) :
    c = '-' ∨ ∃ d < 16, c = Nat.digitChar d := by
  have hpart : c = '-' ∨ c ∈ hexDigits 32 n := by
    rw [uuidText, String.toList_ofList] at hc
    generalize hexDigits 32 n = hex at hc ⊢
    simp only [List.mem_append, List.mem_cons] at hc
    rcases hc with hc | hc | hc | hc | hc | hc | hc | hc | hc
    · exact Or.inr (List.mem_of_mem_take hc)
    · exact Or.inl hc
    · exact Or.inr (List.mem_of_mem_drop (List.mem_of_mem_take hc))
    · exact Or.inl hc
    · exact Or.inr (List.mem_of_mem_drop (List.mem_of_mem_take hc))
    · exact Or.inl hc
    · exact Or.inr (List.mem_of_mem_drop (List.mem_of_mem_take hc))
    · exact Or.inl hc
    · exact Or.inr (List.mem_of_mem_drop hc)
  exact hpart.imp_right exists_digitChar

theorem filter_uuidText (n : ℕ) : (uuidText n).toList.filter (· ≠ '-') = hexDigits 32 n := by
  have hself : ∀ l : List Char, l ⊆ hexDigits 32 n → l.filter (· ≠ '-') = l := by
    intro l hl
    refine List.filter_eq_self.mpr fun c hc => ?_
    obtain ⟨d, hd, rfl⟩ := exists_digitChar (hl hc)
    interval_cases d <;> decide
  have hdash : ∀ l : List Char, ('-' :: l).filter (· ≠ '-') = l.filter (· ≠ '-') := fun l => by simp
  have htake := fun k l => List.take_subset k (l : List Char)
  have hdrop := fun k l => List.drop_subset k (l : List Char)
  rw [uuidText, String.toList_ofList]
  simp only [List.filter_append, hdash]
  rw [hself _ (htake 8 _), hself _ (List.Subset.trans (htake 4 _) (hdrop 8 _)),
    hself _ (List.Subset.trans (htake 4 _) (hdrop 12 _)),
    hself _ (List.Subset.trans (htake 4 _) (hdrop 16 _)), hself _ (hdrop 20 _)]
  -- the five pieces follow one another
  have hsplit : ∀ i k, (hexDigits 32 n).drop i =
      ((hexDigits 32 n).drop i).take k ++ (hexDigits 32 n).drop (i + k) := by
    intro i k
    rw [← List.drop_drop, List.take_append_drop]
  rw [← hsplit 16 4, ← hsplit 12 4, ← hsplit 8 4, List.take_append_drop]

theorem Language.hexOfText_hexDigits (py : Language) {n : ℕ} (hn : n < uuidCount) :
    py.hexOfText (hexDigits 32 n) = some (n : ℤ) := by
  have hstrip : stripChars isSpace (hexDigits 32 n) = hexDigits 32 n := by
    refine stripChars_eq_self fun c hc => ?_
    obtain ⟨d, hd, rfl⟩ := exists_digitChar hc
    interval_cases d <;> exact isSpace_of_printed (by decide) (by decide)
  obtain ⟨a, b, cs, hcs⟩ : ∃ a b cs, hexDigits 32 n = a :: b :: cs := by
    have hlen := length_hexDigits 32 n
    rcases h : hexDigits 32 n with _ | ⟨a, _ | ⟨b, cs⟩⟩ <;> simp [h] at hlen
    exact ⟨a, b, cs, rfl⟩
  obtain ⟨d, hd, ha⟩ := exists_digitChar (hcs ▸ List.mem_cons_self : a ∈ hexDigits 32 n)
  obtain ⟨e, he, hb⟩ := exists_digitChar
    (hcs ▸ List.mem_cons_of_mem _ List.mem_cons_self : b ∈ hexDigits 32 n)
  have hsign : readSign (hexDigits 32 n) = (false, hexDigits 32 n) := by
    rw [hcs, ha]
    interval_cases d <;> rfl
  have hprefix : dropHexPrefix (hexDigits 32 n) = hexDigits 32 n := by
    have hx : ¬ (b = 'x' ∨ b = 'X') := by
      rw [hb]
      interval_cases e <;> decide
    rw [hcs]
    unfold dropHexPrefix
    split
    · next heq =>
      obtain ⟨rfl, rfl, rfl⟩ : a = '0' ∧ b = _ ∧ cs = _ := by simpa using heq
      rw [if_neg hx]
    · rfl
  have hsplit : (hexDigits 32 n).splitOn '_' = [hexDigits 32 n] :=
    List.splitOn_eq_singleton (not_mem_hexDigits (by decide))
  have hread : readDigits (hexValue py.digits) 16 (hexDigits 32 n) = some n := by
    have hne : (hexDigits 32 n).isEmpty = false := by rw [hcs]; rfl
    simp only [readDigits, hsplit, List.all_cons, hne, Bool.not_false, List.all_nil, Bool.and_true,
      if_true, List.flatten_cons, List.flatten_nil, List.append_nil]
    rw [foldlM_hexValue, zero_mul, zero_add, Nat.mod_eq_of_lt (by simpa [uuidCount] using hn)]
  simp only [hexOfText, hstrip, hsign, hprefix, hread, Option.map_some, Bool.false_eq_true, if_false]

/-- **The canonical spelling is read back.** -/
theorem Language.uuid_uuidText (py : Language) {n : ℕ} (hn : n < uuidCount) :
    py.uuid (uuidText n) = some n := by
  have hu : 'u' ∉ (uuidText n).toList := by
    intro hmem
    rcases mem_uuidText hmem with h | ⟨d, hd, h⟩
    · exact absurd h (by decide)
    · interval_cases d <;> exact absurd h (by decide)
  have hbrace : stripChars (fun c => c = '{' ∨ c = '}') (uuidText n).toList = (uuidText n).toList := by
    refine stripChars_eq_self fun c hc => ?_
    rcases mem_uuidText hc with rfl | ⟨d, hd, rfl⟩
    · decide
    · interval_cases d <;> decide
  have hword : ∀ (word : String) (w : List Char), word.toList = 'u' :: w →
      removeWord word (uuidText n).toList = (uuidText n).toList := by
    intro word w hw
    rw [removeWord, hw, removeFrom_eq_self hu]
  have hurn := hword "urn:" ['r', 'n', ':'] rfl
  have huuid := hword "uuid:" ['u', 'i', 'd', ':'] rfl
  have hrange : 0 ≤ (n : ℤ) ∧ (n : ℤ) < uuidCount := ⟨Int.natCast_nonneg n, by exact_mod_cast hn⟩
  rw [uuid, hurn, huuid, hbrace, filter_uuidText, if_pos (length_hexDigits 32 n),
    hexOfText_hexDigits py hn, Option.bind_some, if_pos hrange, Int.toNat_natCast]

end Python
