import Marketplace.Python.Unicode
import Marketplace.Text.Find
import Marketplace.Lists.FirstSeen

/-!
# The content filter

What the messages of buyers and sellers are screened for: keywords an admin typed, telephone numbers and
links. Keywords are looked for without case, accents and separators: a keyword is folded as one text
when it is stored, while of each character of a message only the first of what it folds to is kept
(`letter`). Numbers are looked for in what is left of the message without anything but digits, letters and
`+`, where two numbers with a blank between them are one.

`mem_matched_iff` says what `screen` reports. A number of 9 to 12 digits in a row is reported whatever it is a
number of, so the pattern for Vietnamese numbers finds nothing that the pattern for long numbers does not
(`holdsRun_of_phone`).

A message holds a keyword if some of it, with separators put in, folds to what the keyword folds to
(`Spells`), and a number if some of it is a number with separators put in, between other characters than
letters, digits and `+` (`HoldsNumber`). What of this is caught is in `catches_iff`.
-/

namespace Marketplace.ContentFilter

open Text Python

/-! ### Folding -/

variable (abc : Alphabet)

/-- The text without case and accents. -/
def fold (text : List Char) : List Char :=
  abc.base (abc.nfd ((text.flatMap abc.casing.fold).map fun c => if c = 'đ' then 'd' else c))

/-- `_SEPARATORS_RE`, a single character -/
def isSeparator (c : Char) : Bool := isSpace c || c ∈ "._-*·•|/\\()[]\x7b\x7d<>~^'\"`,;:+".toList

/-- `_squeeze` -/
def squeeze (text : List Char) : List Char := text.filter fun c => !isSeparator c

/-! ### The configuration -/

/-- What is done with a text that is reported. -/
inductive Action
  | block | mask
  deriving DecidableEq, Repr

/-- `ACTIONS` -/
def Action.ofText : String → Option Action
  | "block" => some .block
  | "mask" => some .mask
  | _ => none

/-- `ContentFilterConfig` -/
structure Config where
  enabled : Bool
  action : Action
  keywords : List String
  blockPhoneNumbers : Bool
  blockLinks : Bool
  maskChar : Char
  deriving DecidableEq

/-- The arguments of `update_config`. -/
structure Update where
  enabled : Option Bool
  action : Option String
  keywords : Option (List String)
  blockPhoneNumbers : Option Bool
  blockLinks : Option Bool
  maskChar : Option String

/-- `MAX_KEYWORDS` -/
def maxKeywords : ℕ := 200

/-- `MAX_KEYWORD_LENGTH` -/
def maxKeywordLength : ℕ := 64

/-- `text.split()` -/
def words (text : List Char) : List (List Char) := (text.splitOnP isSpace).filter (· ≠ [])

def normalizeKeyword (raw : String) : String :=
  String.ofList (([' '].intercalate (words (fold abc raw.toList))).take maxKeywordLength)

/-- The keywords as they are stored. -/
def cleaned (raws : List String) : List String := ((raws.map (normalizeKeyword abc)).filter (· ≠ "")).eraseDups

def newAction (u : Update) (cfg : Config) : Except String Action :=
  match u.action with
  | none => .ok cfg.action
  | some text =>
    match Action.ofText text with
    | none => .error "action must be 'block' or 'mask'"
    | some action => .ok action

def newKeywords (u : Update) (cfg : Config) : Except String (List String) :=
  match u.keywords with
  | none => .ok cfg.keywords
  | some raws =>
    if maxKeywords < (cleaned abc raws).length then .error "at most 200 keywords" else .ok (cleaned abc raws)

def newMaskChar (u : Update) (cfg : Config) : Except String Char :=
  match u.maskChar with
  | none => .ok cfg.maskChar
  | some text =>
    match text.toList with
    | [c] => if isSpace c then .error "mask_char must be one visible character" else .ok c
    | _ => .error "mask_char must be one visible character"

def updateConfig (u : Update) (cfg : Config) : Except String Config := do
  let action ← newAction u cfg
  let keywords ← newKeywords abc u cfg
  let maskChar ← newMaskChar u cfg
  pure {
    enabled := u.enabled.getD cfg.enabled
    action := action
    keywords := keywords
    blockPhoneNumbers := u.blockPhoneNumbers.getD cfg.blockPhoneNumbers
    blockLinks := u.blockLinks.getD cfg.blockLinks
    maskChar := maskChar }

/-- The row as it is first there, with the keywords it was set up with. -/
def seeded (keywords : List String) : Config where
  enabled := true
  action := .block
  keywords := keywords
  blockPhoneNumbers := true
  blockLinks := false
  maskChar := '*'

/-- A configuration that updates have left, and the keywords an admin typed for it. -/
inductive Stored : List String → Config → Prop
  | seeded (keywords : List String) : Stored [] (seeded keywords)
  | updated {typed : List String} {cfg cfg' : Config} {u : Update} (hcfg : Stored typed cfg)
      (hu : updateConfig abc u cfg = .ok cfg') : Stored (u.keywords.getD typed) cfg'

variable {abc} in
/-- What an update leaves of the keywords. -/
theorem keywords_of_updateConfig {u : Update} {cfg cfg' : Config} (h : updateConfig abc u cfg = .ok cfg') :
    cfg'.keywords = (u.keywords.map (cleaned abc)).getD cfg.keywords := by
  obtain ⟨action, -, h⟩ := bind_eq_ok.mp h
  obtain ⟨keywords, hkeywords, h⟩ := bind_eq_ok.mp h
  obtain ⟨maskChar, -, h⟩ := bind_eq_ok.mp h
  obtain rfl := Except.ok.inj h
  rw [newKeywords] at hkeywords
  cases hraws : u.keywords with
  | none => simpa [hraws] using hkeywords.symm
  | some raws =>
    simp only [hraws] at hkeywords
    split_ifs at hkeywords
    simpa using hkeywords.symm

variable {abc} in
/-- Every keyword that was typed is stored, unless nothing is left of it. -/
theorem mem_keywords_of_stored {typed : List String} {cfg : Config} (h : Stored abc typed cfg) {raw : String}
    (hraw : raw ∈ typed) (hne : normalizeKeyword abc raw ≠ "") : normalizeKeyword abc raw ∈ cfg.keywords := by
  induction h with
  | seeded keywords => simp at hraw
  | @updated typed cfg cfg' u hcfg hu ih =>
    rw [keywords_of_updateConfig hu]
    cases hraws : u.keywords with
    | none =>
      rw [hraws] at hraw
      exact ih hraw
    | some raws =>
      rw [hraws] at hraw
      simp only [Option.map_some, Option.getD_some, cleaned, List.mem_eraseDups, List.mem_filter, List.mem_map,
        decide_eq_true_eq]
      exact ⟨⟨raw, hraw, rfl⟩, hne⟩

/-! ### What is looked for -/

/-- `[35789]` -/
def mobileDigit (c : Char) : Bool := c ∈ ['3', '5', '7', '8', '9']

/-- `(?:\+?84|0)(?:[35789]\d{8}|2\d{9})` -/
def phoneBody : Regex :=
  .seq (.alt (.seq (.opt (.text "+")) (.text "84")) (.text "0"))
    (.alt (.seq (.one mobileDigit) (.times abc.digits.isDecimal 8))
      (.seq (.text "2") (.times abc.digits.isDecimal 9)))

/-- `_PHONE_RE` -/
def phoneRe : Pattern := ⟨abc.digits.isDecimal, phoneBody abc, abc.digits.isDecimal⟩

/-- `_LONG_DIGITS_RE` -/
def longDigitsRe : Pattern := .runOf abc.digits.isDecimal 9 3

/-- A letter in either case; `ſ` is an `s`. -/
def ignoringCase (letter c : Char) : Bool := c.toLower = letter || (letter = 's' && c = 'ſ')

/-- A word in either case. -/
def anyCase (word : String) : Regex :=
  word.toList.foldr (fun letter r => .seq (.one (ignoringCase letter)) r) (.text "")

/-- `(?:https?://|www\.)[^\s]+` -/
def linkBody : Regex :=
  .seq (.alt (.seq (anyCase "http") (.seq (.opt (anyCase "s")) (.text "://")))
      (.seq (anyCase "www") (.text ".")))
    (.plus (fun c => !isSpace c) none)

/-- `_LINK_RE` -/
def linkRe : Pattern := ⟨fun _ => false, linkBody, fun _ => false⟩

/-! ### Matching -/

/-- Where something that is reported starts and ends, and what it is reported as. -/
structure Span where
  start : ℕ
  stop : ℕ
  label : String
  deriving DecidableEq

/-- What a character counts as when keywords are looked for: the first letter it folds to. -/
def letter (c : Char) : Option Char :=
  let f := fold abc [c]
  if f.all isSeparator then none else f.head?

/-- The offset of a character that was kept. -/
def offset (kept : List (Char × ℕ)) (i : ℕ) : ℕ := (kept.map Prod.snd).getD i 0

/-- The characters keywords are looked for in. -/
def foldedChars (original : List Char) : List (Char × ℕ) :=
  original.zipIdx.filterMap fun p => (letter abc p.1).map (·, p.2)

def keywordSpans (folded : List (Char × ℕ)) (keyword : String) : List Span :=
  let needle := squeeze keyword.toList
  if needle = [] then []
  else (occurrences needle 0 (folded.map Prod.fst)).map fun hit =>
    ⟨offset folded hit, offset folded (hit + needle.length - 1) + 1, keyword⟩

def findKeywordSpans (original : List Char) (keywords : List String) : List Span :=
  keywords.flatMap (keywordSpans (foldedChars abc original))

/-- What is kept when numbers are looked for. -/
def isKept (c : Char) : Bool := abc.digits.isdigit c || c = '+' || abc.isalpha c

/-- The characters numbers are looked for in. -/
def squeezedChars (original : List Char) : List (Char × ℕ) := original.zipIdx.filter fun p => isKept abc p.1

def patternSpans (kept : List (Char × ℕ)) (pattern : Pattern) (label : String) : List Span :=
  (pattern.finditer none 0 0 (kept.map Prod.fst)).filterMap fun m =>
    if m.2 ≤ m.1 then none else some ⟨offset kept m.1, offset kept (m.2 - 1) + 1, label⟩

def findRegexSpans (original : List Char) (patterns : List (Pattern × String)) : List Span :=
  patterns.flatMap fun p => patternSpans (squeezedChars abc original) p.1 p.2

/-- Everything that is reported. -/
def screenSpans (cfg : Config) (text : List Char) : List Span :=
  findKeywordSpans abc text cfg.keywords
    ++ (if cfg.blockPhoneNumbers then
          findRegexSpans abc text [(phoneRe abc, "phone"), (longDigitsRe abc, "phone")]
        else [])
    ++ if cfg.blockLinks then (linkRe.finditer none 0 0 text).map fun m => ⟨m.1, m.2, "link"⟩ else []

/-- `ScreenResult` -/
structure ScreenResult where
  blocked : Bool
  text : String
  matched : List String
  deriving DecidableEq

/-- What is reported is masked, blanks apart. -/
def maskSpan (maskChar : Char) (chars : List Char) (span : Span) : List Char :=
  chars.mapIdx fun i c => if span.start ≤ i ∧ i < span.stop ∧ isSpace c = false then maskChar else c

def screen (cfg : Config) (text : String) : ScreenResult :=
  if cfg.enabled = false ∨ text = "" then ⟨false, text, []⟩
  else
    let spans := screenSpans abc cfg text.toList
    if spans = [] then ⟨false, text, []⟩
    else
      let matched := (spans.map Span.label).eraseDups
      match cfg.action with
      | .block => ⟨true, text, matched⟩
      | .mask => ⟨false, String.ofList (spans.foldl (maskSpan cfg.maskChar) text.toList), matched⟩

/-! ### What is reported -/

variable {abc} {text : List Char}

theorem map_fst_zipIdx_filter (p : Char → Bool) (i : ℕ) :
    ((text.zipIdx i).filter fun q => p q.1).map Prod.fst = text.filter p := by
  induction text generalizing i with
  | nil => rfl
  | cons c text ih =>
    rw [List.zipIdx_cons, List.filter_cons, List.filter_cons]
    split_ifs with h
    · rw [List.map_cons, ih]
    · exact ih _

theorem map_fst_foldedChars : (foldedChars abc text).map Prod.fst = text.filterMap (letter abc) := by
  rw [foldedChars, List.map_filterMap]
  have h : ∀ i, (text.zipIdx i).filterMap (fun p => ((letter abc p.1).map (·, p.2)).map Prod.fst) =
      text.filterMap (letter abc) := by
    induction text with
    | nil => exact fun i => rfl
    | cons c text ih =>
      intro i
      rw [List.zipIdx_cons, List.filterMap_cons, List.filterMap_cons, ih]
      cases letter abc c <;> rfl
  exact h 0

theorem map_fst_squeezedChars : (squeezedChars abc text).map Prod.fst = text.filter (isKept abc) :=
  map_fst_zipIdx_filter _ 0

variable (abc) in
/-- The text has the letters of the keyword in a row, one character of the text for each. -/
def SpelledByLetter (keyword : String) (text : List Char) : Prop :=
  squeeze keyword.toList ≠ [] ∧ squeeze keyword.toList <:+: text.filterMap (letter abc)

variable (abc) in
/-- The text without anything but digits, letters and `+` has 9 to 12 digits in a row, and no more. -/
def HoldsDigits (text : List Char) : Prop := HoldsRun abc.digits.isDecimal 9 3 (text.filter (isKept abc))

/-- The text has a link. -/
def HoldsLink (text : List Char) : Prop :=
  ∃ front link rest, text = front ++ link ∧ linkBody.Leaves .python link rest

theorem exists_mem_iff_ne_nil {α : Type} {l : List α} : (∃ a, a ∈ l) ↔ l ≠ [] := by
  cases l with
  | nil => simp
  | cons a l => exact iff_of_true ⟨a, List.mem_cons_self⟩ (by simp)

theorem exists_mem_keywordSpans_iff {keyword label : String} :
    (∃ span ∈ keywordSpans (foldedChars abc text) keyword, span.label = label) ↔
      keyword = label ∧ SpelledByLetter abc keyword text := by
  rw [keywordSpans, SpelledByLetter, ← map_fst_foldedChars]
  split_ifs with hne
  · simp [hne]
  · have hfound : squeeze keyword.toList <:+: (foldedChars abc text).map Prod.fst ↔
        ∃ hit, hit ∈ occurrences (squeeze keyword.toList) 0 ((foldedChars abc text).map Prod.fst) := by
      rw [exists_mem_iff_ne_nil, occurrences_ne_nil_iff hne]
    rw [hfound]
    simp only [List.mem_map, exists_exists_and_eq_and]
    constructor
    · rintro ⟨hit, hmem, rfl⟩
      exact ⟨rfl, hne, hit, hmem⟩
    · rintro ⟨rfl, -, hit, hmem⟩
      exact ⟨hit, hmem, rfl⟩

theorem exists_mem_findKeywordSpans_iff {keywords : List String} {label : String} :
    (∃ span ∈ findKeywordSpans abc text keywords, span.label = label) ↔
      label ∈ keywords ∧ SpelledByLetter abc label text := by
  simp only [findKeywordSpans, List.mem_flatMap]
  constructor
  · rintro ⟨span, ⟨keyword, hmem, hspan⟩, hlabel⟩
    obtain ⟨rfl, hspelled⟩ := exists_mem_keywordSpans_iff.mp ⟨span, hspan, hlabel⟩
    exact ⟨hmem, hspelled⟩
  · rintro ⟨hmem, hspelled⟩
    obtain ⟨span, hspan, hlabel⟩ := exists_mem_keywordSpans_iff.mpr ⟨rfl, hspelled⟩
    exact ⟨span, ⟨label, hmem, hspan⟩, hlabel⟩

/-- A pattern that takes some of the text is reported where it is found. -/
theorem exists_mem_patternSpans_iff {kept : List (Char × ℕ)} {pattern : Pattern} {label l : String}
    (hpattern : ∀ cs rest, pattern.body.Leaves .python cs rest → rest.length < cs.length) :
    (∃ span ∈ patternSpans kept pattern label, span.label = l) ↔
      label = l ∧ pattern.finditer none 0 0 (kept.map Prod.fst) ≠ [] := by
  rw [← exists_mem_iff_ne_nil]
  simp only [patternSpans, List.mem_filterMap]
  constructor
  · rintro ⟨span, ⟨m, hmem, hspan⟩, rfl⟩
    split_ifs at hspan
    obtain rfl := Option.some.inj hspan
    exact ⟨rfl, m, hmem⟩
  · rintro ⟨rfl, m, hmem⟩
    have hlt : m.1 < m.2 := Pattern.lt_of_mem_finditer hpattern hmem
    exact ⟨_, ⟨m, hmem, if_neg (by omega)⟩, rfl⟩

/-! ### Numbers -/

/-- A number is 10 to 12 digits, with or without a `+` in front of them. -/
theorem digits_of_phoneBody {cs rest : List Char} (h : (phoneBody abc).Leaves .python cs rest) :
    ∃ sign ds, cs = sign ++ ds ++ rest ∧ (sign = [] ∨ sign = ['+']) ∧ (10 ≤ ds.length ∧ ds.length ≤ 12) ∧
      ∀ c ∈ ds, abc.digits.isDecimal c = true := by
  have hascii : ∀ {ds : List Char}, ds.all Char.isDigit = true → ∀ c ∈ ds, abc.digits.isDecimal c = true :=
    fun h c hc => abc.digits.isDecimal_of_isDigit (List.all_eq_true.mp h c hc)
  have h84 : "84".toList = ['8', '4'] := rfl
  have h0 : "0".toList = ['0'] := rfl
  have h2 : "2".toList = ['2'] := rfl
  have hplus : "+".toList = ['+'] := rfl
  simp only [phoneBody, h84, h0, h2, hplus, Regex.leaves_seq, Regex.leaves_alt, Regex.leaves_opt, Regex.leaves_text,
    Regex.leaves_one, Regex.leaves_times] at h
  obtain ⟨mid, hcode, hnumber⟩ := h
  -- the code: with or without the sign, or a zero
  have hcode : ∃ sign code, cs = sign ++ code ++ mid ∧ (sign = [] ∨ sign = ['+']) ∧
      (1 ≤ code.length ∧ code.length ≤ 2) ∧ ∀ c ∈ code, abc.digits.isDecimal c = true := by
    rcases hcode with ⟨m, ⟨m', rfl, rfl⟩ | rfl, rfl⟩ | rfl
    · exact ⟨['+'], ['8', '4'], by simp, .inr rfl, by decide, hascii (by decide)⟩
    · exact ⟨[], ['8', '4'], by simp, .inl rfl, by decide, hascii (by decide)⟩
    · exact ⟨[], ['0'], by simp, .inl rfl, by decide, hascii (by decide)⟩
  -- the digits behind it
  have hnumber : ∃ ds, mid = ds ++ rest ∧ (9 ≤ ds.length ∧ ds.length ≤ 10) ∧
      ∀ c ∈ ds, abc.digits.isDecimal c = true := by
    rcases hnumber with ⟨m, ⟨c, rfl, hc⟩, ds, rfl, hlen, hds⟩ | ⟨m, rfl, ds, rfl, hlen, hds⟩
    · have hmobile : ['3', '5', '7', '8', '9'].all Char.isDigit = true := by decide
      have hc : abc.digits.isDecimal c = true := hascii hmobile c (by simpa [mobileDigit] using hc)
      exact ⟨c :: ds, by simp, by simp only [List.length_cons]; omega, List.forall_mem_cons.mpr ⟨hc, hds⟩⟩
    · have h2 : abc.digits.isDecimal '2' = true := abc.digits.isDecimal_of_isDigit rfl
      exact ⟨'2' :: ds, by simp, by simp only [List.length_cons]; omega, List.forall_mem_cons.mpr ⟨h2, hds⟩⟩
  obtain ⟨sign, code, rfl, hsign, hlen, hfirst⟩ := hcode
  obtain ⟨ds, rfl, hlen', hds⟩ := hnumber
  refine ⟨sign, code ++ ds, by simp, hsign, by simp only [List.length_append]; omega, ?_⟩
  exact fun c hc => (List.mem_append.mp hc).elim (hfirst c) (hds c)

/-- **The pattern for Vietnamese numbers finds nothing the pattern for long numbers does not.** -/
theorem holdsRun_of_phone {cs : List Char} (h : (phoneRe abc).finditer none 0 0 cs ≠ []) :
    HoldsRun abc.digits.isDecimal 9 3 cs := by
  obtain ⟨front, cs, rfl, -, hbefore, rest, hleaves, hafter⟩ := Pattern.finditer_ne_nil_iff.mp h
  obtain ⟨sign, ds, rfl, hsign, hlen, hds⟩ := digits_of_phoneBody hleaves
  rw [Option.or_none] at hbefore
  refine ⟨front ++ sign, ds, rest, by simp, by omega, hds, ?_, hafter⟩
  rcases hsign with rfl | rfl
  · rw [List.append_nil]
    exact hbefore
  · intro c hc
    obtain rfl : '+' = c := by simpa using hc
    exact abc.digits.isDecimal_ascii (by decide)

/-- A number is reported exactly where 9 to 12 digits stand in a row. -/
theorem exists_mem_findRegexSpans_iff {label : String} :
    (∃ span ∈ findRegexSpans abc text [(phoneRe abc, "phone"), (longDigitsRe abc, "phone")], span.label = label) ↔
      label = "phone" ∧ HoldsDigits abc text := by
  have hphone : ∀ cs rest, (phoneRe abc).body.Leaves .python cs rest → rest.length < cs.length := by
    intro cs rest h
    obtain ⟨sign, ds, rfl, -, hlen, -⟩ := digits_of_phoneBody h
    simp only [List.length_append]
    omega
  have hlong : ∀ cs rest, (longDigitsRe abc).body.Leaves .python cs rest → rest.length < cs.length := by
    intro cs rest h
    obtain ⟨mid, hmid, hrest⟩ := Regex.leaves_seq.mp h
    obtain ⟨ds, rfl, hlen, -⟩ := Regex.leaves_times.mp hmid
    obtain ⟨es, rfl, -, -⟩ := Regex.leaves_atMost.mp hrest
    simp only [List.length_append]
    omega
  have hspans : (∃ span ∈ findRegexSpans abc text [(phoneRe abc, "phone"), (longDigitsRe abc, "phone")],
      span.label = label) ↔
      (∃ span ∈ patternSpans (squeezedChars abc text) (phoneRe abc) "phone", span.label = label) ∨
        ∃ span ∈ patternSpans (squeezedChars abc text) (longDigitsRe abc) "phone", span.label = label := by
    simp only [findRegexSpans, List.flatMap_cons, List.flatMap_nil, List.append_nil, List.mem_append,
      or_and_right, exists_or]
  rw [hspans, exists_mem_patternSpans_iff hphone, exists_mem_patternSpans_iff hlong, map_fst_squeezedChars,
    HoldsDigits, longDigitsRe, holdsRun_iff (by decide)]
  constructor
  · rintro (⟨rfl, h⟩ | ⟨rfl, h⟩)
    · exact ⟨rfl, holdsRun_of_phone h⟩
    · exact ⟨rfl, h⟩
  · rintro ⟨rfl, h⟩
    exact .inr ⟨rfl, h⟩

theorem length_le_of_anyCase {word : List Char} {cs rest : List Char}
    (h : (word.foldr (fun letter r => Regex.seq (.one (ignoringCase letter)) r) (.text "")).Leaves .python
      cs rest) :
    rest.length ≤ cs.length := by
  induction word generalizing cs with
  | nil => rw [Regex.leaves_text.mp h]; simp
  | cons letter word ih =>
    obtain ⟨mid, hmid, hrest⟩ := Regex.leaves_seq.mp h
    obtain ⟨c, rfl, -⟩ := Regex.leaves_one.mp hmid
    have := ih hrest
    rw [List.length_cons]
    omega

/-- A link takes some of the text. -/
theorem length_lt_of_linkBody {cs rest : List Char} (h : linkBody.Leaves .python cs rest) :
    rest.length < cs.length := by
  obtain ⟨mid, hmid, hrest⟩ := Regex.leaves_seq.mp h
  have hmid : mid.length ≤ cs.length := by
    rcases Regex.leaves_alt.mp hmid with hmid | hmid
    · obtain ⟨cs₁, h₁, hmid⟩ := Regex.leaves_seq.mp hmid
      obtain ⟨cs₂, h₂, hmid⟩ := Regex.leaves_seq.mp hmid
      have h₁ : cs₁.length ≤ cs.length := length_le_of_anyCase h₁
      have h₂ : cs₂.length ≤ cs₁.length := by
        rcases Regex.leaves_opt.mp h₂ with h₂ | rfl
        · exact length_le_of_anyCase h₂
        · exact le_rfl
      rw [Regex.leaves_text.mp hmid, List.length_append] at h₂
      omega
    · obtain ⟨cs₁, h₁, hmid⟩ := Regex.leaves_seq.mp hmid
      have h₁ : cs₁.length ≤ cs.length := length_le_of_anyCase h₁
      rw [Regex.leaves_text.mp hmid, List.length_append] at h₁
      omega
  obtain ⟨ds, rfl, hne, -⟩ := Regex.leaves_plus.mp hrest
  have := List.length_pos_of_ne_nil hne
  rw [List.length_append] at hmid
  omega

/-- A link is reported where there is one. -/
theorem finditer_linkRe_ne_nil_iff : linkRe.finditer none 0 0 text ≠ [] ↔ HoldsLink text := by
  rw [Pattern.finditer_ne_nil_iff]
  simp only [Pattern.MatchesAt, linkRe, implies_true, true_and, and_true, HoldsLink]
  constructor
  · rintro ⟨front, link, rfl, -, rest, hleaves⟩
    exact ⟨front, link, rest, rfl, hleaves⟩
  · rintro ⟨front, link, rest, rfl, hleaves⟩
    refine ⟨front, link, rfl, ?_, rest, hleaves⟩
    rintro rfl
    exact Nat.not_lt_zero _ (length_lt_of_linkBody hleaves)

variable (abc) in
/-- What a text is reported for that is no keyword. -/
def ReportedContact (cfg : Config) (text : List Char) (label : String) : Prop :=
  (cfg.blockPhoneNumbers = true ∧ label = "phone" ∧ HoldsDigits abc text) ∨
    (cfg.blockLinks = true ∧ label = "link" ∧ HoldsLink text)

variable (abc) in
/-- What a text is reported for. -/
def Reported (cfg : Config) (text : List Char) (label : String) : Prop :=
  (label ∈ cfg.keywords ∧ SpelledByLetter abc label text) ∨ ReportedContact abc cfg text label

theorem exists_mem_screenSpans_iff {cfg : Config} {label : String} :
    (∃ span ∈ screenSpans abc cfg text, span.label = label) ↔ Reported abc cfg text label := by
  have hphone : (∃ span ∈ if cfg.blockPhoneNumbers then
        findRegexSpans abc text [(phoneRe abc, "phone"), (longDigitsRe abc, "phone")] else [],
      span.label = label) ↔
      cfg.blockPhoneNumbers = true ∧ label = "phone" ∧ HoldsDigits abc text := by
    cases cfg.blockPhoneNumbers with
    | false => simp
    | true => simpa using exists_mem_findRegexSpans_iff
  have hlink : (∃ span ∈ if cfg.blockLinks then
        (linkRe.finditer none 0 0 text).map fun m => (⟨m.1, m.2, "link"⟩ : Span) else [],
      span.label = label) ↔ cfg.blockLinks = true ∧ label = "link" ∧ HoldsLink text := by
    cases cfg.blockLinks with
    | false => simp
    | true =>
      rw [← finditer_linkRe_ne_nil_iff, ← exists_mem_iff_ne_nil]
      simp only [if_true, List.mem_map, exists_exists_and_eq_and, true_and]
      exact ⟨fun ⟨m, hm, he⟩ => ⟨he.symm, m, hm⟩, fun ⟨he, m, hm⟩ => ⟨m, hm, he.symm⟩⟩
  simp only [screenSpans, List.mem_append, or_and_right, exists_or]
  rw [exists_mem_findKeywordSpans_iff, hphone, hlink, or_assoc]
  rfl

theorem screenSpans_nil (cfg : Config) : screenSpans abc cfg [] = [] := by
  simp [screenSpans, findKeywordSpans, keywordSpans, foldedChars, occurrences, findRegexSpans, patternSpans,
    squeezedChars, Pattern.finditer]

/-- **What `screen` reports.** -/
theorem mem_matched_iff {cfg : Config} (henabled : cfg.enabled = true) {text label : String} :
    label ∈ (screen abc cfg text).matched ↔ Reported abc cfg text.toList label := by
  rw [← exists_mem_screenSpans_iff]
  simp only [screen]
  split_ifs with h hspans
  · rcases h with h | rfl
    · simp [henabled] at h
    · simp [screenSpans_nil]
  · simp [hspans]
  · have hmatched : label ∈ ((screenSpans abc cfg text.toList).map Span.label).eraseDups ↔
        ∃ span ∈ screenSpans abc cfg text.toList, span.label = label := by
      rw [List.mem_eraseDups, List.mem_map]
    cases cfg.action with
    | block => exact hmatched
    | mask => exact hmatched

/-! ### What is to be caught -/

variable (abc)

/-- Some of the text is the keyword, in any case and with any accents, with separators put in. -/
def Spells (raw : String) (text : List Char) : Prop :=
  ∃ front v mid rest, text = front ++ mid ++ rest ∧ fold abc v = fold abc raw.toList ∧ Spaced isSeparator v mid

/-- A number ends here: there is nothing more of the text, or no letter, digit or `+`. -/
def Delimits (c : Option Char) : Prop := ∀ d ∈ c, abc.isalnum d = false ∧ d ≠ '+'

/-- Some of the text is a Vietnamese number with separators put in, and there is nothing of a number or word
next to it. -/
def HoldsNumber (text : List Char) : Prop :=
  ∃ front number mid rest, text = front ++ mid ++ rest ∧ (phoneBody abc).Leaves .python number [] ∧
    Spaced isSeparator number mid ∧ Delimits abc front.getLast? ∧ Delimits abc rest.head?

/-- The filter catches what it is set to catch. -/
structure Catches (typed : List String) (cfg : Config) (text : String) : Prop where
  number : cfg.blockPhoneNumbers = true → HoldsNumber abc text.toList → "phone" ∈ (screen abc cfg text).matched
  keyword : ∀ raw ∈ typed, Spells abc raw text.toList →
    normalizeKeyword abc raw ∈ (screen abc cfg text).matched

variable {abc}

/-- **What of this is caught**: a text with a number where 9 to 12 digits stand in a row once all but digits,
letters and `+` is left out, and a keyword where the text has its letters in a row, one character for each;
apart from keywords that are called what numbers and links are reported as. -/
theorem catches_iff {typed : List String} {cfg : Config} (hstored : Stored abc typed cfg)
    (henabled : cfg.enabled = true) (text : String) :
    Catches abc typed cfg text ↔
      (cfg.blockPhoneNumbers = true → HoldsNumber abc text.toList → HoldsDigits abc text.toList ∨
        ("phone" ∈ cfg.keywords ∧ SpelledByLetter abc "phone" text.toList)) ∧
      ∀ raw ∈ typed, Spells abc raw text.toList → SpelledByLetter abc (normalizeKeyword abc raw) text.toList ∨
        ReportedContact abc cfg text.toList (normalizeKeyword abc raw) := by
  have hphone : cfg.blockPhoneNumbers = true → ("phone" ∈ (screen abc cfg text).matched ↔
      HoldsDigits abc text.toList ∨ ("phone" ∈ cfg.keywords ∧ SpelledByLetter abc "phone" text.toList)) := by
    intro hblock
    rw [mem_matched_iff henabled]
    simp [Reported, ReportedContact, hblock, or_comm]
  have hkeyword : ∀ raw ∈ typed, (normalizeKeyword abc raw ∈ (screen abc cfg text).matched ↔
      SpelledByLetter abc (normalizeKeyword abc raw) text.toList ∨
        ReportedContact abc cfg text.toList (normalizeKeyword abc raw)) := by
    intro raw hraw
    -- a keyword with letters is stored
    have hmem : SpelledByLetter abc (normalizeKeyword abc raw) text.toList →
        normalizeKeyword abc raw ∈ cfg.keywords :=
      fun h => mem_keywords_of_stored hstored hraw fun he => h.1 (by rw [he]; rfl)
    rw [mem_matched_iff henabled, Reported, and_iff_right_of_imp hmem]
  constructor
  · rintro ⟨hn, hk⟩
    exact ⟨fun hblock h => (hphone hblock).mp (hn hblock h),
      fun raw hraw h => (hkeyword raw hraw).mp (hk raw hraw h)⟩
  · rintro ⟨hn, hk⟩
    exact ⟨fun hblock h => (hphone hblock).mpr (hn hblock h),
      fun raw hraw h => (hkeyword raw hraw).mpr (hk raw hraw h)⟩

/-- What an admin saves: the keywords, and nothing else changed. -/
def savedKeywords (raws : List String) : Update := ⟨none, none, some raws, none, none, none⟩

/-- A keyword with dots between its letters and a number with blanks between its digits. -/
theorem catches_dots_and_blanks :
    Catches .german [" Zalo "] { seeded [] with keywords := ["zalo"] } "Z.A.l.o: 0912 345 678" := by
  have hstored : Stored .german [" Zalo "] { seeded [] with keywords := ["zalo"] } :=
    (Stored.seeded []).updated (u := savedKeywords [" Zalo "]) (by decide)
  refine (catches_iff hstored rfl _).mpr ⟨fun _ _ => .inl ⟨"ZAlo".toList, "0912345678".toList, [], ?_⟩, ?_⟩
  · have hbefore : Alphabet.german.digits.isDecimal 'o' = false := rfl
    exact ⟨rfl, by decide, List.all_eq_true.mp (by decide), by simpa using hbefore, by simp⟩
  · intro raw hraw _
    obtain rfl := List.mem_singleton.mp hraw
    exact .inl ⟨by decide, by decide⟩

/-- Two numbers with a blank between them are one of twenty digits, and of `ß` only the first `s` is looked
at. -/
theorem second_number_hides_first :
    (Stored .german [] (seeded []) ∧ HoldsNumber .german "0912345678 0987654321".toList ∧
      "phone" ∉ (screen .german (seeded []) "0912345678 0987654321").matched) ∧
    (Stored .german ["Straße"] { seeded [] with keywords := ["strasse"] } ∧
      Spells .german "Straße" "straße".toList ∧
      normalizeKeyword .german "Straße" ∉
        (screen .german { seeded [] with keywords := ["strasse"] } "straße").matched) := by
  refine ⟨⟨.seeded [], ⟨[], "0912345678".toList, "0912345678".toList, " 0987654321".toList, ?_, ⟨[], ?_⟩,
    .refl _, ?_, ?_⟩, ?_⟩, (Stored.seeded []).updated (u := savedKeywords ["Straße"]) ?_,
    ⟨[], "straße".toList, "straße".toList, [], ?_, ?_, .refl _⟩, ?_⟩
  · decide
  · decide
  · intro c hc
    simp at hc
  · intro c hc
    obtain rfl : ' ' = c := by simpa using hc
    decide
  all_goals decide

end Marketplace.ContentFilter
