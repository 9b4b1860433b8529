import Marketplace.Python.Text
import Marketplace.Resources.Normal

/-!
# Searching the stock

What a seller types into the search box of the stock (`resources/filters.py`, `orders/codes.py`,
`i18n/search_text.py`) is read as the number of a row, as the code of an order, or as the content of a line, of
which only keyed digests are stored: of its normal form, salted where the shop already had the line, and of its
first field.

`Findable` is what has to hold of a term that says what a line is for the clause built from it to be true of
the line, and `stock_search_iff` that nothing less will do: a term of eight letters and digits is taken for an order's
code although it has no `ORD-` in front, a text of digits that are no numerals is handed to `int` all the same.

`keyed_digest` is a parameter; that different texts have different digests is a hypothesis. The dictionary of the
rows is one line and the code of the order it was sold in.
-/

namespace Marketplace.Search

open Python Text

/-- What a digest is for: `HASH_PURPOSE`, `LOOKUP_PURPOSE`. -/
inductive Purpose
  | hash | lookup
  deriving DecidableEq

/-! ### Numbers and codes -/

/-- `PG_INT_MAX` -/
def pgIntMax : ℤ := 2147483647

/-- `ORDER_CODE_PREFIX` -/
def orderCodePrefix : String := "ORD-"

section Terms

variable (py : Language) (casing : Casing)

/-- `text.isdigit()` -/
def isDigits (text : String) : Bool := py.digits.allDigits text.toList

/-- `int(text)` -/
def intOf (text : String) : Except Error ℤ :=
  match py.intOfText text.toList with
  | some n => .ok n
  | none => .error .valueError

/-- `as_row_id` -/
def asRowId (raw : Option String) : Except Error (Option ℤ) :=
  let token := strip (raw.getD "")
  if isDigits py token = false then .ok none
  else (intOf py token).map fun value => if 0 < value ∧ value ≤ pgIntMax then some value else none

/-- What an order is referred to by. -/
inductive OrderRef
  | id (n : ℤ)
  | code (code : String)
  deriving DecidableEq

/-- `_CODE_BODY_RE.match(body)`: eight of `0-9A-Z`; `$` also stands before a newline at the end. -/
def isCodeBody (body : String) : Bool :=
  let cs := body.toList
  let cs := if cs.getLast? = some '\n' then cs.dropLast else cs
  cs.length = 8 && cs.all fun c => c.isDigit || c.isUpper

/-- The text without the prefix of an order's code. -/
def withoutPrefix (body : String) : String :=
  if orderCodePrefix.toList.isPrefixOf body.toList then
    String.ofList (body.toList.drop orderCodePrefix.toList.length)
  else body

/-- `parse_order_ref` -/
def parseOrderRef (raw : String) : Except Error (Option OrderRef) :=
  let token := strip raw
  if token = "" then .ok none
  else if isDigits py token then (intOf py token).map fun n => some (.id n)
  else
    let body := withoutPrefix (casing.toUpper token)
    if isCodeBody body && !isDigits py body then .ok (some (.code (orderCodePrefix ++ body))) else .ok none

/-- What `parse_batch` returns: no filter, stock without a batch, the number of a batch, or its public key. -/
inductive BatchRef
  | any
  | unbatched
  | id (n : ℤ)
  | key (key : String)
  deriving DecidableEq

/-- `parse_batch` -/
def parseBatch (raw : Option String) : Except Error BatchRef :=
  let raw := raw.getD ""
  if raw = "" then .ok .any
  else if raw = "none" then .ok .unbatched
  else if isDigits py raw then (asRowId py (some raw)).map fun batchId => .id (batchId.getD (-1))
  else .ok (.key raw)

end Terms

/-! ### Digests -/

section Clauses

variable (py : Language) (casing : Casing) (digest : Purpose → String → String)

/-- `resource_lookup_term` -/
def lookupTerm (term : String) : String := casing.casefold (strip term)

/-- The first `|` field. -/
def firstField (data : String) : String := String.ofList (data.toList.takeWhile (· ≠ '|'))

/-- `resource_data_hash` -/
def dataHash (data : String) : String := digest .hash (normalizeResourceData data)

/-- `salted_resource_hash` -/
def saltedHash (data salt : String) : String := digest .hash (salt ++ "\n" ++ normalizeResourceData data)

/-- The first field of a line, as it is looked up. -/
def lookupField (data : String) : String := lookupTerm casing (firstField (normalizeResourceData data))

/-- `resource_lookup_key` -/
def lookupKey (data : String) : Option String :=
  let first := lookupField casing data
  if first = "" then none else some (digest .lookup first)

/-- `resource_search_key` -/
def searchKey (term : String) : Option String :=
  let normalized := lookupTerm casing term
  if normalized = "" then none else some (digest .lookup normalized)

/-- A condition on the rows of the stock. -/
inductive Clause
  | id (n : ℤ)
  | orderId (n : ℤ)
  | orderCode (code : String)
  | lookup (key : String)
  | hash (h : String)
  | or (a b : Clause)

/-- `_content_match` -/
def contentMatch (term : String) : Option Clause :=
  (searchKey casing digest term).map fun key => .or (.lookup key) (.hash (dataHash digest term))

/-- The clause `or_` makes of the two, the second of which may be missing. -/
def Clause.orElse (a : Clause) : Option Clause → Clause
  | some b => .or a b
  | none => a

/-- The text without what `lstrip("#")` takes off. -/
def withoutHashes (text : String) : String := String.ofList (text.toList.dropWhile (· = '#'))

/-- `resource_search_clause`; no clause is no condition. -/
def resourceSearchClause (search : Option String) : Except Error (Option Clause) :=
  let q := strip (search.getD "")
  if q = "" then .ok none
  else if q.toList.head? = some '#' ∧ isDigits py (String.ofList q.toList.tail) = true then
    (asRowId py (some (String.ofList q.toList.tail))).map fun orderId =>
      some (orderId.elim (.id (-1)) .orderId)
  else if isDigits py q then
    (asRowId py (some q)).map fun n =>
      n.elim (contentMatch casing digest q) fun n =>
        some ((Clause.or (.id n) (.orderId n)).orElse (contentMatch casing digest q))
  else
    (parseOrderRef py casing (withoutHashes q)).map fun parsed =>
      match parsed with
      | some (.code code) => some (.orderCode code)
      | _ => contentMatch casing digest q

/-! ### Rows -/

/-- A stored line: its digests are those of its content, the first perhaps salted. -/
structure StoredLine where
  id : ℤ
  orderId : Option ℤ
  /-- `order_code` of the order it was sold in. -/
  orderCode : Option String
  data : String
  dataHash : String
  dataLookup : Option String
  hash_of : dataHash = Search.dataHash digest data ∨ ∃ salt, dataHash = saltedHash digest data salt
  lookup_of : dataLookup = lookupKey casing digest data

variable {casing digest}

/-- The condition is true of a line. -/
def Clause.holds (row : StoredLine casing digest) : Clause → Bool
  | .id n => row.id = n
  | .orderId n => row.orderId = some n
  | .orderCode code => row.orderId.isSome && row.orderCode = some code
  | .lookup key => row.dataLookup = some key
  | .hash h => row.dataHash = h
  | .or a b => a.holds row || b.holds row

/-- The numbers of rows a condition compares with. -/
def Clause.rowIds : Clause → List ℤ
  | .id n | .orderId n => [n]
  | .orderCode _ | .lookup _ | .hash _ => []
  | .or a b => a.rowIds ++ b.rowIds

end Clauses

/-! ### What is raised -/

section Raises

variable {py : Language} {casing : Casing} {digest : Purpose → String → String}

theorem exists_map_ok {α β : Type} {x : Except Error α} {f : α → β} :
    (∃ b, x.map f = .ok b) ↔ ∃ a, x = .ok a := by
  cases x <;> simp [Except.map]

/-- `int` of a stripped text of digits. -/
theorem exists_intOf_iff {text : String} (h : isDigits py (strip text) = true) :
    (∃ n, intOf py (strip text) = .ok n) ↔ Numeral py (strip text).toList := by
  have hstrip : stripChars isSpace (strip text).toList = (strip text).toList := by
    rw [toList_strip, stripChars_idem]
  rw [← exists_intOfText_iff hstrip h, intOf]
  cases py.intOfText (strip text).toList <;> simp

theorem numeral_of_not_isDigits {text : String} (h : isDigits py text = false) : Numeral py text.toList :=
  fun hd => absurd (h.symm.trans hd) (by decide)

theorem exists_asRowId_iff (raw : String) :
    (∃ n, asRowId py (some raw) = .ok n) ↔ Numeral py (strip raw).toList := by
  rw [asRowId]
  simp only [Option.getD_some]
  split_ifs with hd
  · exact ⟨fun _ => numeral_of_not_isDigits hd, fun _ => ⟨none, rfl⟩⟩
  · rw [exists_map_ok, exists_intOf_iff (by simpa using hd)]

theorem exists_parseOrderRef_iff (raw : String) :
    (∃ r, parseOrderRef py casing raw = .ok r) ↔ Numeral py (strip raw).toList := by
  have hempty : isDigits py "" = false := rfl
  simp only [parseOrderRef]
  split_ifs with hnil hd hcode
  · exact ⟨fun _ => numeral_of_not_isDigits (by rw [hnil, hempty]), fun _ => ⟨_, rfl⟩⟩
  · rw [exists_map_ok, exists_intOf_iff hd]
  all_goals exact ⟨fun _ => numeral_of_not_isDigits (by simpa using hd), fun _ => ⟨_, rfl⟩⟩

theorem exists_parseBatch_of_numeral {raw : String} (h : Numeral py (strip raw).toList) :
    ∃ r, parseBatch py (some raw) = .ok r := by
  simp only [parseBatch, Option.getD_some]
  split_ifs
  · exact ⟨_, rfl⟩
  · exact ⟨_, rfl⟩
  · exact exists_map_ok.mpr ((exists_asRowId_iff raw).mpr h)
  · exact ⟨_, rfl⟩

/-- **When a search raises**: where what is left of the term without spaces and `#` in front is digits that
are no numeral. -/
theorem exists_resourceSearchClause_iff (t : String) :
    (∃ c, resourceSearchClause py casing digest (some t) = .ok c) ↔
      Numeral py (strip (withoutHashes (strip t))).toList := by
  have hhash : ∀ {q : String}, isDigits py q = true → q.toList.head? ≠ some '#' := fun hd hh =>
    not_mem_of_allDigits hd (c := '#') (by decide) (by decide) (List.mem_of_mem_head? hh)
  have hself : ∀ {q : String}, q.toList.head? ≠ some '#' → withoutHashes q = q := by
    intro q hq
    rw [withoutHashes]
    cases hl : q.toList with
    | nil => rw [List.dropWhile_nil, ← hl, String.ofList_toList]
    | cons c cs =>
      rw [hl] at hq
      rw [List.dropWhile_cons_of_neg (by simpa using hq), ← hl, String.ofList_toList]
  rw [resourceSearchClause]
  simp only [Option.getD_some]
  split_ifs with hnil hnum hd
  · rw [hnil]
    exact ⟨fun _ h => by simp [withoutHashes, toList_strip, stripChars, DigitClass.allDigits] at h, fun _ => ⟨_, rfl⟩⟩
  · -- after a single `#`
    obtain ⟨hh, hd⟩ := hnum
    have htail : withoutHashes (strip t) = String.ofList (strip t).toList.tail := by
      rw [withoutHashes]
      cases hl : (strip t).toList with
      | nil => simp [hl] at hh
      | cons c cs =>
        rw [hl] at hh hd
        obtain rfl : c = '#' := by simpa using hh
        have := hself (hhash hd)
        rw [withoutHashes, String.toList_ofList] at this
        rw [List.dropWhile_cons_of_pos (by simp), List.tail_cons]
        exact this
    rw [exists_map_ok, exists_asRowId_iff, htail]
  · rw [exists_map_ok, exists_asRowId_iff, hself (hhash hd)]
  · rw [exists_map_ok, exists_parseOrderRef_iff]

/-! ### The numbers that are compared -/

/-- The numbers a row can have. -/
def IsRowId (n : ℤ) : Prop := 1 ≤ n ∧ n ≤ 2147483647

theorem isRowId_of_asRowId {raw : Option String} {n : ℤ} (h : asRowId py raw = .ok (some n)) : IsRowId n := by
  rw [asRowId] at h
  split_ifs at h
  · simp at h
  · cases hint : intOf py (strip (raw.getD "")) with
    | error e => simp [hint, Except.map] at h
    | ok value =>
      simp only [hint, Except.map, Except.ok.injEq] at h
      split_ifs at h with hv
      simp only [Option.some.injEq] at h
      rw [← h]
      exact ⟨by omega, hv.2⟩

theorem rowIds_contentMatch {term : String} {c : Clause} (h : contentMatch casing digest term = some c) :
    c.rowIds = [] := by
  rw [contentMatch, Option.map_eq_some_iff] at h
  obtain ⟨key, -, rfl⟩ := h
  rfl

/-- **Only what a row can have is compared**, and the impossible number. -/
theorem isRowId_of_mem_rowIds {search : Option String} {c : Clause}
    (h : resourceSearchClause py casing digest search = .ok (some c)) {n : ℤ} (hn : n ∈ c.rowIds) :
    IsRowId n ∨ n = -1 := by
  rw [resourceSearchClause] at h
  split_ifs at h with hnil hnum hd
  · simp at h
  · cases hid : asRowId py (some (String.ofList (strip (search.getD "")).toList.tail)) with
    | error e => simp [hid, Except.map] at h
    | ok orderId =>
      simp only [hid, Except.map, Except.ok.injEq, Option.some.injEq] at h
      subst h
      cases orderId with
      | none => exact .inr (by simpa [Clause.rowIds] using hn)
      | some m =>
        have hm : n = m := by simpa [Clause.rowIds] using hn
        exact .inl (hm ▸ isRowId_of_asRowId hid)
  · cases hid : asRowId py (some (strip (search.getD ""))) with
    | error e => simp [hid, Except.map] at h
    | ok m =>
      simp only [hid, Except.map, Except.ok.injEq] at h
      cases m with
      | none =>
        rw [Option.elim_none] at h
        simp [rowIds_contentMatch h] at hn
      | some m =>
        simp only [Option.elim_some, Option.some.injEq] at h
        subst h
        have hm : n = m := by
          cases hc : contentMatch casing digest (strip (search.getD "")) with
          | none => simpa [hc, Clause.orElse, Clause.rowIds] using hn
          | some b => simpa [hc, Clause.orElse, Clause.rowIds, rowIds_contentMatch hc] using hn
        exact .inl (hm ▸ isRowId_of_asRowId hid)
  · cases href : parseOrderRef py casing (withoutHashes (strip (search.getD ""))) with
    | error e => simp [href, Except.map] at h
    | ok parsed =>
      simp only [href, Except.map, Except.ok.injEq] at h
      split at h
      · simp only [Option.some.injEq] at h
        subst h
        simp [Clause.rowIds] at hn
      · simp [rowIds_contentMatch h] at hn

/-- The number of a batch is one a row can have, or the impossible number. -/
theorem isRowId_of_parseBatch {raw : Option String} {n : ℤ} (h : parseBatch py raw = .ok (.id n)) :
    IsRowId n ∨ n = -1 := by
  rw [parseBatch] at h
  split_ifs at h with h1 h2 hd
  all_goals try simp at h
  cases hid : asRowId py (some (raw.getD "")) with
  | error e => simp [hid, Except.map] at h
  | ok m =>
    simp only [hid, Except.map, Except.ok.injEq, BatchRef.id.injEq] at h
    cases m with
    | none => exact .inr (by simpa using h.symm)
    | some m =>
      obtain rfl : m = n := by simpa using h
      exact .inl (isRowId_of_asRowId hid)

end Raises

/-! ### What is found -/

section Finds

variable {py : Language} {casing : Casing} {digest : Purpose → String → String}

/-- The term says what the line is: it is its first field, or its content. -/
def Says (row : StoredLine casing digest) (t : String) : Prop :=
  lookupTerm casing t = lookupField casing row.data ∨ normalizeResourceData t = row.data

/-- A condition is built from the term, and is true of the line. -/
def Finds (py : Language) (row : StoredLine casing digest) (t : String) : Prop :=
  ∃ clause, resourceSearchClause py casing digest (some t) = .ok clause ∧ ∀ c ∈ clause, c.holds row = true

/-- The code a term is taken for that is not all digits and has no `#` in front. -/
def codeOf (py : Language) (casing : Casing) (q : String) : Option String :=
  let body := withoutPrefix (casing.toUpper q)
  if isCodeBody body && !isDigits py body then some (orderCodePrefix ++ body) else none

/-- What a line has to be for a term that says what it is to find it. -/
def Findable (py : Language) (row : StoredLine casing digest) (t : String) : Prop :=
  let q := strip t
  q = "" ∨ (isDigits py q = true ∧ Numeral py q.toList) ∨
    (isDigits py q = false ∧
      match codeOf py casing q with
      | some code => row.orderId.isSome = true ∧ row.orderCode = some code
      | none => lookupTerm casing t = lookupField casing row.data ∨
          (row.dataHash = dataHash digest row.data ∧ normalizeResourceData q = normalizeResourceData row.data))

theorem lookupTerm_strip (t : String) : lookupTerm casing (strip t) = lookupTerm casing t := by
  rw [lookupTerm, lookupTerm, strip_strip]

/-- A term of digits that is the content of a line is its first field, which is all of it. -/
theorem lookup_of_digits {t data : String} (hd : isDigits py (strip t) = true) (h : normalizeResourceData t = data) :
    lookupTerm casing t = lookupField casing data := by
  have hnorm : normalizeResourceData (strip t) = strip t := by
    have hcr : '\r' ∉ (strip t).toList := not_mem_of_allDigits hd (by decide) (by decide)
    rw [normalize_strip, ← String.toList_inj, toList_strip, toList_normalizeResourceData,
      stripChars_stripChars fun c => isSpace_of_isBlank, strip_normalizeNewlines, ← toList_strip,
      normalizeNewlines_eq_self hcr]
  have hbar : '|' ∉ (normalizeResourceData t).toList := by
    intro hmem
    have := mem_stripChars_of_mem (p := isSpace) hmem (by decide)
    rw [← toList_strip, ← normalize_strip, hnorm] at this
    exact not_mem_of_allDigits hd (by decide) (by decide) this
  have hfirst : firstField (normalizeResourceData t) = normalizeResourceData t := by
    rw [firstField, List.takeWhile_eq_self_iff.mpr, String.ofList_toList]
    intro c hc
    simpa using fun h : c = '|' => hbar (h ▸ hc)
  rw [lookupField, ← h, normalize_normalize, hfirst, lookupTerm, lookupTerm, ← normalize_strip, hnorm]

variable (hdigest : ∀ purpose, Function.Injective (digest purpose))

include hdigest in
/-- The stored first field is the one that is looked up. -/
theorem lookup_iff {row : StoredLine casing digest} {t : String} (ht : strip t ≠ "") :
    row.dataLookup = some (digest .lookup (lookupTerm casing t)) ↔ lookupTerm casing t = lookupField casing row.data := by
  have hne : lookupTerm casing t ≠ "" := fun h => ht (casing.casefold_eq_empty_iff.mp h)
  rw [row.lookup_of, lookupKey]
  split_ifs with hempty
  · rw [hempty]
    exact ⟨fun h => by simp at h, fun h => absurd h hne⟩
  · rw [Option.some.injEq, (hdigest .lookup).eq_iff]
    exact eq_comm

include hdigest in
/-- The stored digest is the one of the term: of a line the term is the content of, only if it is not salted. -/
theorem hash_iff {row : StoredLine casing digest} {t : String} (hspoken : normalizeResourceData t = row.data) :
    row.dataHash = dataHash digest (strip t) ↔
      row.dataHash = dataHash digest row.data ∧
        normalizeResourceData (strip t) = normalizeResourceData row.data := by
  constructor
  · intro h
    rcases row.hash_of with hplain | ⟨salt, hsalted⟩
    · refine ⟨hplain, ?_⟩
      rw [hplain] at h
      exact (hdigest .hash h).symm
    · -- a salted text is longer than any normal form of the term
      rw [hsalted] at h
      have htext := congrArg (fun s => s.toList.length) (hdigest .hash h)
      have hlen := length_stripChars_le isSpace (normalizeResourceData t).toList
      rw [← toList_strip, ← normalize_strip] at hlen
      rw [← hspoken, normalize_normalize] at htext
      simp only [String.toList_append, List.length_append] at htext
      simp at htext
      omega
  · rintro ⟨hplain, heq⟩
    rw [hplain, dataHash, dataHash, heq]

include hdigest in
/-- What the content of a line is found by. -/
theorem holds_contentMatch_iff {row : StoredLine casing digest} {t : String} (ht : strip t ≠ "") (hspoken : Says row t) :
    (∀ c ∈ contentMatch casing digest (strip t), c.holds row = true) ↔
      (lookupTerm casing t = lookupField casing row.data ∨
        (row.dataHash = dataHash digest row.data ∧
          normalizeResourceData (strip t) = normalizeResourceData row.data)) := by
  have hne : lookupTerm casing t ≠ "" := fun h => ht (casing.casefold_eq_empty_iff.mp h)
  have hmatch : contentMatch casing digest (strip t) =
      some (.or (.lookup (digest .lookup (lookupTerm casing t))) (.hash (dataHash digest (strip t)))) := by
    rw [contentMatch, searchKey, lookupTerm_strip]
    simp [hne]
  rw [hmatch]
  simp only [Option.mem_some_iff, forall_eq', Clause.holds, Bool.or_eq_true, decide_eq_true_eq, lookup_iff hdigest ht]
  rcases hspoken with hlookup | hwhole
  · simp [hlookup]
  · rw [hash_iff hdigest hwhole]

include hdigest in
/-- **A term that says what a line is finds it exactly where the line is findable.** -/
theorem finds_iff {row : StoredLine casing digest} {t : String} (hhash : (strip t).toList.head? ≠ some '#')
    (hspoken : Says row t) : Finds py row t ↔ Findable py row t := by
  have hcontent := fun ht : strip t ≠ "" => holds_contentMatch_iff hdigest ht hspoken
  rw [Finds, Findable, resourceSearchClause]
  simp only [Option.getD_some, hhash, false_and, if_false]
  by_cases hnil : strip t = ""
  · simp [hnil]
  have hhashes : withoutHashes (strip t) = strip t := by
    rw [withoutHashes, List.dropWhile_eq_self_iff.mpr, String.ofList_toList]
    intro hlen hc
    refine hhash ?_
    rw [List.head?_eq_getElem?, List.getElem?_eq_getElem hlen]
    simpa using hc
  simp only [hnil, if_false, false_or]
  by_cases hd : isDigits py (strip t) = true
  · -- digits: the line is all of them, and is found by its first field whatever they are compared with
    have hlookup : lookupTerm casing t = lookupField casing row.data :=
      hspoken.elim id fun h => lookup_of_digits hd h
    have hall := (hcontent hnil).mpr (.inl hlookup)
    simp only [hd, if_true, true_and, Bool.true_eq_false, false_and, or_false]
    have hrow : (∃ n, asRowId py (some (strip t)) = .ok n) ↔ Numeral py (strip (strip t)).toList := exists_asRowId_iff _
    rw [strip_strip] at hrow
    rw [← hrow]
    constructor
    · rintro ⟨clause, hclause, -⟩
      exact exists_map_ok.mp ⟨clause, hclause⟩
    · rintro ⟨n, hn⟩
      simp only [hn, Except.map, Except.ok.injEq, exists_eq_left']
      cases n with
      | none => simpa only [Option.elim_none] using hall
      | some n =>
        simp only [Option.elim_some, Option.mem_some_iff, forall_eq']
        cases hmatch : contentMatch casing digest (strip t) with
        | none => simp [contentMatch, searchKey, lookupTerm, casing.casefold_eq_empty_iff, hnil] at hmatch
        | some b => simp [Clause.orElse, Clause.holds, hall b hmatch]
  · have hd' : isDigits py (strip t) = false := by simpa using hd
    have hparse : parseOrderRef py casing (strip t) = .ok ((codeOf py casing (strip t)).map .code) := by
      rw [parseOrderRef, codeOf]
      simp only [strip_strip, hnil, hd', if_false, Bool.false_eq_true]
      split_ifs <;> rfl
    simp only [hd', Bool.false_eq_true, if_false, false_and, true_and, false_or, hhashes, hparse, Except.map,
      Except.ok.injEq, exists_eq_left']
    cases codeOf py casing (strip t) with
    | none => exact hcontent hnil
    | some code => simp [Clause.holds]

include hdigest in
/-- **When the stock search finds a line by what it says, and when it raises.** A term that does not start with
`#` and is the first field of a line, or its content, finds the line exactly where it is findable; the functions
on what is typed return exactly where the term, and what is left of it without `#` in front, is no text of digits or
a numeral; and the numbers of rows they compare with are ones a row can have, or the impossible one. -/
theorem stock_search_iff (t : String) :
    (∀ row : StoredLine casing digest, (strip t).toList.head? ≠ some '#' → Says row t →
      (Finds py row t ↔ Findable py row t)) ∧
    (((∃ c, resourceSearchClause py casing digest (some t) = .ok c) ∧ (∃ n, asRowId py (some t) = .ok n) ∧
        (∃ b, parseBatch py (some t) = .ok b) ∧ ∃ r, parseOrderRef py casing t = .ok r) ↔
      Numeral py (strip t).toList ∧ Numeral py (strip (withoutHashes (strip t))).toList) ∧
    (∀ c n, resourceSearchClause py casing digest (some t) = .ok (some c) → n ∈ c.rowIds → IsRowId n ∨ n = -1) ∧
    (∀ n, asRowId py (some t) = .ok (some n) → IsRowId n) ∧
    ∀ n, parseBatch py (some t) = .ok (.id n) → IsRowId n ∨ n = -1 := by
  refine ⟨fun row hhash hspoken => finds_iff hdigest hhash hspoken, ?_, fun c n h hn => isRowId_of_mem_rowIds h hn,
    fun n => isRowId_of_asRowId, fun n => isRowId_of_parseBatch⟩
  rw [exists_resourceSearchClause_iff, exists_asRowId_iff, exists_parseOrderRef_iff]
  constructor
  · rintro ⟨h1, h2, -, -⟩
    exact ⟨h2, h1⟩
  · rintro ⟨h1, h2⟩
    exact ⟨h2, h1, exists_parseBatch_of_numeral h1, h1⟩

/-- Python, as far as the digits of ASCII and `²` go. -/
def superscript : Language where
  digits :=
    { value := DigitClass.ascii.value
      isdigit := fun c => c.isDigit || c = '²'
      value_ascii := DigitClass.ascii.value_ascii
      isdigit_ascii := fun c hc => by
        have : c ≠ '²' := fun h => absurd (h ▸ hc) (by decide)
        simp [this] }
  repr _ := ""
  fromisoformat _ := none

/-- A digest that gives the text back, and what it is for. -/
def plainDigest (purpose : Purpose) (text : String) : String :=
  (if purpose = .hash then "hash:" else "lookup:") ++ text

theorem plainDigest_injective (purpose : Purpose) : Function.Injective (plainDigest purpose) := fun a b h => by
  have := congrArg String.toList h
  simpa [plainDigest, String.toList_inj] using this

/-- A stored line with a user name of eight letters and digits. -/
def userLine : StoredLine Casing.ascii plainDigest where
  id := 7
  orderId := none
  orderCode := none
  data := "abcd1234|secret"
  dataHash := dataHash plainDigest "abcd1234|secret"
  dataLookup := lookupKey Casing.ascii plainDigest "abcd1234|secret"
  hash_of := .inl rfl
  lookup_of := rfl

/-- The user name of a line does not find it, being taken for the code of an order, and `²` is handed to `int`. -/
theorem user_name_not_found :
    lookupTerm Casing.ascii "abcd1234" = lookupField Casing.ascii userLine.data ∧
      ¬ Finds superscript userLine "abcd1234" ∧
      resourceSearchClause superscript Casing.ascii plainDigest (some "²") = .error .valueError := by
  have hclause : resourceSearchClause superscript Casing.ascii plainDigest (some "abcd1234") =
      .ok (some (.orderCode "ORD-ABCD1234")) := by rfl
  refine ⟨by rfl, ?_, by rfl⟩
  rintro ⟨clause, h, hall⟩
  rw [hclause, Except.ok.injEq] at h
  subst h
  exact absurd (hall _ rfl) (by decide)

theorem stock_search_iff_user_name :
    Finds superscript userLine "abcd1234" ↔ Findable superscript userLine "abcd1234" :=
  (stock_search_iff plainDigest_injective "abcd1234").1 userLine (by decide) (.inl (by rfl))

end Finds

end Marketplace.Search
