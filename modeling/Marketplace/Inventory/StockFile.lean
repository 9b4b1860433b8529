import Marketplace.Resources.Batches

/-!
# A batch as a file

A batch of stock is downloaded as a text file: the format of its lines, a `#` line with the note on how to
sign in, then the lines (`resources/batches.py`, `export_batch`). The console reads such a file when stock is
uploaded (`splitStockFormat`) or added to a batch (`stripBatchHeader`), and both ends say that a downloaded batch
uploads again as it is.

They write and read by rules of their own. The writer ends every line with a newline and lets a line contain
newlines; the reader takes off what JavaScript counts as a space and drops what is empty then. The reader tells a
format from an account by what it looks like, and a note by the `#` in front of it alone.
`reads_back_iff` says for which batches the two agree.
-/

namespace Marketplace.Inventory

open Text

/-! ### The reader -/

/-- What JavaScript counts as a space, in `trim` and as `\s`. -/
def isJsSpace (c : Char) : Bool :=
  c.val ∈ [0x09, 0x0a, 0x0b, 0x0c, 0x0d, 0x20, 0xa0, 0x1680, 0x2028, 0x2029, 0x202f, 0x205f, 0x3000, 0xfeff] ||
    (0x2000 ≤ c.val && c.val ≤ 0x200a)

/-- `text.trim()` -/
def trim (text : List Char) : List Char := stripChars isJsSpace text

/-- `raw.split(/\r?\n/)` -/
def splitLines : List Char → List (List Char)
  | [] => [[]]
  | '\r' :: '\n' :: cs => [] :: splitLines cs
  | '\n' :: cs => [] :: splitLines cs
  | c :: cs => (splitLines cs).modifyHead (c :: ·)

/-- `parseResourceItems` -/
def parseResourceItems (raw : List Char) (deduplicate : Bool) : List (List Char) :=
  let items := ((splitLines raw).map trim).filter (· ≠ [])
  if deduplicate then items.eraseDups else items

/-- `DATA_LIKE`, at the start of a text: `@`, `://` or six digits. -/
def dataLikeAt (text : List Char) : Bool :=
  ['@'].isPrefixOf text || [':', '/', '/'].isPrefixOf text || 6 ≤ (text.takeWhile Char.isDigit).length

/-- `DATA_LIKE.test(line)` -/
def dataLike (line : List Char) : Bool := line.tails.any dataLikeAt

/-- `line.length`, in 16-bit units. -/
def unitLength (line : List Char) : ℕ := (line.map fun c => if c.toNat < 0x10000 then 1 else 2).sum

/-- Whether a line can name columns rather than be an account. -/
def isFormatLine (line : List Char) : Bool := unitLength line ≤ stockFormatMaxLength && !dataLike line

/-- `text.replace(/\s+/g, " ")`; `inside` where a run of spaces has begun. -/
def oneSpace (inside : Bool) : List Char → List Char
  | [] => []
  | c :: cs =>
    if isJsSpace c then if inside then oneSpace true cs else ' ' :: oneSpace true cs
    else c :: oneSpace false cs

/-- `cleanLoginNote` -/
def cleanLoginNote (value : List Char) : Option (List Char) :=
  let text := trim (oneSpace false ((trim value).dropWhile (· = '#')))
  if text = [] then none else some text

/-- `StockFormatSplit` -/
structure StockFormatSplit where
  format : Option (List Char)
  note : Option (List Char)
  items : List (List Char)
  needsFormat : Bool := false
  deriving DecidableEq

/-- `line?.startsWith("#")` -/
def startsHash (line : Option (List Char)) : Bool := line.any fun l => ['#'].isPrefixOf l

/-- `splitStockFormat` -/
def splitStockFormat (lines : List (List Char)) (typedFormat : Option (List Char)) : StockFormatSplit :=
  match lines with
  | [] => { format := none, note := none, items := [] }
  | first :: rest =>
    if typedFormat ≠ none ∨ isFormatLine first = false then
      { format := (typedFormat.map trim).filter (· ≠ []), note := none, items := lines, needsFormat := true }
    else
      let hasNote := startsHash rest[0]?
      { format := some first
        note := if hasNote then rest[0]?.bind cleanLoginNote else none
        items := if hasNote then rest.drop 1 else rest }

/-- `stripBatchHeader` -/
def stripBatchHeader (lines : List (List Char)) (format : List Char) : List (List Char) :=
  if lines[0]?.map trim = some (trim format) then
    if startsHash lines[1]? then lines.drop 2 else lines.drop 1
  else lines

/-- The text of an uploaded file: a byte-order mark in front of it is no part of it. -/
def fileText (bytes : ByteArray) : Option (List Char) :=
  (String.fromUTF8? bytes).map fun s =>
    match s.toList with
    | '\ufeff' :: cs => cs
    | cs => cs

/-! ### The writer -/

/-- `header_lines` -/
def headerLines (formatLine : String) (loginNote : Option String) : String :=
  if formatLine = "" then ""
  else formatLine ++ "\n" ++ loginNote.elim "" fun note => if note = "" then "" else "# " ++ note ++ "\n"

/-- `BATCH_EXPORT_ROWS` -/
def batchExportRows : ℕ := 100

/-- A row of the file. -/
def fileLine (row : ℕ × String) : String := row.2 ++ "\n"

/-- The loop of `export_batch`, over the lines by ascending number; `none` where it has not ended after so many
pages. -/
def exportRows (rows : List (ℕ × String)) : ℕ → ℕ → Option String
  | 0, _ => none
  | fuel + 1, after =>
    let page := (rows.filter fun row => after < row.1).take batchExportRows
    match page.getLast? with
    | none => some ""
    | some last => (exportRows rows fuel last.1).map (String.join (page.map fileLine) ++ ·)

/-- `export_batch` -/
def exportBatch (pages : ℕ) (format : String) (loginNote : Option String) (rows : List (ℕ × String)) :
    Option ByteArray :=
  (exportRows rows pages 0).map fun lines => (headerLines format loginNote ++ lines).toUTF8

/-! ### What the reader makes of a text -/

/-- The lines of a text that are not empty once trimmed. -/
def cut (text : List Char) : List (List Char) := ((text.splitOn '\n').map trim).filter (· ≠ [])

@[simp] theorem trim_nil : trim [] = [] := rfl

theorem trim_trim (text : List Char) : trim (trim text) = trim text := stripChars_idem _ _

/-- A `\r` before a newline makes no difference, as it would be taken off anyway. -/
theorem map_trim_splitLines (text : List Char) : (splitLines text).map trim = (text.splitOn '\n').map trim := by
  suffices h : List.Forall₂ (fun a b => b = a ∨ b = a ++ ['\r']) (splitLines text) (text.splitOn '\n') by
    refine List.forall₂_eq_eq_eq ▸ (List.forall₂_map_left_iff.mpr (List.forall₂_map_right_iff.mpr (h.imp ?_)))
    rintro a b (rfl | rfl)
    · rfl
    · exact (stripChars_append_singleton (by decide) a).symm
  fun_induction splitLines text with
  | case1 => exact .cons (.inl rfl) .nil
  | case2 cs ih =>
    have : ('\r' :: '\n' :: cs).splitOn '\n' = ['\r'] :: cs.splitOn '\n' :=
      List.splitOn_append_cons_self ['\r'] cs
    rw [this]
    exact .cons (.inr rfl) ih
  | case3 cs ih =>
    have : ('\n' :: cs).splitOn '\n' = [] :: cs.splitOn '\n' := List.splitOn_append_cons_self [] cs
    rw [this]
    exact .cons (.inl rfl) ih
  | case4 c cs hcr hn ih =>
    rw [List.splitOn_cons_eq_if_modifyHead, if_neg (by simpa using hn)]
    -- the first piece of both gets the character in front
    generalize splitLines cs = left, cs.splitOn '\n' = right at ih
    cases ih with
    | nil => exact .nil
    | cons hab hrest =>
      refine .cons ?_ hrest
      rcases hab with rfl | rfl
      · exact .inl rfl
      · exact .inr rfl

/-- The reader's lines. -/
theorem parseResourceItems_eq (raw : List Char) : parseResourceItems raw false = cut raw := by
  rw [parseResourceItems, map_trim_splitLines]
  rfl

@[simp] theorem cut_nil : cut [] = [] := rfl

/-- A newline separates. -/
theorem cut_append (a b : List Char) : cut (a ++ '\n' :: b) = cut a ++ cut b := by
  rw [cut, List.splitOn_append_cons_self, List.map_append, List.filter_append]
  rfl

/-- The lines of a text made of lines. -/
theorem cut_flatMap (lines : List (List Char)) : cut (lines.flatMap (· ++ ['\n'])) = lines.flatMap cut := by
  induction lines with
  | nil => rfl
  | cons line lines ih =>
    rw [List.flatMap_cons, List.flatMap_cons, List.append_assoc, List.singleton_append, cut_append, ih]

/-- A line without newlines is kept as it is trimmed. -/
theorem cut_of_not_mem {line : List Char} (h : '\n' ∉ line) :
    cut line = if trim line = [] then [] else [trim line] := by
  rw [cut, List.splitOn_eq_singleton h, List.map_singleton, List.filter_singleton]
  by_cases ht : trim line = [] <;> simp [ht]

/-- A byte-order mark would be taken off anyway. -/
theorem cut_cons_mark (text : List Char) : cut ('\ufeff' :: text) = cut text := by
  rw [cut, cut, List.splitOn_cons_eq_if_modifyHead, if_neg (by decide)]
  obtain ⟨a, rest, h⟩ := List.exists_cons_of_ne_nil (List.splitOn_ne_nil '\n' text)
  have ht : trim ('\ufeff' :: a) = trim a := by
    rw [trim, trim, stripChars, stripChars, List.dropWhile_cons_of_pos (by decide)]
  rw [h, List.modifyHead_cons, List.map_cons, List.map_cons, ht]

/-- What a line has to be for the reader to return it as it is. -/
def Whole (line : List Char) : Prop := line ≠ [] ∧ '\n' ∉ line ∧ trim line = line

instance (line : List Char) : Decidable (Whole line) := by
  unfold Whole
  infer_instance

/-- What separates the pieces is in none of them. -/
theorem eq_false_of_mem_splitOnP {p : Char → Bool} {text piece : List Char} (h : piece ∈ text.splitOnP p) :
    ∀ c ∈ piece, p c = false := by
  induction text generalizing piece with
  | nil => simp_all
  | cons c text ih =>
    rw [List.splitOnP_cons_eq_if_modifyHead] at h
    obtain ⟨a, rest, hsplit⟩ := List.exists_cons_of_ne_nil (List.splitOnP_ne_nil p text)
    rw [hsplit] at h ih
    split_ifs at h with hc
    · rcases List.mem_cons.mp h with rfl | h
      · simp
      · exact ih h
    · rw [List.modifyHead_cons] at h
      rcases List.mem_cons.mp h with rfl | h
      · have ha : ∀ d ∈ a, p d = false := ih (by simp)
        simpa using ⟨by simpa using hc, ha⟩
      · exact ih (by simp [h])

theorem whole_of_mem_cut {line text : List Char} (h : line ∈ cut text) : Whole line := by
  obtain ⟨hmem, hne⟩ := List.mem_filter.mp h
  obtain ⟨piece, hpiece, rfl⟩ := List.mem_map.mp hmem
  refine ⟨by simpa using hne, fun hn => ?_, trim_trim piece⟩
  rw [List.splitOn_eq_splitOnP] at hpiece
  exact absurd (eq_false_of_mem_splitOnP hpiece _ (mem_stripChars hn)) (by simp)

theorem cut_of_whole {line : List Char} (h : Whole line) : cut line = [line] := by
  rw [cut_of_not_mem h.2.1, h.2.2, if_neg h.1]

/-- **The lines of a list come back exactly where each is whole.** -/
theorem flatMap_cut_eq_iff {items : List (List Char)} : items.flatMap cut = items ↔ ∀ item ∈ items, Whole item := by
  constructor
  · intro h item hitem
    rw [← h] at hitem
    obtain ⟨text, -, hmem⟩ := List.mem_flatMap.mp hitem
    exact whole_of_mem_cut hmem
  · intro h
    induction items with
    | nil => rfl
    | cons item items ih =>
      rw [List.flatMap_cons, cut_of_whole (h item (by simp)), ih fun i hi => h i (by simp [hi])]
      rfl

/-! ### Notes -/

/-- What `clean_note` leaves: words with one blank between them, the last perhaps cut off. -/
structure Joined (note : List Char) : Prop where
  nonempty : note ≠ []
  blank : ∀ c ∈ note, isSpace c → c = ' '
  first : note.head? ≠ some ' '
  single : note.IsChain fun a b => ¬(a = ' ' ∧ b = ' ')

/-- Words with one blank between them. -/
theorem joined_intercalate {words : List (List Char)} (hne : words ≠ [])
    (hwords : ∀ w ∈ words, w ≠ [] ∧ ∀ c ∈ w, isSpace c = false) : Joined ([' '].intercalate words) := by
  have hblank : isSpace ' ' = true := by decide
  induction words with
  | nil => exact absurd rfl hne
  | cons w words ih =>
    obtain ⟨hw, hchars⟩ := hwords w (by simp)
    have hw' : ∀ c ∈ w, c ≠ ' ' := fun c hc he => by
      rw [← he, hchars c hc] at hblank
      exact absurd hblank (by decide)
    have hchain : w.IsChain fun a b => ¬(a = ' ' ∧ b = ' ') := by
      refine List.Pairwise.isChain (List.pairwise_of_forall_mem_list fun a ha b _ hab => ?_)
      exact hw' a ha hab.1
    obtain ⟨c, cs, rfl⟩ := List.exists_cons_of_ne_nil hw
    by_cases hnil : words = []
    · subst hnil
      rw [List.intercalate_singleton]
      exact ⟨by simp, fun d hd hs => by simp [hchars d hd] at hs, by simpa using hw' c (by simp), hchain⟩
    · have hrest := ih hnil fun v hv => hwords v (by simp [hv])
      rw [List.intercalate_cons_of_ne_nil hnil]
      refine ⟨by simp, fun d hd hs => ?_, by simpa using hw' c (by simp), ?_⟩
      · simp only [List.mem_append, List.mem_singleton] at hd
        rcases hd with (hd | rfl) | hd
        · simp [hchars d hd] at hs
        · rfl
        · exact hrest.blank d hd hs
      · -- before the blank stands a letter of the word, and after it one of the next
        rw [List.append_assoc, List.singleton_append, List.isChain_append]
        refine ⟨hchain, List.isChain_cons.mpr ⟨fun y hy h => hrest.first (h.2 ▸ hy), hrest.single⟩, fun x hx _ _ h => ?_⟩
        exact hw' x (List.mem_of_mem_getLast? hx) h.1

/-- A note that was accepted. -/
theorem joined_of_cleanNote {value note : String} (h : StockBatch.cleanNote value = some note) : Joined note.toList := by
  simp only [StockBatch.cleanNote] at h
  generalize hwords : (((stripChars isSpace value.toList).dropWhile (· = '#')).splitOnP isSpace).filter (· ≠ []) =
    words at h
  split_ifs at h with hnil
  simp only [Option.some.injEq] at h
  rw [← h, String.toList_ofList]
  have hne : words ≠ [] := by
    rintro rfl
    exact hnil (by simp)
  have hjoined : Joined ([' '].intercalate words) := by
    refine joined_intercalate hne fun w hw => ?_
    rw [← hwords] at hw
    obtain ⟨hmem, hw'⟩ := List.mem_filter.mp hw
    exact ⟨by simpa using hw', eq_false_of_mem_splitOnP hmem⟩
  refine ⟨hnil, fun c hc => hjoined.blank c (List.mem_of_mem_take hc), ?_, hjoined.single.take _⟩
  rw [List.head?_take, if_neg (by decide)]
  exact hjoined.first

/-- A space of JavaScript in a note is a blank or a byte-order mark. -/
theorem Joined.eq_blank {note : List Char} (h : Joined note) (hmark : '\ufeff' ∉ note) {c : Char} (hc : c ∈ note)
    (hs : isJsSpace c = true) : c = ' ' := by
  by_cases hm : c = '\ufeff'
  · exact absurd (hm ▸ hc) hmark
  · refine h.blank c hc ?_
    have hv : c.val ≠ 0xfeff := fun hv => hm (Char.ext hv)
    simp only [isJsSpace, isSpace, List.mem_cons, List.not_mem_nil, or_false, Bool.or_eq_true, decide_eq_true_eq] at hs ⊢
    tauto

/-- Blanks that stand alone stay as they are. -/
theorem oneSpace_eq_self {text : List Char} (hblank : ∀ c ∈ text, isJsSpace c = true → c = ' ')
    (hsingle : text.IsChain fun a b => ¬(a = ' ' ∧ b = ' ')) {inside : Bool} (hinside : inside → text.head? ≠ some ' ') :
    oneSpace inside text = text := by
  induction text generalizing inside with
  | nil => rfl
  | cons c text ih =>
    have hrest : ∀ {inside : Bool}, (inside → text.head? ≠ some ' ') → oneSpace inside text = text :=
      ih (fun d hd => hblank d (by simp [hd])) (List.isChain_cons.mp hsingle).2
    rw [oneSpace]
    split_ifs with hs hin
    · -- a run of blanks does not go on
      exact absurd (by rw [List.head?_cons, hblank c (by simp) hs]) (hinside hin)
    · obtain rfl := hblank c (by simp) hs
      rw [hrest fun _ hhead => (List.isChain_cons.mp hsingle).1 ' ' hhead ⟨rfl, rfl⟩]
    · rw [hrest (by simp)]

/-- What `oneSpace` leaves of the spaces are blanks. -/
theorem eq_blank_of_mem_oneSpace {inside : Bool} {text : List Char} {c : Char} (hc : c ∈ oneSpace inside text)
    (hs : isJsSpace c = true) : c = ' ' := by
  induction text generalizing inside with
  | nil => simp [oneSpace] at hc
  | cons d text ih =>
    rw [oneSpace] at hc
    split_ifs at hc with hd hin
    · exact ih hc
    · rcases List.mem_cons.mp hc with rfl | hc
      · rfl
      · exact ih hc
    · rcases List.mem_cons.mp hc with rfl | hc
      · simp [hd] at hs
      · exact ih hc

/-- What a note has to be for the reader to return it as it is. -/
def WholeNote (note : List Char) : Prop := '\ufeff' ∉ note ∧ note.getLast? ≠ some ' '

instance (note : List Char) : Decidable (WholeNote note) := by
  unfold WholeNote
  infer_instance

/-- The line of a note. -/
def noteLine (note : List Char) : List Char := '#' :: ' ' :: note

/-- **A note comes back as it was exactly where it has no byte-order mark and does not end in a blank**, as one
that was cut at its greatest length may. -/
theorem cleanLoginNote_noteLine_iff {note : List Char} (h : Joined note) :
    cleanLoginNote (trim (noteLine note)) = some note ↔ WholeNote note := by
  have hhash : isJsSpace '#' = false := by decide
  rw [cleanLoginNote, trim_trim]
  constructor
  · -- what is returned is trimmed and has blanks only
    intro hnote
    split_ifs at hnote
    simp only [Option.some.injEq] at hnote
    have htrim : trim note = note := by rw [← hnote, trim_trim]
    refine ⟨fun hmem => ?_, fun hlast => ?_⟩
    · rw [← hnote] at hmem
      exact absurd (eq_blank_of_mem_oneSpace (mem_stripChars hmem) (by decide)) (by decide)
    · have := (stripChars_eq_self_iff.mp htrim).2 ' ' hlast
      exact absurd this (by decide)
  · rintro ⟨hmark, hlast⟩
    have hblank : ∀ c ∈ note, isJsSpace c = true → c = ' ' := fun c hc => h.eq_blank hmark hc
    have hend : ∀ c ∈ note.getLast?, isJsSpace c = false := fun c hc => by
      by_contra hs
      obtain rfl := hblank c (List.mem_of_mem_getLast? hc) (by simpa using hs)
      exact hlast hc
    have hbegin : ∀ c ∈ note.head?, isJsSpace c = false := fun c hc => by
      by_contra hs
      obtain rfl := hblank c (List.mem_of_mem_head? hc) (by simpa using hs)
      exact h.first hc
    obtain ⟨c, cs, rfl⟩ := List.exists_cons_of_ne_nil h.nonempty
    have hline : trim (noteLine (c :: cs)) = noteLine (c :: cs) :=
      stripChars_eq_self_iff.mpr ⟨by simp [noteLine, hhash], by simpa [noteLine, List.getLast?_cons_cons] using hend⟩
    have hspaces : oneSpace false (' ' :: c :: cs) = ' ' :: c :: cs := by
      rw [oneSpace, if_pos (by decide), if_neg (by decide), oneSpace_eq_self hblank h.single fun _ => h.first]
    have htrim : trim (' ' :: c :: cs) = c :: cs := by
      have hself : trim (c :: cs) = c :: cs := stripChars_eq_self_iff.mpr ⟨hbegin, hend⟩
      rw [trim, stripChars, List.dropWhile_cons_of_pos (by decide)]
      exact hself
    have hdrop : (noteLine (c :: cs)).dropWhile (· = '#') = ' ' :: c :: cs := by simp [noteLine]
    rw [hline, hdrop, hspaces, htrim, if_neg (by simp)]

/-! ### The lines of a file -/

/-- The pages of the file are the lines, each once. -/
theorem exportRows_eq {rows : List (ℕ × String)} (hrows : rows.Pairwise fun a b => a.1 < b.1) {pages after : ℕ}
    {front left : List (ℕ × String)} (hsplit : rows = front ++ left) (hfront : ∀ row ∈ front, row.1 ≤ after)
    (hleft : ∀ row ∈ left, after < row.1) (hpages : left.length < pages) :
    exportRows rows pages after = some (String.join (left.map fileLine)) := by
  -- by induction on the pages: one that is not the last takes at least one line off
  induction pages generalizing after front left with
  | zero => omega
  | succ pages ih =>
    have hfilter : rows.filter (fun row => after < row.1) = left := by
      have h1 : front.filter (fun row => decide (after < row.1)) = [] :=
        List.filter_eq_nil_iff.mpr fun row hrow => by simpa using hfront row hrow
      have h2 : left.filter (fun row => decide (after < row.1)) = left :=
        List.filter_eq_self.mpr fun row hrow => by simpa using hleft row hrow
      rw [hsplit, List.filter_append, h1, h2, List.nil_append]
    rw [exportRows]
    simp only [hfilter]
    by_cases hnil : left = []
    · subst hnil
      rfl
    · obtain ⟨shown, last, hshown⟩ : ∃ shown last, left.take batchExportRows = shown ++ [last] := by
        have hne : left.take batchExportRows ≠ [] := by simpa [batchExportRows] using hnil
        exact ⟨_, _, (List.dropLast_append_getLast hne).symm⟩
      have hsplit' : left = shown ++ last :: left.drop batchExportRows := by
        conv_lhs => rw [← List.take_append_drop batchExportRows left, hshown]
        simp
      have hsorted : left.Pairwise fun a b => a.1 < b.1 := by
        rw [hsplit] at hrows
        exact (List.pairwise_append.mp hrows).2.1
      rw [hsplit'] at hsorted
      obtain ⟨-, hlast, hbefore⟩ := List.pairwise_append.mp hsorted
      have hmem : last ∈ left := by rw [hsplit']; simp
      have hnext : rows = (front ++ left.take batchExportRows) ++ left.drop batchExportRows := by
        rw [List.append_assoc, List.take_append_drop, hsplit]
      have hless : (left.drop batchExportRows).length < pages := by
        have := congrArg List.length hsplit'
        simp only [List.length_append, List.length_cons] at this
        omega
      have hrest : exportRows rows pages last.1 = some (String.join ((left.drop batchExportRows).map fileLine)) := by
        refine ih hnext (fun row hrow => ?_) (List.pairwise_cons.mp hlast).1 hless
        rw [hshown] at hrow
        simp only [List.mem_append, List.mem_singleton] at hrow
        rcases hrow with hrow | hrow | rfl
        · have := hfront row hrow
          have := hleft last hmem
          omega
        · exact (hbefore row hrow last (by simp)).le
        · exact le_refl _
      rw [hshown, List.getLast?_concat]
      simp only [hrest, Option.map_some]
      rw [← hshown, ← String.join_append, ← List.map_append, List.take_append_drop]

/-- What the lines of a batch and its header have to be for the reader to return them. -/
structure Readable (format : List Char) (note : Option (List Char)) (items : List (List Char)) : Prop where
  format_like : isFormatLine format = true
  format_trim : trim format = format
  whole_note : ∀ n ∈ note, WholeNote n
  whole_items : ∀ item ∈ items, Whole item
  no_hash : note = none → startsHash items[0]? = false

/-- The lines of the file, before they are read. -/
def fileLines (format : List Char) (note : Option (List Char)) (items : List (List Char)) : List (List Char) :=
  format :: (note.map noteLine).toList ++ items

theorem startsHash_trim_noteLine (note : List Char) : startsHash (some (trim (noteLine note))) = true := by
  obtain ⟨rest, hrest⟩ := exists_stripChars_cons (p := isJsSpace) (c := '#') (by decide) (' ' :: note)
  have : trim (noteLine note) = '#' :: rest := hrest
  simp [startsHash, this]

theorem cut_noteLine {note : List Char} (hnote : '\n' ∉ note) : cut (noteLine note) = [trim (noteLine note)] := by
  obtain ⟨rest, hrest⟩ := exists_stripChars_cons (p := isJsSpace) (c := '#') (by decide) (' ' :: note)
  have htrim : trim (noteLine note) = '#' :: rest := hrest
  rw [cut_of_not_mem (by simpa [noteLine] using hnote), htrim, if_neg (by simp)]

/-- **The header and the lines come back exactly where the batch is readable.** -/
theorem split_lines_iff {format : List Char} {note : Option (List Char)} {items : List (List Char)} (hne : format ≠ []) (hformat : '\n' ∉ format) (hnote : ∀ n ∈ note, Joined n) :
    (splitStockFormat ((fileLines format note items).flatMap cut) none =
        { format := some format, note := note, items := items } ∧
      stripBatchHeader ((fileLines format note items).flatMap cut) format = items) ↔ Readable format note items := by
  have hnewline : ∀ n ∈ note, '\n' ∉ n := fun n hn hmem =>
    absurd ((hnote n hn).blank '\n' hmem (by decide)) (by decide)
  have hnotes : (note.map noteLine).toList.flatMap cut = (note.map fun n => trim (noteLine n)).toList := by
    cases note with
    | none => rfl
    | some n => simp [cut_noteLine (hnewline n rfl)]
  have hlines : (fileLines format note items).flatMap cut =
      cut format ++ ((note.map fun n => trim (noteLine n)).toList ++ items.flatMap cut) := by
    rw [fileLines, List.cons_append, List.flatMap_cons, List.flatMap_append, hnotes]
  rw [hlines]
  constructor
  · rintro ⟨hsplit, -⟩
    -- the first line is the format, and as it was read it is trimmed
    obtain ⟨rest, hfirst, hlike⟩ : ∃ rest, cut format ++ ((note.map fun n => trim (noteLine n)).toList ++
        items.flatMap cut) = format :: rest ∧ isFormatLine format = true := by
      cases hl : cut format ++ ((note.map fun n => trim (noteLine n)).toList ++ items.flatMap cut) with
      | nil =>
        rw [hl] at hsplit
        simp [splitStockFormat] at hsplit
      | cons first rest =>
        rw [hl] at hsplit
        by_cases hlike : isFormatLine first = true
        · simp only [splitStockFormat, hlike, ne_eq, not_true_eq_false, Bool.true_eq_false, or_self, ↓reduceIte,
            StockFormatSplit.mk.injEq, Option.some.injEq] at hsplit
          obtain ⟨rfl, -⟩ := hsplit
          exact ⟨rest, rfl, hlike⟩
        · simp [splitStockFormat, hlike] at hsplit
    have hwhole : Whole format := by
      have hmem : format ∈ (fileLines format note items).flatMap cut := by
        rw [hlines, hfirst]
        simp
      obtain ⟨text, -, htext⟩ := List.mem_flatMap.mp hmem
      exact whole_of_mem_cut htext
    rw [cut_of_whole hwhole] at hsplit
    cases note with
    | none =>
      simp only [splitStockFormat, hlike, Option.map_none, Option.toList_none, List.nil_append, List.singleton_append,
        ne_eq, not_true_eq_false, Bool.true_eq_false, or_self, ↓reduceIte, StockFormatSplit.mk.injEq, true_and,
        and_true] at hsplit
      obtain ⟨-, hitems⟩ := hsplit
      split_ifs at hitems with hhash
      · -- a first line with a `#` would be lost, and the lines were one less
        have hall : ∀ item ∈ items, Whole item := fun item hitem => by
          rw [← hitems] at hitem
          obtain ⟨text, -, htext⟩ := List.mem_flatMap.mp (List.mem_of_mem_drop hitem)
          exact whole_of_mem_cut htext
        rw [flatMap_cut_eq_iff.mpr hall] at hitems hhash
        cases items with
        | nil => simp [startsHash] at hhash
        | cons item items =>
          have := congrArg List.length hitems
          simp at this
      · have hall := flatMap_cut_eq_iff.mp hitems
        exact ⟨hlike, hwhole.2.2, by simp, hall, fun _ => by rw [hitems] at hhash; simpa using hhash⟩
    | some n =>
      simp only [splitStockFormat, hlike, Option.map_some, Option.toList_some, List.singleton_append, ne_eq,
        not_true_eq_false, Bool.true_eq_false, or_self, ↓reduceIte, List.getElem?_cons_zero, startsHash_trim_noteLine,
        Option.bind_some, List.drop_one, List.tail_cons, StockFormatSplit.mk.injEq, true_and, and_true] at hsplit
      obtain ⟨hn, hitems⟩ := hsplit
      refine ⟨hlike, hwhole.2.2, ?_, flatMap_cut_eq_iff.mp hitems, by simp⟩
      simpa using (cleanLoginNote_noteLine_iff (hnote n rfl)).mp hn
  · rintro ⟨hlike, htrim, hwhole, hitems, hhash⟩
    rw [cut_of_whole ⟨hne, hformat, htrim⟩, flatMap_cut_eq_iff.mpr hitems]
    cases note with
    | none =>
      have hh := hhash rfl
      constructor
      · simp [splitStockFormat, hlike, hh]
      · simp [stripBatchHeader, hh]
    | some n =>
      have hn := (cleanLoginNote_noteLine_iff (hnote n rfl)).mpr (hwhole n rfl)
      constructor
      · simp [splitStockFormat, hlike, startsHash_trim_noteLine, hn]
      · simp [stripBatchHeader, startsHash_trim_noteLine]

/-! ### A downloaded batch -/

/-- A batch with a format and a note that were accepted, and its lines in the order of their numbers. The lines
may be any texts. -/
structure DownloadedBatch where
  format : String
  note : Option String
  rows : List (ℕ × String)
  format_clean : ∃ value fields, StockBatch.cleanFormat value = some (format, fields)
  note_clean : ∃ value : Option String, note = value.bind StockBatch.cleanNote
  rows_sorted : rows.Pairwise fun a b => a.1 < b.1
  rows_pos : ∀ row ∈ rows, 0 < row.1

/-- The lines of the batch. -/
def DownloadedBatch.items (b : DownloadedBatch) : List (List Char) := b.rows.map fun row => row.2.toList

/-- What the console makes of a file: the batch it starts, and the lines it adds to the batch of a format. -/
def readBack (bytes : ByteArray) (format : List Char) : Option (StockFormatSplit × List (List Char)) :=
  (fileText bytes).map fun text =>
    let lines := parseResourceItems text false
    (splitStockFormat lines none, stripBatchHeader lines format)

/-- The lines of the text of a file. -/
theorem readBack_toUTF8 (text : String) (format : List Char) :
    readBack text.toUTF8 format =
      some (splitStockFormat (cut text.toList) none, stripBatchHeader (cut text.toList) format) := by
  have hutf8 : String.fromUTF8? text.toUTF8 = some text := dif_pos text.isValidUTF8
  have hmark : ∀ cs : List Char, cut (match cs with | '\ufeff' :: cs => cs | cs => cs) = cut cs := by
    intro cs
    split
    · exact (cut_cons_mark _).symm
    · rfl
  rw [readBack, fileText, hutf8, Option.map_some, Option.map_some, parseResourceItems_eq, hmark]

/-- An accepted format is one line that is not empty. -/
theorem format_of_cleanFormat {value format : String} {fields : ℕ}
    (h : StockBatch.cleanFormat value = some (format, fields)) : format.toList ≠ [] ∧ '\n' ∉ format.toList := by
  simp only [StockBatch.cleanFormat] at h
  split_ifs at h with hbad
  simp only [not_or] at hbad
  simp only [Option.some.injEq, Prod.mk.injEq] at h
  rw [← h.1, String.toList_ofList]
  exact ⟨hbad.1, hbad.2.1⟩

/-- The note of a batch. -/
theorem DownloadedBatch.joined_note (b : DownloadedBatch) : ∀ n ∈ b.note.map String.toList, Joined n := by
  obtain ⟨value, hvalue⟩ := b.note_clean
  rintro n hn
  obtain ⟨note, hnote, rfl⟩ := Option.mem_map.mp hn
  rw [hvalue] at hnote
  obtain ⟨v, -, hv⟩ := Option.bind_eq_some_iff.mp hnote
  exact joined_of_cleanNote hv

/-- The text of the file. -/
theorem DownloadedBatch.toList_file (b : DownloadedBatch) :
    (headerLines b.format b.note ++ String.join (b.rows.map fileLine)).toList =
      (fileLines b.format.toList (b.note.map String.toList) b.items).flatMap (· ++ ['\n']) := by
  obtain ⟨value, fields, hformat⟩ := b.format_clean
  have hne : b.format ≠ "" := fun h => (format_of_cleanFormat hformat).1 (by rw [h]; rfl)
  have hnote : ∀ n, b.note = some n → n ≠ "" := fun n hn h =>
    (b.joined_note n.toList (by rw [hn]; rfl)).nonempty (by rw [h]; rfl)
  have hrows : (String.join (b.rows.map fileLine)).toList = b.items.flatMap (· ++ ['\n']) := by
    rw [String.toList_join, List.flatMap_map, items, List.flatMap_map]
    simp [fileLine]
  rw [String.toList_append, hrows, headerLines, if_neg hne, fileLines]
  cases hb : b.note with
  | none => simp
  | some n => simp [noteLine, hnote n hb]

/-- **When a downloaded batch uploads again as it is.** The console returns the format, the note and the lines of
the file, and the lines alone where it adds them to the batch, exactly where the format looks like one and begins
and ends with no byte-order mark, the note has no such mark and was not cut off at a blank, every line is one
line, not empty and without what JavaScript counts as a space around it, and, where there is no note, the first
line does not start with a `#`. -/
theorem downloaded_batch_reads_back_iff (b : DownloadedBatch) :
    ∃ pages bytes, exportBatch pages b.format b.note b.rows = some bytes ∧
      (readBack bytes b.format.toList =
          some ({ format := some b.format.toList, note := b.note.map String.toList, items := b.items }, b.items) ↔
        Readable b.format.toList (b.note.map String.toList) b.items) := by
  obtain ⟨value, fields, hformat⟩ := b.format_clean
  obtain ⟨hne, hnewline⟩ := format_of_cleanFormat hformat
  have hrows : exportRows b.rows (b.rows.length + 1) 0 = some (String.join (b.rows.map fileLine)) :=
    exportRows_eq b.rows_sorted (List.nil_append b.rows).symm (by simp) b.rows_pos (Nat.lt_succ_self _)
  refine ⟨_, _, by rw [exportBatch, hrows, Option.map_some], ?_⟩
  rw [readBack_toUTF8, b.toList_file, cut_flatMap, Option.some.injEq, Prod.mk.injEq]
  exact split_lines_iff hne hnewline b.joined_note

/-- A key that starts with a `#` is read as the note, and is lost. -/
theorem key_read_as_note :
    StockBatch.cleanFormat "KEY" = some ("KEY", 1) ∧ normalizeResourceData "#A1-B2-C3" = "#A1-B2-C3" ∧
      ∃ bytes, exportBatch 2 "KEY" none [(1, "#A1-B2-C3")] = some bytes ∧
        readBack bytes "KEY".toList =
          some ({ format := some "KEY".toList, note := some "A1-B2-C3".toList, items := [] }, []) := by
  refine ⟨by rfl, by rfl, _, rfl, ?_⟩
  rw [readBack_toUTF8]
  rfl

end Marketplace.Inventory
