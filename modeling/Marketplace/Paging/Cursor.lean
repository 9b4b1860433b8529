import Marketplace.Python.Base64
import Marketplace.Python.JsonText
import Marketplace.Sql.Ternary

/-!
# Cursors

The cursors of `common/pagination.py`: the sort value and the id of the last row of a page, as a JSON text in
base 64. A cursor is read back (`decodeCursor_encodeCursor`); of any other text, `decodeCursor` makes a value
of JSON, whatever value it is, and whoever compares a column with it has to take what comes
(`decodes_iff`).

Sort values other than moments are left out of `encodeCursor`.
-/

namespace Marketplace.Paging

open Text Python

/-- What the cursors rest on: the reader of moments, which reads a text in the extended format as
`Text.fromisoformat` does, and how deeply lists and objects may be nested in a JSON text. -/
structure Interpreter extends Language where
  maxDepth : ℕ
  nests : 2 ≤ maxDepth
  reads : ∀ (s : String) (d : AwareDatetime), Text.fromisoformat s.toList = some d → fromisoformat s = some (d, true)

/-! ### Writing -/

/-- `json.dumps(_jsonable(value))` -/
def jsonable : Option AwareDatetime → List Char
  | none => "null".toList
  | some d => '{' :: (JsonText.quote ['t'] ++ ':' :: (JsonText.quote (isoformat d.1) ++ ['}']))

/-- `json.dumps([_jsonable(sort_value), str(row_id)], separators=(",", ":"))` -/
def cursorText (sortValue : Option AwareDatetime) (rowId : String) : List Char :=
  '[' :: (jsonable sortValue ++ ',' :: (JsonText.quote rowId.toList ++ [']']))

/-- `base64.urlsafe_b64encode(raw.encode()).decode().rstrip("=")` -/
def armored (raw : List Char) : String :=
  String.ofList ((Base64.encode (raw.flatMap String.utf8EncodeChar)).rdropWhile (· = '='))

/-- `encode_cursor` -/
def encodeCursor (sortValue : Option AwareDatetime) (rowId : String) : String := armored (cursorText sortValue rowId)

/-! ### Reading -/

/-- What `_restore` returns: a moment, and whether its text names a zone, or the value as it is. -/
inductive SortValue
  | moment (at_ : AwareDatetime) (aware : Bool)
  | plain (v : Json)

/-- `bytes.decode()` -/
def decodeUtf8 (bytes : List UInt8) : Except Error (List Char) :=
  match bytes.toByteArray.utf8Decode? with
  | some cs => .ok cs.toList
  | none => .error .valueError

/-- `sort_value, row_id = value`: a dict is taken apart into its keys, a text into its characters. -/
def unpackPair : Json → Except Error (Json × Json)
  | .arr [a, b] => .ok (a, b)
  | .obj [(a, _), (b, _)] => .ok (.str a, .str b)
  | .str s =>
    match s.toList with
    | [a, b] => .ok (.str (String.singleton a), .str (String.singleton b))
    | _ => .error .valueError
  | .arr _ | .obj _ => .error .valueError
  | _ => .error .typeError

section Read

variable (py : Interpreter)

/-- The value in a cursor. -/
def cursorJson (cursor : String) : Except Error Json :=
  match Base64.decode (cursor.toList ++ Base64.padding cursor.toList) with
  | none => .error .valueError
  | some bytes => decodeUtf8 bytes >>= JsonText.loads py.maxDepth

/-- `_restore` -/
def restore : Json → Except Error SortValue
  | .obj fields =>
    match fields.lookup "t" with
    | none => .ok (.plain (.obj fields))
    | some (.str s) =>
      match py.fromisoformat s with
      | some (d, aware) => .ok (.moment d aware)
      | none => .error .valueError
    | some _ => .error .typeError
  | v => .ok (.plain v)

/-- The body of the `try` in `decode_cursor`. -/
def readCursor (cursor : String) : Except Error (SortValue × String) := do
  let v ← cursorJson py cursor
  let (sortValue, rowId) ← unpackPair v
  let restored ← restore py sortValue
  pure (restored, py.str rowId)

/-- `decode_cursor` -/
def decodeCursor : Option String → Except Error (Option (SortValue × String))
  | none => .ok none
  | some cursor =>
    if cursor = "" then .ok none
    else
      match readCursor py cursor with
      | .ok pair => .ok (some pair)
      | .error .valueError | .error .typeError => .ok none
      | .error e => .error e

end Read

/-! ### Behind a row -/

/-- `keyset_after`, of a row: whether it comes after the row the cursor was made of. -/
def keysetAfter (sortCol : Option ℤ) (idCol : ℕ) (value : Option ℤ) (rowId : ℕ) (descending nullsLast : Bool) :
    Sql.Truth :=
  let idBeyond : Sql.Truth := some (if descending then idCol < rowId else rowId < idCol)
  match value with
  | none => .conj (.isNull sortCol) idBeyond
  | some v =>
    let beyond := Sql.Truth.compare (fun a b => if descending then a < b else b < a) sortCol (some v)
    let clause := beyond.disj (.conj (.compare (· = ·) sortCol (some v)) idBeyond)
    if nullsLast then clause.disj (.isNull sortCol) else clause

/-! ### The round trip -/

/-- The sort value a cursor is read back as. -/
def restored : Option AwareDatetime → SortValue
  | none => .plain .null
  | some d => .moment d true

/-- The sort value is read back as a value of JSON. -/
theorem scanOnce_jsonable (sortValue : Option AwareDatetime) (depth : ℕ) (rest : List Char) :
    ∃ v, JsonText.scanOnce (depth + 1) (jsonable sortValue ++ ',' :: rest) = .ok (v, ',' :: rest) ∧
      ∀ py, restore py v = .ok (restored sortValue) := by
  cases sortValue with
  | none => exact ⟨.null, rfl, fun _ => rfl⟩
  | some d =>
    refine ⟨.obj [("t", .str (String.ofList (isoformat d.1)))], ?_, fun py => ?_⟩
    · have happ : jsonable (some d) ++ ',' :: rest = '{' :: (JsonText.quote ['t'] ++ ':' ::
          (JsonText.quote (isoformat d.1) ++ '}' :: ',' :: rest)) := by simp [jsonable]
      have hlen : ∃ n, (JsonText.quote ['t'] ++ ':' :: (JsonText.quote (isoformat d.1) ++
          '}' :: ',' :: rest)).length = n + 1 := ⟨_, rfl⟩
      obtain ⟨n, hn⟩ := hlen
      rw [happ, JsonText.scanOnce]
      refine JsonText.scanValue_object (JsonText.skipBlanks_quote _ _) (by simp [JsonText.quote]) ?_
      rw [hn]
      refine JsonText.scanFields_last (JsonText.skipBlanks_quote _ _) ?_
      cases depth <;> exact JsonText.scanValue_quote _ _ _
    · have hread : Text.fromisoformat (String.ofList (isoformat d.1)).toList = some d := by
        rw [String.toList_ofList, fromisoformat_isoformat]
      simp only [restore, List.lookup_cons_self, py.reads _ d hread]
      rfl

/-- The text of a cursor is read back as its two parts. -/
theorem loads_cursorText (sortValue : Option AwareDatetime) (rowId : String) {depth : ℕ} (hdepth : 2 ≤ depth) :
    ∃ v, JsonText.loads depth (cursorText sortValue rowId) = .ok (.arr [v, .str rowId]) ∧
      ∀ py, restore py v = .ok (restored sortValue) := by
  obtain ⟨depth, rfl⟩ := Nat.exists_eq_add_of_le' hdepth
  obtain ⟨v, hv, hrestore⟩ := scanOnce_jsonable sortValue depth (JsonText.quote rowId.toList ++ [']'])
  refine ⟨v, ?_, hrestore⟩
  have hhead : ∃ c cs, jsonable sortValue = c :: cs ∧ JsonText.isBlank c = false ∧ c ≠ ']' := by
    cases sortValue with
    | none => exact ⟨_, _, rfl, by decide, by decide⟩
    | some d => exact ⟨_, _, rfl, by decide, by decide⟩
  obtain ⟨c, cs, hc, hblank, hne⟩ := hhead
  have hlen : ∃ n, (jsonable sortValue ++ ',' :: (JsonText.quote rowId.toList ++ [']'])).length = n + 2 := by
    rw [hc]
    exact ⟨_, by simp; rfl⟩
  obtain ⟨n, hn⟩ := hlen
  have hlist : JsonText.scanOnce (depth + 2) (cursorText sortValue rowId) = .ok (.arr [v, .str rowId], []) := by
    rw [cursorText, JsonText.scanOnce]
    refine JsonText.scanValue_list ?_ ?_ ?_
    · rw [hc]
      exact JsonText.skipBlanks_cons hblank _
    · rw [hc]
      simpa using hne
    · rw [hn]
      refine JsonText.scanItems_cons hv (JsonText.skipBlanks_quote _ _) (JsonText.scanItems_last ?_)
      rw [JsonText.scanOnce, JsonText.scanValue_quote, String.ofList_toList]
  have hskip : JsonText.skipBlanks (cursorText sortValue rowId) = cursorText sortValue rowId :=
    JsonText.skipBlanks_cons (by decide) _
  rw [JsonText.loads, hskip, hlist]
  rfl

theorem decodeUtf8_flatMap (cs : List Char) : decodeUtf8 (cs.flatMap String.utf8EncodeChar) = .ok cs := by
  have h : (cs.flatMap String.utf8EncodeChar).toByteArray.utf8Decode? = some cs.toArray := List.utf8Decode?_utf8Encode
  rw [decodeUtf8, h]

/-- No text at all holds no value. -/
theorem cursorJson_empty (py : Interpreter) : cursorJson py "" = .error .valueError := by
  have hbytes : Base64.decode ("".toList ++ Base64.padding "".toList) = some [] := rfl
  rw [cursorJson, hbytes]
  have hscan : JsonText.loads py.maxDepth [] = .error .valueError := by
    rw [JsonText.loads]
    cases py.maxDepth <;> rfl
  exact (congrArg (· >>= JsonText.loads py.maxDepth) (decodeUtf8_flatMap [])).trans hscan

/-- What was put into base 64 is taken out of it. -/
theorem cursorJson_armored (py : Interpreter) (raw : List Char) :
    cursorJson py (armored raw) = JsonText.loads py.maxDepth raw := by
  rw [cursorJson, armored, Base64.rdropWhile_encode, String.toList_ofList, Base64.decode_padded]
  simp only [decodeUtf8_flatMap]
  rfl

/-- **A cursor is read back.** -/
theorem decodeCursor_encodeCursor (py : Interpreter) (sortValue : Option AwareDatetime) (rowId : String) :
    decodeCursor py (some (encodeCursor sortValue rowId)) = .ok (some (restored sortValue, rowId)) := by
  obtain ⟨v, hv, hrestore⟩ := loads_cursorText sortValue rowId py.nests
  have hread : readCursor py (encodeCursor sortValue rowId) = .ok (restored sortValue, rowId) := by
    rw [readCursor, encodeCursor, cursorJson_armored, hv]
    simp only [bind, Except.bind, unpackPair, hrestore]
    rfl
  have hne : encodeCursor sortValue rowId ≠ "" := by
    intro he
    rw [he, readCursor, cursorJson_empty] at hread
    cases hread
  rw [decodeCursor, if_neg hne, hread]

/-! ### What is made of any other text -/

/-- The sort value is nothing, or a moment. -/
def SortValue.Sorts : SortValue → Prop
  | .moment _ _ => True
  | .plain v => v.isNull = true

/-- A value that is read as nothing, or as a moment if it is read at all. -/
def NamesMoment : Json → Prop
  | .null => True
  | .obj fields => fields.lookup "t" ≠ none
  | _ => False

/-- What `decode_cursor` lets through: a text that is nested too deeply, and a pair of any value and an id. -/
inductive Stray (py : Interpreter) (cursor : String) : Prop
  | deep (h : cursorJson py cursor = .error .recursionError)
  | value {v a b : Json} (hjson : cursorJson py cursor = .ok v) (hpair : unpackPair v = .ok (a, b))
      (ha : ¬NamesMoment a)

variable {py : Interpreter} {cursor : String}

theorem error_of_unpackPair {v : Json} {e : Error} (h : unpackPair v = .error e) : e = .valueError ∨ e = .typeError := by
  rw [unpackPair.eq_def] at h
  split at h
  · cases h
  · cases h
  · split at h
    · cases h
    · exact .inl (Except.error.inj h).symm
  · exact .inl (Except.error.inj h).symm
  · exact .inl (Except.error.inj h).symm
  · exact .inr (Except.error.inj h).symm

/-- A value that names a moment is restored as one, or refused as none. -/
theorem restore_of_namesMoment (py : Interpreter) {a : Json} (h : NamesMoment a) :
    (∃ s, restore py a = .ok s ∧ s.Sorts) ∨ restore py a = .error .valueError ∨ restore py a = .error .typeError := by
  cases a with
  | null => exact .inl ⟨_, rfl, rfl⟩
  | obj fields =>
    rw [restore]
    split
    · next hnone => exact absurd hnone h
    · split
      · exact .inl ⟨_, rfl, trivial⟩
      · exact .inr (.inl rfl)
    · exact .inr (.inr rfl)
  | _ => exact h.elim

/-- Any other value is restored as it is. -/
theorem restore_of_not_namesMoment (py : Interpreter) {a : Json} (h : ¬NamesMoment a) :
    restore py a = .ok (.plain a) ∧ ¬(SortValue.plain a).Sorts := by
  cases a with
  | null => exact absurd trivial h
  | obj fields =>
    have hnone : fields.lookup "t" = none := not_not.mp h
    refine ⟨?_, by simp [SortValue.Sorts, Json.isNull]⟩
    rw [restore, hnone]
  | _ => exact ⟨rfl, by simp [SortValue.Sorts, Json.isNull]⟩

theorem error_of_cursorJson {e : Error} (h : cursorJson py cursor = .error e) :
    e = .valueError ∨ e = .recursionError := by
  rw [cursorJson] at h
  split at h
  · exact .inl (Except.error.inj h).symm
  · rcases JsonText.eq_error_of_bind h with h | ⟨cs, -, h⟩
    · rw [decodeUtf8] at h
      split at h
      · cases h
      · exact .inl (Except.error.inj h).symm
    · exact JsonText.error_of_loads h

/-- What `decode_cursor` returns of a text that is not stray. -/
theorem decodeCursor_of_not_stray (h : ¬Stray py cursor) :
    ∃ o, decodeCursor py (some cursor) = .ok o ∧ ∀ p ∈ o, p.1.Sorts := by
  have hnone : ∀ e, readCursor py cursor = .error e → e = .valueError ∨ e = .typeError →
      ∃ o, decodeCursor py (some cursor) = .ok o ∧ ∀ p ∈ o, p.1.Sorts := by
    intro e hread he
    refine ⟨none, ?_, by simp⟩
    rw [decodeCursor]
    split_ifs
    · rfl
    · rw [hread]
      rcases he with rfl | rfl <;> rfl
  cases hjson : cursorJson py cursor with
  | error e =>
    rcases error_of_cursorJson hjson with rfl | rfl
    · exact hnone .valueError (by rw [readCursor, hjson]; rfl) (.inl rfl)
    · exact absurd (.deep hjson) h
  | ok v =>
    cases hpair : unpackPair v with
    | error e => exact hnone e (by rw [readCursor, hjson]; simp [bind, Except.bind, hpair]) (error_of_unpackPair hpair)
    | ok p =>
      obtain ⟨a, b⟩ := p
      have ha : NamesMoment a := by
        by_contra ha
        exact h (.value hjson hpair ha)
      have hread : readCursor py cursor = restore py a >>= fun s => pure (s, py.str b) := by
        rw [readCursor, hjson]
        simp [bind, Except.bind, hpair]
      rcases restore_of_namesMoment py ha with ⟨s, hs, hsorts⟩ | he | he
      · have hne : cursor ≠ "" := by
          rintro rfl
          rw [cursorJson_empty py] at hjson
          cases hjson
        refine ⟨some (s, py.str b), ?_, by simpa using hsorts⟩
        rw [decodeCursor, if_neg hne, hread, hs]
        rfl
      · exact hnone _ (by rw [hread, he]; rfl) (.inl rfl)
      · exact hnone _ (by rw [hread, he]; rfl) (.inr rfl)

/-- A stray text raises, or a column is compared with what no column of moments is compared with. -/
theorem decodeCursor_of_stray (h : Stray py cursor) :
    ¬∃ o, decodeCursor py (some cursor) = .ok o ∧ ∀ p ∈ o, p.1.Sorts := by
  have hne : cursor ≠ "" := by
    rintro rfl
    rcases h with h | ⟨h, -, -⟩
    all_goals
      rw [cursorJson_empty py] at h
      cases h
  rintro ⟨o, ho, hsorts⟩
  rw [decodeCursor, if_neg hne] at ho
  rcases h with hjson | @⟨v, a, b, hjson, hpair, ha⟩
  · have hread : readCursor py cursor = .error .recursionError := by rw [readCursor, hjson]; rfl
    rw [hread] at ho
    cases ho
  · obtain ⟨hrestore, hnot⟩ := restore_of_not_namesMoment py ha
    have hread : ∃ rowId, readCursor py cursor = .ok (.plain a, rowId) := by
      rw [readCursor, hjson]
      simp only [bind, Except.bind, hpair, hrestore]
      exact ⟨_, rfl⟩
    obtain ⟨rowId, hread⟩ := hread
    rw [hread] at ho
    obtain rfl := Except.ok.inj ho
    exact hnot (hsorts _ rfl)

/-- **What `decode_cursor` makes of a text**: nothing, or nothing or a moment with an id, unless it is stray. -/
theorem decodes_iff :
    (∃ o, decodeCursor py (some cursor) = .ok o ∧ ∀ p ∈ o, p.1.Sorts) ↔ ¬Stray py cursor :=
  ⟨fun h hstray => decodeCursor_of_stray hstray h, decodeCursor_of_not_stray⟩

end Marketplace.Paging
