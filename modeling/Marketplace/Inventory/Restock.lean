import Marketplace.Js.Value
import Marketplace.Lists.FirstSeen
import Marketplace.Text.Utf16

/-!
# Restocking in batches

A seller's console uploads stock lines in requests of a bounded size (`runInRestockBatches`). How many
bytes a line takes in the request is counted without building the request (`jsonByteLength`); a batch is
as many lines as fit, at least one; and a batch the server refuses as too large is cut smaller and sent
again.

The loop goes on without advancing whenever a batch is refused, so that it ends needs an argument:
each such step at least halves the budget, and a budget under which two lines fit is not yet zero
(`step_again`). What has been sent and what has been accepted is kept in the state of the loop, beside
the variables of the source; `Upload.Sound` is what the loop keeps of them, and `restock_batches_sent_once`
what follows for every upload.
-/

namespace Marketplace.Inventory

open Utf16

/-- A stock line, a text of JavaScript. -/
abbrev Item := List UInt16

/-! ### The size of a line -/

/-- The loop of `jsonByteLength`, over the units still to be read. -/
def jsonByteLengthFrom (bytes : ℕ) : List UInt16 → ℕ
  | [] => bytes
  | code :: rest =>
    if code = 0x22 ∨ code = 0x5c then jsonByteLengthFrom (bytes + 2) rest
    else if code < 0x20 then
      jsonByteLengthFrom
        (bytes + if code = 0x08 ∨ code = 0x09 ∨ code = 0x0a ∨ code = 0x0c ∨ code = 0x0d then 2 else 6) rest
    else if code < 0x80 then jsonByteLengthFrom (bytes + 1) rest
    else if code < 0x800 then jsonByteLengthFrom (bytes + 2) rest
    else if 0xd800 ≤ code ∧ code ≤ 0xdbff then
      match rest with
      | next :: rest' =>
        if 0xdc00 ≤ next ∧ next ≤ 0xdfff then jsonByteLengthFrom (bytes + 4) rest'
        else jsonByteLengthFrom (bytes + 6) (next :: rest')
      -- past the end `charCodeAt` is `NaN`, which is in no range
      | [] => bytes + 6
    else if 0xdc00 ≤ code ∧ code ≤ 0xdfff then jsonByteLengthFrom (bytes + 6) rest
    else jsonByteLengthFrom (bytes + 3) rest

/-- UTF-8 byte length of `JSON.stringify(value)`. -/
def jsonByteLength (value : Item) : ℕ := jsonByteLengthFrom 2 value

/-- What is escaped with one letter takes two bytes. -/
theorem utf8Length_letter {c : Char} (h : c.toNat < 0x80) : utf8Length ['\\', c] = 2 := by
  have hc := utf8Size_eq c
  rw [if_pos h] at hc
  have hb : '\\'.utf8Size = 1 := rfl
  rw [utf8Length_cons, utf8Length_cons, utf8Length_nil, hc, hb]

/-- The bytes of a character below U+10000. -/
theorem utf8Length_quote_unit {c : Char} (h : c.toNat < 0x10000) :
    utf8Length (quoteCodePoint (.scalar c)) =
      if c.toNat = 0x22 ∨ c.toNat = 0x5c then 2
      else if c.toNat < 0x20 then
        if c.toNat = 0x08 ∨ c.toNat = 0x09 ∨ c.toNat = 0x0a ∨ c.toNat = 0x0c ∨ c.toNat = 0x0d then 2 else 6
      else if c.toNat < 0x80 then 1
      else if c.toNat < 0x800 then 2
      else 3 := by
  have hsize := utf8Size_eq c
  have hc : utf8Length [c] = c.utf8Size := by rw [utf8Length_cons, utf8Length_nil, Nat.add_zero]
  have hl : ∀ d : Char, d.toNat < 0x80 → utf8Length ['\\', d] = 2 := fun d hd => utf8Length_letter hd
  simp only [quoteCodePoint]
  split_ifs at hsize ⊢ <;>
    first
    | omega
    | exact hl _ (by decide)
    | exact utf8Length_unicodeEscape _

/-- The bytes of a unit that is no surrogate. -/
theorem jsonByteLengthFrom_unit {bytes : ℕ} {u : UInt16} {rest : Item} (hh : isHigh u = false) (hl : isLow u = false) :
    jsonByteLengthFrom bytes (u :: rest) =
      jsonByteLengthFrom (bytes + utf8Length (quoteCodePoint (.scalar (Char.ofNat u.toNat)))) rest := by
  have hu := u.toNat_lt
  have hn := toNat_ofNat_unit hh hl
  have hq := utf8Length_quote_unit (c := Char.ofNat u.toNat) (by omega)
  simp only [isHigh, isLow, Bool.and_eq_false_iff, decide_eq_false_iff_not, UInt16.le_iff_toNat_le,
    UInt16.reduceToNat] at hh hl
  rw [hq, hn, jsonByteLengthFrom.eq_def]
  simp only [UInt16.lt_iff_toNat_lt, UInt16.le_iff_toNat_le, UInt16.reduceToNat, ← UInt16.toNat_inj]
  split_ifs <;> first | rfl | omega

/-- The bytes of two surrogates that make a character. -/
theorem jsonByteLengthFrom_pair {bytes : ℕ} {u v : UInt16} {rest : Item} (hu : isHigh u = true) (hv : isLow v = true) :
    jsonByteLengthFrom bytes (u :: v :: rest) =
      jsonByteLengthFrom (bytes + utf8Length (quoteCodePoint (.scalar (pair u v)))) rest := by
  have hn := toNat_pair hu hv
  have hsize := utf8Size_eq (pair u v)
  have hq : utf8Length (quoteCodePoint (.scalar (pair u v))) = 4 := by
    simp only [quoteCodePoint]
    split_ifs at hsize ⊢ <;> first | omega | rw [utf8Length_cons, utf8Length_nil, hsize]
  simp only [isHigh, isLow, Bool.and_eq_true, decide_eq_true_eq, UInt16.le_iff_toNat_le, UInt16.reduceToNat] at hu hv
  rw [hq, jsonByteLengthFrom]
  simp only [UInt16.lt_iff_toNat_lt, UInt16.le_iff_toNat_le, UInt16.reduceToNat, ← UInt16.toNat_inj]
  split_ifs <;> first | rfl | omega

/-- The bytes of a leading surrogate no trailing one follows. -/
theorem jsonByteLengthFrom_high {bytes : ℕ} {u : UInt16} {rest : Item} (hu : isHigh u = true)
    (hrest : ∀ v ∈ rest.head?, isLow v = false) :
    jsonByteLengthFrom bytes (u :: rest) = jsonByteLengthFrom (bytes + 6) rest := by
  simp only [isHigh, Bool.and_eq_true, decide_eq_true_eq, UInt16.le_iff_toNat_le, UInt16.reduceToNat] at hu
  rw [jsonByteLengthFrom.eq_def]
  simp only [UInt16.lt_iff_toNat_lt, UInt16.le_iff_toNat_le, UInt16.reduceToNat, ← UInt16.toNat_inj]
  cases rest with
  | nil => split_ifs <;> first | rfl | omega
  | cons v rest =>
    have hv := hrest v rfl
    simp only [isLow, Bool.and_eq_false_iff, decide_eq_false_iff_not, UInt16.le_iff_toNat_le,
      UInt16.reduceToNat] at hv
    dsimp only
    split_ifs <;> first | rfl | omega

/-- The bytes of a trailing surrogate no leading one precedes. -/
theorem jsonByteLengthFrom_low {bytes : ℕ} {u : UInt16} {rest : Item} (hu : isLow u = true) :
    jsonByteLengthFrom bytes (u :: rest) = jsonByteLengthFrom (bytes + 6) rest := by
  simp only [isLow, Bool.and_eq_true, decide_eq_true_eq, UInt16.le_iff_toNat_le, UInt16.reduceToNat] at hu
  rw [jsonByteLengthFrom.eq_def]
  simp only [UInt16.lt_iff_toNat_lt, UInt16.le_iff_toNat_le, UInt16.reduceToNat, ← UInt16.toNat_inj]
  split_ifs <;> first | rfl | omega

/-- **The count of the loop is the length of what is written between the quotes.** -/
theorem jsonByteLengthFrom_eq (bytes : ℕ) (value : Item) :
    jsonByteLengthFrom bytes value = bytes + utf8Length ((codePoints value).flatMap quoteCodePoint) := by
  fun_induction codePoints value generalizing bytes with
  | case1 => rfl
  | case2 u hu v rest hv ih =>
    rw [jsonByteLengthFrom_pair hu hv, ih, List.flatMap_cons, utf8Length_append, Nat.add_assoc]
  | case3 u hu v rest hv ih =>
    rw [jsonByteLengthFrom_high hu (by simpa using hv), ih, List.flatMap_cons, utf8Length_append, Nat.add_assoc,
      quoteCodePoint, utf8Length_unicodeEscape]
  | case4 u hu =>
    rw [jsonByteLengthFrom_high hu (by simp), jsonByteLengthFrom, List.flatMap_cons, List.flatMap_nil, List.append_nil,
      quoteCodePoint, utf8Length_unicodeEscape]
  | case5 u rest hu hl ih =>
    rw [jsonByteLengthFrom_low hl, ih, List.flatMap_cons, utf8Length_append, Nat.add_assoc, quoteCodePoint,
      utf8Length_unicodeEscape]
  | case6 u rest hu hl ih =>
    rw [jsonByteLengthFrom_unit (by simpa using hu) (by simpa using hl), ih, List.flatMap_cons, utf8Length_append,
      Nat.add_assoc]

/-- **A line is counted with the bytes it takes in the request.** -/
theorem jsonByteLength_eq (value : Item) : jsonByteLength value = (jsonStringify value).utf8ByteSize := by
  have hq : '"'.utf8Size = 1 := rfl
  rw [jsonByteLength, jsonByteLengthFrom_eq, jsonStringify, utf8ByteSize_ofList, utf8Length_cons, utf8Length_append,
    utf8Length_cons, utf8Length_nil, hq]
  omega

/-! ### Cutting a batch -/

/-- The loop of `restockBatchEnd`: how many of the lines go into the batch that has `taken` of them. -/
def restockBatchEndFrom (maxBytes : ℤ) (maxItems taken bytes : ℕ) : List Item → ℕ
  | [] => taken
  | item :: rest =>
    if taken < maxItems then
      let size := jsonByteLength item + 1
      if 0 < taken ∧ maxBytes < (bytes + size : ℕ) then taken
      else restockBatchEndFrom maxBytes maxItems (taken + 1) (bytes + size) rest
    else taken

/-- End (exclusive) of the batch starting at `start`. -/
def restockBatchEnd (items : List Item) (start : ℕ) (maxBytes : ℤ) (maxItems : ℕ) : ℕ :=
  start + restockBatchEndFrom maxBytes maxItems 0 0 (items.drop start)

/-- `items.slice(start, end)` -/
def slice (items : List Item) (start stop : ℕ) : List Item := (items.drop start).take (stop - start)

/-- Bytes of the lines of a batch in the request, each with what separates it from the next. -/
def batchBytes (batch : List Item) : ℕ := (batch.map jsonByteLength).sum + batch.length

/-- What the loop adds to the batch fits: more than one line only under the budget. -/
theorem restockBatchEndFrom_spec {maxBytes : ℤ} {maxItems taken bytes : ℕ} (rest : List Item)
    (htaken : taken ≤ maxItems) (hbytes : 1 < taken → (bytes : ℤ) ≤ maxBytes) :
    ∃ n ≤ rest.length, restockBatchEndFrom maxBytes maxItems taken bytes rest = taken + n ∧ taken + n ≤ maxItems ∧
      (1 < taken + n → (bytes + batchBytes (rest.take n) : ℤ) ≤ maxBytes) := by
  induction rest generalizing taken bytes with
  | nil => exact ⟨0, le_refl _, rfl, htaken, by simpa [batchBytes] using hbytes⟩
  | cons item rest ih =>
    simp only [restockBatchEndFrom]
    split_ifs with hroom hfull
    · exact ⟨0, Nat.zero_le _, rfl, htaken, by simpa [batchBytes] using hbytes⟩
    · -- the line is taken: the first one whatever its size, any other only where it fits
      have hbytes' : 1 < taken + 1 → ((bytes + (jsonByteLength item + 1) : ℕ) : ℤ) ≤ maxBytes := by omega
      obtain ⟨n, hn, hstop, hmax, hfit⟩ := ih (show taken + 1 ≤ maxItems by omega) hbytes'
      refine ⟨n + 1, by simpa using hn, by rw [hstop]; omega, by omega, fun h => ?_⟩
      have := hfit (by omega)
      simp only [batchBytes, List.take_succ_cons, List.map_cons, List.sum_cons, List.length_cons] at this ⊢
      push_cast at this ⊢
      omega
    · exact ⟨0, Nat.zero_le _, rfl, htaken, by simpa [batchBytes] using hbytes⟩

/-- **A batch has a line, no more than it may, and more than one only under the budget.** -/
theorem restockBatchEnd_spec {items : List Item} {start : ℕ} (maxBytes : ℤ) {maxItems : ℕ} (hstart : start < items.length)
    (hmax : 0 < maxItems) :
    start < restockBatchEnd items start maxBytes maxItems ∧
      restockBatchEnd items start maxBytes maxItems ≤ items.length ∧
      restockBatchEnd items start maxBytes maxItems ≤ start + maxItems ∧
      (start + 1 < restockBatchEnd items start maxBytes maxItems →
        (batchBytes (slice items start (restockBatchEnd items start maxBytes maxItems)) : ℤ) ≤ maxBytes) := by
  have hdrop : items.drop start = items[start] :: items.drop (start + 1) := List.drop_eq_getElem_cons hstart
  have hlen : (items.drop (start + 1)).length = items.length - (start + 1) := List.length_drop
  -- the first line goes in whatever its size
  have hone : 1 < 1 → ((0 + (jsonByteLength items[start] + 1) : ℕ) : ℤ) ≤ maxBytes := by omega
  obtain ⟨n, hn, hstop, hle, hfit⟩ := restockBatchEndFrom_spec (items.drop (start + 1)) (show 1 ≤ maxItems from hmax) hone
  have hend : restockBatchEnd items start maxBytes maxItems = start + (1 + n) := by
    rw [restockBatchEnd, hdrop, restockBatchEndFrom]
    simpa [hmax] using hstop
  have hslice : slice items start (start + (1 + n)) = items[start] :: (items.drop (start + 1)).take n := by
    rw [slice, hdrop, Nat.add_sub_cancel_left, Nat.add_comm 1 n, List.take_succ_cons]
  rw [hend, hslice]
  refine ⟨by omega, by omega, by omega, fun h => ?_⟩
  have := hfit (by omega)
  simp only [batchBytes, List.map_cons, List.sum_cons, List.length_cons] at this ⊢
  push_cast at this ⊢
  omega

/-- The lines up to the end of a batch. -/
theorem take_append_slice {items : List Item} {start stop : ℕ} (h : start ≤ stop) :
    items.take start ++ slice items start stop = items.take stop := by
  rw [slice, ← List.take_add, Nat.add_sub_cancel' h]

/-! ### Cutting a whole upload -/

/-- The loop of `chunkRestockItems`. -/
def chunkFrom (items : List Item) (maxBytes : ℤ) (maxItems : ℕ) : ℕ → ℕ → List (List Item) → Option (List (List Item))
  | 0, _, _ => none
  | fuel + 1, start, batches =>
    if start < items.length then
      let stop := restockBatchEnd items start maxBytes maxItems
      chunkFrom items maxBytes maxItems fuel stop (batches ++ [slice items start stop])
    else some batches

/-- Bytes and lines a request may have. -/
def restockBatchBytes : ℤ := 900000
def restockBatchMaxItems : ℕ := 5000

/-- Split lines into request-sized batches; `none` where the loop has not ended after `fuel` rounds. -/
def chunkRestockItems (fuel : ℕ) (items : List Item) (maxBytes : ℤ := restockBatchBytes)
    (maxItems : ℕ := restockBatchMaxItems) : Option (List (List Item)) :=
  chunkFrom items maxBytes maxItems fuel 0 []

theorem chunkFrom_spec {items : List Item} (maxBytes : ℤ) {maxItems fuel start : ℕ} {batches : List (List Item)}
    (hmax : 0 < maxItems) (hfuel : items.length - start < fuel) (hsofar : batches.flatten = items.take start) :
    ∃ all, chunkFrom items maxBytes maxItems fuel start batches = some all ∧ all.flatten = items := by
  induction fuel generalizing start batches with
  | zero => omega
  | succ fuel ih =>
    rw [chunkFrom]
    split_ifs with hstart
    · obtain ⟨hmore, -, -, -⟩ := restockBatchEnd_spec maxBytes hstart hmax
      refine ih (by omega) ?_
      rw [List.flatten_append, hsofar, List.flatten_singleton, take_append_slice hmore.le]
    · exact ⟨batches, rfl, by rw [hsofar, List.take_of_length_le (by omega)]⟩

/-! ### Sending a whole upload -/

/-- Byte cap from a too-large error (0 when the cap is unknown), or `none` for any other error. -/
def requestTooLargeCap (error : Js.Value) : Option Js.Number :=
  match error with
  | .object _ =>
    let errorCode := error.get "errorCode"
    if errorCode.isString "REQUEST_TOO_LARGE" || errorCode.isString "GATEWAY_REQUEST_TOO_LARGE" then
      match (error.get "params").get "max_bytes" with
      | .number max_bytes => some max_bytes
      | _ => some (.finite 0)
    else none
  | _ => none

/-- One call of `send`, with the budget its batch was cut for. -/
structure Sent (T : Type) where
  batch : List Item
  budget : ℤ
  answer : Except Js.Value T

/-- The batch of a call that was accepted, and what it answered. -/
def Sent.accepted {T : Type} (call : Sent T) : Option (List Item × T) :=
  match call.answer with
  | .ok result => some (call.batch, result)
  | .error _ => none

/-- The variables of the loop, the calls of `send` it has made and those of `onBatch`. -/
structure Upload (T : Type) where
  start : ℕ := 0
  budget : ℤ := restockBatchBytes
  results : List T := []
  sent : List (Sent T) := []
  passed : List (List Item × T) := []

/-- What a round of the loop leads to: another one, or the end of the promise. -/
inductive Round (T : Type)
  | again (upload : Upload T)
  | settled (upload : Upload T) (outcome : Except Js.Value (List T))

section Loop

variable {T : Type}

/-- What a run meets: what `cap * 0.9` is for a number `cap`, the answer of `send` to each call, whether the
signal is aborted before it, with what reason, and what `onBatch` throws. -/
structure World (T : Type) where
  ninety : ℚ → ℚ
  send : ℕ → List Item → Except Js.Value T
  signal : ℕ → Option Js.Value
  onBatch : ℕ → List Item → T → Option Js.Value

variable (world : World T) (items : List Item)

/-- `Math.min(Math.floor(budget / 2), cap > 0 ? Math.floor(cap * 0.9) : Infinity)` -/
def shrink (ninety : ℚ → ℚ) (budget : ℤ) (cap : Js.Number) : ℤ :=
  match cap with
  | .finite q => if 0 < q then min (budget / 2) ⌊ninety q⌋ else budget / 2
  -- nine tenths of infinity are infinity, and neither its negative nor `NaN` is above 0
  | .infinity _ | .nan => budget / 2

/-- The rest of a round, after `send` has answered. -/
def answered (upload : Upload T) (batch : List Item) (stop : ℕ) : Except Js.Value T → Round T
  | .error error =>
    match requestTooLargeCap error with
    | none => .settled upload (.error error)
    | some cap =>
      if batch.length = 1 then .settled upload (.error error)
      else .again { upload with budget := shrink world.ninety upload.budget cap }
  | .ok result =>
    let upload' := { upload with results := upload.results ++ [result], passed := upload.passed ++ [(batch, result)] }
    match world.onBatch (upload.sent.length - 1) batch result with
    | some error => .settled upload' (.error error)
    | none => .again { upload' with start := stop }

/-- A round of `runInRestockBatches`. -/
def step (upload : Upload T) : Round T :=
  if upload.start < items.length then
    match world.signal upload.sent.length with
    | some reason => .settled upload (.error reason)
    | none =>
      let stop := restockBatchEnd items upload.start upload.budget restockBatchMaxItems
      let batch := slice items upload.start stop
      let answer := world.send upload.sent.length batch
      answered world { upload with sent := upload.sent ++ [⟨batch, upload.budget, answer⟩] } batch stop answer
  else .settled upload (.ok upload.results)

/-- The loop of `runInRestockBatches`; `none` where it has not ended after `fuel` rounds. -/
def loop : ℕ → Upload T → Option (Upload T × Except Js.Value (List T))
  | 0, _ => none
  | fuel + 1, upload =>
    match step world items upload with
    | .again upload' => loop fuel upload'
    | .settled upload' outcome => some (upload', outcome)

/-- Send `items` in request-sized batches, one at a time. -/
def runInRestockBatches (fuel : ℕ) : Option (Upload T × Except Js.Value (List T)) := loop world items fuel {}

/-! ### What the loop keeps -/

/-- What has been accepted are the lines before `stop`, cut into batches, and every call was of a batch that
fits. -/
structure Upload.Sound (stop : ℕ) (upload : Upload T) : Prop where
  accepted : upload.passed = upload.sent.filterMap Sent.accepted
  answers : upload.results = upload.passed.map Prod.snd
  nonempty : ∀ batch ∈ upload.passed.map Prod.fst, batch ≠ []
  fits : ∀ call ∈ upload.sent, call.batch.length ≤ restockBatchMaxItems ∧
    (1 < call.batch.length → (batchBytes call.batch : ℤ) ≤ call.budget)
  inside : stop ≤ items.length
  before : (upload.passed.map Prod.fst).flatten = items.take stop

/-- What a round may lead to: a sound state from which less is to be done, or the end in a sound state, the
whole of the items accepted where the promise resolves. -/
def Round.Good (upload : Upload T) : Round T → Prop
  | .again upload' => upload'.Sound items upload'.start ∧
      items.length - upload'.start + upload'.budget.toNat < items.length - upload.start + upload.budget.toNat
  | .settled upload' outcome => ∃ stop, upload'.Sound items stop ∧
      ∀ results, outcome = .ok results → stop = items.length ∧ results = upload'.results

variable {world} {items}

/-- The lines of a batch, and how many there are. -/
theorem length_slice (start : ℕ) {stop : ℕ} (h : stop ≤ items.length) : (slice items start stop).length = stop - start := by
  rw [slice, List.length_take, List.length_drop]
  omega

/-- A refused call changes nothing but the list of calls. -/
theorem Upload.Sound.refused {upload : Upload T} {stop : ℕ} {error : Js.Value} (call : Sent T)
    (h : upload.Sound items stop) (hanswer : call.answer = .error error)
    (hfits : call.batch.length ≤ restockBatchMaxItems ∧
      (1 < call.batch.length → (batchBytes call.batch : ℤ) ≤ call.budget)) :
    { upload with sent := upload.sent ++ [call] }.Sound items stop where
  accepted := by
    have hcall : call.accepted = none := by rw [Sent.accepted, hanswer]
    simp [h.accepted, hcall]
  answers := h.answers
  nonempty := h.nonempty
  fits := by
    simp only [List.mem_append, List.mem_singleton]
    rintro c (hc | rfl)
    · exact h.fits c hc
    · exact hfits
  inside := h.inside
  before := h.before

/-- An accepted call takes the lines of its batch to those before. -/
theorem Upload.Sound.took {upload : Upload T} {stop : ℕ} {result : T} (call : Sent T)
    (h : upload.Sound items upload.start) (hanswer : call.answer = .ok result) (hmore : upload.start < stop)
    (hstop : stop ≤ items.length) (hbatch : call.batch = slice items upload.start stop)
    (hfits : call.batch.length ≤ restockBatchMaxItems ∧
      (1 < call.batch.length → (batchBytes call.batch : ℤ) ≤ call.budget)) :
    { upload with
      sent := upload.sent ++ [call]
      results := upload.results ++ [result]
      passed := upload.passed ++ [(call.batch, result)] }.Sound items stop where
  accepted := by
    have hcall : call.accepted = some (call.batch, result) := by rw [Sent.accepted, hanswer]
    simp [h.accepted, hcall]
  answers := by simp [h.answers]
  nonempty := by
    simp only [List.map_append, List.mem_append, List.map_singleton, List.mem_singleton]
    rintro batch (hb | rfl)
    · exact h.nonempty batch hb
    · have := length_slice upload.start hstop
      rw [hbatch, ← List.length_pos_iff]
      omega
  fits := by
    simp only [List.mem_append, List.mem_singleton]
    rintro c (hc | rfl)
    · exact h.fits c hc
    · exact hfits
  inside := hstop
  before := by
    rw [List.map_append, List.flatten_append, h.before, List.map_singleton, List.flatten_singleton, hbatch,
      take_append_slice hmore.le]

/-- The budget of a batch that is sent again is less than half of what it was. -/
theorem shrink_le (ninety : ℚ → ℚ) (budget : ℤ) (cap : Js.Number) : shrink ninety budget cap ≤ budget / 2 := by
  cases cap with
  | finite q =>
    rw [shrink]
    split_ifs
    · exact min_le_left _ _
    · exact le_refl _
  | infinity negative => exact le_refl _
  | nan => exact le_refl _

/-- **A round ends the loop or brings it nearer to its end**: it advances, or the budget, which two lines fitted
in, is halved. -/
theorem step_good (world : World T) {upload : Upload T} (h : upload.Sound items upload.start) :
    (step world items upload).Good items upload := by
  rw [step]
  split_ifs with hstart
  · cases hsignal : world.signal upload.sent.length with
    | some reason => exact ⟨_, h, by simp⟩
    | none =>
      obtain ⟨hmore, hlen, hmax, hbytes⟩ := restockBatchEnd_spec upload.budget hstart
        (show 0 < restockBatchMaxItems by decide)
      dsimp only
      generalize restockBatchEnd items upload.start upload.budget restockBatchMaxItems = stop at *
      have hslice : (slice items upload.start stop).length = stop - upload.start := length_slice upload.start hlen
      have hfits : (slice items upload.start stop).length ≤ restockBatchMaxItems ∧
          (1 < (slice items upload.start stop).length → (batchBytes (slice items upload.start stop) : ℤ) ≤ upload.budget) :=
        ⟨by omega, fun h1 => hbytes (by omega)⟩
      cases hanswer : world.send upload.sent.length (slice items upload.start stop) with
      | error error =>
        have hrefused := h.refused ⟨slice items upload.start stop, upload.budget, .error error⟩ rfl hfits
        simp only [answered]
        cases hcap : requestTooLargeCap error with
        | none => exact ⟨_, hrefused, by simp⟩
        | some cap =>
          dsimp only
          split_ifs with hone
          · exact ⟨_, hrefused, by simp⟩
          · refine ⟨⟨hrefused.accepted, hrefused.answers, hrefused.nonempty, hrefused.fits, hrefused.inside,
              hrefused.before⟩, ?_⟩
            -- two lines fitted in the budget, each of them with at least one byte
            have hpos : (2 : ℤ) ≤ upload.budget := by
              have h2 := hfits.2 (by omega)
              have h3 : (slice items upload.start stop).length ≤ batchBytes (slice items upload.start stop) := by
                rw [batchBytes]
                omega
              omega
            have hless := shrink_le world.ninety upload.budget cap
            change items.length - upload.start + (shrink world.ninety upload.budget cap).toNat < _
            omega
      | ok result =>
        have htook := h.took ⟨slice items upload.start stop, upload.budget, .ok result⟩ rfl hmore hlen rfl
          hfits
        simp only [answered]
        cases hcall : world.onBatch _ (slice items upload.start stop) result with
        | some error => exact ⟨_, htook, by simp⟩
        | none =>
          refine ⟨⟨htook.accepted, htook.answers, htook.nonempty, htook.fits, htook.inside, htook.before⟩, ?_⟩
          change items.length - stop + upload.budget.toNat < _
          omega
  · refine ⟨_, h, fun results hok => ⟨?_, ?_⟩⟩
    · have := h.inside
      omega
    · simpa using hok.symm

/-- What a run ends with, however many rounds it takes. -/
theorem loop_good {fuel : ℕ} {upload upload' : Upload T} {outcome : Except Js.Value (List T)}
    (h : upload.Sound items upload.start) (hrun : loop world items fuel upload = some (upload', outcome)) :
    ∃ stop, upload'.Sound items stop ∧
      ∀ results, outcome = .ok results → stop = items.length ∧ results = upload'.results := by
  induction fuel generalizing upload with
  | zero => simp [loop] at hrun
  | succ fuel ih =>
    have hgood := step_good world h
    rw [loop] at hrun
    cases hstep : step world items upload with
    | again next =>
      rw [hstep] at hrun hgood
      exact ih hgood.1 hrun
    | settled last ended =>
      rw [hstep] at hrun hgood
      obtain ⟨rfl, rfl⟩ := Prod.mk.injEq .. ▸ Option.some.injEq .. ▸ hrun
      exact hgood

/-- The rounds it takes are bounded by what is to be sent and the budget. -/
theorem loop_ends (world : World T) {fuel : ℕ} {upload : Upload T} (h : upload.Sound items upload.start)
    (hfuel : items.length - upload.start + upload.budget.toNat < fuel) : (loop world items fuel upload).isSome := by
  induction fuel generalizing upload with
  | zero => omega
  | succ fuel ih =>
    have hgood := step_good world h
    rw [loop]
    cases hstep : step world items upload with
    | again next =>
      rw [hstep] at hgood
      obtain ⟨hsound, hless⟩ := hgood
      exact ih hsound (by omega)
    | settled last ended => rfl

/-- Nothing has been sent yet. -/
theorem sound_start : ({} : Upload T).Sound items 0 := by
  constructor <;> simp

/-- **The upload ends**, having handed over the lines before some line, all of them where it resolves. -/
theorem run_settles (world : World T) (items : List Item) :
    ∃ rounds upload outcome, runInRestockBatches world items rounds = some (upload, outcome) ∧
      ∃ stop, upload.Sound items stop ∧ ∀ results, outcome = .ok results → stop = items.length ∧ results = upload.results := by
  have hstart : ({} : Upload T).Sound items ({} : Upload T).start := sound_start
  obtain ⟨⟨upload, outcome⟩, hrun⟩ := Option.isSome_iff_exists.mp (loop_ends world hstart (Nat.lt_succ_self _))
  exact ⟨_, upload, outcome, hrun, loop_good hstart hrun⟩

end Loop

/-! ### The console's upload -/

/-- What a request of the bulk upload answers. -/
structure RestockCounters where
  count : ℕ := 0
  skipped_duplicate : ℕ := 0
  skipped_existing : ℕ := 0
  skipped_market : ℕ := 0

/-- `totals` with the counters of one more answer. -/
def RestockCounters.plus (totals result : RestockCounters) : RestockCounters where
  count := totals.count + result.count
  skipped_duplicate := totals.skipped_duplicate + result.skipped_duplicate
  skipped_existing := totals.skipped_existing + result.skipped_existing
  skipped_market := totals.skipped_market + result.skipped_market

/-- Send unique lines batch by batch; `onProgress`, which runs after every batch, is what `world.onBatch` stands
for. -/
def runRestockBatches (world : World RestockCounters) (items : List Item) (fuel : ℕ) :
    Option (Upload RestockCounters × Except Js.Value RestockCounters) :=
  let unique := items.eraseDups
  let totals : RestockCounters := { skipped_duplicate := items.length - unique.length }
  (runInRestockBatches world unique fuel).map fun (upload, outcome) =>
    (upload, outcome.map fun _ => (upload.passed.map Prod.snd).foldl RestockCounters.plus totals)

theorem foldl_plus_count (totals : RestockCounters) (results : List RestockCounters) :
    (results.foldl RestockCounters.plus totals).count = totals.count + (results.map (·.count)).sum := by
  induction results generalizing totals with
  | nil => simp
  | cons result results ih =>
    rw [List.foldl_cons, ih, List.map_cons, List.sum_cons, RestockCounters.plus, Nat.add_assoc]

/-- **No line of an upload is sent twice, and none is left out of one that resolves**; the rows it reports as
added are those the accepted batches added. -/
theorem restock_lines_accepted_once (world : World RestockCounters) (items : List Item) :
    ∃ rounds upload outcome, runRestockBatches world items rounds = some (upload, outcome) ∧
      (upload.passed.map Prod.fst).flatten.Nodup ∧
      ∀ totals, outcome = .ok totals →
        (∀ item, item ∈ (upload.passed.map Prod.fst).flatten ↔ item ∈ items) ∧
        totals.count = (upload.passed.map (·.2.count)).sum := by
  obtain ⟨rounds, upload, outcome, hrun, stop, hsound, hok⟩ := run_settles world items.eraseDups
  have hprefix : (upload.passed.map Prod.fst).flatten <+: items.eraseDups := by
    rw [hsound.before]
    exact List.take_prefix stop _
  refine ⟨rounds, upload, _, by rw [runRestockBatches, hrun]; rfl, (Lists.nodup_eraseDups items).sublist hprefix.sublist,
    fun totals htotals => ?_⟩
  cases outcome with
  | error error => simp [Except.map] at htotals
  | ok results =>
    obtain ⟨rfl, -⟩ := hok results rfl
    refine ⟨fun item => ?_, ?_⟩
    · rw [hsound.before, List.take_length, List.mem_eraseDups]
    · simp only [Except.map, Except.ok.injEq] at htotals
      rw [← htotals, foldl_plus_count, List.map_map]
      simp [Function.comp_def]

end Marketplace.Inventory
