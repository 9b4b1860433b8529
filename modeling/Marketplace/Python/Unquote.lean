import Marketplace.Js.Uri

/-!
# The path a server sees

An ASGI server takes the escapes out of the path of a request, `%XX` for `%XX`, and reads the bytes as UTF-8, with
U+FFFD for what is not: `unquote`. What is escaped wrongly stays as it is.

A character of ASCII in the path that is read is a byte of the path, so a path that begins with a name in ASCII is
recognised by its bytes (`isPrefix_decodeReplace_iff`), and the bytes of a path can be put together at a slash
(`unquoteToBytes_append_cons`).
-/

namespace Python

open Js Utf16

/-! ### Escapes -/

/-- `unquote_to_bytes(text)`, for a text of ASCII. -/
def unquoteToBytes : List Char → List UInt8
  | '%' :: x :: y :: rest =>
    match Js.hexValue x, Js.hexValue y with
    | some m, some n => UInt8.ofNat (16 * m + n) :: unquoteToBytes rest
    | _, _ => UInt8.ofNat '%'.toNat :: unquoteToBytes (x :: y :: rest)
  | c :: rest => UInt8.ofNat c.toNat :: unquoteToBytes rest
  | [] => []

/-- What may follow the first byte of a character. -/
def isSecond (first b : UInt8) : Bool :=
  if first = 0xe0 then 0xa0 ≤ b && b ≤ 0xbf
  else if first = 0xed then 0x80 ≤ b && b ≤ 0x9f
  else if first = 0xf0 then 0x90 ≤ b && b ≤ 0xbf
  else if first = 0xf4 then 0x80 ≤ b && b ≤ 0x8f
  else 0x80 ≤ b && b ≤ 0xbf

/-- How many bytes one U+FFFD is put for: those with which a character could begin. -/
def brokenLength : List UInt8 → ℕ
  | b :: rest =>
    if 0xc2 ≤ b && b ≤ 0xf4 then
      match rest with
      | c :: rest => if isSecond b c then 2 + (rest.take (octetCount b - 3)).countP (fun d => 0x80 ≤ d && d ≤ 0xbf) else 1
      | [] => 1
    else 1
  | [] => 1

/-- The character at the front, and how many bytes it takes. -/
def readChar (bs : List UInt8) : Char × ℕ :=
  match bs with
  | [] => ('\uFFFD', 1)
  | b :: _ =>
    match charOfUtf8 (bs.take (octetCount b)) with
    | some c => (c, octetCount b)
    | none => ('\uFFFD', brokenLength bs)

/-- The loop of `decode`; `skip` bytes belong to the character that was read last. -/
def decodeBytes : ℕ → List UInt8 → List Char
  | _, [] => []
  | skip + 1, _ :: rest => decodeBytes skip rest
  | 0, b :: rest => (readChar (b :: rest)).1 :: decodeBytes ((readChar (b :: rest)).2 - 1) rest

/-- `data.decode("utf-8", "replace")` -/
def decodeReplace (bs : List UInt8) : List Char := decodeBytes 0 bs

/-- `unquote(text)` -/
def unquote (cs : List Char) : List Char := decodeReplace (unquoteToBytes cs)

/-! ### Names in ASCII -/

theorem utf8EncodeChar_of_lt {c : Char} (h : c.toNat < 0x80) : String.utf8EncodeChar c = [UInt8.ofNat c.toNat] := by
  have hv : c.val.toNat = c.toNat := rfl
  simp only [String.utf8EncodeChar, hv]
  rw [if_pos (by omega)]

theorem readChar_of_lt {b : UInt8} {rest : List UInt8} (h : b < 0x80) : readChar (b :: rest) = (Char.ofNat b.toNat, 1) := by
  have hlt : b.toNat < 0x80 := UInt8.lt_iff_toNat_lt.mp h
  have hc : (Char.ofNat b.toNat).toNat = b.toNat := by
    rw [Char.toNat_ofNat, if_pos (.inl (by omega))]
  have hutf8 : String.utf8EncodeChar (Char.ofNat b.toNat) = [b] := by
    rw [utf8EncodeChar_of_lt (by omega), hc, UInt8.ofNat_toNat]
  have hread : charOfUtf8 [b] = some (Char.ofNat b.toNat) := by
    rw [← hutf8, charOfUtf8_utf8EncodeChar]
  rw [readChar, octetCount, if_pos h, List.take_succ_cons, List.take_zero, hread]

theorem not_lt_readChar {b : UInt8} {rest : List UInt8} (h : ¬b < 0x80) : ¬(readChar (b :: rest)).1.toNat < 0x80 := by
  rw [readChar]
  rcases hread : charOfUtf8 ((b :: rest).take (octetCount b)) with _ | c
  · show ¬ '\uFFFD'.toNat < 0x80
    decide
  · obtain ⟨b', bs, he, -, hiff⟩ := exists_utf8EncodeChar_eq_cons c
    have hpos : ∃ n, octetCount b = n + 1 := by
      rw [octetCount]
      split_ifs <;> exact ⟨_, rfl⟩
    obtain ⟨n, hn⟩ := hpos
    rw [utf8EncodeChar_of_charOfUtf8 hread, hn, List.take_succ_cons] at he
    obtain ⟨rfl, -⟩ := List.cons.inj he
    exact fun hc => h (hiff.mpr hc)

/-- **A character of ASCII is the byte it was read from.** -/
theorem decodeReplace_eq_cons_iff {c : Char} (hc : c.toNat < 0x80) {bs : List UInt8} {ds : List Char} :
    decodeReplace bs = c :: ds ↔ ∃ rest, bs = UInt8.ofNat c.toNat :: rest ∧ decodeReplace rest = ds := by
  have hbyte : (UInt8.ofNat c.toNat).toNat = c.toNat := by
    rw [UInt8.toNat_ofNat']
    omega
  constructor
  · intro h
    cases bs with
    | nil => cases h
    | cons b rest =>
      rw [decodeReplace, decodeBytes] at h
      obtain ⟨hhead, htail⟩ := List.cons.inj h
      have hb : b < 0x80 := by
        by_contra hb
        have hnot : ¬(readChar (b :: rest)).1.toNat < 0x80 := not_lt_readChar hb
        exact hnot (hhead ▸ hc)
      rw [readChar_of_lt hb] at hhead htail
      have hb' : b.toNat < 0x80 := UInt8.lt_iff_toNat_lt.mp hb
      refine ⟨rest, ?_, htail⟩
      rw [← hhead, Char.toNat_ofNat, if_pos (.inl (by omega)), UInt8.ofNat_toNat]
  · rintro ⟨rest, rfl, rfl⟩
    have hb : UInt8.ofNat c.toNat < 0x80 := UInt8.lt_iff_toNat_lt.mpr (by rw [hbyte]; exact hc)
    rw [decodeReplace, decodeBytes, readChar_of_lt hb, hbyte, Char.ofNat_toNat]
    rfl

/-- The bytes of a text of ASCII. -/
def asciiBytes (cs : List Char) : List UInt8 := cs.map fun c => UInt8.ofNat c.toNat

/-- **A text begins with a name in ASCII where its bytes do.** -/
theorem isPrefix_decodeReplace_iff {name : List Char} (hname : ∀ c ∈ name, c.toNat < 0x80) {bs : List UInt8} :
    name <+: decodeReplace bs ↔ asciiBytes name <+: bs := by
  induction name generalizing bs with
  | nil => simp [asciiBytes]
  | cons c name ih =>
    have hc := hname c (by simp)
    constructor
    · rintro ⟨t, ht⟩
      obtain ⟨rest, rfl, hrest⟩ := (decodeReplace_eq_cons_iff hc).mp ht.symm
      have := (ih fun d hd => hname d (by simp [hd])).mp ⟨t, hrest.symm⟩
      exact List.cons_prefix_cons.mpr ⟨rfl, this⟩
    · rintro ⟨t, rfl⟩
      obtain ⟨ds, hds⟩ := (ih fun d hd => hname d (by simp [hd])).mpr ⟨t, rfl⟩
      exact ⟨ds, ((decodeReplace_eq_cons_iff hc).mpr ⟨_, rfl, hds.symm⟩).symm⟩

theorem decodeReplace_eq_iff {name : List Char} (hname : ∀ c ∈ name, c.toNat < 0x80) {bs : List UInt8} :
    decodeReplace bs = name ↔ bs = asciiBytes name := by
  induction name generalizing bs with
  | nil =>
    cases bs with
    | nil => exact ⟨fun _ => rfl, fun _ => rfl⟩
    | cons b bs => exact ⟨fun h => (by cases h), fun h => (by cases h)⟩
  | cons c name ih =>
    have ih : ∀ {bs : List UInt8}, decodeReplace bs = name ↔ bs = asciiBytes name := ih fun d hd => hname d (by simp [hd])
    rw [decodeReplace_eq_cons_iff (hname c (by simp))]
    simp only [ih, exists_eq_right]
    rfl

theorem decodeBytes_append (front rest : List UInt8) : decodeBytes front.length (front ++ rest) = decodeBytes 0 rest := by
  induction front with
  | nil => rfl
  | cons b front ih => exact ih

/-- The bytes of a text are read back. -/
theorem decodeReplace_utf8 (cs : List Char) : decodeReplace (cs.flatMap String.utf8EncodeChar) = cs := by
  induction cs with
  | nil => rfl
  | cons c cs ih =>
    obtain ⟨b, bs, he, hcount, -⟩ := exists_utf8EncodeChar_eq_cons c
    rw [List.flatMap_cons, he, List.cons_append, decodeReplace, decodeBytes]
    have hread : readChar (b :: (bs ++ cs.flatMap String.utf8EncodeChar)) = (c, bs.length + 1) := by
      rw [he, List.length_cons] at hcount
      rw [readChar, hcount, ← List.cons_append, List.take_left' (List.length_cons ..), ← he,
        charOfUtf8_utf8EncodeChar]
    rw [hread]
    exact congrArg (c :: ·) ((decodeBytes_append bs _).trans ih)

/-! ### Paths put together -/

theorem unquoteToBytes_cons {c : Char} (hc : c ≠ '%') (cs : List Char) :
    unquoteToBytes (c :: cs) = UInt8.ofNat c.toNat :: unquoteToBytes cs := by
  rw [unquoteToBytes.eq_def]
  split
  · next heq => exact absurd (List.cons.inj heq).1 hc
  · next heq =>
    obtain ⟨rfl, rfl⟩ := List.cons.inj heq
    rfl
  · next heq => cases heq

theorem unquoteToBytes_escape {x y : Char} {m n : ℕ} (hx : Js.hexValue x = some m) (hy : Js.hexValue y = some n)
    (cs : List Char) : unquoteToBytes ('%' :: x :: y :: cs) = UInt8.ofNat (16 * m + n) :: unquoteToBytes cs := by
  rw [unquoteToBytes, hx, hy]

theorem unquoteToBytes_percent {cs : List Char}
    (h : ∀ x y rest, cs = x :: y :: rest → Js.hexValue x = none ∨ Js.hexValue y = none) :
    unquoteToBytes ('%' :: cs) = UInt8.ofNat '%'.toNat :: unquoteToBytes cs := by
  rcases cs with _ | ⟨x, _ | ⟨y, rest⟩⟩
  · rfl
  · rfl
  · rw [unquoteToBytes]
    rcases h x y rest rfl with hx | hy
    · rw [hx]
    · rw [hy]
      cases Js.hexValue x <;> rfl

theorem unquoteToBytes_append_cons {d : Char} (hd : Js.hexValue d = none) (cs ds : List Char) :
    unquoteToBytes (cs ++ d :: ds) = unquoteToBytes cs ++ unquoteToBytes (d :: ds) := by
  induction hlen : cs.length using Nat.strong_induction_on generalizing cs with
  | _ n ih =>
    rcases cs with _ | ⟨c, cs⟩
    · rfl
    have ihtail := ih cs.length (by rw [← hlen, List.length_cons]; omega) cs rfl
    by_cases hc : c = '%'
    · subst hc
      by_cases hescape : ∃ x y rest m n, cs = x :: y :: rest ∧ Js.hexValue x = some m ∧ Js.hexValue y = some n
      · obtain ⟨x, y, rest, m, n, rfl, hx, hy⟩ := hescape
        have := ih rest.length (by simp only [List.length_cons] at hlen; omega) rest rfl
        rw [List.cons_append, List.cons_append, List.cons_append, unquoteToBytes_escape hx hy,
          unquoteToBytes_escape hx hy, this, List.cons_append]
      · have hnone : ∀ x y rest, cs = x :: y :: rest → Js.hexValue x = none ∨ Js.hexValue y = none := by
          rintro x y rest rfl
          by_contra hboth
          obtain ⟨hx, hy⟩ := not_or.mp hboth
          obtain ⟨m, hm⟩ := Option.ne_none_iff_exists'.mp hx
          obtain ⟨n, hn⟩ := Option.ne_none_iff_exists'.mp hy
          exact hescape ⟨x, y, rest, m, n, rfl, hm, hn⟩
        -- an escape cannot reach over the separator
        have hover : ∀ x y rest, cs ++ d :: ds = x :: y :: rest → Js.hexValue x = none ∨ Js.hexValue y = none := by
          intro x y rest heq
          rcases cs with _ | ⟨x', _ | ⟨y', cs⟩⟩
          · exact .inl ((List.cons.inj heq).1 ▸ hd)
          · exact .inr ((List.cons.inj (List.cons.inj heq).2).1 ▸ hd)
          · simp only [List.cons_append, List.cons.injEq] at heq
            obtain ⟨rfl, rfl, -⟩ := heq
            exact hnone _ _ _ rfl
        rw [List.cons_append, unquoteToBytes_percent hover, unquoteToBytes_percent hnone, ihtail, List.cons_append]
    · rw [List.cons_append, unquoteToBytes_cons hc, unquoteToBytes_cons hc, ihtail, List.cons_append]

theorem unquoteToBytes_spells {g : List Char} {bs : List UInt8} (h : Spells (ofChars g) bs) (cs : List Char) :
    unquoteToBytes (g ++ cs) = bs ++ unquoteToBytes cs := by
  generalize hw : ofChars g = w at h
  induction h generalizing g with
  | nil =>
    obtain rfl := List.map_eq_nil_iff.mp hw
    rfl
  | @cons x y m n _ _ hx hy _ ih =>
    obtain ⟨p, g₁, rfl, hp, hg₁⟩ := List.map_eq_cons_iff.mp hw
    obtain ⟨x', g₂, rfl, hx', hg₂⟩ := List.map_eq_cons_iff.mp hg₁
    obtain ⟨y', g₃, rfl, hy', hg₃⟩ := List.map_eq_cons_iff.mp hg₂
    obtain rfl := CodePoint.scalar.inj hp
    obtain rfl := CodePoint.scalar.inj hx'
    obtain rfl := CodePoint.scalar.inj hy'
    rw [List.cons_append, List.cons_append, List.cons_append, unquoteToBytes_escape hx hy, ih hg₃, List.cons_append]

/-- **A path in which everything is escaped that has to be gives the bytes of what it decodes to.** -/
theorem unquoteToBytes_of_decodes {cs us : List Char} (hcs : ∀ c ∈ cs, c.toNat < 0x80)
    (h : Decodes (ofChars cs) (ofChars us)) : unquoteToBytes cs = us.flatMap String.utf8EncodeChar := by
  generalize hv : ofChars cs = v at h
  generalize hw : ofChars us = w at h
  induction h generalizing cs us with
  | nil =>
    obtain rfl := List.map_eq_nil_iff.mp hv
    obtain rfl := List.map_eq_nil_iff.mp hw
    rfl
  | raw hp _ ih =>
    obtain ⟨c, cs, rfl, hc, hcs'⟩ := List.map_eq_cons_iff.mp hv
    obtain ⟨d, us, rfl, hd, hus⟩ := List.map_eq_cons_iff.mp hw
    obtain rfl := CodePoint.scalar.inj (hc.trans hd.symm)
    have hne : c ≠ '%' := by
      rintro rfl
      exact hp hc.symm
    rw [unquoteToBytes_cons hne, List.flatMap_cons, utf8EncodeChar_of_lt (hcs c (by simp)),
      ih (fun e he => hcs e (by simp [he])) hcs' hus, List.singleton_append]
  | escaped hg _ ih =>
    obtain ⟨g, cs, rfl, rfl, hcs'⟩ := List.map_eq_append_iff.mp hv
    obtain ⟨d, us, rfl, hd, hus⟩ := List.map_eq_cons_iff.mp hw
    obtain rfl := CodePoint.scalar.inj hd
    rw [unquoteToBytes_spells hg, List.flatMap_cons, ih (fun e he => hcs e (by simp [he])) hcs' hus]

end Python
