import Marketplace.Text.Decimal
import Marketplace.Text.Utf16

/-!
# Percent-encoding

A byte is written `%XX`, and a character that may not stand in a URL as the bytes of its UTF-8:
`encodeURIComponent` and `decodeURIComponent` of JavaScript, and `percentEncode`, with which a URL parser
writes the characters of a set.

`Decodes` is what `decodeURIComponent` computes without the order in which it does
(`decodeURIComponent_eq_some_iff`). A text can be cut at a character that is neither `%` nor a digit of
base 16 (`Decodes.of_append_cons`), characters of a text can be left out or written in another way
(`Decodes.filter`, `Decodes.percentEncode`), and what was encoded is decoded again
(`decodes_encodeURIComponent`).
-/

namespace Js

open Utf16

/-! ### Digits and bytes -/

/-- The value of a digit of base 16. -/
def hexValue (c : Char) : Option ℕ :=
  if c.isDigit then some (c.toNat - 48)
  else if 'a' ≤ c ∧ c ≤ 'f' then some (c.toNat - 87)
  else if 'A' ≤ c ∧ c ≤ 'F' then some (c.toNat - 55)
  else none

/-- A digit of base 16 as it is written in a URL. -/
def hexDigit (n : ℕ) : Char := if n < 10 then Char.ofNat (48 + n) else Char.ofNat (55 + n)

/-- `%XX` -/
def escapeByte (b : UInt8) : List Char := ['%', hexDigit (b.toNat / 16), hexDigit (b.toNat % 16)]

/-- The bytes of a character, escaped. -/
def escapeChar (c : Char) : List Char := (String.utf8EncodeChar c).flatMap escapeByte

theorem hexValue_hexDigit {n : ℕ} (h : n < 16) : hexValue (hexDigit n) = some n := by
  have : ∀ n < 16, hexValue (hexDigit n) = some n := by decide
  exact this n h

/-- The digits of base 16. -/
theorem exists_hexDigit_of_hexValue {c : Char} {n : ℕ} (h : hexValue c = some n) :
    n < 16 ∧ (c = hexDigit n ∨ c = (hexDigit n).toLower) := by
  have hall : ∀ m < 128, ∀ n ∈ hexValue (Char.ofNat m), n < 16 ∧
      (Char.ofNat m = hexDigit n ∨ Char.ofNat m = (hexDigit n).toLower) := by decide
  have hlt : c.toNat < 128 := by
    have hle : ∀ d : Char, c ≤ d → c.toNat ≤ d.toNat := fun d hd => hd
    rw [hexValue] at h
    split_ifs at h with h1 h2 h3
    · have := (Char.isDigit_iff_toNat.mp h1).2
      have : '9'.toNat = 57 := rfl
      omega
    · have := hle _ h2.2
      have : 'f'.toNat = 102 := rfl
      omega
    · have := hle _ h3.2
      have : 'F'.toNat = 70 := rfl
      omega
  have := hall c.toNat hlt n
  rw [Char.ofNat_toNat] at this
  exact this h

@[simp] theorem hexValue_percent : hexValue '%' = none := by decide

/-- How many bytes a character takes whose first one this is. -/
def octetCount (b : UInt8) : ℕ :=
  if b < 0x80 then 1 else if b < 0xe0 then 2 else if b < 0xf0 then 3 else 4

/-- The number the bytes of a character stand for. -/
def octetsValue : List UInt8 → ℕ
  | [a] => a.toNat
  | [a, b] => a.toNat % 32 * 64 + b.toNat % 64
  | [a, b, c] => a.toNat % 16 * 4096 + b.toNat % 64 * 64 + c.toNat % 64
  | [a, b, c, d] => a.toNat % 8 * 262144 + b.toNat % 64 * 4096 + c.toNat % 64 * 64 + d.toNat % 64
  | _ => 0

/-- The character whose UTF-8 the bytes are. -/
def charOfUtf8 (bs : List UInt8) : Option Char :=
  let c := Char.ofNat (octetsValue bs)
  if String.utf8EncodeChar c = bs then some c else none

theorem utf8EncodeChar_of_charOfUtf8 {bs : List UInt8} {c : Char} (h : charOfUtf8 bs = some c) :
    String.utf8EncodeChar c = bs := by
  simp only [charOfUtf8] at h
  split_ifs at h with he
  rwa [← Option.some.inj h]

theorem toNat_lt_of_char (c : Char) : c.toNat < 0x110000 := by
  have : c.toNat < 55296 ∨ 57343 < c.toNat ∧ c.toNat < 1114112 := c.valid
  omega

/-- A byte that goes on with a character has its bits in the lower six. -/
theorem tail_mod (n : ℕ) : (n % 64 + 128) % 2 ^ 8 % 64 = n % 64 := by omega

/-- The number of a character is read off its bytes. -/
theorem octetsValue_utf8EncodeChar (c : Char) : octetsValue (String.utf8EncodeChar c) = c.toNat := by
  have hc := toNat_lt_of_char c
  have hv : c.val.toNat = c.toNat := rfl
  simp only [String.utf8EncodeChar, hv]
  generalize c.toNat = n at hc ⊢
  split_ifs with h₁ h₂ h₃
  · simp only [octetsValue, UInt8.toNat_ofNat']
    omega
  · have hlead : (n / 64 % 32 + 192) % 2 ^ 8 % 32 = n / 64 % 32 := by omega
    simp only [octetsValue, UInt8.toNat_ofNat', tail_mod, hlead]
    omega
  · have hlead : (n / 4096 % 16 + 224) % 2 ^ 8 % 16 = n / 4096 % 16 := by omega
    simp only [octetsValue, UInt8.toNat_ofNat', tail_mod, hlead]
    omega
  · have hlead : (n / 262144 % 8 + 240) % 2 ^ 8 % 8 = n / 262144 % 8 := by omega
    simp only [octetsValue, UInt8.toNat_ofNat', tail_mod, hlead]
    omega

theorem charOfUtf8_utf8EncodeChar (c : Char) : charOfUtf8 (String.utf8EncodeChar c) = some c := by
  simp only [charOfUtf8, octetsValue_utf8EncodeChar, Char.ofNat_toNat, if_true]

/-- The first byte tells how many there are. -/
theorem exists_utf8EncodeChar_eq_cons (c : Char) : ∃ b bs, String.utf8EncodeChar c = b :: bs ∧
    octetCount b = (String.utf8EncodeChar c).length ∧ (b < 0x80 ↔ c.toNat < 0x80) := by
  have hc := toNat_lt_of_char c
  have hv : c.val.toNat = c.toNat := rfl
  simp only [String.utf8EncodeChar, hv]
  split_ifs
  all_goals
    refine ⟨_, _, rfl, ?_, ?_⟩
    · simp only [octetCount, UInt8.lt_iff_toNat_lt, UInt8.toNat_ofNat', UInt8.reduceToNat, List.length_cons,
        List.length_nil]
      split_ifs <;> omega
    · simp only [UInt8.lt_iff_toNat_lt, UInt8.toNat_ofNat', UInt8.reduceToNat]
      omega

/-! ### `decodeURIComponent` -/

/-- `%XX` at the front of a text. -/
def octet? : List CodePoint → Option UInt8
  | .scalar '%' :: .scalar x :: .scalar y :: _ =>
    (hexValue x).bind fun m => (hexValue y).map fun n => UInt8.ofNat (16 * m + n)
  | _ => none

/-- `n` bytes at the front of a text. -/
def octets? : ℕ → List CodePoint → Option (List UInt8)
  | 0, _ => some []
  | n + 1, ps => (octet? ps).bind fun b => (octets? n (ps.drop 3)).map (b :: ·)

/-- The escaped character at the front of a text. -/
def escape? (ps : List CodePoint) : Option Char :=
  (octet? ps).bind fun b => (octets? (octetCount b) ps).bind charOfUtf8

/-- The loop of `decodeURIComponent`; `skip` code points belong to the character that was read last. -/
def decodeFrom : ℕ → List CodePoint → Option (List CodePoint)
  | _, [] => some []
  | skip + 1, _ :: rest => decodeFrom skip rest
  | 0, p :: rest =>
    if p = .scalar '%' then
      (escape? (p :: rest)).bind fun c =>
        (decodeFrom (3 * (String.utf8EncodeChar c).length - 1) rest).map (.scalar c :: ·)
    else (decodeFrom 0 rest).map (p :: ·)

/-- `decodeURIComponent(text)`; `none` is the `URIError`. -/
def decodeURIComponent (ps : List CodePoint) : Option (List CodePoint) := decodeFrom 0 ps

/-- What may stand as it is in what `encodeURIComponent` returns. -/
def isUnescaped (c : Char) : Bool :=
  c.isAlphanum || ['-', '_', '.', '!', '~', '*', '\'', '(', ')'].contains c

theorem toNat_lt_of_isUnescaped {c : Char} (h : isUnescaped c = true) : c.toNat < 128 := by
  rw [isUnescaped, Bool.or_eq_true] at h
  rcases h with h | h
  · exact Text.toNat_lt_of_isAlphanum h
  · have hall : ['-', '_', '.', '!', '~', '*', '\'', '(', ')'].all (·.toNat < 128) = true := by decide
    exact of_decide_eq_true (List.all_eq_true.mp hall c (List.contains_iff_mem.mp h))

/-- `encodeURIComponent(text)`; `none` is the `URIError`. -/
def encodeURIComponent : List CodePoint → Option (List Char)
  | [] => some []
  | .lone _ :: _ => none
  | .scalar c :: rest =>
    (encodeURIComponent rest).map ((if isUnescaped c then [c] else escapeChar c) ++ ·)

/-- "UTF-8 percent-encode" with a set of characters. -/
def percentEncode (set : Char → Bool) (cs : List Char) : List Char :=
  cs.flatMap fun c => if set c then escapeChar c else [c]

/-! ### What is decoded -/

/-- The text spells out the bytes. -/
inductive Spells : List CodePoint → List UInt8 → Prop
  | nil : Spells [] []
  | cons {x y : Char} {m n : ℕ} {g : List CodePoint} {bs : List UInt8} (hx : hexValue x = some m)
      (hy : hexValue y = some n) (h : Spells g bs) :
      Spells (.scalar '%' :: .scalar x :: .scalar y :: g) (UInt8.ofNat (16 * m + n) :: bs)

/-- The text is the other one with some characters escaped. -/
inductive Decodes : List CodePoint → List CodePoint → Prop
  | nil : Decodes [] []
  | raw {p : CodePoint} {ps us : List CodePoint} (hp : p ≠ .scalar '%') (h : Decodes ps us) :
      Decodes (p :: ps) (p :: us)
  | escaped {c : Char} {g ps us : List CodePoint} (hg : Spells g (String.utf8EncodeChar c)) (h : Decodes ps us) :
      Decodes (g ++ ps) (.scalar c :: us)

/-- A character of an escape. -/
def InEscape (p : CodePoint) : Prop := p = .scalar '%' ∨ ∃ c, p = .scalar c ∧ (hexValue c).isSome

namespace Spells

theorem inEscape {g : List CodePoint} {bs : List UInt8} (h : Spells g bs) : ∀ p ∈ g, InEscape p := by
  induction h with
  | nil => simp
  | cons hx hy _ ih =>
    intro p hp
    simp only [List.mem_cons] at hp
    rcases hp with rfl | rfl | rfl | hp
    · exact .inl rfl
    · exact .inr ⟨_, rfl, by rw [hx]; rfl⟩
    · exact .inr ⟨_, rfl, by rw [hy]; rfl⟩
    · exact ih p hp

theorem length_eq {g : List CodePoint} {bs : List UInt8} (h : Spells g bs) : g.length = 3 * bs.length := by
  induction h with
  | nil => rfl
  | cons _ _ _ ih =>
    simp only [List.length_cons, ih]
    omega

theorem octets?_eq {g : List CodePoint} {bs : List UInt8} (h : Spells g bs) (ps : List CodePoint) :
    octets? bs.length (g ++ ps) = some bs := by
  induction h with
  | nil => rfl
  | cons hx hy _ ih =>
    simp only [List.length_cons, List.cons_append, octets?, octet?, hx, hy, Option.map_some, Option.bind_some,
      List.drop_succ_cons, List.drop_zero, ih]

theorem head_eq {g : List CodePoint} {b : UInt8} {bs : List UInt8} (h : Spells g (b :: bs)) :
    ∃ g', g = .scalar '%' :: g' := by
  cases h
  exact ⟨_, rfl⟩

end Spells

theorem exists_spells_of_octets? {n : ℕ} {ps : List CodePoint} {bs : List UInt8} (h : octets? n ps = some bs) :
    ∃ g, g ++ ps.drop (3 * n) = ps ∧ Spells g bs := by
  induction n generalizing ps bs with
  | zero =>
    obtain rfl := Option.some.inj h
    exact ⟨[], by simp, .nil⟩
  | succ n ih =>
    obtain ⟨b, hb, h⟩ := Option.bind_eq_some_iff.mp h
    obtain ⟨bs, hbs, rfl⟩ := Option.map_eq_some_iff.mp h
    rw [octet?.eq_def] at hb
    split at hb
    · next x y rest =>
      obtain ⟨m, hx, hb⟩ := Option.bind_eq_some_iff.mp hb
      obtain ⟨k, hy, rfl⟩ := Option.map_eq_some_iff.mp hb
      obtain ⟨g, hg, hspells⟩ := ih hbs
      refine ⟨_, ?_, .cons hx hy hspells⟩
      have : 3 * (n + 1) = 3 * n + 1 + 1 + 1 := by omega
      simpa [this] using hg
    · cases hb

theorem spells_escapeByte (b : UInt8) {g : List CodePoint} {bs : List UInt8} (h : Spells g bs) :
    Spells ((escapeByte b).map .scalar ++ g) (b :: bs) := by
  have hb := b.toNat_lt
  have hn : UInt8.ofNat (16 * (b.toNat / 16) + b.toNat % 16) = b := by
    rw [Nat.div_add_mod]
    exact UInt8.ofNat_toNat
  have hcons := Spells.cons (hexValue_hexDigit (n := b.toNat / 16) (by omega))
    (hexValue_hexDigit (n := b.toNat % 16) (by omega)) h
  rwa [hn] at hcons

theorem spells_escapeBytes (bs : List UInt8) : Spells ((bs.flatMap escapeByte).map .scalar) bs := by
  induction bs with
  | nil => exact .nil
  | cons b bs ih =>
    rw [List.flatMap_cons, List.map_append]
    exact spells_escapeByte b ih

theorem spells_escapeChar (c : Char) : Spells ((escapeChar c).map .scalar) (String.utf8EncodeChar c) :=
  spells_escapeBytes _

/-- The characters already read are passed over. -/
theorem decodeFrom_append (front rest : List CodePoint) : decodeFrom front.length (front ++ rest) = decodeFrom 0 rest := by
  induction front with
  | nil => rfl
  | cons p front ih => exact ih

theorem escape?_eq {c : Char} {g : List CodePoint} (hg : Spells g (String.utf8EncodeChar c)) (ps : List CodePoint) :
    escape? (g ++ ps) = some c := by
  obtain ⟨b, bs, he, hcount, -⟩ := exists_utf8EncodeChar_eq_cons c
  have hoctets := hg.octets?_eq ps
  have hfirst : octet? (g ++ ps) = some b := by
    rw [he, List.length_cons, octets?] at hoctets
    obtain ⟨b', hb', hrest⟩ := Option.bind_eq_some_iff.mp hoctets
    obtain ⟨bs', -, hcons⟩ := Option.map_eq_some_iff.mp hrest
    rw [hb', (List.cons.inj hcons).1]
  rw [escape?, hfirst, Option.bind_some, hcount, hoctets, Option.bind_some, charOfUtf8_utf8EncodeChar]

theorem decodes_of_decodeFrom {n : ℕ} {ps us : List CodePoint} (h : decodeFrom n ps = some us) :
    Decodes (ps.drop n) us := by
  induction ps generalizing n us with
  | nil =>
    rw [decodeFrom, Option.some.injEq] at h
    subst h
    rw [List.drop_nil]
    exact .nil
  | cons p rest ih =>
    cases n with
    | succ n => exact ih h
    | zero =>
      rw [decodeFrom] at h
      split_ifs at h with hp
      · obtain ⟨c, hc, h⟩ := Option.bind_eq_some_iff.mp h
        obtain ⟨us, hrest, rfl⟩ := Option.map_eq_some_iff.mp h
        obtain ⟨b, hb, hc⟩ := Option.bind_eq_some_iff.mp hc
        obtain ⟨bs, hbs, hc⟩ := Option.bind_eq_some_iff.mp hc
        obtain ⟨g, hg, hspells⟩ := exists_spells_of_octets? hbs
        rw [← utf8EncodeChar_of_charOfUtf8 hc] at hspells
        have hlen := hspells.length_eq
        obtain ⟨b', bs', he, -⟩ := exists_utf8EncodeChar_eq_cons c
        -- the escape is what is skipped, and the rest is decoded behind it
        have hdrop : (p :: rest).drop (3 * octetCount b) = rest.drop (3 * (String.utf8EncodeChar c).length - 1) := by
          have hdrop : (p :: rest).drop g.length = (p :: rest).drop (3 * octetCount b) := by
            conv_lhs => rw [← hg]
            rw [List.drop_left]
          rw [← hdrop, hlen, he]
          rfl
        rw [List.drop_zero, ← hg, hdrop]
        exact .escaped hspells (ih hrest)
      · obtain ⟨us, hrest, rfl⟩ := Option.map_eq_some_iff.mp h
        exact .raw hp (ih hrest)

/-- **What `decodeURIComponent` returns.** -/
theorem decodeURIComponent_eq_some_iff {ps us : List CodePoint} :
    decodeURIComponent ps = some us ↔ Decodes ps us := by
  constructor
  · intro h
    exact decodes_of_decodeFrom h
  · intro h
    induction h with
    | nil => rfl
    | raw hp _ ih =>
      rw [decodeURIComponent] at ih ⊢
      rw [decodeFrom, if_neg hp, ih, Option.map_some]
    | @escaped c g ps us hg _ ih =>
      have hescape := escape?_eq hg ps
      obtain ⟨b, bs, he, -⟩ := exists_utf8EncodeChar_eq_cons c
      have hlen := hg.length_eq
      obtain ⟨g', rfl⟩ := (he ▸ hg).head_eq
      rw [decodeURIComponent] at ih ⊢
      rw [List.cons_append] at hescape ⊢
      have hskip : 3 * (String.utf8EncodeChar c).length - 1 = g'.length := by
        rw [List.length_cons] at hlen
        omega
      rw [decodeFrom, if_pos rfl, hescape, Option.bind_some, hskip, decodeFrom_append, ih, Option.map_some]

namespace Decodes

theorem unique {ps us vs : List CodePoint} (hu : Decodes ps us) (hv : Decodes ps vs) : us = vs := by
  rw [← decodeURIComponent_eq_some_iff] at hu hv
  exact Option.some.inj (hu.symm.trans hv)

theorem append {ps qs us vs : List CodePoint} (hu : Decodes ps us) (hv : Decodes qs vs) :
    Decodes (ps ++ qs) (us ++ vs) := by
  induction hu with
  | nil => exact hv
  | raw hp _ ih => exact .raw hp ih
  | escaped hg _ ih =>
    rw [List.append_assoc]
    exact .escaped hg ih

theorem cons_iff {p : CodePoint} {ps us : List CodePoint} (hp : p ≠ .scalar '%') :
    Decodes (p :: ps) us ↔ ∃ vs, us = p :: vs ∧ Decodes ps vs := by
  constructor
  · intro h
    generalize hw : p :: ps = w at h
    cases h with
    | nil => cases hw
    | raw _ h =>
      obtain ⟨rfl, rfl⟩ := List.cons.inj hw
      exact ⟨_, rfl, h⟩
    | @escaped c _ _ _ hg _ =>
      obtain ⟨b, bs, he, -⟩ := exists_utf8EncodeChar_eq_cons c
      obtain ⟨g', rfl⟩ := (he ▸ hg).head_eq
      exact absurd (List.cons.inj hw).1 hp
  · rintro ⟨vs, rfl, h⟩
    exact .raw hp h

/-- **A text can be cut at a character that is in no escape.** -/
theorem of_append_cons {ps qs w : List CodePoint} {d : CodePoint} (h : Decodes (ps ++ d :: qs) w)
    (hd : ¬InEscape d) : ∃ us vs, w = us ++ d :: vs ∧ Decodes ps us ∧ Decodes qs vs := by
  generalize he : ps ++ d :: qs = whole at h
  induction h generalizing ps with
  | nil => simp at he
  | @raw p rest us hp hrest ih =>
    cases ps with
    | nil =>
      obtain ⟨rfl, rfl⟩ := List.cons.inj he
      exact ⟨[], us, rfl, .nil, hrest⟩
    | cons p' ps =>
      obtain ⟨rfl, htail⟩ := List.cons.inj he
      obtain ⟨us, vs, rfl, hps, hqs⟩ := ih htail
      exact ⟨_, vs, rfl, .raw hp hps, hqs⟩
  | @escaped c g rest us hg hrest ih =>
    rcases List.append_eq_append_iff.mp he with ⟨tail, rfl, htail⟩ | ⟨tail, rfl, rfl⟩
    · cases tail with
      | nil =>
        rw [List.append_nil] at hg
        have hnil : [] ++ d :: qs = rest := htail
        obtain ⟨us, vs, rfl, hps, hqs⟩ := ih hnil
        exact ⟨.scalar c :: us, vs, rfl, by simpa using Decodes.escaped hg hps, hqs⟩
      | cons d' tail =>
        obtain ⟨rfl, -⟩ := List.cons.inj htail
        exact absurd (hg.inEscape d (by simp)) hd
    · obtain ⟨us, vs, rfl, hps, hqs⟩ := ih rfl
      exact ⟨.scalar c :: us, vs, rfl, .escaped hg hps, hqs⟩

theorem of_append_raw {ps qs w : List CodePoint} (h : Decodes (ps ++ qs) w) (hq : ∀ d ∈ qs, ¬InEscape d) :
    ∃ us, us.Sublist w ∧ Decodes ps us := by
  cases qs with
  | nil => exact ⟨w, .refl w, by simpa using h⟩
  | cons d qs =>
    obtain ⟨us, vs, rfl, hps, -⟩ := h.of_append_cons (hq d (by simp))
    exact ⟨us, List.sublist_append_left _ _, hps⟩

theorem of_raw_append {ps qs w : List CodePoint} (h : Decodes (ps ++ qs) w) (hp : ∀ d ∈ ps, ¬InEscape d) :
    ∃ us, us.Sublist w ∧ Decodes qs us := by
  induction ps generalizing w with
  | nil => exact ⟨w, .refl w, h⟩
  | cons d ps ih =>
    obtain ⟨vs, rfl, hvs⟩ := (cons_iff fun hd => hp d (by simp) (.inl hd)).mp h
    obtain ⟨us, hsub, hus⟩ := ih hvs fun e he => hp e (by simp [he])
    exact ⟨us, hsub.cons d, hus⟩

/-- What is in no escape is in the decoded text. -/
theorem mem {ps us : List CodePoint} (h : Decodes ps us) {p : CodePoint} (hp : p ∈ ps) (hraw : ¬InEscape p) :
    p ∈ us := by
  obtain ⟨front, back, rfl⟩ := List.append_of_mem hp
  obtain ⟨vs, ws, rfl, -, -⟩ := h.of_append_cons hraw
  simp

/-- Characters that are in no escape can be left out. -/
theorem filter {ps us : List CodePoint} (h : Decodes ps us) (keep : CodePoint → Bool)
    (hkeep : ∀ p, InEscape p → keep p = true) : ∃ vs, vs.Sublist us ∧ Decodes (ps.filter keep) vs := by
  induction h with
  | nil => exact ⟨[], .refl _, .nil⟩
  | @raw p ps us hp _ ih =>
    obtain ⟨vs, hsub, hvs⟩ := ih
    rw [List.filter_cons]
    split_ifs
    · exact ⟨p :: vs, hsub.cons_cons p, .raw hp hvs⟩
    · exact ⟨vs, hsub.cons p, hvs⟩
  | @escaped c g ps us hg _ ih =>
    obtain ⟨vs, hsub, hvs⟩ := ih
    have hall : g.filter keep = g := List.filter_eq_self.mpr fun p hp => hkeep p (hg.inEscape p hp)
    rw [List.filter_append, hall]
    exact ⟨.scalar c :: vs, hsub.cons_cons _, .escaped hg hvs⟩

/-- Characters can be escaped. -/
theorem percentEncode {cs : List Char} {us : List CodePoint} (h : Decodes (cs.map .scalar) us) {set : Char → Bool}
    (hset : ∀ c, InEscape (.scalar c) → set c = false) : Decodes ((percentEncode set cs).map .scalar) us := by
  generalize hw : cs.map CodePoint.scalar = w at h
  induction h generalizing cs with
  | nil =>
    obtain rfl := List.map_eq_nil_iff.mp hw
    exact .nil
  | raw hp _ ih =>
    obtain ⟨c, cs, rfl, rfl, rfl⟩ := List.map_eq_cons_iff.mp hw
    rw [Js.percentEncode, List.flatMap_cons, List.map_append]
    split_ifs
    · exact .escaped (spells_escapeChar c) (ih rfl)
    · exact .raw hp (ih rfl)
  | escaped hg _ ih =>
    obtain ⟨g, cs, rfl, rfl, rfl⟩ := List.map_eq_append_iff.mp hw
    have hself : Js.percentEncode set g = g := by
      have hfalse : ∀ c ∈ g, set c = false := fun c hc => hset c (hg.inEscape _ (List.mem_map_of_mem hc))
      clear hg hw
      induction g with
      | nil => rfl
      | cons c g ihg =>
        rw [Js.percentEncode, List.flatMap_cons, hfalse c (by simp)]
        exact congrArg (c :: ·) (ihg fun d hd => hfalse d (by simp [hd]))
    rw [Js.percentEncode, List.flatMap_append, List.map_append]
    rw [Js.percentEncode] at hself
    rw [hself]
    exact .escaped hg (ih rfl)

end Decodes

/-! ### Texts without surrogates -/

/-- A text as a URL parser reads it: a surrogate that stands alone is replaced. -/
def toScalar : CodePoint → Char
  | .scalar c => c
  | .lone _ => '\uFFFD'

/-- A text of characters, by code points. -/
def ofChars (cs : List Char) : List CodePoint := cs.map .scalar

theorem Decodes.toScalar {ps us : List CodePoint} (h : Decodes ps us) :
    Decodes (ofChars (ps.map toScalar)) (ofChars (us.map Js.toScalar)) := by
  induction h with
  | nil => exact .nil
  | @raw p _ _ hp _ ih =>
    refine .raw ?_ ih
    cases p with
    | scalar c => exact hp
    | lone u =>
      have : '\uFFFD' ≠ '%' := by decide
      exact fun h => this (CodePoint.scalar.inj h)
  | @escaped c g _ _ hg _ ih =>
    have hself : ofChars (g.map Js.toScalar) = g := by
      have hall := hg.inEscape
      clear hg
      induction g with
      | nil => rfl
      | cons p g ihg =>
        have hp : CodePoint.scalar (Js.toScalar p) = p := by
          rcases hall p (by simp) with rfl | ⟨c, rfl, -⟩ <;> rfl
        exact congrArg₂ List.cons hp (ihg fun q hq => hall q (by simp [hq]))
    rw [List.map_append, ofChars, List.map_append]
    rw [ofChars] at hself
    rw [hself]
    exact .escaped hg ih

/-- **What was encoded is decoded again.** -/
theorem decodes_encodeURIComponent {ps : List CodePoint} {e : List Char} (h : encodeURIComponent ps = some e) :
    Decodes (ofChars e) ps := by
  induction ps generalizing e with
  | nil =>
    obtain rfl := Option.some.inj h
    exact .nil
  | cons p ps ih =>
    cases p with
    | lone u => cases h
    | scalar c =>
      obtain ⟨e, he, rfl⟩ := Option.map_eq_some_iff.mp h
      rw [ofChars, List.map_append]
      split_ifs with hc
      · refine .raw ?_ (ih he)
        rintro ⟨⟩
        exact absurd hc (by decide)
      · exact .escaped (spells_escapeChar c) (ih he)

/-- What is encoded has no surrogate that stands alone. -/
theorem exists_ofChars_of_encodeURIComponent {ps : List CodePoint} {e : List Char}
    (h : encodeURIComponent ps = some e) : ∃ cs, ps = ofChars cs := by
  induction ps generalizing e with
  | nil => exact ⟨[], rfl⟩
  | cons p ps ih =>
    cases p with
    | lone u => cases h
    | scalar c =>
      obtain ⟨e, he, -⟩ := Option.map_eq_some_iff.mp h
      obtain ⟨cs, rfl⟩ := ih he
      exact ⟨c :: cs, rfl⟩

/-- The characters of an escape. -/
theorem mem_escapeChar {c d : Char} (h : d ∈ escapeChar c) : d = '%' ∨ ∃ n < 16, d = hexDigit n := by
  obtain ⟨b, -, hb⟩ := List.mem_flatMap.mp h
  have hlt := b.toNat_lt
  simp only [escapeByte, List.mem_cons, List.not_mem_nil, or_false] at hb
  rcases hb with rfl | rfl | rfl
  · exact .inl rfl
  · exact .inr ⟨_, by omega, rfl⟩
  · exact .inr ⟨_, by omega, rfl⟩

theorem isUnescaped_hexDigit {n : ℕ} (h : n < 16) : isUnescaped (hexDigit n) = true := by
  have : ∀ n < 16, isUnescaped (hexDigit n) = true := by decide
  exact this n h

/-- **The characters of what `encodeURIComponent` returns.** -/
theorem mem_encodeURIComponent {ps : List CodePoint} {e : List Char} (h : encodeURIComponent ps = some e) {c : Char}
    (hc : c ∈ e) : c = '%' ∨ isUnescaped c = true := by
  induction ps generalizing e with
  | nil =>
    obtain rfl := Option.some.inj h
    simp at hc
  | cons p ps ih =>
    cases p with
    | lone u => cases h
    | scalar d =>
      obtain ⟨e, he, rfl⟩ := Option.map_eq_some_iff.mp h
      rw [List.mem_append] at hc
      rcases hc with hc | hc
      · split_ifs at hc with hd
        · obtain rfl := List.mem_singleton.mp hc
          exact .inr hd
        · rcases mem_escapeChar hc with rfl | ⟨n, hn, rfl⟩
          · exact .inl rfl
          · exact .inr (isUnescaped_hexDigit hn)
      · exact ih he hc

/-- **Nothing is written shorter than `encodeURIComponent` writes it.** -/
theorem length_encodeURIComponent_le {ps us : List CodePoint} {e : List Char} (h : Decodes ps us)
    (hps : ∀ p ∈ ps, p = .scalar '%' ∨ ∃ c, p = .scalar c ∧ isUnescaped c = true)
    (he : encodeURIComponent us = some e) : e.length ≤ ps.length := by
  induction h generalizing e with
  | nil =>
    obtain rfl := Option.some.inj he
    exact le_rfl
  | raw hp _ ih =>
    rcases hps _ List.mem_cons_self with hp' | ⟨c, rfl, hc⟩
    · exact absurd hp' hp
    · obtain ⟨e, hrest, rfl⟩ := Option.map_eq_some_iff.mp he
      have := ih (fun p hp => hps p (List.mem_cons_of_mem _ hp)) hrest
      simp only [hc, if_true, List.length_append, List.length_cons, List.length_nil]
      omega
  | @escaped c g ps us hg _ ih =>
    obtain ⟨e, hrest, rfl⟩ := Option.map_eq_some_iff.mp he
    have := ih (fun p hp => hps p (List.mem_append_right g hp)) hrest
    have hlen := hg.length_eq
    have hescape := (spells_escapeChar c).length_eq
    obtain ⟨b, bs, hb, -⟩ := exists_utf8EncodeChar_eq_cons c
    have hpos : 0 < (String.utf8EncodeChar c).length := by rw [hb, List.length_cons]; omega
    rw [List.length_map] at hescape
    rw [List.length_append, List.length_append]
    split_ifs
    · rw [List.length_singleton]
      omega
    · omega

end Js
