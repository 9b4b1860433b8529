import Marketplace.Text.Decimal
import Mathlib.Data.List.DropRight

/-!
# Stripped texts

What `str.strip()` takes off the two ends of a text, over any class of characters, and what Python
counts as a space.
-/

namespace Text

/-- The characters `str.strip()` takes off. -/
def isSpace (c : Char) : Bool :=
  c.val ∈ [0x09, 0x0a, 0x0b, 0x0c, 0x0d, 0x1c, 0x1d, 0x1e, 0x1f, 0x20, 0x85, 0xa0, 0x1680, 0x2028, 0x2029,
    0x202f, 0x205f, 0x3000] || (0x2000 ≤ c.val && c.val ≤ 0x200a)

/-- The list without what is to be taken off at either end. -/
def stripChars (p : Char → Bool) (cs : List Char) : List Char :=
  ((cs.dropWhile p).reverse.dropWhile p).reverse

/-- What a stripped text starts and ends with stays. -/
theorem stripChars_idem (p : Char → Bool) (cs : List Char) :
    stripChars p (stripChars p cs) = stripChars p cs := by
  -- the front of the stripped text is the front of the text without its leading characters
  have hfront : (stripChars p cs).dropWhile p = stripChars p cs := by
    rw [List.dropWhile_eq_self_iff]
    intro hlen
    have hpre : stripChars p cs <+: cs.dropWhile p := by
      rw [stripChars, ← List.reverse_suffix, List.reverse_reverse]
      exact List.dropWhile_suffix p
    have hlen' : 0 < (cs.dropWhile p).length := lt_of_lt_of_le hlen hpre.length_le
    have hget : (stripChars p cs)[0] = (cs.dropWhile p)[0] := hpre.getElem hlen
    rw [hget]
    exact List.dropWhile_get_zero_not p cs hlen'
  conv_lhs => rw [stripChars, hfront]
  rw [stripChars, List.reverse_reverse, List.dropWhile_idempotent]

theorem mem_stripChars {p : Char → Bool} {cs : List Char} {c : Char} (h : c ∈ stripChars p cs) :
    c ∈ cs := by
  rw [stripChars, List.mem_reverse] at h
  have h' := List.mem_reverse.mp ((List.dropWhile_suffix p).subset h)
  exact (List.dropWhile_suffix p).subset h'

/-- A text nothing of which is taken off stays as it is. -/
theorem stripChars_eq_self {p : Char → Bool} {cs : List Char} (h : ∀ c ∈ cs, p c = false) :
    stripChars p cs = cs := by
  have hd : ∀ {l : List Char}, (∀ c ∈ l, p c = false) → l.dropWhile p = l := by
    intro l hl
    cases l with
    | nil => rfl
    | cons c l => rw [List.dropWhile_cons_of_neg (by simp [hl c (by simp)])]
  rw [stripChars, hd h, hd (fun c hc => h c (List.mem_reverse.mp hc)), List.reverse_reverse]

/-- Nothing is taken off exactly where neither the first nor the last character is to be. -/
theorem stripChars_eq_self_iff {p : Char → Bool} {cs : List Char} :
    stripChars p cs = cs ↔ (∀ c ∈ cs.head?, p c = false) ∧ ∀ c ∈ cs.getLast?, p c = false := by
  have hfront : ∀ l : List Char, l.dropWhile p = l ↔ ∀ c ∈ l.head?, p c = false := by
    intro l
    cases l with
    | nil => simp
    | cons c l =>
      rw [List.dropWhile_cons]
      split_ifs with hc
      · have hlen := (List.dropWhile_suffix p (l := l)).length_le
        refine ⟨fun h => ?_, fun h => absurd (h c rfl) (by simp [hc])⟩
        rw [h, List.length_cons] at hlen
        omega
      · simpa using hc
  rw [stripChars, List.reverse_eq_iff, ← List.head?_reverse, ← hfront, ← hfront]
  constructor
  · intro h
    -- what is left after both ends is as long as the text, so nothing came off the first
    have hself : cs.dropWhile p = cs := by
      refine (List.dropWhile_suffix p).eq_of_length ?_
      have h1 := (List.dropWhile_suffix p (l := (cs.dropWhile p).reverse)).length_le
      have h2 := (List.dropWhile_suffix p (l := cs)).length_le
      rw [h, List.length_reverse, List.length_reverse] at h1
      omega
    exact ⟨hself, by rwa [hself] at h⟩
  · rintro ⟨h1, h2⟩
    rw [h1, h2]

/-- A first character that stays is the first character. -/
theorem exists_stripChars_cons {p : Char → Bool} {c : Char} (hc : p c = false) (cs : List Char) :
    ∃ rest, stripChars p (c :: cs) = c :: rest := by
  rw [stripChars, List.dropWhile_cons_of_neg (by simp [hc]), List.reverse_cons, List.dropWhile_append]
  split_ifs with h
  · exact ⟨[], by simp [hc]⟩
  · exact ⟨(cs.reverse.dropWhile p).reverse, by simp⟩

/-- What is taken off may as well be added at the end. -/
theorem stripChars_append_singleton {p : Char → Bool} {c : Char} (hc : p c = true) (cs : List Char) :
    stripChars p (cs ++ [c]) = stripChars p cs := by
  rw [stripChars, stripChars, List.dropWhile_append]
  split_ifs with h
  · rw [List.isEmpty_iff] at h
    simp [h, hc]
  · rw [List.reverse_append, List.reverse_singleton, List.singleton_append, List.dropWhile_cons_of_pos hc]

theorem stripChars_append_right {p : Char → Bool} (cs : List Char) {right : List Char} (h : ∀ c ∈ right, p c = true) :
    stripChars p (cs ++ right) = stripChars p cs := by
  induction right using List.reverseRecOn with
  | nil => rw [List.append_nil]
  | append_singleton right c ih =>
    rw [← List.append_assoc, stripChars_append_singleton (h c (by simp)), ih fun d hd => h d (by simp [hd])]

theorem stripChars_append_left {p : Char → Bool} {left : List Char} (h : ∀ c ∈ left, p c = true) (cs : List Char) :
    stripChars p (left ++ cs) = stripChars p cs := by
  rw [stripChars, List.dropWhile_append_of_pos h, ← stripChars]

/-- What is taken off at the two ends. -/
theorem exists_append_stripChars (p : Char → Bool) (cs : List Char) :
    ∃ left right, cs = left ++ stripChars p cs ++ right ∧ (∀ c ∈ left, p c = true) ∧ ∀ c ∈ right, p c = true := by
  refine ⟨cs.takeWhile p, ((cs.dropWhile p).reverse.takeWhile p).reverse, ?_, fun c hc => List.mem_takeWhile_imp hc,
    fun c hc => List.mem_takeWhile_imp (List.mem_reverse.mp hc)⟩
  rw [stripChars, List.append_assoc, ← List.reverse_append, List.takeWhile_append_dropWhile, List.reverse_reverse,
    List.takeWhile_append_dropWhile]

/-- What is not to be taken off stays. -/
theorem mem_stripChars_of_mem {p : Char → Bool} {cs : List Char} {c : Char} (h : c ∈ cs) (hc : p c = false) :
    c ∈ stripChars p cs := by
  obtain ⟨left, right, hcs, hleft, hright⟩ := exists_append_stripChars p cs
  rw [hcs] at h
  simp only [List.mem_append] at h
  rcases h with (h | h) | h
  · simp [hleft c h] at hc
  · exact h
  · simp [hright c h] at hc

/-- A class that takes off less first makes no difference. -/
theorem stripChars_stripChars {p q : Char → Bool} (h : ∀ c, q c = true → p c = true) (cs : List Char) :
    stripChars p (stripChars q cs) = stripChars p cs := by
  obtain ⟨left, right, hcs, hleft, hright⟩ := exists_append_stripChars q cs
  conv_rhs => rw [hcs]
  rw [stripChars_append_right _ fun c hc => h c (hright c hc), stripChars_append_left fun c hc => h c (hleft c hc)]

theorem length_stripChars_le (p : Char → Bool) (cs : List Char) : (stripChars p cs).length ≤ cs.length := by
  obtain ⟨left, right, hcs, -, -⟩ := exists_append_stripChars p cs
  conv_rhs => rw [hcs]
  simp only [List.length_append]
  omega

/-- No character of ASCII that is printed is a space. -/
theorem isSpace_of_printed {c : Char} (h1 : 0x21 ≤ c.toNat) (h2 : c.toNat < 0x85) :
    isSpace c = false := by
  have h1' : (0x21 : ℕ) ≤ c.val.toNat := h1
  have h2' : c.val.toNat < 0x85 := h2
  simp only [isSpace, List.mem_cons, List.not_mem_nil, or_false, Bool.or_eq_false_iff, decide_eq_false_iff_not,
    Bool.and_eq_false_iff, UInt32.le_iff_toNat_le, UInt32.ext_iff]
  refine ⟨?_, ?_⟩
  · rintro (h | h | h | h | h | h | h | h | h | h | h | h | h | h | h | h | h | h) <;>
      simp [h] at h1' h2'
  · left
    intro h
    have : (0x2000 : ℕ) ≤ c.val.toNat := h
    omega

theorem isSpace_of_isDigit {c : Char} (h : c.isDigit = true) : isSpace c = false := by
  have hc := Char.isDigit_iff_toNat.mp h
  exact isSpace_of_printed (by have := hc.1; simp at this; omega) (by have := hc.2; simp at this; omega)

end Text
