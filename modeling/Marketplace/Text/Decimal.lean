import Mathlib.Tactic

/-!
# Numbers written into texts

Identifiers are often written into a text between fixed words, and read back by a pattern
that takes a maximal block of digits. `readNat` is that pattern; `readNat_append` says when it reads
back what was written: the text after the number must not go on with a digit
(`NoDigit`). Under the same condition the number and what follows it can be told
apart, `toString_append_inj`.
-/

namespace Text

/-- The text is empty or starts with something that is not a digit. -/
def NoDigit : List Char → Prop
  | [] => True
  | c :: _ => c.isDigit = false

instance : DecidablePred NoDigit
  | [] => .isTrue trivial
  | c :: _ => inferInstanceAs (Decidable (c.isDigit = false))

/-- The maximal block of digits at the front of a text, read as a number, and what
follows it. There must be a digit. -/
def readNat (cs : List Char) : Option (ℕ × List Char) :=
  match cs.takeWhile Char.isDigit with
  | [] => none
  | ds => some (Nat.ofDigitChars 10 ds 0, cs.dropWhile Char.isDigit)

theorem takeWhile_dropWhile_append {ds rest : List Char} (hds : ∀ c ∈ ds, c.isDigit = true)
    (hrest : NoDigit rest) :
    (ds ++ rest).takeWhile Char.isDigit = ds ∧ (ds ++ rest).dropWhile Char.isDigit = rest := by
  induction ds with
  | nil =>
    cases rest with
    | nil => exact ⟨rfl, rfl⟩
    | cons c rest =>
      have hc : c.isDigit = false := hrest
      simp [hc]
  | cons d ds ih =>
    have hd : d.isDigit = true := hds d (by simp)
    obtain ⟨h1, h2⟩ := ih fun c hc => hds c (by simp [hc])
    simp [hd, h1, h2]

theorem toList_toString (n : ℕ) : (toString n).toList = Nat.toDigits 10 n := by
  rw [Nat.toString_eq_repr, Nat.toList_repr]

/-- Only zero is written with a zero in front. -/
theorem head?_toString {n : ℕ} (h : (toString n).toList.head? = some '0') : n = 0 := by
  rw [toList_toString] at h
  induction n using Nat.strong_induction_on with
  | _ n ih =>
    by_cases hn : n < 10
    · have hall : ∀ n < 10, (Nat.toDigits 10 n).head? = some '0' → n = 0 := by decide
      exact hall n hn h
    · -- the digits of a tenth of it stand in front
      rw [Nat.toDigits_of_base_le (by decide) (by omega), List.head?_append_of_ne_nil _ Nat.toDigits_ne_nil] at h
      have := ih (n / 10) (by omega) h
      omega

/-- Letters and digits of programs are ASCII. -/
theorem toNat_lt_of_isAlphanum {c : Char} (h : c.isAlphanum = true) : c.toNat < 128 := by
  have h' : ((c.isUpper || c.isLower) || c.isDigit) = true := h
  rw [Bool.or_eq_true, Bool.or_eq_true] at h'
  rcases h' with (hupper | hlower) | hdigit
  · have hle : c.val ≤ 'Z'.val := (of_decide_eq_true hupper : c.val ≥ 'A'.val ∧ c.val ≤ 'Z'.val).2
    exact lt_of_le_of_lt (UInt32.le_iff_toNat_le.mp hle) (by decide)
  · have hle : c.val ≤ 'z'.val := of_decide_eq_true ((Bool.and_eq_true _ _).mp hlower).2
    exact lt_of_le_of_lt (UInt32.le_iff_toNat_le.mp hle) (by decide)
  · exact lt_of_le_of_lt (Char.isDigit_iff_toNat.mp hdigit).2 (by decide)

/-- **What was written is read back.** -/
theorem readNat_append (n : ℕ) {rest : List Char} (hrest : NoDigit rest) :
    readNat ((toString n).toList ++ rest) = some (n, rest) := by
  have hdig : ∀ c ∈ Nat.toDigits 10 n, c.isDigit = true := fun c hc =>
    Nat.isDigit_of_mem_toDigits (by decide) (by decide) hc
  obtain ⟨h1, h2⟩ := takeWhile_dropWhile_append hdig hrest
  rw [toList_toString, readNat, h1, h2]
  rcases hd : Nat.toDigits 10 n with _ | ⟨d, ds⟩
  · exact absurd hd Nat.toDigits_ne_nil
  · change some (Nat.ofDigitChars 10 (d :: ds) 0, rest) = _
    rw [← hd]
    simp

/-- **A number and the text after it can be told apart.** -/
theorem toString_append_inj {m n : ℕ} {s t : String} (hs : NoDigit s.toList)
    (ht : NoDigit t.toList) : toString m ++ s = toString n ++ t ↔ m = n ∧ s = t := by
  constructor
  · intro h
    have hl := congrArg String.toList h
    rw [String.toList_append, String.toList_append] at hl
    have hr := readNat_append m hs
    rw [hl, readNat_append n ht] at hr
    obtain ⟨rfl, hst⟩ : n = m ∧ t.toList = s.toList := by simpa using hr
    exact ⟨rfl, String.toList_inj.mp hst.symm⟩
  · rintro ⟨rfl, rfl⟩
    rfl

/-- Nothing after the numbers: they are told apart by their texts. -/
theorem toString_inj {m n : ℕ} : (toString m : String) = toString n ↔ m = n := by
  have h := toString_append_inj (m := m) (n := n) (s := "") (t := "") trivial trivial
  rw [String.append_empty, String.append_empty] at h
  exact h.trans (and_iff_left rfl)

end Text
