import Marketplace.Text.Decimal

/-!
# Patterns over texts

Regular expressions as programs write them, with the matches in the order a backtracking matcher
finds them: a run of characters is tried at its longest first, the left side of an alternative
before the right. A match says what the groups captured and what is left of the text
(`Regex.run`); `Regex.groups` are the groups of the first match that starts where the text does.

Two languages disagree about the end of a text (`Dialect`): in Python `$` also matches before a
newline that is the last character, in PostgreSQL it does not. `.` is the class of all
characters but a newline. What `\d` stands for is left open beyond ASCII (`DigitClass`).

`Regex.groups_numbered` is what patterns are mostly used for, a number between a fixed word and
something that is not a digit; `exists_splits_toEnd_iff` is what `.*$` accepts. At the end there
is the `LIKE` of SQL, `like`, and what it accepts where the pattern is a plain word and a `%`.
-/

namespace Text

/-! ### Digits -/

/-- What a program's `\d` and `isdigit` stand for: `value` is the value of a decimal digit. Both
are left open outside ASCII, where they depend on the version of Unicode. -/
structure DigitClass where
  value : Char → Option ℕ
  isdigit : Char → Bool
  value_ascii : ∀ c : Char, c.toNat < 128 →
    value c = if c.isDigit then some (c.toNat - '0'.toNat) else none
  isdigit_ascii : ∀ c : Char, c.toNat < 128 → isdigit c = c.isDigit

namespace DigitClass

/-- No digits but those of ASCII. -/
def ascii : DigitClass where
  value c := if c.isDigit then some (c.toNat - '0'.toNat) else none
  isdigit := Char.isDigit
  value_ascii _ _ := rfl
  isdigit_ascii _ _ := rfl

variable (digits : DigitClass)

/-- `\d` -/
def isDecimal (c : Char) : Bool := (digits.value c).isSome

/-- `int(text)`; `none` is the `ValueError`. -/
def int? (ds : List Char) : Option ℕ :=
  if ds = [] then none
  else ds.foldlM (fun n c => (digits.value c).map (10 * n + ·)) 0

/-- `text.isdigit()` -/
def allDigits (s : List Char) : Bool := !s.isEmpty && s.all digits.isdigit

theorem toNat_lt_of_isDigit {c : Char} (h : c.isDigit = true) : c.toNat < 128 := by
  have := (Char.isDigit_iff_toNat.mp h).2
  exact lt_of_le_of_lt this (by decide)

@[simp] theorem value_of_isDigit {c : Char} (h : c.isDigit = true) :
    digits.value c = some (c.toNat - '0'.toNat) := by
  rw [digits.value_ascii c (toNat_lt_of_isDigit h), if_pos h]

theorem isDecimal_ascii {c : Char} (h : c.toNat < 128) : digits.isDecimal c = c.isDigit := by
  rw [isDecimal, digits.value_ascii c h]
  cases c.isDigit <;> rfl

theorem isDecimal_of_isDigit {c : Char} (h : c.isDigit = true) : digits.isDecimal c = true := by
  rw [isDecimal_ascii digits (toNat_lt_of_isDigit h), h]

theorem foldlM_value {ds : List Char} (hds : ∀ c ∈ ds, c.isDigit = true) (init : ℕ) :
    ds.foldlM (fun n c => (digits.value c).map (10 * n + ·)) init =
      some (Nat.ofDigitChars 10 ds init) := by
  induction ds generalizing init with
  | nil => simp
  | cons d ds ih =>
    have hd : d.isDigit = true := hds d (by simp)
    rw [List.foldlM_cons, value_of_isDigit digits hd, Nat.ofDigitChars_cons]
    exact ih (fun c hc => hds c (by simp [hc])) _

end DigitClass

theorem isDigit_of_mem_toString {n : ℕ} {c : Char} (hc : c ∈ (toString n).toList) :
    c.isDigit = true := by
  rw [toList_toString] at hc
  exact Nat.isDigit_of_mem_toDigits (by decide) (by decide) hc

theorem toList_toString_ne_nil (n : ℕ) : (toString n).toList ≠ [] := by
  rw [toList_toString]
  exact Nat.toDigits_ne_nil

/-- **A number that was written is read back.** -/
theorem DigitClass.int?_toString (digits : DigitClass) (n : ℕ) :
    digits.int? (toString n).toList = some n := by
  rw [int?, if_neg (toList_toString_ne_nil n),
    foldlM_value digits fun c hc => isDigit_of_mem_toString hc, toList_toString,
    Nat.ofDigitChars_ten_toDigits]

/-! ### Patterns -/

/-- Whose `$` it is. -/
inductive Dialect
  | python | postgres
  deriving DecidableEq, Repr

/-- Patterns; `many p bound` is a run of characters of a class, of at most `bound` of them where there is
a bound, and `eot` is `$`. -/
inductive Regex
  | text (w : String)
  | one (p : Char → Bool)
  | many (p : Char → Bool) (bound : Option ℕ)
  | seq (r s : Regex)
  | alt (r s : Regex)
  | group (r : Regex)
  | eot

/-- What is left after the longest run of at most `k` characters of a class, the next shorter
one, and so on to the empty run. -/
def splits (p : Char → Bool) : ℕ → List Char → List (List Char)
  | 0, cs => [cs]
  | _ + 1, [] => [[]]
  | k + 1, c :: cs => if p c then splits p k cs ++ [c :: cs] else [c :: cs]

namespace Regex

/-- `p+`, or `p{1,k+1}`. -/
def plus (p : Char → Bool) (bound : Option ℕ) : Regex := .seq (.one p) (.many p bound)

/-- `r?` -/
def opt (r : Regex) : Regex := .alt r (.text "")

/-- `.` -/
def dot (c : Char) : Bool := c ≠ '\n'

/-- `$` -/
def atEnd : Dialect → List Char → Bool
  | .python, cs => cs = [] ∨ cs = ['\n']
  | .postgres, cs => cs = []

/-- The matches of a pattern at the front of a text: the groups they captured and what is left. -/
def run (dl : Dialect) : Regex → List Char → List (List (List Char) × List Char)
  | .text w, cs => if w.toList <+: cs then [([], cs.drop w.toList.length)] else []
  | .one _, [] => []
  | .one p, c :: cs => if p c then [([], cs)] else []
  | .many p bound, cs => (splits p (bound.getD cs.length) cs).map fun rest => ([], rest)
  | .seq r s, cs => (r.run dl cs).flatMap fun m =>
      (s.run dl m.2).map fun m' => (m.1 ++ m'.1, m'.2)
  | .alt r s, cs => r.run dl cs ++ s.run dl cs
  | .group r, cs => (r.run dl cs).map fun m => (cs.take (cs.length - m.2.length) :: m.1, m.2)
  | .eot, cs => if atEnd dl cs then [([], cs)] else []

-- generated once, here: most lemmas below unfold one of the two
attribute [grind =] splits run

/-- The groups of the first match. -/
def groups (dl : Dialect) (r : Regex) (cs : List Char) : Option (List (List Char)) :=
  (r.run dl cs).head?.map (·.1)

end Regex

/-! ### What runs leave -/

section Splits

variable {p : Char → Bool}

/-- A run is cut at its end first, and every later cut is before a character of the class. -/
theorem splits_append {ds rest : List Char} (hds : ∀ c ∈ ds, p c = true)
    (hrest : ∀ c, rest.head? = some c → p c = false) {k : ℕ} (hk : ds.length ≤ k) :
    ∃ l, splits p k (ds ++ rest) = rest :: l ∧ ∀ x ∈ l, ∃ c cs, p c = true ∧ x = c :: cs := by
  induction ds generalizing k with
  | nil =>
    refine ⟨[], ?_, by simp⟩
    rcases k with _ | k
    · rfl
    · rcases rest with _ | ⟨c, rest⟩
      · rfl
      · simp [splits, hrest c rfl]
  | cons d ds ih =>
    obtain ⟨k, rfl⟩ : ∃ j, k = j + 1 := ⟨k - 1, by simp at hk; omega⟩
    obtain ⟨l, hl, hcut⟩ := ih (fun c hc => hds c (by simp [hc])) (k := k) (by simpa using hk)
    have hd : p d = true := hds d (by simp)
    refine ⟨l ++ [d :: (ds ++ rest)], by simp [splits, hd, hl], ?_⟩
    intro x hx
    rcases List.mem_append.mp hx with hx | hx
    · exact hcut x hx
    · exact ⟨d, ds ++ rest, hd, by simpa using hx⟩

/-- **What `.*$` accepts in Python**: no newline, except as the last character. -/
theorem exists_splits_toEnd_iff (cs : List Char) :
    (∃ x ∈ splits Regex.dot cs.length cs, Regex.atEnd .python x = true) ↔ '\n' ∉ cs.dropLast := by
  induction cs with
  | nil => simp [splits, Regex.atEnd]
  | cons c cs ih =>
    by_cases hc : c = '\n'
    · subst hc
      rcases cs with _ | ⟨c, cs⟩ <;> simp [splits, Regex.dot, Regex.atEnd]
    · have hdot : Regex.dot c = true := by simp [Regex.dot, hc]
      have hlast : Regex.atEnd .python (c :: cs) = false := by simp [Regex.atEnd, hc]
      have hsplits : splits Regex.dot (c :: cs).length (c :: cs) =
          splits Regex.dot cs.length cs ++ [c :: cs] := by simp [splits, hdot]
      have hmem : '\n' ∈ (c :: cs).dropLast ↔ '\n' ∈ cs.dropLast := by
        rcases cs with _ | ⟨d, cs⟩
        · simp
        · simp [List.dropLast, Ne.symm hc]
      rw [hsplits, hmem, ← ih]
      simp only [List.mem_append, List.mem_singleton]
      constructor
      · rintro ⟨x, hx | rfl, hend⟩
        · exact ⟨x, hx, hend⟩
        · rw [hlast] at hend
          exact absurd hend (by decide)
      · rintro ⟨x, hx, hend⟩
        exact ⟨x, Or.inl hx, hend⟩

/-- A run of any length leaves what stands behind some of its characters. -/
theorem mem_splits_iff {k : ℕ} {cs rest : List Char} (hk : cs.length ≤ k) :
    rest ∈ splits p k cs ↔ ∃ ds, cs = ds ++ rest ∧ ∀ c ∈ ds, p c = true := by
  induction cs generalizing k with
  | nil => cases k <;> simp [splits]
  | cons c cs ih =>
    obtain ⟨k, rfl⟩ : ∃ j, k = j + 1 := ⟨k - 1, by simp at hk; omega⟩
    have hstay : rest = c :: cs → ∃ ds, c :: cs = ds ++ rest ∧ ∀ c ∈ ds, p c = true :=
      fun he => ⟨[], by simp [he], by simp⟩
    rw [splits]
    split_ifs with hc
    · rw [List.mem_append, ih (by simpa using hk), List.mem_singleton]
      constructor
      · rintro (⟨ds, rfl, hds⟩ | he)
        · exact ⟨c :: ds, rfl, List.forall_mem_cons.mpr ⟨hc, hds⟩⟩
        · exact hstay he
      · rintro ⟨_ | ⟨d, ds⟩, he, hds⟩
        · exact .inr he.symm
        · obtain ⟨rfl, rfl⟩ := List.cons.inj he
          exact .inl ⟨ds, rfl, fun c hc => hds c (List.mem_cons_of_mem _ hc)⟩
    · rw [List.mem_singleton]
      constructor
      · exact hstay
      · rintro ⟨_ | ⟨d, ds⟩, he, hds⟩
        · exact he.symm
        · obtain ⟨rfl, -⟩ := List.cons.inj he
          exact absurd (hds c (by simp)) hc

end Splits

namespace Regex

variable {dl : Dialect}

/-- Some match of the pattern at the front of the text leaves the rest. -/
def Leaves (dl : Dialect) (r : Regex) (cs rest : List Char) : Prop := ∃ g, (g, rest) ∈ r.run dl cs

section Leaves

variable {dl : Dialect} {r s : Regex} {cs rest : List Char} {p : Char → Bool}

theorem leaves_text {w : String} : (text w).Leaves dl cs rest ↔ cs = w.toList ++ rest := by
  rw [Leaves, run]
  split_ifs with h
  · obtain ⟨tail, rfl⟩ := h
    simp [eq_comm]
  · simp only [List.not_mem_nil, exists_false, false_iff]
    rintro rfl
    exact h (List.prefix_append _ _)

theorem leaves_one : (one p).Leaves dl cs rest ↔ ∃ c, cs = c :: rest ∧ p c = true := by
  cases cs with
  | nil => simp [Leaves, run]
  | cons c cs =>
    rw [Leaves, run]
    split_ifs with hc
    · constructor
      · rintro ⟨g, hg⟩
        obtain ⟨-, rfl⟩ := Prod.mk.inj (List.mem_singleton.mp hg)
        exact ⟨c, rfl, hc⟩
      · rintro ⟨d, he, -⟩
        obtain ⟨rfl, rfl⟩ := List.cons.inj he
        exact ⟨[], List.mem_singleton_self _⟩
    · simp only [List.not_mem_nil, exists_false, false_iff, not_exists, not_and]
      rintro d he hd
      obtain ⟨rfl, -⟩ := List.cons.inj he
      exact hc hd

theorem leaves_many : (many p none).Leaves dl cs rest ↔ ∃ ds, cs = ds ++ rest ∧ ∀ c ∈ ds, p c = true := by
  rw [← mem_splits_iff le_rfl, Leaves, run]
  simp

theorem leaves_seq : (seq r s).Leaves dl cs rest ↔ ∃ mid, r.Leaves dl cs mid ∧ s.Leaves dl mid rest := by
  simp only [Leaves, run, List.mem_flatMap, List.mem_map, Prod.mk.injEq, Prod.exists]
  constructor
  · rintro ⟨_, g, mid, hr, g', rest', hs, rfl, rfl⟩
    exact ⟨mid, ⟨g, hr⟩, g', hs⟩
  · rintro ⟨mid, ⟨g, hr⟩, g', hs⟩
    exact ⟨g ++ g', g, mid, hr, g', rest, hs, rfl, rfl⟩

theorem leaves_alt : (alt r s).Leaves dl cs rest ↔ r.Leaves dl cs rest ∨ s.Leaves dl cs rest := by
  simp only [Leaves, run, List.mem_append, exists_or]

theorem leaves_group : (group r).Leaves dl cs rest ↔ r.Leaves dl cs rest := by
  simp [Leaves, run]

theorem leaves_eot : (eot).Leaves dl cs rest ↔ atEnd dl cs = true ∧ rest = cs := by
  rw [Leaves, run]
  split_ifs with h <;> simp [h]

theorem leaves_plus : (plus p none).Leaves dl cs rest ↔
    ∃ ds, cs = ds ++ rest ∧ ds ≠ [] ∧ ∀ c ∈ ds, p c = true := by
  rw [plus, leaves_seq]
  simp only [leaves_one, leaves_many]
  constructor
  · rintro ⟨mid, ⟨c, rfl, hc⟩, ds, rfl, hds⟩
    exact ⟨c :: ds, rfl, by simp, List.forall_mem_cons.mpr ⟨hc, hds⟩⟩
  · rintro ⟨_ | ⟨c, ds⟩, rfl, hne, hds⟩
    · exact absurd rfl hne
    · obtain ⟨hc, hds⟩ := List.forall_mem_cons.mp hds
      exact ⟨ds ++ rest, ⟨c, rfl, hc⟩, ds, rfl, hds⟩

theorem leaves_opt : (opt r).Leaves dl cs rest ↔ r.Leaves dl cs rest ∨ cs = rest := by
  rw [opt, leaves_alt, leaves_text]
  rfl

end Leaves

/-! ### Matches of the parts -/

theorem run_text (w : String) (cs : List Char) :
    (text w).run dl (w.toList ++ cs) = [([], cs)] := by
  simp [run]

theorem run_seq_of_single {r s : Regex} {cs rest : List Char} {g : List (List Char)}
    (h : r.run dl cs = [(g, rest)]) :
    (seq r s).run dl cs = (s.run dl rest).map fun m => (g ++ m.1, m.2) := by
  simp [run, h]

theorem run_seq_eq_nil {r s : Regex} {cs : List Char} (h : r.run dl cs = []) :
    (seq r s).run dl cs = [] := by
  simp [run, h]

theorem run_seq_eq_nil_iff {r s : Regex} {cs : List Char} :
    (seq r s).run dl cs = [] ↔ ∀ m ∈ r.run dl cs, s.run dl m.2 = [] := by
  simp [run, List.flatMap_eq_nil_iff]

/-- A captured run is taken whole first, and every shorter one leaves the rest to start with its
class. -/
theorem run_group_plus {p : Char → Bool} {bound : Option ℕ} {ds rest : List Char}
    (hne : ds ≠ []) (hds : ∀ c ∈ ds, p c = true)
    (hrest : ∀ c, rest.head? = some c → p c = false)
    (hbound : ∀ k ∈ bound, ds.length ≤ k + 1) :
    ∃ l, (group (plus p bound)).run dl (ds ++ rest) = ([ds], rest) :: l ∧
      ∀ m ∈ l, ∃ c cs, p c = true ∧ m.2 = c :: cs := by
  obtain ⟨d, ds, rfl⟩ := List.exists_cons_of_ne_nil hne
  have hd : p d = true := hds d (by simp)
  have hlen : ds.length ≤ bound.getD (ds ++ rest).length := by
    cases bound with
    | none => simp
    | some k => simpa using hbound k rfl
  obtain ⟨l, hl, hcut⟩ := splits_append (fun c hc => hds c (by simp [hc])) hrest hlen
  have htake : (d :: (ds ++ rest)).take ((d :: (ds ++ rest)).length - rest.length) = d :: ds := by
    have : (d :: (ds ++ rest)).length - rest.length = (d :: ds).length := by simp; omega
    rw [this, ← List.cons_append, List.take_left]
  refine ⟨l.map fun x => ([(d :: (ds ++ rest)).take ((d :: (ds ++ rest)).length - x.length)], x),
    ?_, ?_⟩
  · rw [List.cons_append, run, plus, run_seq_of_single (g := []) (by rw [run, if_pos hd]), run, hl]
    simp only [List.map_cons, List.map_map, List.append_nil, htake]
    rfl
  · intro m hm
    obtain ⟨x, hx, rfl⟩ := List.mem_map.mp hm
    exact hcut x hx

/-- So before something that no character of its class starts, only the whole run counts. -/
theorem run_group_plus_seq {p : Char → Bool} {bound : Option ℕ} {ds rest : List Char} {s : Regex}
    (hne : ds ≠ []) (hds : ∀ c ∈ ds, p c = true)
    (hrest : ∀ c, rest.head? = some c → p c = false)
    (hbound : ∀ k ∈ bound, ds.length ≤ k + 1)
    (hs : ∀ c cs, p c = true → s.run dl (c :: cs) = []) :
    (seq (group (plus p bound)) s).run dl (ds ++ rest) =
      (s.run dl rest).map fun m => (ds :: m.1, m.2) := by
  obtain ⟨l, hl, hcut⟩ : ∃ l, (group (plus p bound)).run dl (ds ++ rest) = ([ds], rest) :: l ∧
      ∀ m ∈ l, ∃ c cs, p c = true ∧ m.2 = c :: cs := run_group_plus hne hds hrest hbound
  have hdead : l.flatMap (fun m => (s.run dl m.2).map fun m' => (m.1 ++ m'.1, m'.2)) = [] := by
    refine List.flatMap_eq_nil_iff.mpr fun m hm => ?_
    obtain ⟨c, cs, hc, hm2⟩ := hcut m hm
    rw [hm2, hs c cs hc, List.map_nil]
  rw [run, hl, List.flatMap_cons, hdead, List.append_nil]
  simp

/-- **A number after a fixed word**: it is captured whole, and the pattern matches exactly when
what comes after the number does. -/
theorem run_numbered {p : Char → Bool} {bound : Option ℕ} {w : String} {ds rest : List Char}
    {s : Regex} (hne : ds ≠ []) (hds : ∀ c ∈ ds, p c = true)
    (hrest : ∀ c, rest.head? = some c → p c = false)
    (hbound : ∀ k ∈ bound, ds.length ≤ k + 1)
    (hs : ∀ c cs, p c = true → s.run dl (c :: cs) = []) :
    (seq (text w) (seq (group (plus p bound)) s)).run dl (w.toList ++ (ds ++ rest)) =
      (s.run dl rest).map fun m => (ds :: m.1, m.2) := by
  rw [run_seq_of_single (run_text w (ds ++ rest)), run_group_plus_seq hne hds hrest hbound hs]
  simp

end Regex

/-! ### `LIKE` -/

/-- `text LIKE pattern`, with `\` as the escape character. -/
def like : List Char → List Char → Bool
  | [], cs => cs.isEmpty
  | '%' :: ps, cs => cs.tails.any (like ps)
  | '_' :: ps, _ :: cs => like ps cs
  | '\\' :: p :: ps, c :: cs => p = c && like ps cs
  | p :: ps, c :: cs => p = c && like ps cs
  | _ :: _, [] => false

/-- No character of the word means anything to `LIKE`. -/
def Plain (w : List Char) : Prop := ∀ c ∈ w, c ≠ '%' ∧ c ≠ '_' ∧ c ≠ '\\'

theorem like_percent (cs : List Char) : like ['%'] cs = true := by
  rw [like, List.any_eq_true]
  exact ⟨[], by simp, rfl⟩

/-- **A plain word and a `%` accept the texts that start with the word.** -/
theorem like_prefix_iff {w : List Char} (hw : Plain w) (cs : List Char) :
    like (w ++ ['%']) cs = true ↔ w <+: cs := by
  induction w generalizing cs with
  | nil => simp [like_percent]
  | cons a w ih =>
    obtain ⟨h1, h2, h3⟩ := hw a (by simp)
    have ih := ih fun c hc => hw c (by simp [hc])
    cases cs with
    | nil => simp [like]
    | cons c cs =>
      rw [List.cons_append, like, Bool.and_eq_true, ih, List.cons_prefix_cons]
      · simp
      all_goals simp_all

end Text
