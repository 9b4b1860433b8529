import Marketplace.Text.Regex

/-!
# Searching in texts

Where a word stands in a text (`occurrences`), and where a pattern matches when the text is read from its
start and every match goes on behind the one before it (`Pattern.finditer`). A pattern may ask for what
stands next to it: no character of one class before it, none of another behind it, as `(?<!\d)` and
`(?!\d)` do.

A search finds something exactly where there is something to be found (`occurrences_ne_nil_iff`,
`Pattern.finditer_ne_nil_iff`): a match that starts inside an earlier one is skipped, but then there is an
earlier one. `holdsRun_iff` is the search for a run of characters of a class that is neither too short
nor too long, and `Spaced` is a word with other characters put between its own.
-/

namespace Text

/-! ### Words -/

/-- Every place where a word stands, overlapping ones as well; the text starts at the place `i`. -/
def occurrences (needle : List Char) : ℕ → List Char → List ℕ
  | _, [] => []
  | i, c :: cs =>
    if needle <+: c :: cs then i :: occurrences needle (i + 1) cs else occurrences needle (i + 1) cs

/-- A word is found where the text has it. -/
theorem occurrences_ne_nil_iff {needle cs : List Char} (hne : needle ≠ []) (i : ℕ) :
    occurrences needle i cs ≠ [] ↔ needle <:+: cs := by
  induction cs generalizing i with
  | nil => simp [occurrences, hne]
  | cons c cs ih =>
    rw [occurrences, List.infix_cons_iff]
    split_ifs with h
    · simp [h]
    · rw [ih]
      exact (or_iff_right h).symm

/-! ### Patterns -/

/-- A pattern between characters that may not stand next to it. -/
structure Pattern where
  notAfter : Char → Bool
  body : Regex
  notBefore : Char → Bool

namespace Pattern

variable (pat : Pattern)

/-- What the first match at the front of the text leaves of it; `before` is the character the text follows. -/
def matchAt (before : Option Char) (cs : List Char) : Option (List Char) :=
  if before.any pat.notAfter then none
  else ((pat.body.run .python cs).map Prod.snd).find? fun rest => !rest.head?.any pat.notBefore

/-- Where the matches start and end, for a pattern that matches no empty text; `taken` characters belong to
the match that was found last. -/
def finditer : Option Char → ℕ → ℕ → List Char → List (ℕ × ℕ)
  | _, _, _, [] => []
  | _, i, taken + 1, c :: cs => finditer (some c) (i + 1) taken cs
  | before, i, 0, c :: cs =>
    match pat.matchAt before (c :: cs) with
    | none => finditer (some c) (i + 1) 0 cs
    | some rest =>
      (i, i + ((c :: cs).length - rest.length)) :: finditer (some c) (i + 1) (cs.length - rest.length) cs

/-- The pattern matches at the front of the text. -/
def MatchesAt (before : Option Char) (cs : List Char) : Prop :=
  (∀ c ∈ before, pat.notAfter c = false) ∧
    ∃ rest, pat.body.Leaves .python cs rest ∧ ∀ c ∈ rest.head?, pat.notBefore c = false

variable {pat}

theorem isSome_matchAt_iff {before : Option Char} {cs : List Char} :
    (pat.matchAt before cs).isSome ↔ pat.MatchesAt before cs := by
  have hany : ∀ (o : Option Char) (p : Char → Bool), o.any p = false ↔ ∀ c ∈ o, p c = false := by
    intro o p
    cases o <;> simp
  rw [matchAt, MatchesAt, ← hany]
  cases hbefore : before.any pat.notAfter with
  | true => simp
  | false =>
    simp only [Bool.false_eq_true, if_false, true_and, List.find?_isSome, List.mem_map, Prod.exists,
      Bool.not_eq_true', hany]
    constructor
    · rintro ⟨rest, ⟨g, _, hmem, rfl⟩, hrest⟩
      exact ⟨_, ⟨g, hmem⟩, hrest⟩
    · rintro ⟨rest, ⟨g, hmem⟩, hrest⟩
      exact ⟨rest, ⟨g, rest, hmem, rfl⟩, hrest⟩

theorem leaves_of_matchAt {before : Option Char} {cs rest : List Char} (h : pat.matchAt before cs = some rest) :
    pat.body.Leaves .python cs rest := by
  rw [matchAt] at h
  split_ifs at h
  obtain ⟨⟨g, _⟩, hmem, rfl⟩ := List.mem_map.mp (List.mem_of_find?_eq_some h)
  exact ⟨g, hmem⟩

/-- The character before the second part of a text. -/
theorem getLast?_cons_or (a : Char) (front : List Char) (before : Option Char) :
    ((a :: front).getLast?).or before = front.getLast?.or (some a) := by
  rw [List.getLast?_cons]
  cases front.getLast? <;> rfl

/-- **A search finds something exactly where the pattern matches at some place.** -/
theorem finditer_ne_nil_iff {before : Option Char} {i : ℕ} {cs : List Char} :
    pat.finditer before i 0 cs ≠ [] ↔
      ∃ front rest, cs = front ++ rest ∧ rest ≠ [] ∧ pat.MatchesAt (front.getLast?.or before) rest := by
  induction cs generalizing before i with
  | nil => simp [finditer]
  | cons c cs ih =>
    -- the place is the front of the text, or one of the rest
    have hplace : (∃ front rest, c :: cs = front ++ rest ∧ rest ≠ [] ∧
        pat.MatchesAt (front.getLast?.or before) rest) ↔ pat.MatchesAt before (c :: cs) ∨
          ∃ front rest, cs = front ++ rest ∧ rest ≠ [] ∧ pat.MatchesAt (front.getLast?.or (some c)) rest := by
      constructor
      · rintro ⟨_ | ⟨d, front⟩, rest, he, hne, hmatch⟩
        · exact .inl (by simpa [he] using hmatch)
        · obtain ⟨rfl, rfl⟩ := List.cons.inj he
          rw [getLast?_cons_or] at hmatch
          exact .inr ⟨front, rest, rfl, hne, hmatch⟩
      · rintro (hmatch | ⟨front, rest, rfl, hne, hmatch⟩)
        · exact ⟨[], c :: cs, rfl, by simp, by simpa using hmatch⟩
        · exact ⟨c :: front, rest, rfl, hne, by rwa [getLast?_cons_or]⟩
    rw [hplace, finditer, ← isSome_matchAt_iff]
    cases pat.matchAt before (c :: cs) with
    | none =>
      simp only [Option.isSome_none, Bool.false_eq_true, false_or]
      exact ih
    | some rest => simp

/-- What a pattern finds that takes some of the text is not empty. -/
theorem lt_of_mem_finditer (hpat : ∀ cs rest, pat.body.Leaves .python cs rest → rest.length < cs.length)
    {before : Option Char} {i taken : ℕ} {cs : List Char} {m : ℕ × ℕ} (h : m ∈ pat.finditer before i taken cs) :
    m.1 < m.2 := by
  induction cs generalizing before i taken with
  | nil => simp [finditer] at h
  | cons c cs ih =>
    cases taken with
    | succ taken => exact ih h
    | zero =>
      rw [finditer] at h
      cases hmatch : pat.matchAt before (c :: cs) with
      | none =>
        rw [hmatch] at h
        exact ih h
      | some rest =>
        rw [hmatch] at h
        rcases List.mem_cons.mp h with rfl | h
        · have hleaves := hpat (c :: cs) rest (leaves_of_matchAt hmatch)
          show i < i + _
          omega
        · exact ih h

end Pattern

/-! ### Runs -/

/-- A run of at most `k` characters leaves what stands behind some of its characters. -/
theorem mem_splits_bounded_iff {p : Char → Bool} {k : ℕ} {cs rest : List Char} :
    rest ∈ splits p k cs ↔ ∃ ds, cs = ds ++ rest ∧ ds.length ≤ k ∧ ∀ c ∈ ds, p c = true := by
  induction cs generalizing k with
  | nil => cases k <;> simp [splits]
  | cons c cs ih =>
    have hstay : rest = c :: cs → ∃ ds, c :: cs = ds ++ rest ∧ ds.length ≤ k ∧ ∀ c ∈ ds, p c = true :=
      fun he => ⟨[], by simp [he], by simp, by simp⟩
    cases k with
    | zero =>
      rw [splits, List.mem_singleton]
      constructor
      · exact hstay
      · rintro ⟨ds, he, hlen, -⟩
        obtain rfl := List.eq_nil_of_length_eq_zero (Nat.le_zero.mp hlen)
        exact he.symm
    | succ k =>
      rw [splits]
      split_ifs with hc
      · rw [List.mem_append, ih, List.mem_singleton]
        constructor
        · rintro (⟨ds, rfl, hlen, hds⟩ | he)
          · exact ⟨c :: ds, rfl, by simpa using hlen, List.forall_mem_cons.mpr ⟨hc, hds⟩⟩
          · exact hstay he
        · rintro ⟨_ | ⟨d, ds⟩, he, hlen, hds⟩
          · exact .inr he.symm
          · obtain ⟨rfl, rfl⟩ := List.cons.inj he
            exact .inl ⟨ds, rfl, by simpa using hlen, fun c hc => hds c (List.mem_cons_of_mem _ hc)⟩
      · rw [List.mem_singleton]
        constructor
        · exact hstay
        · rintro ⟨_ | ⟨d, ds⟩, he, -, hds⟩
          · exact he.symm
          · obtain ⟨rfl, -⟩ := List.cons.inj he
            exact absurd (hds c (by simp)) hc

namespace Regex

/-- `p{n}` -/
def times (p : Char → Bool) : ℕ → Regex
  | 0 => .text ""
  | n + 1 => .seq (.one p) (times p n)

variable {dl : Dialect} {p : Char → Bool} {cs rest : List Char}

theorem leaves_atMost {k : ℕ} : (many p (some k)).Leaves dl cs rest ↔
    ∃ ds, cs = ds ++ rest ∧ ds.length ≤ k ∧ ∀ c ∈ ds, p c = true := by
  rw [← mem_splits_bounded_iff, Leaves, run]
  simp

theorem leaves_times {n : ℕ} : (times p n).Leaves dl cs rest ↔
    ∃ ds, cs = ds ++ rest ∧ ds.length = n ∧ ∀ c ∈ ds, p c = true := by
  induction n generalizing cs with
  | zero => simp [times, leaves_text, List.length_eq_zero_iff]
  | succ n ih =>
    simp only [times, leaves_seq, leaves_one, ih]
    constructor
    · rintro ⟨_, ⟨c, rfl, hc⟩, ds, rfl, rfl, hds⟩
      exact ⟨c :: ds, rfl, rfl, List.forall_mem_cons.mpr ⟨hc, hds⟩⟩
    · rintro ⟨_ | ⟨c, ds⟩, rfl, hlen, hds⟩
      · simp at hlen
      · obtain ⟨hc, hds⟩ := List.forall_mem_cons.mp hds
        exact ⟨ds ++ rest, ⟨c, rfl, hc⟩, ds, rfl, by simpa using hlen, hds⟩

end Regex

/-- `(?<!p)p{n,n+k}(?!p)` -/
def Pattern.runOf (p : Char → Bool) (n k : ℕ) : Pattern := ⟨p, .seq (.times p n) (.many p (some k)), p⟩

/-- The text has a run of characters of a class, of `n` to `n + k` of them and no more on either side. -/
def HoldsRun (p : Char → Bool) (n k : ℕ) (cs : List Char) : Prop :=
  ∃ before ds after, cs = before ++ ds ++ after ∧ (n ≤ ds.length ∧ ds.length ≤ n + k) ∧ (∀ c ∈ ds, p c = true) ∧
    (∀ c ∈ before.getLast?, p c = false) ∧ ∀ c ∈ after.head?, p c = false

/-- A run is found where there is one. -/
theorem holdsRun_iff {p : Char → Bool} {n k i : ℕ} (hn : 0 < n) {cs : List Char} :
    (Pattern.runOf p n k).finditer none i 0 cs ≠ [] ↔ HoldsRun p n k cs := by
  rw [Pattern.finditer_ne_nil_iff]
  simp only [Pattern.MatchesAt, Pattern.runOf, Regex.leaves_seq, Regex.leaves_times, Regex.leaves_atMost, Option.or_none]
  constructor
  · rintro ⟨before, _, rfl, -, hbefore, after, ⟨_, ⟨ds, rfl, hlen, hds⟩, es, rfl, hes, hmem⟩, hafter⟩
    refine ⟨before, ds ++ es, after, by simp, by simp only [List.length_append]; omega, ?_, hbefore, hafter⟩
    exact fun c hc => (List.mem_append.mp hc).elim (hds c) (hmem c)
  · rintro ⟨before, ds, after, rfl, ⟨hle, hge⟩, hds, hbefore, hafter⟩
    have hne : ds ++ after ≠ [] := by
      rintro he
      simp only [List.append_eq_nil_iff] at he
      simp only [he.1, List.length_nil] at hle
      omega
    refine ⟨before, ds ++ after, by simp, hne, hbefore, after, ⟨ds.drop n ++ after, ⟨ds.take n, ?_, ?_, ?_⟩,
      ds.drop n, rfl, ?_, ?_⟩, hafter⟩
    · rw [← List.append_assoc, List.take_append_drop]
    · rw [List.length_take]
      omega
    · exact fun c hc => hds c (List.mem_of_mem_take hc)
    · rw [List.length_drop]
      omega
    · exact fun c hc => hds c (List.mem_of_mem_drop hc)

/-! ### Words with other characters in between -/

/-- The second text is the first with characters of a class put between its own. -/
inductive Spaced (p : Char → Bool) : List Char → List Char → Prop
  | nil : Spaced p [] []
  | last (c : Char) : Spaced p [c] [c]
  | cons {c d : Char} {v mid between : List Char} (hbetween : ∀ b ∈ between, p b = true)
      (hmid : Spaced p (d :: v) mid) : Spaced p (c :: d :: v) (c :: (between ++ mid))

/-- Nothing has to be put in. -/
theorem Spaced.refl {p : Char → Bool} (v : List Char) : Spaced p v v := by
  induction v with
  | nil => exact .nil
  | cons c v ih =>
    cases v with
    | nil => exact .last c
    | cons d v =>
      have hbetween : ∀ b ∈ ([] : List Char), p b = true := by simp
      exact .cons hbetween ih

end Text
