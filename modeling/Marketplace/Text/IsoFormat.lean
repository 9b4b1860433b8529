import Marketplace.Text.Decimal

/-!
# Moments written into texts

A moment with the offset of its time zone (`AwareDatetime`), its text `isoformat` and the reader
`fromisoformat` of such texts, as Python has them. `isoformat` writes the microseconds only where
there are any, and of the offset the seconds and microseconds only where there are any;
`fromisoformat_isoformat` says that it is read back all the same.

The reader also takes shorter times, other separators before the time, `Z`, and fractions of any
number of digits. The forms without `-` and `:` and week dates, which newer versions of Python
read as well, are left out: `isoformat` never writes them.
-/

namespace Text

/-! ### Numbers of a fixed width -/

/-- The last `w` decimal digits of a number, zeros in front. -/
def fixed : ℕ → ℕ → List Char
  | 0, _ => []
  | w + 1, n => fixed w (n / 10) ++ [Nat.digitChar (n % 10)]

/-- `w` digits at the front of a text, read as a number, and what follows them. -/
def readFixed (w : ℕ) (cs : List Char) : Option (ℕ × List Char) :=
  if w ≤ cs.length ∧ (cs.take w).all Char.isDigit then
    some (Nat.ofDigitChars 10 (cs.take w) 0, cs.drop w)
  else none

@[simp] theorem length_fixed (w n : ℕ) : (fixed w n).length = w := by
  induction w generalizing n with
  | zero => rfl
  | succ w ih => simp [fixed, ih]

theorem isDigit_of_mem_fixed {w n : ℕ} {c : Char} (hc : c ∈ fixed w n) : c.isDigit = true := by
  induction w generalizing n with
  | zero => simp [fixed] at hc
  | succ w ih =>
    rcases List.mem_append.mp hc with hc | hc
    · exact ih hc
    · obtain rfl : c = Nat.digitChar (n % 10) := by simpa using hc
      rw [Nat.isDigit_digitChar]
      exact decide_eq_true (Nat.mod_lt n (by decide))

theorem ofDigitChars_fixed {w n : ℕ} (hn : n < 10 ^ w) : Nat.ofDigitChars 10 (fixed w n) 0 = n := by
  induction w generalizing n with
  | zero =>
    obtain rfl : n = 0 := by simpa using hn
    rfl
  | succ w ih =>
    have hdiv : n / 10 < 10 ^ w := by
      rw [pow_succ] at hn
      omega
    rw [fixed, Nat.ofDigitChars_append, ih hdiv,
      Nat.ofDigitChars_cons_digitChar_of_lt_ten (Nat.mod_lt n (by decide)), Nat.ofDigitChars_nil]
    omega

/-- **What was written in `w` digits is read back.** -/
@[simp] theorem readFixed_fixed {w n : ℕ} (hn : n < 10 ^ w) (rest : List Char) :
    readFixed w (fixed w n ++ rest) = some (n, rest) := by
  have htake : (fixed w n ++ rest).take w = fixed w n := by
    rw [List.take_append_of_le_length (by simp), List.take_of_length_le (by simp)]
  have hdrop : (fixed w n ++ rest).drop w = rest := by
    rw [List.drop_append_of_le_length (by simp), List.drop_of_length_le (by simp)]
    rfl
  have hall : (fixed w n).all Char.isDigit = true :=
    List.all_eq_true.mpr fun c hc => isDigit_of_mem_fixed hc
  rw [readFixed, htake, hdrop, if_pos ⟨by simp, hall⟩, ofDigitChars_fixed hn]

/-! ### Moments -/

/-- The parts of a moment: the clock on the wall and, in microseconds, its distance from UTC. -/
structure Datetime where
  year : ℕ
  month : ℕ
  day : ℕ
  hour : ℕ
  minute : ℕ
  second : ℕ
  microsecond : ℕ
  utcoffset : ℤ
  deriving DecidableEq, Repr

namespace Datetime

def isLeap (year : ℕ) : Bool := year % 4 = 0 ∧ (year % 100 ≠ 0 ∨ year % 400 = 0)

def daysInMonth (year : ℕ) : ℕ → ℕ
  | 2 => if isLeap year then 29 else 28
  | 4 | 6 | 9 | 11 => 30
  | _ => 31

/-- What the constructor checks: a day of the calendar, a time of the day, and less than a
day from UTC. -/
def Valid (d : Datetime) : Prop :=
  (1 ≤ d.year ∧ d.year ≤ 9999) ∧ (1 ≤ d.month ∧ d.month ≤ 12) ∧
    (1 ≤ d.day ∧ d.day ≤ daysInMonth d.year d.month) ∧ d.hour < 24 ∧ d.minute < 60 ∧
    d.second < 60 ∧ d.microsecond < 1000000 ∧ |d.utcoffset| < 86400000000

instance : DecidablePred Valid := fun d => by
  unfold Valid
  infer_instance

theorem daysInMonth_le (year month : ℕ) : daysInMonth year month ≤ 31 := by
  unfold daysInMonth
  split
  · split <;> decide
  all_goals decide

/-- The number of days up to a day, counted from the first day of the year 1. -/
def toordinal (d : Datetime) : ℕ :=
  let y := d.year - 1
  y * 365 + y / 4 - y / 100 + y / 400 +
    ((List.range (d.month - 1)).map fun m => daysInMonth d.year (m + 1)).sum + d.day

/-- Microseconds in UTC: what moments are compared by. -/
def instant (d : Datetime) : ℤ :=
  ((((d.toordinal * 24 + d.hour) * 60 + d.minute) * 60 + d.second) * 1000000 + d.microsecond : ℕ) -
    d.utcoffset

end Datetime

/-- A moment with a time zone. -/
abbrev AwareDatetime := {d : Datetime // d.Valid}

/-! ### Writing -/

/-- `.ffffff`, where there are microseconds. -/
def fractionText (us : ℕ) : List Char := if us = 0 then [] else '.' :: fixed 6 us

/-- `:SS[.ffffff]` -/
def secondsText (s us : ℕ) : List Char := ':' :: (fixed 2 s ++ fractionText us)

/-- `±HH:MM[:SS[.ffffff]]` -/
def offsetText (offset : ℤ) : List Char :=
  let us := offset.natAbs
  let seconds := us / 1000000 % 60
  (if offset < 0 then '-' else '+') ::
    (fixed 2 (us / 3600000000) ++ ':' :: (fixed 2 (us / 60000000 % 60) ++
      if seconds = 0 ∧ us % 1000000 = 0 then [] else secondsText seconds (us % 1000000)))

/-- `isoformat()` -/
def isoformat (d : Datetime) : List Char :=
  fixed 4 d.year ++ '-' :: (fixed 2 d.month ++ '-' :: (fixed 2 d.day ++ 'T' ::
    (fixed 2 d.hour ++ ':' :: (fixed 2 d.minute ++ secondsText d.second d.microsecond) ++
      offsetText d.utcoffset)))

/-! ### Reading -/

/-- `[.f…]`: six digits count, missing ones are zeros. -/
def readFraction : List Char → Option ℕ
  | [] => some 0
  | c :: ds =>
    if (c = '.' ∨ c = ',') ∧ ds ≠ [] ∧ ds.all Char.isDigit then
      some (Nat.ofDigitChars 10 ((ds ++ List.replicate 6 '0').take 6) 0)
    else none

/-- `[:SS[.f…]]` -/
def readSeconds : List Char → Option (ℕ × ℕ)
  | [] => some (0, 0)
  | c :: cs =>
    if c = ':' then do
      let (s, rest) ← readFixed 2 cs
      let us ← readFraction rest
      pure (s, us)
    else none

/-- `[:MM[:SS[.f…]]]` -/
def readMinutes : List Char → Option (ℕ × ℕ × ℕ)
  | [] => some (0, 0, 0)
  | c :: cs =>
    if c = ':' then do
      let (m, rest) ← readFixed 2 cs
      let (s, us) ← readSeconds rest
      pure (m, s, us)
    else none

/-- `HH[:MM[:SS[.f…]]]` -/
def readClock (cs : List Char) : Option (ℕ × ℕ × ℕ × ℕ) := do
  let (h, rest) ← readFixed 2 cs
  let (m, s, us) ← readMinutes rest
  pure (h, m, s, us)

/-- `Z` or `±HH[:MM[:SS[.f…]]]`, as the distance from UTC. -/
def readOffset : List Char → Option ℤ
  | [] => none
  | c :: cs =>
    if c = 'Z' then (if cs = [] then some 0 else none)
    else do
      let (h, m, s, us) ← readClock cs
      if m < 60 ∧ s < 60 then
        let offset : ℤ := (((h * 60 + m) * 60 + s) * 1000000 + us : ℕ)
        some (if c = '-' then -offset else offset)
      else none

/-- A date, one character, and the rest: what `YYYY-MM-DD…` is made of. -/
def readDate (cs : List Char) : Option (ℕ × ℕ × ℕ × List Char) := do
  let (y, rest) ← readFixed 4 cs
  let rest ← if rest.head? = some '-' then some rest.tail else none
  let (m, rest) ← readFixed 2 rest
  let rest ← if rest.head? = some '-' then some rest.tail else none
  let (d, rest) ← readFixed 2 rest
  pure (y, m, d, rest)

/-- The time stops where the offset starts. -/
def isClock (c : Char) : Bool := ¬(c = '+' ∨ c = '-' ∨ c = 'Z')

/-- `datetime.fromisoformat(text)`, where the text has a time zone. `none` is the `ValueError`, and
a moment without a zone, which `fromisoformat` would also return. -/
def fromisoformat (cs : List Char) : Option AwareDatetime := do
  let (y, m, d, rest) ← readDate cs
  let (h, mi, s, us) ← readClock (rest.tail.takeWhile isClock)
  let offset ← readOffset (rest.tail.dropWhile isClock)
  let parsed : Datetime := ⟨y, m, d, h, mi, s, us, offset⟩
  if valid : parsed.Valid then some ⟨parsed, valid⟩ else none

/-! ### The round trip -/

theorem readFraction_fractionText {us : ℕ} (hus : us < 1000000) :
    readFraction (fractionText us) = some us := by
  rw [fractionText]
  split_ifs with h0
  · subst h0
    rfl
  · have hne : fixed 6 us ≠ [] := by
      intro h
      have := congrArg List.length h
      simp at this
    have hall : (fixed 6 us).all Char.isDigit = true :=
      List.all_eq_true.mpr fun c hc => isDigit_of_mem_fixed hc
    have htake : (fixed 6 us ++ List.replicate 6 '0').take 6 = fixed 6 us := by
      rw [List.take_append_of_le_length (by simp), List.take_of_length_le (by simp)]
    rw [readFraction, if_pos ⟨Or.inl rfl, hne, hall⟩, htake, ofDigitChars_fixed (by omega)]

theorem readSeconds_secondsText {s us : ℕ} (hs : s < 60) (hus : us < 1000000) :
    readSeconds (secondsText s us) = some (s, us) := by
  simp only [secondsText, readSeconds, if_true]
  rw [readFixed_fixed (by omega)]
  simp [readFraction_fractionText hus]

/-- A clock is read back from its hours, its minutes and whatever stands for its seconds. -/
theorem readClock_fixed {h m s us : ℕ} (hh : h < 24) (hm : m < 60) {seconds : List Char}
    (hseconds : readSeconds seconds = some (s, us)) :
    readClock (fixed 2 h ++ ':' :: (fixed 2 m ++ seconds)) = some (h, m, s, us) := by
  rw [readClock, readFixed_fixed (by omega)]
  simp only [Option.bind_eq_bind, Option.bind_some, readMinutes, if_true]
  rw [readFixed_fixed (by omega)]
  simp [hseconds]

/-- **The offset is read back**, although it is written without the parts that are zero. -/
theorem readOffset_offsetText {offset : ℤ} (hoffset : |offset| < 86400000000) :
    readOffset (offsetText offset) = some offset := by
  have habs : offset.natAbs < 86400000000 := by
    rw [Int.abs_eq_natAbs] at hoffset
    omega
  set us := offset.natAbs with hus
  have hseconds : readSeconds (if us / 1000000 % 60 = 0 ∧ us % 1000000 = 0 then []
      else secondsText (us / 1000000 % 60) (us % 1000000)) =
        some (us / 1000000 % 60, us % 1000000) := by
    split_ifs with h
    · rw [h.1, h.2]
      rfl
    · exact readSeconds_secondsText (Nat.mod_lt _ (by decide)) (Nat.mod_lt _ (by decide))
  have hclock := readClock_fixed (h := us / 3600000000) (m := us / 60000000 % 60)
    (by omega) (Nat.mod_lt _ (by decide)) hseconds
  have hsum : ((us / 3600000000 * 60 + us / 60000000 % 60) * 60 + us / 1000000 % 60) * 1000000 +
      us % 1000000 = us := by omega
  have hsign : (if offset < 0 then '-' else '+') ≠ 'Z' := by split_ifs <;> decide
  rw [offsetText, readOffset, if_neg hsign, ← hus, hclock]
  simp only [Option.bind_eq_bind, Option.bind_some]
  rw [if_pos ⟨Nat.mod_lt _ (by decide), Nat.mod_lt _ (by decide)⟩, hsum]
  congr 1
  by_cases hneg : offset < 0
  · simp only [if_pos hneg, if_true]
    omega
  · simp only [if_neg hneg]
    rw [if_neg (by decide)]
    omega

theorem readDate_fixed {y m d : ℕ} (hy : y ≤ 9999) (hm : m ≤ 12) (hd : d ≤ 31) (rest : List Char) :
    readDate (fixed 4 y ++ '-' :: (fixed 2 m ++ '-' :: (fixed 2 d ++ rest))) =
      some (y, m, d, rest) := by
  rw [readDate, readFixed_fixed (by omega)]
  simp only [Option.bind_eq_bind, Option.bind_some, List.head?_cons, if_true, List.tail_cons]
  rw [readFixed_fixed (by omega)]
  simp only [Option.bind_some, List.head?_cons, if_true, List.tail_cons]
  rw [readFixed_fixed (by omega)]
  rfl

theorem isClock_of_isDigit {c : Char} (hc : c.isDigit = true) : isClock c = true := by
  have hne : ∀ d : Char, d.isDigit = false → c ≠ d := by
    rintro d hd rfl
    rw [hd] at hc
    exact absurd hc (by decide)
  simp [isClock, hne '+' (by decide), hne '-' (by decide), hne 'Z' (by decide)]

theorem isClock_of_mem_time {h m s us : ℕ} {c : Char}
    (hc : c ∈ fixed 2 h ++ ':' :: (fixed 2 m ++ secondsText s us)) : isClock c = true := by
  have hfraction : ∀ c ∈ fractionText us, isClock c = true := by
    intro c hc
    rw [fractionText] at hc
    split_ifs at hc
    · simp at hc
    · rcases List.mem_cons.mp hc with rfl | hc
      · decide
      · exact isClock_of_isDigit (isDigit_of_mem_fixed hc)
  simp only [secondsText, List.mem_append, List.mem_cons] at hc
  rcases hc with hc | rfl | hc | rfl | hc | hc
  · exact isClock_of_isDigit (isDigit_of_mem_fixed hc)
  · decide
  · exact isClock_of_isDigit (isDigit_of_mem_fixed hc)
  · decide
  · exact isClock_of_isDigit (isDigit_of_mem_fixed hc)
  · exact hfraction c hc

/-- **A moment that was written is read back.** -/
@[simp] theorem fromisoformat_isoformat (d : AwareDatetime) :
    fromisoformat (isoformat d.1) = some d := by
  obtain ⟨d, hd⟩ := d
  obtain ⟨hy, hm, hday, hh, hmi, hs, hus, hoff⟩ := id hd
  have hday' : d.day ≤ 31 := hday.2.trans (Datetime.daysInMonth_le _ _)
  set time := fixed 2 d.hour ++ ':' :: (fixed 2 d.minute ++ secondsText d.second d.microsecond)
    with htime
  obtain ⟨c, cs, hoffset, hc⟩ : ∃ c cs, offsetText d.utcoffset = c :: cs ∧ isClock c = false := by
    refine ⟨_, _, rfl, ?_⟩
    split_ifs <;> decide
  have hclock : ∀ c ∈ time, isClock c = true := fun c hc => isClock_of_mem_time hc
  have htake : (time ++ offsetText d.utcoffset).takeWhile isClock = time := by
    rw [List.takeWhile_append_of_pos hclock, hoffset, List.takeWhile_cons_of_neg (by simp [hc])]
    simp
  have hdrop : (time ++ offsetText d.utcoffset).dropWhile isClock = offsetText d.utcoffset := by
    rw [List.dropWhile_append_of_pos hclock, hoffset, List.dropWhile_cons_of_neg (by simp [hc])]
  have hread : readClock time = some (d.hour, d.minute, d.second, d.microsecond) :=
    readClock_fixed hh hmi (readSeconds_secondsText hs hus)
  rw [fromisoformat, isoformat, ← htime, readDate_fixed hy.2 hm.2 hday']
  simp only [Option.bind_eq_bind, Option.bind_some, List.tail_cons, htake, hdrop, hread,
    readOffset_offsetText hoff]
  exact dif_pos hd

end Text
