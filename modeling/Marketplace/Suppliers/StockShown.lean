import Marketplace.Python.Float

/-!
# The stock of a package that is bought from a supplier

What the shop shows of such a package is computed in SQL (`sellable_stock_by_variant`); whether a purchase is
let through is decided in Python, after the supplier has answered (`precheck_external_purchase`). Both read
`min_margin_pct` from the config of the provider, one with a pattern and a cast, the other with
`float(…)`. `stock_shown_iff` says when the number shown is the largest quantity that is let through:
`MarginRead` is what the config has to hold for the two readings to be one.
-/

namespace Marketplace.Storefront

open Text Python

/-! ### The margin in Python -/

/-- `DEFAULT_MIN_MARGIN_PCT`. -/
def defaultMinMarginPct : ℚ := 10

/-- `_min_margin_pct`. A number too large for a float is not caught. -/
def minMarginPct (py : Language) (config : List (String × Json)) : Except Error Double :=
  let value := Json.get config "min_margin_pct"
  if value.truthy then
    match py.toFloat value with
    | .ok x => .ok x
    | .error .typeError | .error .valueError => .ok (.finite defaultMinMarginPct)
    | .error e => .error e
  else .ok (.finite defaultMinMarginPct)

/-- The least price of a package, `cost_price * (1 + min_margin_pct / 100)`. -/
def leastPrice (costPrice : ℤ) (minMargin : Double) : Double :=
  Double.mul (.finite costPrice) (Double.add (.finite 1) (minMargin.divBy 100))

/-- `margin_ok`. -/
def marginOk (sellPrice costPrice : ℤ) (minMargin : Double) : Bool :=
  if costPrice ≤ 0 then true else (leastPrice costPrice minMargin).leInt sellPrice

/-! ### The margin in SQL -/

/-- The blanks of ASCII. -/
def isAsciiBlank (c : Char) : Bool := c ∈ [' ', '\t', '\n', '\x0b', '\x0c', '\r']

/-- What the locale of the database counts as a space (`\s`). -/
structure Locale where
  isSpace : Char → Bool
  isSpace_ascii : ∀ c : Char, c.toNat < 128 → isSpace c = isAsciiBlank c

/-- `config ->> 'min_margin_pct'`; `dumps` is how floats, lists and dicts were written. The outer `none` is an
error: a text of the database holds no character of number 0. -/
def rawMargin (dumps : Json → String) : Json → Option (Option String)
  | .null => some none
  | .bool b => some (some (if b then "true" else "false"))
  | .int n => some (some (toString n))
  | .str s => if '\x00' ∈ s.toList then none else some (some s)
  | v => some (some (dumps v))

/-- `^\s*[0-9]+(\.[0-9]+)?\s*$` -/
def marginPattern (loc : Locale) : Regex :=
  .seq (.many loc.isSpace none) (.seq (.plus Char.isDigit none)
    (.seq (.opt (.group (.seq (.text ".") (.plus Char.isDigit none)))) (.seq (.many loc.isSpace none) .eot)))

/-- The text matches the pattern. -/
def matchesMargin (loc : Locale) (text : String) : Bool :=
  !((marginPattern loc).run .postgres text.toList).isEmpty

/-- A result in double precision: the database refuses what is too large, and what would become zero. -/
def float8 (q : ℚ) : Option ℚ :=
  match Double.round q with
  | .finite v => if v = 0 ∧ q ≠ 0 then none else some v
  | _ => none

/-- `CAST(… AS FLOAT)` of a text that matches the pattern. -/
def castFloat (text : String) : Option ℚ := (plainDecimal isAsciiBlank text.toList).bind float8

/-- The margin of the query: `coalesce(nullif(CASE WHEN … THEN CAST(…) END, 0), 10)`. `none` is an error. -/
def queryMargin (loc : Locale) (dumps : Json → String) (config : List (String × Json)) : Option ℚ :=
  match rawMargin dumps (Json.get config "min_margin_pct") with
  | none => none
  | some none => some defaultMinMarginPct
  | some (some text) =>
    if matchesMargin loc text then (castFloat text).map fun v => if v = 0 then defaultMinMarginPct else v
    else some defaultMinMarginPct

/-- The least price of the query. -/
def queryPrice (costPrice : ℤ) (margin : ℚ) : Option ℚ := do
  let share ← float8 (margin / 100)
  let factor ← float8 (1 + share)
  float8 (costPrice * factor)


/-! ### The stock that is shown -/

/-- A row of `supplier_listings`, as far as sales go. -/
structure Listing where
  costPrice : ℤ
  upstreamAmount : ℤ
  upstreamMin : ℤ
  upstreamMax : Option ℤ
  syncError : Option String
  deriving DecidableEq, Repr

/-- A package bought from a supplier, with its provider. -/
structure ExternalPackage where
  listing : Listing
  /-- `product_variants.price` -/
  price : ℤ
  config : List (String × Json)
  isActive : Bool
  /-- `review_status == "approved"` -/
  isApproved : Bool
  /-- The seller's own lines on sale in this package. -/
  pool : ℕ

/-- `ext_units` -/
def Listing.units (listing : Listing) : ℤ :=
  max (min listing.upstreamAmount (listing.upstreamMax.getD listing.upstreamAmount)) 0

/-- `below_min_margin`; `none` is an error. The arithmetic comes last. -/
def belowMinMargin (loc : Locale) (dumps : Json → String) (pkg : ExternalPackage) : Option Bool :=
  if 0 < pkg.listing.costPrice then do
    let margin ← queryMargin loc dumps pkg.config
    let least ← queryPrice pkg.listing.costPrice margin
    pure (decide ((pkg.price : ℚ) < least))
  else some false

/-- The stock of `sellable_stock_by_variant`; `none` where the query fails. -/
def sellableStock (loc : Locale) (dumps : Json → String) (pkg : ExternalPackage) : Option ℤ := do
  let n ←
    if pkg.listing.syncError = some "delisted" ∨ pkg.isActive = false then some 0
    else (belowMinMargin loc dumps pkg).map fun below => if below then 0 else pkg.listing.units
  pure (pkg.pool + n)

/-! ### The purchase that is let through -/

/-- What the supplier says of a listing. -/
structure Upstream where
  costPrice : ℤ
  amount : ℤ
  minQty : ℤ
  maxQty : Option ℤ
  deriving DecidableEq, Repr

/-- `apply_upstream` -/
def Listing.applyUpstream (listing : Listing) (up : Upstream) (keepAmount : Bool) : Listing where
  costPrice := up.costPrice
  upstreamAmount := if keepAmount then listing.upstreamAmount else up.amount
  upstreamMin := up.minQty
  upstreamMax := up.maxQty
  syncError := none

/-- The listing once the supplier has answered. -/
def Listing.answered (listing : Listing) (keepAmount : Bool) : Option Upstream → Listing
  | none => { listing with syncError := some "delisted", upstreamAmount := 0 }
  | some up => listing.applyUpstream up keepAmount

/-- `sellable_units` -/
def Listing.sellableUnits (listing : Listing) : ℤ :=
  if listing.syncError = some "delisted" then 0
  else match listing.upstreamMax with
    | some most => min (max listing.upstreamAmount 0) most
    | none => max listing.upstreamAmount 0

/-- Why a purchase is not let through. -/
inductive Refusal
  | providerNotConfigured | resourceUnavailable | orderQuantityLimit (limit : ℤ) | productUnavailable
  | crash (e : Error)
  deriving DecidableEq, Repr

/-- `precheck_external_purchase`, where the supplier answers in time; `keepAmount` is `manual_stock`, and
`balance` what the supplier says the account holds, if it says so. A provider that is off has no other
behind it. -/
def precheck (py : Language) (keepAmount : Bool) (pkg : ExternalPackage) (answer : Option Upstream)
    (balance : Option ℚ) (quantity : ℤ) : Except Refusal Listing := do
  if pkg.isApproved = false ∨ pkg.isActive = false then throw .providerNotConfigured
  let listing := pkg.listing.answered keepAmount answer
  if listing.sellableUnits < quantity then throw .resourceUnavailable
  if ∃ held ∈ balance, held < listing.costPrice * quantity then throw .resourceUnavailable
  if quantity < listing.upstreamMin then throw (.orderQuantityLimit listing.upstreamMin)
  match minMarginPct py pkg.config with
  | .error e => throw (.crash e)
  | .ok minMargin =>
    if marginOk pkg.price listing.costPrice minMargin then pure listing else throw .productUnavailable

/-- The purchase is let through. -/
def Accepts (py : Language) (keepAmount : Bool) (pkg : ExternalPackage) (answer : Option Upstream)
    (balance : Option ℚ) (quantity : ℤ) : Prop :=
  ∃ listing, precheck py keepAmount pkg answer balance quantity = .ok listing

/-- The supplier says what is cached: the numbers of the listing, or that it does not have the item, as it
did before. -/
def Listing.Cached (listing : Listing) : Option Upstream → Prop
  | some up => up = ⟨listing.costPrice, listing.upstreamAmount, listing.upstreamMin, listing.upstreamMax⟩
  | none => listing.syncError = some "delisted"

/-! ### Texts that are plain decimals -/

theorem isSpace_of_isAsciiBlank {c : Char} (h : isAsciiBlank c = true) : Text.isSpace c = true := by
  simp only [isAsciiBlank, List.mem_cons, List.not_mem_nil, or_false, decide_eq_true_eq] at h
  rcases h with rfl | rfl | rfl | rfl | rfl | rfl <;> decide

theorem toNat_lt_of_isAsciiBlank {c : Char} (h : isAsciiBlank c = true) : c.toNat < 128 := by
  simp only [isAsciiBlank, List.mem_cons, List.not_mem_nil, or_false, decide_eq_true_eq] at h
  rcases h with rfl | rfl | rfl | rfl | rfl | rfl <;> decide

section Plain

variable {loc : Locale} {blank : Char → Bool}

theorem Locale.isSpace_of_isDigit {c : Char} (h : c.isDigit = true) : loc.isSpace c = false := by
  rw [loc.isSpace_ascii c (DigitClass.toNat_lt_of_isDigit h)]
  by_contra hb
  have := isSpace_of_isAsciiBlank (Bool.eq_true_of_not_eq_false hb)
  rw [Text.isSpace_of_isDigit h] at this
  exact absurd this (by decide)

theorem stripChars_congr {p q : Char → Bool} {cs : List Char} (h : ∀ c ∈ cs, p c = q c) :
    stripChars p cs = stripChars q cs := by
  have hdrop : ∀ l : List Char, (∀ c ∈ l, p c = q c) → l.dropWhile p = l.dropWhile q := by
    intro l hl
    induction l with
    | nil => rfl
    | cons c l ih =>
      rw [List.dropWhile_cons, List.dropWhile_cons, hl c (by simp), ih fun d hd => hl d (by simp [hd])]
  rw [stripChars, stripChars, hdrop cs h, hdrop]
  intro c hc
  exact h c ((List.dropWhile_suffix q).subset (List.mem_reverse.mp hc))

/-- A text that starts with neither a blank nor a digit is no plain decimal. -/
theorem plainDecimal_cons_eq_none {c : Char} {cs : List Char} (hblank : blank c = false) (hd : c.isDigit = false) :
    plainDecimal blank (c :: cs) = none := by
  rcases Option.eq_none_or_eq_some (plainDecimal blank (c :: cs)) with hnone | ⟨q, hq⟩
  · exact hnone
  · obtain ⟨whole, fraction, n, htext, hwhole, -⟩ := plainDecimal_eq_some hq
    obtain ⟨rest, hrest⟩ := exists_stripChars_cons hblank cs
    obtain ⟨hne, hw⟩ := asciiDigits_iff.mp hwhole
    obtain ⟨d, whole, rfl⟩ := List.exists_cons_of_ne_nil hne
    rw [hrest, List.cons_append] at htext
    obtain ⟨rfl, -⟩ := List.cons.inj htext
    simp [hw c (by simp)] at hd

/-- Digits, and digits behind a point, between blanks. -/
theorem plainDecimal_of_parts {left whole fraction right : List Char} (hleft : ∀ c ∈ left, blank c = true)
    (hright : ∀ c ∈ right, blank c = true) (hdigit : ∀ c, c.isDigit = true → blank c = false)
    (hpoint : blank '.' = false) (hwhole : asciiDigits whole = true)
    (hfraction : fraction = [] ∨ ∃ ds, fraction = '.' :: ds ∧ asciiDigits ds = true) :
    ∃ n, plainDecimal blank (left ++ (whole ++ fraction) ++ right) = some (decimalValue n fraction.tail.length 0) ∧
      DigitClass.ascii.int? (whole ++ fraction.tail) = some n := by
  obtain ⟨hne, hw⟩ := asciiDigits_iff.mp hwhole
  have hds : ∀ c ∈ fraction.tail, c.isDigit = true := by
    rcases hfraction with rfl | ⟨ds, rfl, hds⟩
    · simp
    · exact (asciiDigits_iff.mp hds).2
  have hstrip : stripChars blank (left ++ (whole ++ fraction) ++ right) = whole ++ fraction := by
    rw [stripChars_append_right _ hright, stripChars_append_left hleft]
    refine stripChars_eq_self fun c hc => ?_
    rcases List.mem_append.mp hc with hc | hc
    · exact hdigit c (hw c hc)
    · rcases hfraction with rfl | ⟨ds, rfl, -⟩
      · simp at hc
      · rcases List.mem_cons.mp hc with rfl | hc
        · exact hpoint
        · exact hdigit c (hds c hc)
  have hsplit : splitPoint (whole ++ fraction) = (whole, fraction) := by
    refine splitPoint_of_digits hw ?_
    rcases hfraction with rfl | ⟨ds, rfl, -⟩
    · exact .inl rfl
    · exact .inr rfl
  have hall : ∀ c ∈ whole ++ fraction.tail, c.isDigit = true := fun c hc =>
    (List.mem_append.mp hc).elim (hw c) (hds c)
  have hint : DigitClass.ascii.int? (whole ++ fraction.tail) =
      some (Nat.ofDigitChars 10 (whole ++ fraction.tail) 0) := by
    rw [DigitClass.int?, if_neg (by simp [hne]), DigitClass.foldlM_value _ hall]
  refine ⟨_, ?_, hint⟩
  simp only [plainDecimal, hstrip, hsplit, hwhole, hint, true_and, Option.map_some]
  rw [if_pos]
  rcases hfraction with rfl | ⟨ds, rfl, hbehind⟩
  · exact .inl rfl
  · exact .inr hbehind

/-- **The pattern matches the plain decimals**, between what the database counts as spaces. -/
theorem matchesMargin_iff {text : String} :
    matchesMargin loc text = true ↔ (plainDecimal loc.isSpace text.toList).isSome = true := by
  have hleaves : matchesMargin loc text = true ↔ ∃ rest, (marginPattern loc).Leaves .postgres text.toList rest := by
    rw [matchesMargin]
    cases h : (marginPattern loc).run .postgres text.toList with
    | nil => simp [Regex.Leaves, h]
    | cons m ms =>
      simp only [List.isEmpty_cons, Bool.not_false, Regex.Leaves, h, true_iff]
      exact ⟨m.2, m.1, by simp⟩
  have hpoint : loc.isSpace '.' = false := by
    rw [loc.isSpace_ascii '.' (by decide)]
    decide
  rw [hleaves]
  simp only [marginPattern, Regex.leaves_seq, Regex.leaves_many, Regex.leaves_plus, Regex.leaves_opt,
    Regex.leaves_group, Regex.leaves_text, Regex.leaves_eot, Regex.atEnd]
  constructor
  · rintro ⟨rest, a, ⟨left, htext, hleft⟩, b, ⟨whole, rfl, hne, hw⟩, c, hfrac, d, ⟨right, rfl, hright⟩, hd, hrest⟩
    obtain rfl : d = [] := by simpa using hd
    have hwhole := asciiDigits_iff.mpr ⟨hne, hw⟩
    rw [List.append_nil] at hfrac
    rcases hfrac with ⟨e, rfl, ds, rfl, hdne, hds⟩ | rfl
    · obtain ⟨n, hn, -⟩ := plainDecimal_of_parts hleft hright (fun c hc => Locale.isSpace_of_isDigit hc) hpoint hwhole
        (.inr ⟨ds, rfl, asciiDigits_iff.mpr ⟨hdne, hds⟩⟩)
      rw [htext]
      simpa using Option.isSome_of_mem hn
    · obtain ⟨n, hn, -⟩ := plainDecimal_of_parts hleft hright (fun c hc => Locale.isSpace_of_isDigit hc) hpoint hwhole
        (.inl rfl)
      rw [htext]
      simpa using Option.isSome_of_mem hn
  · intro h
    obtain ⟨q, hq⟩ := Option.isSome_iff_exists.mp h
    obtain ⟨whole, fraction, n, hstrip, hwhole, hfraction, -⟩ := plainDecimal_eq_some hq
    obtain ⟨left, right, htext, hleft, hright⟩ := exists_append_stripChars loc.isSpace text.toList
    obtain ⟨hne, hw⟩ := asciiDigits_iff.mp hwhole
    rw [hstrip] at htext
    refine ⟨[], whole ++ fraction ++ right, ⟨left, by rw [htext, List.append_assoc], hleft⟩, fraction ++ right,
      ⟨whole, by rw [List.append_assoc], hne, hw⟩, right, ?_, [], ⟨right, by simp, hright⟩, by simp⟩
    rcases hfraction with rfl | ⟨ds, rfl, hds⟩
    · exact .inr rfl
    · obtain ⟨hdne, hds⟩ := asciiDigits_iff.mp hds
      exact .inl ⟨ds ++ right, rfl, ds, rfl, hdne, hds⟩

/-- A plain decimal between blanks of ASCII is one between spaces of the database. -/
theorem plainDecimal_isSpace {text : List Char} {q : ℚ} (h : plainDecimal isAsciiBlank text = some q) :
    plainDecimal loc.isSpace text = some q := by
  obtain ⟨whole, fraction, n, hstrip, hwhole, hfraction, hn, rfl⟩ := plainDecimal_eq_some h
  obtain ⟨left, right, htext, hleft, hright⟩ := exists_append_stripChars isAsciiBlank text
  have hblank : ∀ c, isAsciiBlank c = true → loc.isSpace c = true := fun c hc => by
    rw [loc.isSpace_ascii c (toNat_lt_of_isAsciiBlank hc), hc]
  have hpoint : loc.isSpace '.' = false := by
    rw [loc.isSpace_ascii '.' (by decide)]
    decide
  rw [hstrip] at htext
  obtain ⟨m, hm, hm'⟩ := plainDecimal_of_parts (fun c hc => hblank c (hleft c hc)) (fun c hc => hblank c (hright c hc))
    (fun c hc => Locale.isSpace_of_isDigit hc) hpoint hwhole hfraction
  rw [htext, hm]
  rw [hn] at hm'
  rw [Option.some.inj hm']

end Plain

/-! ### Where the two margins are one -/

/-- A double that is not zero is nearest to the number. -/
def Fits (q : ℚ) : Prop := ∃ v, Double.round q = .finite v ∧ v ≠ 0

/-- How the values Python writes itself look: a float is a text of ASCII that `float` reads back, a list or a
dict starts with its bracket. -/
def Dumped (py : Language) (dumps : Json → String) : Json → Prop
  | .float (.finite q) => (∀ c ∈ (dumps (.float (.finite q))).toList, c.toNat < 128) ∧
      (if q = 0 then dumps (.float (.finite q)) = "0.0" ∨ dumps (.float (.finite q)) = "-0.0"
        else py.floatOfText (dumps (.float (.finite q))).toList = some (.finite q))
  -- JSON has no other floats.
  | .float _ => False
  | .arr items => (dumps (.arr items)).toList.head? = some '['
  | .obj fields => (dumps (.obj fields)).toList.head? = some '\x7b'
  | _ => True

/-- What `min_margin_pct` has to hold for both readings to be one: nothing, or what Python takes for nothing,
unless it is a zero in quotes; a list or a dict; a positive number that is written plainly; a text with such a
number, or with one that is not plain and that Python cannot read or reads as the default. -/
def MarginRead (py : Language) (loc : Locale) (dumps : Json → String) : Json → Prop
  | .null | .arr _ | .obj _ => True
  | .bool b => b = false
  | .int n => n = 0 ∨ 0 < n ∧ Fits n
  | .float (.finite q) => q = 0 ∨ q = defaultMinMarginPct ∨
      (plainDecimal isAsciiBlank (dumps (.float (.finite q))).toList).isSome
  | .float _ => False
  | .str s => '\x00' ∉ s.toList ∧ (s = "" ∨ (∃ q, plainDecimal isAsciiBlank s.toList = some q ∧ Fits q) ∨
      matchesMargin loc s = false ∧ (py.floatOfText s.toList = none ∨
        py.floatOfText s.toList = some (.finite defaultMinMarginPct)))

/-- Both sides use this margin. -/
def SharesMargin (py : Language) (loc : Locale) (dumps : Json → String) (config : List (String × Json)) (m : ℚ) :
    Prop :=
  queryMargin loc dumps config = some m ∧ minMarginPct py config = .ok (.finite m)

section Margin

variable {py : Language} {loc : Locale} {dumps : Json → String} {config : List (String × Json)}

/-- A text the pattern does not match. -/
theorem not_matchesMargin_of_head {text : String} (h : ∀ c, text.toList.head? = some c →
    c.toNat < 128 ∧ isAsciiBlank c = false ∧ c.isDigit = false) : matchesMargin loc text = false := by
  rw [Bool.eq_false_iff]
  intro hmatch
  rw [matchesMargin_iff] at hmatch
  cases htext : text.toList with
  | nil => simp [htext, plainDecimal, splitPoint, stripChars, asciiDigits] at hmatch
  | cons c cs =>
    obtain ⟨hc, hblank, hd⟩ := h c (by simp [htext])
    rw [htext, plainDecimal_cons_eq_none (by rw [loc.isSpace_ascii c hc, hblank]) hd] at hmatch
    simp at hmatch

theorem round_zero : Double.round 0 = .finite 0 := by
  simp [Double.round, Double.roundPlaces, Arith.roundDiv]

theorem float8_eq_some {q v : ℚ} : float8 q = some v ↔ Double.round q = .finite v ∧ (v = 0 → q = 0) := by
  rw [float8]
  cases h : Double.round q with
  | finite w =>
    by_cases hw : w = 0 ∧ q ≠ 0
    · simp only [hw, ne_eq, not_false_eq_true, and_self, if_true, reduceCtorEq, Double.finite.injEq, false_iff, not_and]
      rintro rfl
      simp
    · simp only [hw, if_false, Option.some.injEq, Double.finite.injEq]
      constructor
      · rintro rfl
        exact ⟨rfl, fun h0 => by_contra fun hq => hw ⟨h0, hq⟩⟩
      · exact fun hv => hv.1
  | inf s => simp
  | nan => simp

/-- The margin of a plain decimal, in the query. -/
theorem castMargin_eq_some {text : String} {q m : ℚ} (h : plainDecimal isAsciiBlank text.toList = some q) :
    (castFloat text).map (fun v => if v = 0 then defaultMinMarginPct else v) = some m ↔
      if q = 0 then m = defaultMinMarginPct else Double.round q = .finite m ∧ m ≠ 0 := by
  rw [castFloat, h, Option.bind_some, Option.map_eq_some_iff]
  simp only [float8_eq_some]
  split_ifs with hq
  · subst hq
    constructor
    · rintro ⟨v, ⟨hv, -⟩, rfl⟩
      rw [round_zero] at hv
      obtain rfl := Double.finite.inj hv
      rw [if_pos rfl]
    · rintro rfl
      exact ⟨0, ⟨round_zero, fun _ => rfl⟩, if_pos rfl⟩
  · constructor
    · rintro ⟨v, ⟨hv, hv0⟩, rfl⟩
      have hne : v ≠ 0 := fun h0 => hq (hv0 h0)
      rw [if_neg hne]
      exact ⟨hv, hne⟩
    · rintro ⟨hm, hne⟩
      exact ⟨m, ⟨hm, fun h0 => absurd h0 hne⟩, if_neg hne⟩

/-- The query's margin, where the raw value is a text. -/
theorem queryMargin_text {text : String} (hraw : rawMargin dumps (Json.get config "min_margin_pct") = some (some text)) :
    queryMargin loc dumps config =
      if matchesMargin loc text then (castFloat text).map fun v => if v = 0 then defaultMinMarginPct else v
      else some defaultMinMarginPct := by
  rw [queryMargin, hraw]

theorem queryMargin_not_matches {text : String}
    (hraw : rawMargin dumps (Json.get config "min_margin_pct") = some (some text))
    (h : matchesMargin loc text = false) : queryMargin loc dumps config = some defaultMinMarginPct := by
  rw [queryMargin_text hraw, h]
  rfl

variable (py) in
/-- Python's margin, where the value is not taken for nothing. -/
theorem minMarginPct_of_truthy {v : Json} (hv : Json.get config "min_margin_pct" = v) (h : v.truthy = true) :
    minMarginPct py config = match py.toFloat v with
      | .ok x => .ok x
      | .error .typeError | .error .valueError => .ok (.finite defaultMinMarginPct)
      | .error e => .error e := by
  simp only [minMarginPct, hv, h, if_true]

variable (py) in
theorem minMarginPct_of_falsy {v : Json} (hv : Json.get config "min_margin_pct" = v) (h : v.truthy = false) :
    minMarginPct py config = .ok (.finite defaultMinMarginPct) := by
  simp only [minMarginPct, hv, h, Bool.false_eq_true, if_false]

/-- A value both sides take for nothing. -/
theorem sharesMargin_default {m : ℚ} (hq : queryMargin loc dumps config = some defaultMinMarginPct)
    (hp : minMarginPct py config = .ok (.finite defaultMinMarginPct)) :
    SharesMargin py loc dumps config m ↔ m = defaultMinMarginPct := by
  rw [SharesMargin, hq, hp]
  constructor
  · rintro ⟨he, -⟩
    exact (Option.some.inj he).symm
  · rintro rfl
    exact ⟨rfl, rfl⟩

theorem plainDecimal_toString (n : ℕ) (blank : Char → Bool) (hblank : ∀ c, c.isDigit = true → blank c = false) :
    plainDecimal blank (toString n).toList = some (n : ℚ) := by
  have hdigits : asciiDigits (toString n).toList = true :=
    asciiDigits_iff.mpr ⟨toList_toString_ne_nil n, fun c hc => isDigit_of_mem_toString hc⟩
  have hstrip : stripChars blank (toString n).toList = (toString n).toList :=
    stripChars_eq_self fun c hc => hblank c (isDigit_of_mem_toString hc)
  have hsplit : splitPoint (toString n).toList = ((toString n).toList, []) := by
    have : splitPoint ((toString n).toList ++ []) = ((toString n).toList, []) :=
      splitPoint_of_digits (fun c hc => isDigit_of_mem_toString hc) (.inl rfl)
    simpa using this
  simp only [plainDecimal, hstrip, hsplit, hdigits, List.tail_nil, List.append_nil, DigitClass.int?_toString]
  simp [decimalValue]

theorem isAsciiBlank_of_isDigit {c : Char} (h : c.isDigit = true) : isAsciiBlank c = false := by
  by_contra hb
  have := isSpace_of_isAsciiBlank (Bool.eq_true_of_not_eq_false hb)
  rw [Text.isSpace_of_isDigit h] at this
  exact absurd this (by decide)

/-- A plain decimal of ASCII is matched. -/
theorem matchesMargin_of_plain {text : String} {q : ℚ} (h : plainDecimal isAsciiBlank text.toList = some q) :
    matchesMargin loc text = true := by
  rw [matchesMargin_iff, plainDecimal_isSpace h]
  rfl

/-- In a text of ASCII the pattern matches nothing else. -/
theorem matchesMargin_eq_false {text : String} (hascii : ∀ c ∈ text.toList, c.toNat < 128)
    (h : plainDecimal isAsciiBlank text.toList = none) : matchesMargin loc text = false := by
  rw [Bool.eq_false_iff]
  intro hmatch
  rw [matchesMargin_iff, plainDecimal, stripChars_congr fun c hc => loc.isSpace_ascii c (hascii c hc), ← plainDecimal,
    h] at hmatch
  simp at hmatch

/-- Whole numbers. -/
theorem sharesMargin_int {n : ℤ} (hv : Json.get config "min_margin_pct" = .int n) :
    (∃ m, SharesMargin py loc dumps config m) ↔ n = 0 ∨ 0 < n ∧ Fits n := by
  have hraw : rawMargin dumps (Json.get config "min_margin_pct") = some (some (toString n)) := by
    rw [hv]
    rfl
  rcases lt_trichotomy n 0 with hneg | rfl | hpos
  · -- The text starts with a sign, and Python's number is not positive.
    have hquery : queryMargin loc dumps config = some defaultMinMarginPct := by
      refine queryMargin_not_matches hraw (not_matchesMargin_of_head fun c hc => ?_)
      obtain ⟨k, rfl⟩ : ∃ k : ℕ, n = Int.negSucc k := Int.eq_negSucc_of_lt_zero hneg
      obtain rfl : c = '-' := by
        have : (toString (Int.negSucc k)).toList = '-' :: (toString (k + 1)).toList := by
          show (("-" : String) ++ toString (k + 1)).toList = _
          rw [String.toList_append]
          rfl
        rw [this] at hc
        simpa using hc.symm
      decide
    constructor
    · rintro ⟨m, hq, hp⟩
      rw [hquery] at hq
      obtain rfl := Option.some.inj hq
      rw [minMarginPct_of_truthy py hv (by simp [Json.truthy, hneg.ne])] at hp
      simp only [Language.toFloat] at hp
      cases hround : Double.round (n : ℚ) with
      | finite v =>
        simp only [hround, Except.ok.injEq, Double.finite.injEq] at hp
        have := Double.nonpos_of_round (by exact_mod_cast hneg) hround
        rw [hp, defaultMinMarginPct] at this
        norm_num at this
      | inf s => simp [hround] at hp
      | nan => simp [hround] at hp
    · rintro (h | ⟨h, -⟩) <;> omega
  · -- A zero is nothing on both sides.
    have hplain : plainDecimal isAsciiBlank (toString (0 : ℤ)).toList = some ((0 : ℕ) : ℚ) :=
      plainDecimal_toString 0 _ fun c hc => isAsciiBlank_of_isDigit hc
    have hquery : queryMargin loc dumps config = some defaultMinMarginPct := by
      rw [queryMargin_text hraw, matchesMargin_of_plain hplain, if_pos rfl, castMargin_eq_some hplain]
      simp
    have hpython := minMarginPct_of_falsy py hv rfl
    simp [sharesMargin_default hquery hpython]
  · obtain ⟨k, rfl⟩ : ∃ k : ℕ, n = k := Int.eq_ofNat_of_zero_le hpos.le
    have hplain : plainDecimal isAsciiBlank (toString ((k : ℤ))).toList = some (k : ℚ) :=
      plainDecimal_toString k _ fun c hc => isAsciiBlank_of_isDigit hc
    have hk : (k : ℚ) ≠ 0 := by
      have : k ≠ 0 := by omega
      exact_mod_cast this
    have hquery : ∀ m, queryMargin loc dumps config = some m ↔ Double.round (k : ℚ) = .finite m ∧ m ≠ 0 := by
      intro m
      rw [queryMargin_text hraw, matchesMargin_of_plain hplain, if_pos rfl, castMargin_eq_some hplain, if_neg hk]
    have hpython : ∀ v, Double.round (k : ℚ) = .finite v → minMarginPct py config = .ok (.finite v) := by
      intro v hround
      rw [minMarginPct_of_truthy py hv (by simpa [Json.truthy] using hpos.ne')]
      simp [Language.toFloat, hround]
    constructor
    · rintro ⟨m, hq, -⟩
      exact .inr ⟨hpos, m, by simpa using (hquery m).mp hq⟩
    · rintro (h | ⟨-, m, hm⟩)
      · omega
      · rw [Int.cast_natCast] at hm
        exact ⟨m, (hquery m).mpr hm, hpython m hm.1⟩

/-- Floats. -/
theorem sharesMargin_float {q : ℚ} (hv : Json.get config "min_margin_pct" = .float (.finite q))
    (hdumped : Dumped py dumps (.float (.finite q))) :
    (∃ m, SharesMargin py loc dumps config m) ↔ q = 0 ∨ q = defaultMinMarginPct ∨
      (plainDecimal isAsciiBlank (dumps (.float (.finite q))).toList).isSome := by
  obtain ⟨hascii, htext⟩ := hdumped
  have hraw : rawMargin dumps (Json.get config "min_margin_pct") = some (some (dumps (.float (.finite q)))) := by
    rw [hv]
    rfl
  by_cases hq : q = 0
  · subst hq
    rw [if_pos rfl] at htext
    have hquery : queryMargin loc dumps config = some defaultMinMarginPct := by
      rcases htext with h | h
      · have hplain : plainDecimal isAsciiBlank (dumps (.float (.finite 0))).toList = some 0 := by
          rw [h]
          decide +kernel
        rw [queryMargin_text hraw, matchesMargin_of_plain hplain, if_pos rfl, castMargin_eq_some hplain]
        simp
      · refine queryMargin_not_matches hraw (not_matchesMargin_of_head fun c hc => ?_)
        rw [h] at hc
        obtain rfl : c = '-' := by simpa using hc.symm
        decide
    simp [sharesMargin_default hquery (minMarginPct_of_falsy py hv (by simp [Json.truthy]))]
  · rw [if_neg hq] at htext
    have hpython : minMarginPct py config = .ok (.finite q) := by
      rw [minMarginPct_of_truthy py hv (by simp [Json.truthy, hq])]
      rfl
    cases hplain : plainDecimal isAsciiBlank (dumps (.float (.finite q))).toList with
    | some d =>
      -- The text is read back, so its value is nearest to the float.
      have hround : Double.round d = .finite q := by
        rw [floatOfText_plain py (fun c => isSpace_of_isAsciiBlank) hplain] at htext
        exact Option.some.inj htext
      have hd : d ≠ 0 := by
        rintro rfl
        rw [round_zero] at hround
        exact hq (Double.finite.inj hround).symm
      have hquery : queryMargin loc dumps config = some q := by
        rw [queryMargin_text hraw, matchesMargin_of_plain hplain, if_pos rfl, castMargin_eq_some hplain, if_neg hd]
        exact ⟨hround, hq⟩
      simp only [Option.isSome_some, or_true, iff_true]
      exact ⟨q, hquery, hpython⟩
    | none =>
      have hquery : queryMargin loc dumps config = some defaultMinMarginPct :=
        queryMargin_not_matches hraw (matchesMargin_eq_false hascii hplain)
      simp only [SharesMargin, hquery, hpython, hq, Option.isSome_none, Bool.false_eq_true, or_false, false_or,
        Option.some.injEq, Except.ok.injEq, Double.finite.injEq, exists_eq_left']

/-- Texts. -/
theorem sharesMargin_str {s : String} (hv : Json.get config "min_margin_pct" = .str s) :
    (∃ m, SharesMargin py loc dumps config m) ↔
      '\x00' ∉ s.toList ∧ (s = "" ∨ (∃ q, plainDecimal isAsciiBlank s.toList = some q ∧ Fits q) ∨
        matchesMargin loc s = false ∧ (py.floatOfText s.toList = none ∨
          py.floatOfText s.toList = some (.finite defaultMinMarginPct))) := by
  by_cases hnul : '\x00' ∈ s.toList
  · have hquery : queryMargin loc dumps config = none := by
      rw [queryMargin, hv, rawMargin, if_pos hnul]
    simp [SharesMargin, hquery, hnul]
  have hraw : rawMargin dumps (Json.get config "min_margin_pct") = some (some s) := by
    rw [hv, rawMargin, if_neg hnul]
  simp only [hnul, not_false_eq_true, true_and]
  by_cases hempty : s = ""
  · subst hempty
    have hquery : queryMargin loc dumps config = some defaultMinMarginPct :=
      queryMargin_not_matches hraw (not_matchesMargin_of_head fun c hc => by simp at hc)
    simp [sharesMargin_default hquery (minMarginPct_of_falsy py hv rfl)]
  have hpython := minMarginPct_of_truthy py hv (by simp [Json.truthy, hempty])
  simp only [hempty, false_or]
  cases hmatch : matchesMargin loc s with
  | true =>
    simp only [Bool.true_eq_false, false_and, or_false]
    cases hplain : plainDecimal isAsciiBlank s.toList with
    | none =>
      have hquery : queryMargin loc dumps config = none := by
        rw [queryMargin_text hraw, hmatch, if_pos rfl, castFloat, hplain]
        rfl
      simp [SharesMargin, hquery]
    | some q =>
      have hread := floatOfText_plain py (fun c => isSpace_of_isAsciiBlank) hplain
      rw [Language.toFloat, hread] at hpython
      have hpython' : minMarginPct py config = .ok (Double.round q) := hpython
      simp only [SharesMargin, queryMargin_text hraw, hmatch, if_true, castMargin_eq_some hplain, hpython',
        Option.some.injEq, exists_eq_left', Except.ok.injEq]
      constructor
      · rintro ⟨m, hm, hround⟩
        split_ifs at hm with hq
        · -- A zero in quotes is the default for the query, and a zero for Python.
          rw [hq, round_zero, hm, Double.finite.injEq, defaultMinMarginPct] at hround
          norm_num at hround
        · exact ⟨m, hround, hm.2⟩
      · rintro ⟨m, hround, hm⟩
        have hq : q ≠ 0 := by
          rintro rfl
          rw [round_zero, Double.finite.injEq] at hround
          exact hm hround.symm
        exact ⟨m, by rw [if_neg hq]; exact ⟨hround, hm⟩, hround⟩
  | false =>
    have hplain : plainDecimal isAsciiBlank s.toList = none := by
      rcases Option.eq_none_or_eq_some (plainDecimal isAsciiBlank s.toList) with h | ⟨q, h⟩
      · exact h
      · rw [matchesMargin_of_plain h] at hmatch
        exact absurd hmatch (by decide)
    have hquery : queryMargin loc dumps config = some defaultMinMarginPct := queryMargin_not_matches hraw hmatch
    simp only [hplain, reduceCtorEq, false_and, exists_false, false_or, true_and, SharesMargin, hquery,
      Option.some.injEq, exists_eq_left']
    cases hread : py.floatOfText s.toList with
    | none =>
      simp only [Language.toFloat, hread] at hpython
      simp [hpython]
    | some x =>
      simp only [Language.toFloat, hread] at hpython
      simp [hpython]

/-- **The two readings of the margin** give one number exactly where the config has one that is read alike. -/
theorem sharesMargin_iff (hdumped : Dumped py dumps (Json.get config "min_margin_pct")) :
    (∃ m, SharesMargin py loc dumps config m) ↔
      MarginRead py loc dumps (Json.get config "min_margin_pct") := by
  cases hv : Json.get config "min_margin_pct" with
  | null =>
    have hquery : queryMargin loc dumps config = some defaultMinMarginPct := by
      rw [queryMargin, hv]
      rfl
    simp [sharesMargin_default hquery (minMarginPct_of_falsy py hv rfl), MarginRead]
  | bool b =>
    have hquery : queryMargin loc dumps config = some defaultMinMarginPct := by
      have hraw : rawMargin dumps (Json.get config "min_margin_pct") = some (some (if b then "true" else "false")) := by
        rw [hv]
        rfl
      refine queryMargin_not_matches hraw (not_matchesMargin_of_head fun c hc => ?_)
      cases b with
      | true =>
        obtain rfl : c = 't' := by simpa using hc.symm
        decide
      | false =>
        obtain rfl : c = 'f' := by simpa using hc.symm
        decide
    cases b with
    | true =>
      have hpython := minMarginPct_of_truthy py hv rfl
      simp only [Language.toFloat, if_true] at hpython
      simp only [SharesMargin, hquery, hpython, MarginRead, Bool.true_eq_false, iff_false, not_exists]
      rintro m ⟨hm, hp⟩
      simp only [Except.ok.injEq, Double.finite.injEq, Option.some.injEq, defaultMinMarginPct] at hm hp
      rw [← hp] at hm
      norm_num at hm
    | false => simp [sharesMargin_default hquery (minMarginPct_of_falsy py hv rfl), MarginRead]
  | int n => exact sharesMargin_int hv
  | float x =>
    rw [hv] at hdumped
    cases x with
    | finite q => exact sharesMargin_float hv hdumped
    | inf s => exact hdumped.elim
    | nan => exact hdumped.elim
  | str s => exact sharesMargin_str hv
  | arr items | obj fields =>
    rw [hv] at hdumped
    have hquery : queryMargin loc dumps config = some defaultMinMarginPct := by
      refine queryMargin_not_matches (by rw [hv]; rfl) (not_matchesMargin_of_head fun c hc => ?_)
      rw [hdumped] at hc
      obtain rfl := (Option.some.inj hc).symm
      decide
    have hpython : minMarginPct py config = .ok (.finite defaultMinMarginPct) := by
      cases htruthy : Json.truthy (Json.get config "min_margin_pct") with
      | true =>
        rw [minMarginPct_of_truthy py rfl htruthy, hv]
        rfl
      | false => exact minMarginPct_of_falsy py rfl htruthy
    simp [sharesMargin_default hquery hpython, MarginRead]

end Margin

/-! ### The bounds -/

/-- **Both sides have the same bounds**: what is on offer and the most a purchase may take. -/
theorem le_sellableUnits_iff {listing : Listing} (h : listing.syncError ≠ some "delisted") {q : ℤ} (hq : 1 ≤ q) :
    q ≤ listing.sellableUnits ↔ q ≤ listing.units := by
  rw [Listing.sellableUnits, if_neg h, Listing.units]
  cases listing.upstreamMax with
  | none =>
    simp only [Option.getD_none, min_self]
  | some most =>
    simp only [Option.getD_some]
    omega

theorem units_nonneg (listing : Listing) : 0 ≤ listing.units := le_max_right _ _

/-- What the supplier says changes nothing but that the item is there. -/
theorem answered_of_cached {listing : Listing} {keepAmount : Bool} {up : Upstream} (h : listing.Cached (some up)) :
    listing.answered keepAmount (some up) = { listing with syncError := none } := by
  obtain rfl : up = _ := h
  rw [Listing.answered, Listing.applyUpstream]
  cases keepAmount <;> rfl

section Stock

variable {py : Language} {loc : Locale} {dumps : Json → String} {keepAmount : Bool} {pkg : ExternalPackage}
  {answer : Option Upstream} {balance : Option ℚ}

/-- A quantity that leaves the account with money is let through exactly where the listing and the margin do. -/
theorem accepts_iff {q : ℤ} (hactive : pkg.isActive = true) :
    Accepts py keepAmount pkg answer balance q ↔ pkg.isApproved = true ∧
      q ≤ (pkg.listing.answered keepAmount answer).sellableUnits ∧
      (∀ held ∈ balance, ((pkg.listing.answered keepAmount answer).costPrice * q : ℤ) ≤ held) ∧
      (pkg.listing.answered keepAmount answer).upstreamMin ≤ q ∧
      ∃ x, minMarginPct py pkg.config = .ok x ∧
        marginOk pkg.price (pkg.listing.answered keepAmount answer).costPrice x = true := by
  have hbalance : (∀ held ∈ balance, (((pkg.listing.answered keepAmount answer).costPrice * q : ℤ) : ℚ) ≤ held) ↔
      ¬∃ held ∈ balance, held < ((pkg.listing.answered keepAmount answer).costPrice : ℚ) * q := by
    push_cast
    simp only [not_exists, not_and, not_lt]
  rw [hbalance, Accepts, precheck, hactive]
  simp only [Bool.true_eq_false, or_false, bind, Except.bind, throw, throwThe, MonadExceptOf.throw]
  by_cases happroved : pkg.isApproved = true
  swap
  · simp [happroved]
  by_cases hunits : q ≤ (pkg.listing.answered keepAmount answer).sellableUnits
  swap
  · simp [happroved, hunits, not_le.mp hunits]
  by_cases hpoor : ∃ held ∈ balance, held < ((pkg.listing.answered keepAmount answer).costPrice : ℚ) * q
  · simp only [happroved, Bool.true_eq_false, if_false, not_lt.mpr hunits, hpoor, if_true, reduceCtorEq, exists_false,
      not_true_eq_false, false_and, and_false]
  by_cases hmin : (pkg.listing.answered keepAmount answer).upstreamMin ≤ q
  swap
  · simp only [happroved, Bool.true_eq_false, if_false, not_lt.mpr hunits, hpoor, hmin, not_le.mp hmin, if_true,
      reduceCtorEq, exists_false, false_and, and_false]
  simp only [happroved, Bool.true_eq_false, if_false, not_lt.mpr hunits, hpoor, not_false_eq_true, hmin, not_lt.mpr hmin,
    hunits, true_and]
  cases hmargin : minMarginPct py pkg.config with
  | error e => simp only [reduceCtorEq, exists_false, false_and]
  | ok x =>
    simp only [Except.ok.injEq, exists_eq_left']
    by_cases hok : marginOk pkg.price (pkg.listing.answered keepAmount answer).costPrice x = true
    · simp only [hok, if_true, pure, Except.pure, Except.ok.injEq, exists_eq']
    · simp only [hok, Bool.false_eq_true, if_false, reduceCtorEq, exists_false]

/-- The price leaves the margin. -/
def MarginFine (py : Language) (pkg : ExternalPackage) : Prop :=
  ∃ x, minMarginPct py pkg.config = .ok x ∧ marginOk pkg.price pkg.listing.costPrice x = true

/-- Some quantity is let through. -/
def Sells (py : Language) (pkg : ExternalPackage) (answer : Option Upstream) : Prop :=
  pkg.isApproved = true ∧ answer ≠ none ∧ MarginFine py pkg ∧ max 1 pkg.listing.upstreamMin ≤ pkg.listing.units

/-- The account holds what a purchase within the bounds costs. -/
def EnoughBalance (pkg : ExternalPackage) (balance : Option ℚ) : Prop :=
  ∀ held ∈ balance, ∀ q : ℤ, 1 ≤ q → q ≤ pkg.listing.units → ((pkg.listing.costPrice * q : ℤ) : ℚ) ≤ held

/-- **What is let through**, where the supplier says what is cached. -/
theorem accepts_iff_of_cached (hactive : pkg.isActive = true) (hanswer : pkg.listing.Cached answer)
    (hbalance : EnoughBalance pkg balance) {q : ℤ} (hq : 1 ≤ q) :
    Accepts py keepAmount pkg answer balance q ↔
      (pkg.isApproved = true ∧ answer ≠ none ∧ MarginFine py pkg) ∧ pkg.listing.upstreamMin ≤ q ∧
        q ≤ pkg.listing.units := by
  rw [accepts_iff hactive]
  cases answer with
  | none =>
    have hnone : (pkg.listing.answered keepAmount none).sellableUnits = 0 := by simp [Listing.answered, Listing.sellableUnits]
    rw [hnone]
    simp only [ne_eq, not_true_eq_false, false_and, and_false, iff_false, not_and]
    intro _ hle
    omega
  | some up =>
    rw [answered_of_cached hanswer]
    have hunits : q ≤ ({ pkg.listing with syncError := none } : Listing).sellableUnits ↔
        q ≤ ({ pkg.listing with syncError := none } : Listing).units := le_sellableUnits_iff (by simp) hq
    have hsame : ({ pkg.listing with syncError := none } : Listing).units = pkg.listing.units := rfl
    rw [hunits, hsame]
    simp only [ne_eq, reduceCtorEq, not_false_eq_true, true_and]
    constructor
    · rintro ⟨happroved, hle, -, hmin, hfine⟩
      exact ⟨⟨happroved, hfine⟩, hmin, hle⟩
    · rintro ⟨⟨happroved, hfine⟩, hmin, hle⟩
      exact ⟨happroved, hle, fun held hheld => hbalance held hheld q hq hle, hmin, hfine⟩

/-- The number up to which everything from the least quantity on is let through, and nothing beyond. -/
def Largest (py : Language) (keepAmount : Bool) (pkg : ExternalPackage) (answer : Option Upstream)
    (balance : Option ℚ) (n : ℕ) : Prop :=
  (∀ q : ℤ, max 1 pkg.listing.upstreamMin ≤ q → q ≤ n → Accepts py keepAmount pkg answer balance q) ∧
    ∀ q : ℤ, n < q → ¬Accepts py keepAmount pkg answer balance q

theorem largest_iff (hactive : pkg.isActive = true) (hanswer : pkg.listing.Cached answer)
    (hbalance : EnoughBalance pkg balance) {n : ℕ} :
    Largest py keepAmount pkg answer balance n ↔ (Sells py pkg answer ∧ (n : ℤ) = pkg.listing.units) ∨
      (¬Sells py pkg answer ∧ (n : ℤ) < max 1 pkg.listing.upstreamMin) := by
  have haccepts : ∀ q : ℤ, 1 ≤ q → (Accepts py keepAmount pkg answer balance q ↔
      (pkg.isApproved = true ∧ answer ≠ none ∧ MarginFine py pkg) ∧ pkg.listing.upstreamMin ≤ q ∧
        q ≤ pkg.listing.units) := fun q hq => accepts_iff_of_cached hactive hanswer hbalance hq
  constructor
  · rintro ⟨hall, hnone⟩
    by_cases hsells : Sells py pkg answer
    · left
      obtain ⟨happroved, hans, hfine, hle⟩ := hsells
      refine ⟨⟨happroved, hans, hfine, hle⟩, ?_⟩
      have hlow : 1 ≤ pkg.listing.units := by omega
      have htop : Accepts py keepAmount pkg answer balance pkg.listing.units :=
        (haccepts _ hlow).mpr ⟨⟨happroved, hans, hfine⟩, by omega, le_rfl⟩
      have hge : pkg.listing.units ≤ n := not_lt.mp fun h => hnone _ h htop
      have hlast := hall n (by omega) le_rfl
      have := ((haccepts n (by omega)).mp hlast).2.2
      omega
    · right
      refine ⟨hsells, not_le.mp fun hle => hsells ?_⟩
      obtain ⟨⟨happroved, hans, hfine⟩, -, hunits⟩ := (haccepts n (by omega)).mp (hall n hle le_rfl)
      exact ⟨happroved, hans, hfine, by omega⟩
  · rintro (⟨⟨happroved, hans, hfine, hle⟩, hn⟩ | ⟨hsells, hn⟩)
    · constructor
      · intro q hlow hq
        exact (haccepts q (by omega)).mpr ⟨⟨happroved, hans, hfine⟩, by omega, by omega⟩
      · intro q hq hacc
        have := ((haccepts q (by omega)).mp hacc).2.2
        omega
    · constructor
      · intro q hlow hq
        omega
      · intro q hq hacc
        obtain ⟨⟨happroved, hans, hfine⟩, hmin, hunits⟩ := (haccepts q (by omega)).mp hacc
        exact hsells ⟨happroved, hans, hfine, by omega⟩

/-- The price of the query is Python's. -/
theorem leastPrice_of_queryPrice {costPrice : ℤ} {m y : ℚ} (h : queryPrice costPrice m = some y) :
    leastPrice costPrice (.finite m) = .finite y := by
  simp only [queryPrice, Option.bind_eq_bind, Option.bind_eq_some_iff] at h
  obtain ⟨share, hshare, factor, hfactor, hy⟩ := h
  simp only [leastPrice, Double.divBy, (float8_eq_some.mp hshare).1, Double.add, (float8_eq_some.mp hfactor).1,
    Double.mul, (float8_eq_some.mp hy).1]

/-- The query has an answer: the item is gone, or costs nothing, or the least price is a double. -/
def Computes (loc : Locale) (dumps : Json → String) (pkg : ExternalPackage) : Prop :=
  pkg.listing.syncError = some "delisted" ∨ pkg.listing.costPrice ≤ 0 ∨
    ∃ m, queryMargin loc dumps pkg.config = some m ∧ (queryPrice pkg.listing.costPrice m).isSome

/-- **What is shown**, where both sides have the same margin. -/
theorem sellableStock_eq {m : ℚ} (hactive : pkg.isActive = true) (hm : SharesMargin py loc dumps pkg.config m)
    (hcomputes : Computes loc dumps pkg) :
    ∃ n : ℤ, sellableStock loc dumps pkg = some ((pkg.pool : ℤ) + n) ∧
      ((pkg.listing.syncError = some "delisted" ∨ ¬MarginFine py pkg) → n = 0) ∧
        (pkg.listing.syncError ≠ some "delisted" → MarginFine py pkg → n = pkg.listing.units) := by
  obtain ⟨hquery, hpython⟩ := hm
  have hfine : MarginFine py pkg ↔ marginOk pkg.price pkg.listing.costPrice (.finite m) = true := by
    simp [MarginFine, hpython]
  by_cases hgone : pkg.listing.syncError = some "delisted"
  · exact ⟨0, by simp [sellableStock, hgone], fun _ => rfl, fun h => absurd hgone h⟩
  have hbelow : belowMinMargin loc dumps pkg = some !(marginOk pkg.price pkg.listing.costPrice (.finite m)) := by
    by_cases hcost : 0 < pkg.listing.costPrice
    · have hprice : (queryPrice pkg.listing.costPrice m).isSome = true := by
        rcases hcomputes with h | h | ⟨m', hm', h⟩
        · exact absurd h hgone
        · omega
        · rw [hquery] at hm'
          rwa [Option.some.inj hm']
      obtain ⟨y, hy⟩ := Option.isSome_iff_exists.mp hprice
      simp only [belowMinMargin, hcost, if_true, hquery, hy, Option.bind_eq_bind, Option.bind_some, Option.pure_def,
        marginOk, not_le.mpr hcost, if_false, leastPrice_of_queryPrice hy, Double.leInt, Option.some.injEq]
      rw [← decide_not]
      simp only [not_le]
    · simp [belowMinMargin, hcost, marginOk, not_lt.mp hcost]
  have hstock : sellableStock loc dumps pkg =
      some (pkg.pool + if marginOk pkg.price pkg.listing.costPrice (.finite m) = true then pkg.listing.units else 0) := by
    simp only [sellableStock, hgone, hactive, Bool.true_eq_false, or_self, if_false, hbelow, Option.map_some,
      Option.bind_eq_bind, Option.bind_some, Option.pure_def, Bool.not_eq_true']
    cases marginOk pkg.price pkg.listing.costPrice (.finite m) <;> rfl
  refine ⟨_, hstock, ?_, ?_⟩
  · rintro (h | h)
    · exact absurd h hgone
    · rw [if_neg fun hok => h (hfine.mpr hok)]
  · intro _ h
    rw [if_pos (hfine.mp h)]

/-- Without an answer to the arithmetic the query fails. -/
theorem sellableStock_eq_none {m : ℚ} (hactive : pkg.isActive = true) (hm : SharesMargin py loc dumps pkg.config m)
    (hcomputes : ¬Computes loc dumps pkg) : sellableStock loc dumps pkg = none := by
  simp only [Computes, not_or, not_le, not_exists, not_and] at hcomputes
  obtain ⟨hgone, hcost, hprice⟩ := hcomputes
  have hnone : queryPrice pkg.listing.costPrice m = none := by simpa using hprice m hm.1
  simp [sellableStock, hgone, hactive, belowMinMargin, hcost, hm.1, hnone]

/-- When the stock that is shown is what can be bought. -/
structure ShownRight (py : Language) (loc : Locale) (dumps : Json → String) (pkg : ExternalPackage)
    (answer : Option Upstream) : Prop where
  margin : MarginRead py loc dumps (Json.get pkg.config "min_margin_pct")
  computes : Computes loc dumps pkg
  /-- Where something can be bought, the seller's own lines make up for what an item marked as gone hides. -/
  sold : Sells py pkg answer →
    (pkg.pool : ℤ) = if pkg.listing.syncError = some "delisted" then pkg.listing.units else 0
  /-- Where nothing can, nothing is shown; and the least quantity is one, so that this is the only number right. -/
  unsold : ¬Sells py pkg answer → pkg.listing.upstreamMin ≤ 1 ∧ pkg.pool = 0 ∧
    (pkg.listing.syncError = some "delisted" ∨ ¬MarginFine py pkg ∨ pkg.listing.units = 0)

variable (loc keepAmount) in
/-- **The stock shown is the largest quantity that can be bought**, and both sides have the same margin and the same bounds,
exactly where the margin is read alike and nothing else decides: an item marked as gone that the supplier has after all,
a provider that is not approved, lines of the seller's own, or a least quantity beyond what there is. -/
theorem stock_shown_iff (hdumped : Dumped py dumps (Json.get pkg.config "min_margin_pct")) (hactive : pkg.isActive = true)
    (hanswer : pkg.listing.Cached answer) (hbalance : EnoughBalance pkg balance) :
    ((∀ n : ℕ, sellableStock loc dumps pkg = some (n : ℤ) ↔ Largest py keepAmount pkg answer balance n) ∧
      (∃ m, SharesMargin py loc dumps pkg.config m) ∧
      (pkg.listing.syncError ≠ some "delisted" → ∀ q : ℤ, 1 ≤ q →
        (q ≤ pkg.listing.sellableUnits ↔ q ≤ pkg.listing.units))) ↔
      ShownRight py loc dumps pkg answer := by
  have hlargest : ∀ n : ℕ, Largest py keepAmount pkg answer balance n ↔
      (Sells py pkg answer ∧ (n : ℤ) = pkg.listing.units) ∨
        (¬Sells py pkg answer ∧ (n : ℤ) < max 1 pkg.listing.upstreamMin) :=
    fun n => largest_iff hactive hanswer hbalance
  have hnonneg := units_nonneg pkg.listing
  simp only [hlargest]
  constructor
  · rintro ⟨hstock, ⟨m, hm⟩, -⟩
    have hcomputes : Computes loc dumps pkg := by
      by_contra hnot
      rw [sellableStock_eq_none hactive hm hnot] at hstock
      simp only [reduceCtorEq, false_iff] at hstock
      by_cases hsells : Sells py pkg answer
      · exact hstock pkg.listing.units.toNat (.inl ⟨hsells, by omega⟩)
      · exact hstock 0 (.inr ⟨hsells, by omega⟩)
    obtain ⟨n, hn, hzero, hfull⟩ := sellableStock_eq hactive hm hcomputes
    have hn0 : 0 ≤ n := by
      by_cases hgone : pkg.listing.syncError = some "delisted" ∨ ¬MarginFine py pkg
      · exact (hzero hgone).ge
      · simp only [not_or, not_not] at hgone
        rw [hfull hgone.1 hgone.2]
        exact hnonneg
    simp only [hn, Option.some.injEq] at hstock
    refine ⟨(sharesMargin_iff hdumped).mp ⟨m, hm⟩, hcomputes, fun hsells => ?_, fun hsells => ?_⟩
    · have hshown := (hstock pkg.listing.units.toNat).mpr (.inl ⟨hsells, by omega⟩)
      split_ifs with hgone
      · have := hzero (.inl hgone)
        omega
      · have := hfull hgone hsells.2.2.1
        omega
    · have hshown := (hstock 0).mpr (.inr ⟨hsells, by omega⟩)
      have hone := (hstock 1).not.mp (by omega)
      simp only [hsells, false_and, not_false_eq_true, true_and, false_or, not_lt] at hone
      refine ⟨by omega, by omega, ?_⟩
      by_contra hneg
      simp only [not_or, not_not] at hneg
      have := hfull hneg.1 hneg.2.1
      exact hneg.2.2 (by omega)
  · rintro ⟨hmargin, hcomputes, hsold, hunsold⟩
    obtain ⟨m, hm⟩ := (sharesMargin_iff hdumped).mpr hmargin
    obtain ⟨k, hk, hzero, hfull⟩ := sellableStock_eq hactive hm hcomputes
    refine ⟨fun n => ?_, ⟨m, hm⟩, fun hgone q hq => le_sellableUnits_iff hgone hq⟩
    rw [hk, Option.some.injEq]
    by_cases hsells : Sells py pkg answer
    · have hpool := hsold hsells
      have hshown : (pkg.pool : ℤ) + k = pkg.listing.units := by
        split_ifs at hpool with hgone
        · rw [hpool, hzero (.inl hgone), add_zero]
        · rw [hpool, hfull hgone hsells.2.2.1, zero_add]
      simp only [hsells, true_and, not_true_eq_false, false_and, or_false, hshown]
      exact eq_comm
    · obtain ⟨hmin, hpool, hnothing⟩ := hunsold hsells
      have hshown : (pkg.pool : ℤ) + k = 0 := by
        rw [hpool, Nat.cast_zero, zero_add]
        rcases hnothing with h | h | h
        · exact hzero (.inl h)
        · exact hzero (.inr h)
        · by_cases hgone : pkg.listing.syncError = some "delisted" ∨ ¬MarginFine py pkg
          · exact hzero hgone
          · simp only [not_or, not_not] at hgone
            rw [hfull hgone.1 hgone.2, h]
      simp only [hsells, false_and, not_false_eq_true, true_and, false_or, hshown]
      omega

end Stock

/-! ### Packages -/

/-- The digits of ASCII, and nothing else. -/
def plainPython : Language where
  digits := DigitClass.ascii
  repr _ := ""
  fromisoformat _ := none

/-- The blanks of ASCII are the only spaces. -/
def plainLocale : Locale := ⟨isAsciiBlank, fun _ _ => rfl⟩

/-- An item at 2800, three to a purchase, sold at 3300. -/
def sampleItem (minMargin : Json) (isApproved : Bool) (upstreamMin : ℤ) : ExternalPackage where
  listing := ⟨2800, 5, upstreamMin, some 3, none⟩
  price := 3300
  config := [("min_margin_pct", minMargin)]
  isActive := true
  isApproved := isApproved
  pool := 0

/-- The supplier says the same. -/
def sampleAnswer (upstreamMin : ℤ) : Upstream := ⟨2800, 5, upstreamMin, some 3⟩

theorem fits_ten : Fits ((10 : ℤ) : ℚ) := ⟨10, by decide +kernel, by norm_num⟩

theorem sampleItem_shownRight :
    ShownRight plainPython plainLocale (fun _ => "") (sampleItem (.int 10) true 1) (some (sampleAnswer 1)) := by
  have hmargin : minMarginPct plainPython [("min_margin_pct", .int 10)] = .ok (.finite 10) := by decide +kernel
  have hsells : Sells plainPython (sampleItem (.int 10) true 1) (some (sampleAnswer 1)) :=
    ⟨rfl, by simp, ⟨_, hmargin, by decide +kernel⟩, by decide⟩
  refine ⟨.inr ⟨by norm_num, fits_ten⟩, .inr (.inr ⟨10, by decide +kernel, by decide +kernel⟩), fun _ => rfl, fun h => absurd hsells h⟩

/-- Three can be bought, and three are shown. -/
theorem stock_shown_three :
    sellableStock plainLocale (fun _ => "") (sampleItem (.int 10) true 1) = some ((3 : ℕ) : ℤ) ∧
      Largest plainPython false (sampleItem (.int 10) true 1) (some (sampleAnswer 1)) none 3 := by
  have hdumped : Dumped plainPython (fun _ => "")
      (Json.get (sampleItem (.int 10) true 1).config "min_margin_pct") := trivial
  have hbalance : EnoughBalance (sampleItem (.int 10) true 1) none := by simp [EnoughBalance]
  have hanswer : (sampleItem (.int 10) true 1).listing.Cached (some (sampleAnswer 1)) := rfl
  have hshown := ((stock_shown_iff plainLocale false hdumped rfl hanswer hbalance).mpr sampleItem_shownRight).1 3
  have hstock : sellableStock plainLocale (fun _ => "") (sampleItem (.int 10) true 1) = some ((3 : ℕ) : ℤ) := by
    decide +kernel
  exact ⟨hstock, hshown.mp hstock⟩

/-- What the shop shows and does not sell: a margin that is no plain decimal, a provider that waits for its review,
and a least quantity beyond what there is. And what it sells and does not show: a margin of zero in quotes. -/
theorem shown_but_refused :
    (sellableStock plainLocale (fun _ => "") (sampleItem (.str "5e1") true 1) = some 3 ∧
        precheck plainPython false (sampleItem (.str "5e1") true 1) (some (sampleAnswer 1)) none 1 =
          .error .productUnavailable) ∧
      (sellableStock plainLocale (fun _ => "") (sampleItem .null false 1) = some 3 ∧
        precheck plainPython false (sampleItem .null false 1) (some (sampleAnswer 1)) none 1 =
          .error .providerNotConfigured) ∧
      (sellableStock plainLocale (fun _ => "") (sampleItem .null true 4) = some 3 ∧
        precheck plainPython false (sampleItem .null true 4) (some (sampleAnswer 4)) none 3 =
          .error (.orderQuantityLimit 4)) ∧
      (sellableStock plainLocale (fun _ => "") { sampleItem (.str "0") true 1 with price := 3000 } = some 0 ∧
        (precheck plainPython false { sampleItem (.str "0") true 1 with price := 3000 } (some (sampleAnswer 1)) none
          1).toOption.isSome) := by
  decide +kernel

end Marketplace.Storefront
