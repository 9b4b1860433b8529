import Marketplace.Js.Url

/-!
# The place to go to after the login

`safeInternalRedirect` takes the `next` of a login page and returns a path of the site, or `null`. It looks for a
second slash at the front and for backslashes and line ends, in the value and in what it decodes to, and then
returns what the URL parser made of it.

The parser takes dots and tabs away, which the two looks did not: what is left may begin with two slashes after
all, or decode to something that does. `OpensSecondSlash` are the paths of which this is so, and
`internal_redirect_iff` says that nothing else goes wrong, but for a tab between two slashes in front of a host that
cannot be read.
-/

namespace Marketplace.Redirect

open Js Utf16 Text

/-- A character of `/[\\\0\r\n]/`. -/
def isForbidden (p : CodePoint) : Bool := ['\\', '\x00', '\r', '\n'].any fun c => p = .scalar c

/-- `value.startsWith(text)` -/
def startsWith (value : List CodePoint) (text : List Char) : Bool := (ofChars text).isPrefixOf value

/-- Starts with one slash, not with two, and has no forbidden character. -/
def looksInternal (value : List CodePoint) : Bool :=
  startsWith value ['/'] && !startsWith value ['/', '/'] && !value.any isForbidden

variable (parseHost : HostParser)

def siteBase : List Char := "https://marketplace.invalid/".toList

/-- `target.pathname`, `target.search` and `target.hash`, one after the other. -/
def relativeText (target : Url) : List Char := target.pathname ++ (target.search ++ target.hash)

/-- `safeInternalRedirect`; `none` is `null`. -/
def safeInternalRedirect (value : Option (List CodePoint)) : Except UrlError (Option (List Char)) :=
  match value with
  | none => .ok none
  | some value =>
    if !looksInternal value then .ok none
    else
      match decodeURIComponent value with
      | none => .ok none
      | some decoded =>
        if !looksInternal decoded then .ok none
        else do
          let base ← newUrl parseHost none siteBase
          let target ← newUrl parseHost (some base) (value.map toScalar)
          if target.origin ≠ base.origin then .ok none else .ok (some (relativeText target))

/-! ### What a path opens with -/

/-- The path begins with an empty segment and another, or with a segment that decodes to a slash and more. -/
def OpensSecondSlash (segments : List (List Char)) : Prop :=
  (∃ s rest, segments = [] :: s :: rest) ∨
    ∃ s ∈ segments.head?, ∃ us, Decodes (ofChars s) (.scalar '/' :: us)

/-- What the answer to a value has to be: `null`, or a text that names a path of every site and is its own answer. -/
def IsInternal (answer : Except UrlError (Option (List Char))) : Prop :=
  match answer with
  | .error _ => False
  | .ok none => True
  | .ok (some s) =>
    (∀ (text : List Char) (base : Url), parse parseHost none text = some base → base.scheme = .https →
      ∃ target, parse parseHost (some base) s = some target ∧ target.SameOrigin base) ∧
    safeInternalRedirect parseHost (some (ofChars s)) = .ok (some s)

/-! ### Texts that decode to nothing forbidden -/

/-- A text that decodes, to one without a forbidden character. -/
def Sound (cs : List Char) : Prop := ∃ us, Decodes (ofChars cs) us ∧ ∀ p ∈ us, isForbidden p = false

/-- A character that neither is part of an escape nor forbidden. -/
def IsPlain (c : Char) : Prop := ¬InEscape (.scalar c) ∧ isForbidden (.scalar c) = false

theorem not_inEscape_iff {c : Char} : ¬InEscape (.scalar c) ↔ c ≠ '%' ∧ hexValue c = none := by
  simp [InEscape]

theorem isPlain_slash : IsPlain '/' := ⟨not_inEscape_iff.mpr (by decide), by decide⟩

theorem isPlain_of_endsPath {c : Char} (h : endsPath c = true) : IsPlain c := by
  simp only [endsPath, Bool.or_eq_true, decide_eq_true_eq] at h
  rcases h with rfl | rfl <;> exact ⟨not_inEscape_iff.mpr (by decide), by decide⟩

/-- What is escaped in a path, a query or a fragment is no part of an escape. -/
theorem set_eq_false_of_inEscape {set : Char → Bool} (h : set = pathSet ∨ set = specialQuerySet ∨ set = fragmentSet)
    (c : Char) (hc : InEscape (.scalar c)) : set c = false := by
  rcases hc with hc | ⟨d, hd, hsome⟩
  · obtain rfl := CodePoint.scalar.inj hc
    rcases h with rfl | rfl | rfl <;> decide
  · obtain rfl := CodePoint.scalar.inj hd
    obtain ⟨n, hn⟩ := Option.isSome_iff_exists.mp hsome
    obtain ⟨hlt, hdigit⟩ := exists_hexDigit_of_hexValue hn
    have hall : ∀ n < 16, ∀ c, c = hexDigit n ∨ c = (hexDigit n).toLower →
        pathSet c = false ∧ specialQuerySet c = false ∧ fragmentSet c = false := by
      rintro n hn c (rfl | rfl)
      · have : ∀ n < 16, pathSet (hexDigit n) = false ∧ specialQuerySet (hexDigit n) = false ∧
            fragmentSet (hexDigit n) = false := by decide
        exact this n hn
      · have : ∀ n < 16, pathSet (hexDigit n).toLower = false ∧ specialQuerySet (hexDigit n).toLower = false ∧
            fragmentSet (hexDigit n).toLower = false := by decide
        exact this n hn
    obtain ⟨hpath, hquery, hfragment⟩ := hall n hlt c hdigit
    rcases h with rfl | rfl | rfl <;> assumption

namespace Sound

variable {cs ds : List Char} {c : Char}

theorem nil : Sound [] := ⟨[], .nil, by simp⟩

theorem append (hc : Sound cs) (hd : Sound ds) : Sound (cs ++ ds) := by
  obtain ⟨us, hus, hfree⟩ := hc
  obtain ⟨vs, hvs, hfree'⟩ := hd
  refine ⟨us ++ vs, ?_, fun p hp => ?_⟩
  · rw [ofChars, List.map_append]
    exact hus.append hvs
  · rcases List.mem_append.mp hp with hp | hp
    · exact hfree p hp
    · exact hfree' p hp

theorem cons (hc : IsPlain c) (h : Sound cs) : Sound (c :: cs) := by
  obtain ⟨us, hus, hfree⟩ := h
  refine ⟨.scalar c :: us, .raw (fun he => hc.1 (.inl he)) hus, ?_⟩
  simpa [hc.2] using hfree

theorem of_append_cons (h : Sound (cs ++ c :: ds)) (hc : ¬InEscape (.scalar c)) : Sound cs ∧ Sound ds := by
  obtain ⟨us, hus, hfree⟩ := h
  rw [ofChars, List.map_append, List.map_cons] at hus
  obtain ⟨vs, ws, rfl, hvs, hws⟩ := hus.of_append_cons hc
  exact ⟨⟨vs, hvs, fun p hp => hfree p (by simp [hp])⟩, ⟨ws, hws, fun p hp => hfree p (by simp [hp])⟩⟩

theorem of_cons (h : Sound (c :: ds)) (hc : ¬InEscape (.scalar c)) : Sound ds :=
  (of_append_cons (show Sound ([] ++ c :: ds) from h) hc).2

/-- There is nothing forbidden in the text itself. -/
theorem not_forbidden (h : Sound cs) : (ofChars cs).any isForbidden = false := by
  obtain ⟨us, hus, hfree⟩ := h
  rw [List.any_eq_false]
  intro p hp hforbidden
  have hraw : ¬InEscape p := by
    obtain ⟨c, -, rfl⟩ := List.mem_map.mp hp
    simp only [isForbidden, List.any_cons, List.any_nil, Bool.or_false, Bool.or_eq_true, decide_eq_true_eq,
      CodePoint.scalar.injEq] at hforbidden
    rw [not_inEscape_iff]
    rcases hforbidden with rfl | rfl | rfl | rfl <;> decide
  rw [hfree p (hus.mem hp hraw)] at hforbidden
  cases hforbidden

/-- A text is cut where a class of plain characters begins. -/
theorem span {q : Char → Bool} (hq : ∀ c, q c = false → ¬InEscape (.scalar c)) (h : Sound cs) :
    Sound (cs.takeWhile q) ∧ Sound ((cs.dropWhile q).drop 1) := by
  rcases hdrop : cs.dropWhile q with _ | ⟨c, rest⟩
  · have : cs = cs.takeWhile q := by
      conv_lhs => rw [← List.takeWhile_append_dropWhile (p := q) (l := cs), hdrop, List.append_nil]
    exact ⟨this ▸ h, nil⟩
  · rw [← List.takeWhile_append_dropWhile (p := q) (l := cs), hdrop] at h
    have hc : q c = false := by
      have := List.head_dropWhile_not q (l := cs) (by simp [hdrop])
      simpa [hdrop] using this
    exact h.of_append_cons (hq c hc)

theorem splitOnP {q : Char → Bool} (hq : ∀ c, q c = true → ¬InEscape (.scalar c)) (h : Sound cs) :
    ∀ s ∈ cs.splitOnP q, Sound s := by
  induction hlen : cs.length using Nat.strong_induction_on generalizing cs with
  | _ n ih =>
    have htake : ∀ c ∈ cs.takeWhile fun c => !q c, q c = false := fun c hc => by
      simpa using List.mem_takeWhile_imp hc
    rcases hdrop : cs.dropWhile fun c => !q c with _ | ⟨c, rest⟩
    · have hcs : cs = cs.takeWhile fun c => !q c := by
        conv_lhs => rw [← List.takeWhile_append_dropWhile (p := fun c => !q c) (l := cs), hdrop, List.append_nil]
      rw [List.splitOnP_eq_singleton (hcs ▸ htake)]
      intro s hs
      exact List.mem_singleton.mp hs ▸ h
    · have hcs : cs = (cs.takeWhile fun c => !q c) ++ c :: rest := by
        conv_lhs => rw [← List.takeWhile_append_dropWhile (p := fun c => !q c) (l := cs), hdrop]
      have hc : q c = true := by
        have := List.head_dropWhile_not (fun c => !q c) (l := cs) (by simp [hdrop])
        simpa [hdrop] using this
      have hlt : rest.length < n := by
        rw [← hlen, hcs, List.length_append, List.length_cons]
        omega
      obtain ⟨hfront, hrest⟩ := (hcs ▸ h).of_append_cons (hq c hc)
      intro s hs
      rw [hcs, List.splitOnP_append_cons_of_forall_mem htake c hc] at hs
      rcases List.mem_cons.mp hs with rfl | hs
      · exact hfront
      · exact ih _ hlt hrest rfl s hs

theorem percentEncode {set : Char → Bool} (hset : set = pathSet ∨ set = specialQuerySet ∨ set = fragmentSet)
    (h : Sound cs) : Sound (percentEncode set cs) := by
  obtain ⟨us, hus, hfree⟩ := h
  exact ⟨us, hus.percentEncode (set_eq_false_of_inEscape hset), hfree⟩

/-- What is taken away before the text is read is in no escape. -/
theorem clean (h : Sound cs) : Sound (clean cs) := by
  have hblank : ∀ c : Char, c.toNat ≤ 0x20 → ¬InEscape (.scalar c) := by
    have hall : ∀ n ≤ 0x20, Char.ofNat n ≠ '%' ∧ hexValue (Char.ofNat n) = none := by decide
    intro c hc
    have := hall c.toNat hc
    rw [Char.ofNat_toNat] at this
    exact not_inEscape_iff.mpr this
  obtain ⟨us, hus, hfree⟩ := h
  obtain ⟨left, right, hcs, hleft, hright⟩ := exists_append_stripChars (fun c => c.toNat ≤ 0x20) cs
  rw [hcs, ofChars, List.map_append, List.map_append, List.append_assoc] at hus
  obtain ⟨vs, hvs, hdecodes⟩ := hus.of_raw_append fun p hp => by
    obtain ⟨c, hc, rfl⟩ := List.mem_map.mp hp
    exact hblank c (by simpa using hleft c hc)
  obtain ⟨ws, hws, hdecodes⟩ := hdecodes.of_append_raw fun p hp => by
    obtain ⟨c, hc, rfl⟩ := List.mem_map.mp hp
    exact hblank c (by simpa using hright c hc)
  -- tabs and line ends are blanks as well
  have hkeep : ∀ p, InEscape p → (p ≠ .scalar '\t' && p ≠ .scalar '\n' && p ≠ .scalar '\r') = true := by
    intro p hp
    simp only [Bool.and_eq_true, decide_eq_true_eq]
    refine ⟨⟨?_, ?_⟩, ?_⟩ <;>
    · rintro rfl
      exact hblank _ (by decide) hp
  obtain ⟨xs, hxs, hdecodes⟩ := hdecodes.filter _ hkeep
  refine ⟨xs, ?_, fun p hp => hfree p (hvs.subset (hws.subset (hxs.subset hp)))⟩
  rw [List.filter_map] at hdecodes
  convert hdecodes using 1
  rw [ofChars, Js.clean]
  refine congrArg _ (List.filter_congr fun c _ => ?_)
  simp

end Sound

/-- What a value decodes to says what its characters decode to. -/
theorem sound_toScalar {value us : List CodePoint} (h : Decodes value us) (hus : us.any isForbidden = false) :
    Sound (value.map toScalar) := by
  refine ⟨_, h.toScalar, fun p hp => ?_⟩
  obtain ⟨q, hq, rfl⟩ : ∃ q ∈ us, p = .scalar (toScalar q) := by
    simpa [ofChars, eq_comm] using hp
  rw [List.any_eq_false] at hus
  cases q with
  | scalar c =>
    have := hus _ hq
    rwa [Bool.not_eq_true] at this
  | lone u =>
    show isForbidden (.scalar '\uFFFD') = false
    decide

/-! ### The answer -/

/-- The segments of what is read as a path. -/
def pathSegments (cs : List Char) : List (List Char) := readPath .https [] (cs.takeWhile (!endsPath ·))

section Answer

variable {parseHost}

theorem safeInternalRedirect_of_refused {value : List CodePoint} (h : looksInternal value = false) :
    safeInternalRedirect parseHost (some value) = .ok none := by
  simp [safeInternalRedirect, h]

theorem safeInternalRedirect_of_decodes {value us : List CodePoint} (h : Decodes value us)
    (hus : looksInternal us = false) : safeInternalRedirect parseHost (some value) = .ok none := by
  rw [← decodeURIComponent_eq_some_iff] at h
  by_cases hvalue : looksInternal value = true <;> simp [safeInternalRedirect, hvalue, h, hus]

/-- The site as the code writes it. -/
def site (host : List Char) : Url := { Url.blank .https with host := some host, path := .list [[]] }

theorem parse_siteBase {host : List Char} (hhost : parseHost true "marketplace.invalid".toList = some host) :
    parse parseHost none siteBase = some (site host) := by
  have hclean : clean siteBase = siteBase := by decide
  have hscheme : readScheme siteBase = some (.https, "//marketplace.invalid/".toList) := by decide
  have hspan : ("//marketplace.invalid/".toList.dropWhile (isSlash true)).takeWhile (inAuthority true) =
        "marketplace.invalid".toList ∧
      ("//marketplace.invalid/".toList.dropWhile (isSlash true)).dropWhile (inAuthority true) = ['/'] := by
    decide
  have hread : readAuthority parseHost (.blank .https) "marketplace.invalid".toList = _ :=
    readAuthority_host (by decide) (by decide) (by decide)
  generalize "//marketplace.invalid/".toList = rest at hscheme hspan
  generalize "marketplace.invalid".toList = name at hhost hspan hread
  have hspecial : (Url.blank .https).scheme.isSpecial = true := rfl
  rw [hspecial, hhost, Option.map_some] at hread
  simp only [parse, hclean, hscheme, afterScheme, Option.filter_none, ignoreSlashes, authorityState]
  rw [if_neg (by decide), if_pos (by rfl), hspecial, hspan.1, hspan.2, hread]
  rfl

/-- What is not refused is read by the parser. -/
theorem safeInternalRedirect_of_accepted {value us : List CodePoint} {host : List Char}
    (hhost : parseHost true "marketplace.invalid".toList = some host) (hvalue : looksInternal value = true)
    (h : Decodes value us) (hus : looksInternal us = true) :
    safeInternalRedirect parseHost (some value) =
      match parse parseHost (some (site host)) (value.map toScalar) with
      | none => .error .typeError
      | some target => .ok (if target.origin ≠ (site host).origin then none else some (relativeText target)) := by
  rw [← decodeURIComponent_eq_some_iff] at h
  have hbase : newUrl parseHost none siteBase = .ok (site host) := by rw [newUrl, parse_siteBase hhost]
  have hbind : ∀ f : Url → Except UrlError (Option (List Char)), (newUrl parseHost none siteBase >>= f) = f (site host) := by
    intro f
    rw [hbase]
    rfl
  simp only [safeInternalRedirect, hvalue, h, hus, hbind, Bool.not_true, Bool.false_eq_true, if_false]
  rw [newUrl]
  cases parse parseHost (some (site host)) (value.map toScalar) with
  | none => rfl
  | some target =>
    by_cases hsame : target.origin ≠ (site host).origin
    · exact (if_pos hsame).trans (congrArg _ (if_pos hsame).symm)
    · exact (if_neg hsame).trans (congrArg _ (if_neg hsame).symm)

theorem not_inEscape_of_isSlash {c : Char} (h : isSlash true c = true) : ¬InEscape (.scalar c) := by
  simp only [isSlash, Bool.true_and, Bool.or_eq_true, decide_eq_true_eq] at h
  rcases h with rfl | rfl <;> exact not_inEscape_iff.mpr (by decide)

theorem sound_pathText {segments : List (List Char)} (h : ∀ s ∈ segments, Sound s) : Sound (Url.pathText segments) := by
  induction segments with
  | nil => exact .nil
  | cons s segments ih =>
    rw [pathText_cons]
    exact .cons isPlain_slash (.append (h s (by simp)) (ih fun t ht => h t (by simp [ht])))

theorem sound_behind {mark : Char} (hmark : IsPlain mark) {o : Option (List Char)} (h : ∀ cs ∈ o, Sound cs) :
    Sound (Url.behind mark o) := by
  rcases o with _ | _ | ⟨d, cs⟩
  · exact .nil
  · exact .nil
  · exact .cons hmark (h _ rfl)

theorem sound_readFragment {cs : List Char} (h : Sound (cs.drop 1)) : ∀ f ∈ readFragment cs, Sound f := by
  rcases cs with _ | ⟨c, cs⟩
  · rintro _ ⟨⟩
  · rintro _ ⟨⟩
    exact Sound.percentEncode (.inr (.inr rfl)) h

theorem sound_readTail {cs : List Char} (h : Sound (cs.drop 1)) :
    (∀ q ∈ (readTail true cs).1, Sound q) ∧ ∀ f ∈ (readTail true cs).2, Sound f := by
  rw [readTail.eq_def]
  split
  · next cs =>
    have hhash : ∀ c : Char, decide (c ≠ '#') = false → ¬InEscape (.scalar c) := by
      intro c hc
      obtain rfl : c = '#' := by simpa using hc
      exact (isPlain_of_endsPath (by decide)).1
    obtain ⟨hquery, hfragment⟩ := Sound.span hhash (show Sound cs from h)
    refine ⟨?_, sound_readFragment hfragment⟩
    rintro _ ⟨⟩
    exact Sound.percentEncode (.inr (.inl rfl)) hquery
  · exact ⟨by rintro _ ⟨⟩, sound_readFragment h⟩

theorem sound_pathSegments {cs : List Char} (h : Sound cs) : ∀ s ∈ pathSegments cs, Sound s := by
  have hends : ∀ c, (!endsPath c) = false → ¬InEscape (.scalar c) := fun c hc =>
    (isPlain_of_endsPath (by simpa using hc)).1
  refine forall_mem_walk (by decide) .nil (by simp) fun s hs _ _ => ?_
  exact (Sound.splitOnP (fun c hc => not_inEscape_of_isSlash hc) (h.span hends).1 s hs).percentEncode (.inl rfl)

variable {u : Url} {cs : List Char}

theorem relativeText_pathState (hu : u.scheme = .https) :
    relativeText (pathState u [] cs) = Url.pathText (pathSegments cs) ++
      (Url.behind '?' (readTail true (cs.dropWhile (!endsPath ·))).1 ++
        Url.behind '#' (readTail true (cs.dropWhile (!endsPath ·))).2) := by
  simp only [relativeText, Url.pathname, Url.search, Url.hash, pathState, hu]
  rfl

/-- **The answer decodes to nothing forbidden.** -/
theorem sound_relativeText (hu : u.scheme = .https) (h : Sound cs) : Sound (relativeText (pathState u [] cs)) := by
  have hends : ∀ c, (!endsPath c) = false → ¬InEscape (.scalar c) := fun c hc =>
    (isPlain_of_endsPath (by simpa using hc)).1
  obtain ⟨hquery, hfragment⟩ := sound_readTail (h.span hends).2
  rw [relativeText_pathState hu]
  exact .append (sound_pathText (sound_pathSegments h)) (.append
    (sound_behind (isPlain_of_endsPath (by decide)) hquery) (sound_behind (isPlain_of_endsPath (by decide)) hfragment))

theorem isBase_of_https {base : Url} {text : List Char} (h : parse parseHost none text = some base)
    (hscheme : base.scheme = .https) : IsBase base :=
  isBase_of_parse h (by rw [hscheme]; rfl)

theorem isBase_site (host : List Char) : IsBase (site host) :=
  ⟨rfl, [], [], rfl, fun t ht => by
    obtain rfl := List.mem_singleton.mp ht
    exact isSegment_nil⟩

/-- A text looks internal where its second character is no slash. -/
theorem looksInternal_cons {us : List CodePoint} (h : us.any isForbidden = false) :
    looksInternal (.scalar '/' :: us) = true ↔ us.head? ≠ some (.scalar '/') := by
  have hany : (CodePoint.scalar '/' :: us).any isForbidden = false := by
    rw [List.any_cons, h]
    decide
  rw [looksInternal, hany]
  cases us with
  | nil => simp [startsWith, ofChars]
  | cons p us =>
    simp only [startsWith, ofChars, List.map_cons, List.map_nil, List.isPrefixOf, beq_self_eq_true, Bool.true_and,
      Bool.and_true, Bool.not_false, Bool.not_eq_true', beq_eq_false_iff_ne, List.head?_cons, ne_eq,
      Option.some.injEq]
    exact ne_comm

theorem eq_nil_of_decodes_nil {ps : List CodePoint} (h : Decodes ps []) : ps = [] := by
  cases h
  rfl

/-- The character behind the first slash, once the text is decoded. -/
theorem opensSecondSlash_iff {s : List Char} {segments : List (List Char)} {tail : List Char} {us : List CodePoint}
    (htail : ∀ c ∈ tail.head?, endsPath c = true)
    (hus : Decodes (ofChars (s ++ (Url.pathText segments ++ tail))) us) :
    OpensSecondSlash (s :: segments) ↔ us.head? = some (.scalar '/') := by
  have hhead : ∀ c ∈ (Url.pathText segments ++ tail).head?, c = '/' ∧ segments ≠ [] ∨ endsPath c = true := by
    intro c hc
    cases segments with
    | nil => exact .inr (htail c hc)
    | cons t segments =>
      rw [pathText_cons] at hc
      exact .inl ⟨(Option.some.inj hc).symm, by simp⟩
  have hcut : (Url.pathText segments ++ tail = [] ∧ Decodes (ofChars s) us) ∨
      ∃ d vs ws, (d = '/' ∧ segments ≠ [] ∨ endsPath d = true) ∧ us = vs ++ .scalar d :: ws ∧ Decodes (ofChars s) vs := by
    rcases hrest : Url.pathText segments ++ tail with _ | ⟨d, rest⟩
    · rw [hrest, List.append_nil] at hus
      exact .inl ⟨rfl, hus⟩
    · rw [hrest] at hhead hus
      have hd := hhead d rfl
      have hplain : IsPlain d := by
        rcases hd with ⟨rfl, -⟩ | hd
        · exact isPlain_slash
        · exact isPlain_of_endsPath hd
      rw [ofChars, List.map_append, List.map_cons] at hus
      obtain ⟨vs, ws, rfl, hvs, -⟩ := hus.of_append_cons hplain.1
      exact .inr ⟨d, vs, ws, hd, rfl, hvs⟩
  constructor
  · rintro (⟨t, rest, heq⟩ | ⟨t, ht, vs, hvs⟩)
    · obtain ⟨rfl, rfl⟩ := List.cons.inj heq
      rw [pathText_cons] at hus
      obtain ⟨vs, rfl, -⟩ := (Decodes.cons_iff (by decide)).mp hus
      rfl
    · obtain rfl := Option.some.inj ht
      rcases hcut with ⟨-, h⟩ | ⟨d, ws, xs, -, rfl, h⟩
      · rw [h.unique hvs]
        rfl
      · rw [h.unique hvs]
        rfl
  · intro h
    rcases hcut with ⟨-, hs⟩ | ⟨d, vs, ws, hd, rfl, hs⟩
    · obtain ⟨vs, rfl⟩ : ∃ vs, us = .scalar '/' :: vs := by
        cases us with
        | nil => cases h
        | cons p us => exact ⟨us, by rw [Option.some.inj h]⟩
      exact .inr ⟨s, rfl, vs, hs⟩
    · cases vs with
      | nil =>
        obtain rfl := List.map_eq_nil_iff.mp (eq_nil_of_decodes_nil hs)
        obtain rfl : d = '/' := by simpa using h
        rcases hd with ⟨-, hne⟩ | hd
        · obtain ⟨t, rest, rfl⟩ := List.exists_cons_of_ne_nil hne
          exact .inl ⟨t, rest, rfl⟩
        · exact absurd hd (by decide)
      | cons p vs =>
        obtain rfl : p = .scalar '/' := by simpa using h
        exact .inr ⟨s, rfl, vs, hs⟩

theorem behind_filter (mark : Char) (o : Option (List Char)) : Url.behind mark (o.filter (· ≠ [])) = Url.behind mark o := by
  rcases o with _ | _ | ⟨d, cs⟩ <;> rfl

theorem map_toScalar_ofChars (cs : List Char) : (ofChars cs).map toScalar = cs := by
  rw [ofChars, List.map_map]
  exact List.map_id cs

/-- **The answer is internal exactly where its path does not open with a second slash.** -/
theorem isInternal_relativeText_iff {host : List Char} (hhost : parseHost true "marketplace.invalid".toList = some host)
    (hu : u.scheme = .https) (h : Sound cs) :
    IsInternal parseHost (.ok (some (relativeText (pathState u [] cs)))) ↔ ¬OpensSecondSlash (pathSegments cs) := by
  obtain ⟨s, segments, hsegs, hall⟩ : ∃ s segments, pathSegments cs = s :: segments ∧
      ∀ t ∈ s :: segments, IsSegment t := by
    have hweb : IsWeb (pathState u [] cs) := isWeb_pathState (by rw [hu]; rfl) (by simp) cs
    obtain ⟨s, segments, hpath, hall⟩ := hweb.path
    refine ⟨s, segments, ?_, hall⟩
    have := Path.list.inj hpath
    rw [hu] at this
    exact this
  have hsound := sound_relativeText hu h
  have htext : relativeText (pathState u [] cs) = _ := relativeText_pathState hu
  obtain ⟨hquery, hfragment⟩ := isTail_readTail (cs.dropWhile (!endsPath ·))
  rw [hsegs] at htext ⊢
  generalize (readTail true (cs.dropWhile (!endsPath ·))).1 = query at *
  generalize (readTail true (cs.dropWhile (!endsPath ·))).2 = fragment at *
  have hends := head?_behind query fragment
  rw [htext] at hsound ⊢
  have hcons : Url.pathText (s :: segments) ++ (Url.behind '?' query ++ Url.behind '#' fragment) =
      '/' :: (s ++ (Url.pathText segments ++ (Url.behind '?' query ++ Url.behind '#' fragment))) := by
    rw [pathText_cons, List.cons_append, List.append_assoc]
  have hraw := hsound.not_forbidden
  -- what the text decodes to behind its first character
  obtain ⟨ws, hws, hfree⟩ := hcons ▸ hsound
  obtain ⟨us, rfl, hus⟩ := (Decodes.cons_iff (by decide)).mp hws
  have hopens := opensSecondSlash_iff hends hus
  have hfree : us.any isForbidden = false := List.any_eq_false.mpr fun p hp => by
    rw [hfree p (List.mem_cons_of_mem _ hp)]
    decide
  constructor
  · rintro ⟨-, hfixed⟩ hslash
    rw [hcons] at hfixed
    have hlooks : looksInternal (.scalar '/' :: us) = false := by
      rw [← Bool.not_eq_true, looksInternal_cons hfree, not_not]
      exact hopens.mp hslash
    rw [safeInternalRedirect_of_decodes hws hlooks] at hfixed
    cases hfixed
  · intro hslash
    have hparse : ∀ base, IsBase base → parse parseHost (some base)
        (Url.pathText (s :: segments) ++ (Url.behind '?' query ++ Url.behind '#' fragment)) = _ := fun base hbase =>
      parse_pathText hbase hall (fun hs => by
        by_contra hne
        obtain ⟨t, rest, rfl⟩ := List.exists_cons_of_ne_nil hne
        exact hslash (.inl ⟨t, rest, by rw [hs]⟩)) hquery hfragment
    refine ⟨fun text base hbase hscheme => ⟨_, hparse base (isBase_of_https hbase hscheme), rfl, ?_⟩, ?_⟩
    · simp [Url.origin, hscheme, Scheme.hasOrigin, Scheme.isSpecial]
    · have hfirst : us.head? ≠ some (.scalar '/') := fun hhead => hslash (hopens.mpr hhead)
      have hvalue : looksInternal (ofChars (Url.pathText (s :: segments) ++
          (Url.behind '?' query ++ Url.behind '#' fragment))) = true := by
        rw [hcons, ofChars, List.map_cons, List.any_cons, Bool.or_eq_false_iff] at hraw
        rw [hcons, ofChars, List.map_cons, looksInternal_cons hraw.2]
        intro hhead
        -- a slash in the text is one in what it decodes to
        generalize List.map CodePoint.scalar _ = ps at hus hhead
        cases ps with
        | nil => cases hhead
        | cons p ps =>
          obtain rfl := Option.some.inj hhead
          obtain ⟨vs, rfl, -⟩ := (Decodes.cons_iff (by decide)).mp hus
          exact hfirst rfl
      have haccepted := safeInternalRedirect_of_accepted hhost hvalue (by rw [hcons]; exact hws)
        ((looksInternal_cons hfree).mpr hfirst)
      rw [map_toScalar_ofChars, hparse _ (isBase_site host)] at haccepted
      rw [haccepted]
      refine (congrArg Except.ok (if_neg (not_not.mpr rfl))).trans ?_
      simp only [relativeText, Url.pathname, Url.search, Url.hash, behind_filter]

/-! ### All values -/

namespace Sound

theorem dropWhile_slash (h : Sound cs) : Sound (cs.dropWhile (isSlash true)) := by
  obtain ⟨us, hus, hfree⟩ := h
  rw [← List.takeWhile_append_dropWhile (p := isSlash true) (l := cs), ofChars, List.map_append] at hus
  obtain ⟨vs, hvs, hdecodes⟩ := hus.of_raw_append fun p hp => by
    obtain ⟨c, hc, rfl⟩ := List.mem_map.mp hp
    exact not_inEscape_of_isSlash (List.mem_takeWhile_imp hc)
  exact ⟨vs, hdecodes, fun p hp => hfree p (hvs.subset hp)⟩

theorem behindAuthority (h : Sound cs) : Sound (behindAuthority (cs.dropWhile (inAuthority true))) := by
  have hends : ∀ c, inAuthority true c = false → isSlash true c = true ∨ endsPath c = true := by
    intro c hc
    rw [inAuthority, Bool.not_eq_false', Bool.or_eq_true] at hc
    exact hc
  have hrest := (h.span fun c hc => (hends c hc).elim not_inEscape_of_isSlash fun he => (isPlain_of_endsPath he).1).2
  rcases hdrop : cs.dropWhile (inAuthority true) with _ | ⟨c, rest⟩
  · exact .nil
  · rw [hdrop] at hrest
    have hc : inAuthority true c = false := by
      have := List.head_dropWhile_not (inAuthority true) (l := cs) (by simp [hdrop])
      simpa [hdrop] using this
    rw [Js.behindAuthority]
    split_ifs with hslash
    · exact hrest
    · exact .cons (isPlain_of_endsPath ((hends c hc).resolve_left hslash)) hrest

end Sound

end Answer

/-- The value is refused before it is parsed. -/
def isRefused (value : List CodePoint) : Bool :=
  !looksInternal value || (decodeURIComponent value).all fun decoded => !looksInternal decoded

/-- Without its tabs and dot segments the path of the value does not open with a second slash; and if the value begins
with two slashes without its tabs, what follows them can be read as the authority of a site. -/
def StaysInside (value : List CodePoint) : Prop :=
  let cs := (clean (value.map toScalar)).drop 1
  if cs.head?.any (isSlash true) then
    let rest := cs.dropWhile (isSlash true)
    ∃ u, readAuthority parseHost (.blank .https) (rest.takeWhile (inAuthority true)) = some u ∧
      (u.host = parseHost true "marketplace.invalid".toList ∧ u.port = none →
        ¬OpensSecondSlash (pathSegments (behindAuthority (rest.dropWhile (inAuthority true)))))
  else ¬OpensSecondSlash (pathSegments cs)

variable {parseHost}

/-- A value that is not refused, as the parser sees it. -/
theorem exists_clean_eq {value : List CodePoint} (h : looksInternal value = true) :
    ∃ cs, clean (value.map toScalar) = '/' :: cs := by
  simp only [looksInternal, Bool.and_eq_true, startsWith] at h
  obtain ⟨rest, rfl⟩ := List.isPrefixOf_iff_prefix.mp h.1.1
  obtain ⟨cs, hcs⟩ := exists_stripChars_cons (p := fun c => decide (c.toNat ≤ 0x20)) (c := '/') (by decide)
    (rest.map toScalar)
  refine ⟨cs.filter fun c => c ≠ '\t' && c ≠ '\n' && c ≠ '\r', ?_⟩
  show (stripChars _ ('/' :: rest.map toScalar)).filter _ = _
  rw [hcs]
  rfl

theorem origin_ne_site_iff {u : Url} {host : List Char} (hu : u.scheme = .https) :
    u.origin ≠ (site host).origin ↔ ¬(u.host = some host ∧ u.port = none) := by
  simp [Url.origin, hu, site, Url.blank, Scheme.hasOrigin, Scheme.isSpecial]

/-- **When the answer to a value is internal.** -/
theorem internal_redirect_iff {host : List Char} (hhost : parseHost true "marketplace.invalid".toList = some host)
    (value : List CodePoint) :
    IsInternal parseHost (safeInternalRedirect parseHost (some value)) ↔
      isRefused value = true ∨ StaysInside parseHost value := by
  by_cases hvalue : looksInternal value = true
  swap
  · rw [safeInternalRedirect_of_refused (by simpa using hvalue)]
    simp [IsInternal, isRefused, hvalue]
  rcases hdecode : decodeURIComponent value with _ | us
  · have : safeInternalRedirect parseHost (some value) = .ok none := by simp [safeInternalRedirect, hvalue, hdecode]
    simp [this, IsInternal, isRefused, hdecode]
  have hdecodes := decodeURIComponent_eq_some_iff.mp hdecode
  by_cases hus : looksInternal us = true
  swap
  · rw [safeInternalRedirect_of_decodes hdecodes (by simpa using hus)]
    simp [IsInternal, isRefused, hdecode, hus]
  have hrefused : isRefused value = false := by simp [isRefused, hvalue, hdecode, hus]
  -- what is left for the parser behind the first slash
  obtain ⟨cs, hcs⟩ := exists_clean_eq hvalue
  have hsound : Sound cs := by
    have hfree : us.any isForbidden = false := by
      simp only [looksInternal, Bool.and_eq_true, Bool.not_eq_true'] at hus
      exact hus.2
    have hclean := (sound_toScalar hdecodes hfree).clean
    rw [hcs] at hclean
    exact hclean.of_cons isPlain_slash.1
  rw [safeInternalRedirect_of_accepted hhost hvalue hdecodes hus, hrefused, StaysInside, hcs]
  simp only [Bool.false_eq_true, false_or, List.drop_succ_cons, List.drop_zero]
  by_cases hslash : cs.head?.any (isSlash true) = true
  · obtain ⟨c, rest, rfl, hc⟩ : ∃ c rest, cs = c :: rest ∧ isSlash true c = true := by
      cases cs with
      | nil => cases hslash
      | cons c rest => exact ⟨c, rest, rfl, by simpa using hslash⟩
    rw [parse_authority (isBase_site host) hcs hc, if_pos hslash, ignoreSlashes, authorityState,
      List.dropWhile_cons_of_pos hc]
    have hspecial : (Url.blank (site host).scheme).scheme.isSpecial = true := rfl
    have hblank : Url.blank (site host).scheme = .blank .https := rfl
    rw [hspecial, hblank]
    rcases hread : readAuthority parseHost (.blank .https)
      ((rest.dropWhile (isSlash true)).takeWhile (inAuthority true)) with _ | w
    · simp [IsInternal]
    · have hw : w.scheme = .https := scheme_readAuthority hread
      have hrest : Sound (rest.dropWhile (isSlash true)) :=
        (hsound.of_cons (not_inEscape_of_isSlash hc)).dropWhile_slash
      have horigin : (pathState w [] (behindAuthority ((rest.dropWhile (isSlash true)).dropWhile
          (inAuthority true)))).origin ≠ (site host).origin ↔ ¬(w.host = some host ∧ w.port = none) :=
        origin_ne_site_iff hw
      rw [Option.map_some, pathStart_eq (by rw [hw]; rfl), hhost]
      simp only [Option.some.injEq, exists_eq_left']
      by_cases hsame : w.host = some host ∧ w.port = none
      · rw [if_neg fun h => horigin.mp h hsame, isInternal_relativeText_iff hhost hw hrest.behindAuthority]
        exact ⟨fun h _ => h, fun h => h hsame⟩
      · rw [if_pos (horigin.mpr hsame)]
        exact ⟨fun _ h => absurd h hsame, fun _ => trivial⟩
  · have hhead : ∀ c ∈ cs.head?, isSlash true c = false := by
      intro c hc
      rw [hc] at hslash
      simpa using hslash
    rw [parse_absolute_path (isBase_site host) hcs hhead, if_neg hslash]
    dsimp only
    have hsame : ¬(pathState (site host) [] cs).origin ≠ (site host).origin := not_not.mpr rfl
    rw [if_neg hsame]
    exact isInternal_relativeText_iff hhost rfl hsound

/-! ### A path that opens with a second slash -/

/-- **Two dots and an empty segment lead off the site**: the answer is another host for every base, and `null` when it is
checked again. -/
theorem dot_segment_redirect :
    safeInternalRedirect plainHost (some (ofChars "/.//evil.example".toList)) = .ok (some "//evil.example".toList) ∧
      ((parse plainHost (some (site "shop.example".toList)) "//evil.example".toList).bind Url.host) =
        some "evil.example".toList ∧
      safeInternalRedirect plainHost (some (ofChars "//evil.example".toList)) = .ok none ∧
      ¬IsInternal plainHost (safeInternalRedirect plainHost (some (ofChars "/.//evil.example".toList))) := by
  have hanswer : safeInternalRedirect plainHost (some (ofChars "/.//evil.example".toList)) =
      .ok (some "//evil.example".toList) := by decide
  have hagain : safeInternalRedirect plainHost (some (ofChars "//evil.example".toList)) = .ok none := by decide
  refine ⟨hanswer, by decide, hagain, ?_⟩
  rw [hanswer]
  rintro ⟨-, hfixed⟩
  rw [hagain] at hfixed
  cases hfixed

/-- The theorem at a value with a path. -/
theorem internal_redirect_iff_orders :
    IsInternal plainHost (safeInternalRedirect plainHost (some (ofChars "/orders?tab=1".toList))) := by
  have hhost : plainHost true "marketplace.invalid".toList = some "marketplace.invalid".toList := by decide
  refine (internal_redirect_iff hhost _).mpr (.inr ?_)
  have hsegments : pathSegments "orders?tab=1".toList = ["orders".toList] := by decide
  have hclean : (clean ((ofChars "/orders?tab=1".toList).map toScalar)).drop 1 = "orders?tab=1".toList := by
    decide
  have hdecodes : decodeURIComponent (ofChars "orders".toList) = some (ofChars "orders".toList) := by decide
  rw [StaysInside, hclean, hsegments]
  simp only
  rw [if_neg (by decide)]
  rintro (⟨s, rest, heq⟩ | ⟨s, hs, us, hus⟩)
  · cases heq
  · obtain rfl := Option.some.inj hs
    have hhead : (ofChars "orders".toList).head? ≠ some (.scalar '/') := by decide
    rw [← hus.unique (decodeURIComponent_eq_some_iff.mp hdecodes)] at hhead
    exact hhead rfl

end Marketplace.Redirect
