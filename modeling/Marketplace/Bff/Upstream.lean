import Marketplace.Js.Url
import Marketplace.Lists.MapM
import Marketplace.Python.Json
import Marketplace.Python.Unquote

/-!
# The address of a call to the backend

The catch-all route of the BFF has the path of a call as a list of segments. `buildUpstreamTarget` decodes them, joins
them for the gates (`path`), and has the URL parser put them, encoded again, behind the base of the API (`target`).
The gates of the BFF look at `path`; the backend looks at the path of the request it gets, which is `target`'s.

What the parser is given is a relative text, so where the first segment is empty it begins with a slash and is not put
behind the base: the backend is asked for a path the gates did not see. `upstream_faithful_iff` is when the two
agree: the first segment is not empty, and the base of the API ends its own path with a slash and is no gated path itself.
-/

namespace Marketplace.Upstream

open Js Utf16 Python

/-! ### The code -/

/-- What the loop over the segments makes of one of them. -/
def normalizeSegment (segment : List CodePoint) : Option (List CodePoint) :=
  (decodeURIComponent segment).filter fun decoded =>
    !(decoded = [.scalar '.'] || decoded = [.scalar '.', .scalar '.'] || decoded.contains (.scalar '/') ||
      decoded.contains (.scalar '\\') || decoded.contains (.scalar '\x00') || decoded.contains (.scalar '%'))

/-- What `buildUpstreamTarget` returns. -/
structure UpstreamTarget where
  path : List CodePoint
  target : Url
  deriving DecidableEq

/-- `segments.map(encodeURIComponent)` -/
def encodeSegments (segments : List (List CodePoint)) : Except UrlError (List (List Char)) :=
  match segments.mapM encodeURIComponent with
  | some encoded => .ok encoded
  | none => .error .uriError

/-- The base of the API with one slash at its end. -/
def baseText (apiBase : List CodePoint) : List Char :=
  ((apiBase.reverse.dropWhile (· = .scalar '/')).reverse.map toScalar) ++ ['/']

/-- `normalizedSegments.join("/")` -/
def joinSegments (segments : List (List CodePoint)) : List CodePoint := List.intercalate [.scalar '/'] segments

variable (parseHost : HostParser)

def buildUpstreamTarget (segments : List (List CodePoint)) (apiBase : List CodePoint) :
    Except UrlError (Option UpstreamTarget) :=
  match segments.mapM normalizeSegment with
  | none => .ok none
  | some normalizedSegments =>
    if normalizedSegments.head? = some (ofChars "internal".toList) then .ok none
    else do
      let base ← newUrl parseHost none (baseText apiBase)
      let encoded ← encodeSegments normalizedSegments
      let target ← newUrl parseHost (some base) (List.intercalate ['/'] encoded)
      if target.origin ≠ base.origin || !base.pathname.isPrefixOf target.pathname then .ok none
      else .ok (some ⟨joinSegments normalizedSegments, target⟩)

/-- `isAdminApiPath`, of the BFF. -/
def isAdminApiPath (path : List CodePoint) : Bool :=
  path = ofChars "auth/admin/login".toList || path = ofChars "admin".toList ||
    (ofChars "admin/".toList).isPrefixOf path

/-- `is_admin_network_path`, of the backend. -/
def isAdminNetworkPath (path : List Char) : Bool :=
  path = "/auth/admin/login".toList || path = "/admin".toList || "/admin/".toList.isPrefixOf path

/-! ### The property -/

/-- The path of the request as the backend reads it. -/
def requestPath (u : Url) : List Char := unquote u.pathname

/-- The first segment of the path is `internal`. -/
def NamesInternal (path : List Char) : Prop := path = "/internal".toList ∨ "/internal/".toList <+: path

/-- The request goes to the segments that were given, and the gates saw them. -/
structure Faithful (base : Url) (segments : List (List CodePoint)) (upstream : UpstreamTarget) : Prop where
  origin : upstream.target.SameOrigin base
  segments : ∃ rest, upstream.target.pathname = base.pathname ++ rest ∧
    (rest.splitOn '/').mapM (fun s => decodeURIComponent (ofChars s)) = some segments
  admin : isAdminNetworkPath (requestPath upstream.target) = true → isAdminApiPath upstream.path = true
  internal : ¬NamesInternal (requestPath upstream.target)

/-- When it does, by the base of the API and the decoded segments. -/
structure RoutesAlike (base : Url) (segments : List (List CodePoint)) : Prop where
  hasOrigin : base.scheme.hasOrigin = true
  first : ∃ s rest, segments = s :: rest ∧ (s = [] → rest = [])
  slash : segments = [[]] ∨ base.pathname.getLast? = some '/'
  internal : ¬NamesInternal (requestPath base)
  admin : isAdminNetworkPath (requestPath base) = true → isAdminApiPath (joinSegments segments) = true
  login : requestPath base = "/auth/admin/".toList → joinSegments segments ≠ ofChars "login".toList

/-! ### What is returned -/

/-- The steps of a call that returns. -/
structure Returned (segments : List (List CodePoint)) (base : Url) (decoded : List (List CodePoint))
    (encoded : List (List Char)) (upstream : UpstreamTarget) : Prop where
  normalized : segments.mapM normalizeSegment = some decoded
  head : decoded.head? ≠ some (ofChars "internal".toList)
  encodes : decoded.mapM encodeURIComponent = some encoded
  target : parse parseHost (some base) (List.intercalate ['/'] encoded) = some upstream.target
  origin : upstream.target.origin = base.origin
  isPrefix : base.pathname <+: upstream.target.pathname
  path : upstream.path = joinSegments decoded

variable {parseHost}

theorem newUrl_eq_ok {base : Option Url} {text : List Char} {u : Url} (h : newUrl parseHost base text = .ok u) :
    parse parseHost base text = some u := by
  rw [newUrl] at h
  split at h
  · next heq => rw [heq, Except.ok.inj h]
  · cases h

theorem encodeSegments_eq_ok {segments : List (List CodePoint)} {encoded : List (List Char)}
    (h : encodeSegments segments = .ok encoded) : segments.mapM encodeURIComponent = some encoded := by
  rw [encodeSegments] at h
  split at h
  · next heq => rw [heq, Except.ok.inj h]
  · cases h

theorem returned_of_ok {segments : List (List CodePoint)} {apiBase : List CodePoint} {upstream : UpstreamTarget}
    (h : buildUpstreamTarget parseHost segments apiBase = .ok (some upstream)) :
    ∃ base decoded encoded, parse parseHost none (baseText apiBase) = some base ∧
      Returned parseHost segments base decoded encoded upstream := by
  rw [buildUpstreamTarget] at h
  split at h
  · cases h
  · next decoded hdecoded =>
    split_ifs at h with hhead
    · cases h
    obtain ⟨base, hbase, h⟩ := bind_eq_ok.mp h
    obtain ⟨encoded, hencoded, h⟩ := bind_eq_ok.mp h
    obtain ⟨target, htarget, h⟩ := bind_eq_ok.mp h
    split_ifs at h with hif
    · cases h
    obtain rfl := Option.some.inj (Except.ok.inj h)
    simp only [ne_eq, Bool.or_eq_true, decide_eq_true_eq, Bool.not_eq_true', not_or, not_not,
      Bool.not_eq_false] at hif
    exact ⟨base, decoded, encoded, newUrl_eq_ok hbase, hdecoded, hhead, encodeSegments_eq_ok hencoded,
      newUrl_eq_ok htarget, hif.1, List.isPrefixOf_iff_prefix.mp hif.2, rfl⟩

/-! ### Segments -/

/-- A segment that is let through. -/
structure IsNormal (segment : List CodePoint) : Prop where
  no_dot : segment ≠ [.scalar '.']
  no_dots : segment ≠ [.scalar '.', .scalar '.']
  no_slash : .scalar '/' ∉ segment

theorem isNormal_of_normalizeSegment {segment decoded : List CodePoint} (h : normalizeSegment segment = some decoded) :
    decodeURIComponent segment = some decoded ∧ IsNormal decoded := by
  obtain ⟨hdecode, hnormal⟩ := Option.filter_eq_some_iff.mp h
  simp only [Bool.not_eq_true', Bool.or_eq_false_iff, decide_eq_false_iff_not] at hnormal
  obtain ⟨⟨⟨⟨⟨hdot, hdots⟩, hslash⟩, -⟩, -⟩, -⟩ := hnormal
  refine ⟨hdecode, hdot, hdots, ?_⟩
  rwa [← Bool.not_eq_true, List.contains_iff_mem] at hslash

/-- Segments with slashes between them. -/
theorem intercalate_slash (s : List Char) (segments : List (List Char)) :
    List.intercalate ['/'] (s :: segments) = s ++ Url.pathText segments := by
  induction segments generalizing s with
  | nil => simp [List.intercalate, Url.pathText]
  | cons t segments ih =>
    rw [pathText_cons, ← ih]
    simp [List.intercalate]

namespace Returned

variable {segments decoded : List (List CodePoint)} {base : Url} {encoded : List (List Char)} {upstream : UpstreamTarget}

theorem isNormal (h : Returned parseHost segments base decoded encoded upstream) : ∀ s ∈ decoded, IsNormal s := by
  intro s hs
  obtain ⟨segment, -, hsegment⟩ := Lists.exists_mem_of_mapM_eq_some h.normalized hs
  exact (isNormal_of_normalizeSegment hsegment).2

theorem isSegment (h : Returned parseHost segments base decoded encoded upstream) : ∀ e ∈ encoded, IsSegment e := by
  intro e he
  obtain ⟨s, hs, hencode⟩ := Lists.exists_mem_of_mapM_eq_some h.encodes he
  exact isSegment_encodeURIComponent hencode (h.isNormal s hs).no_dot (h.isNormal s hs).no_dots

/-- The decoded segments are those that were given. -/
theorem decoded_eq (h : Returned parseHost segments base decoded encoded upstream) :
    segments.mapM decodeURIComponent = some decoded := by
  have := Lists.mapM_eq_some_iff_forall₂.mp h.normalized
  exact Lists.mapM_eq_some_iff_forall₂.mpr (this.imp fun _ _ hab => (isNormal_of_normalizeSegment hab).1)

/-- The encoded segments decode to them again. -/
theorem decodes (h : Returned parseHost segments base decoded encoded upstream) :
    encoded.mapM (fun s => decodeURIComponent (ofChars s)) = some decoded := by
  have := Lists.mapM_of_mapM (g := fun s => decodeURIComponent (ofChars s)) (k := id) h.encodes fun a _ b hab =>
    decodeURIComponent_eq_some_iff.mpr (decodes_encodeURIComponent hab)
  rwa [List.map_id] at this

end Returned

/-! ### The target -/

section Target

variable {base : Url} (h : IsBase base) {e : List Char} {es : List (List Char)} (hes : ∀ t ∈ e :: es, IsSegment t)
  (hcolon : ∀ t ∈ e :: es, ':' ∉ t)

include h hes hcolon in
/-- **Segments of which the first is not empty stand behind the path of the base.** -/
theorem parse_segments (he : e ≠ []) : parse parseHost (some base) (List.intercalate ['/'] (e :: es)) =
    some { base with
      path := .list (base.segments.dropLast ++ e :: es)
      query := none
      fragment := none } := by
  have hchars : ∀ c ∈ e ++ Url.pathText es, c = '/' ∨ ∃ t ∈ e :: es, c ∈ t := by
    intro c hc
    rcases List.mem_append.mp hc with hc | hc
    · exact .inr ⟨e, by simp, hc⟩
    · rcases mem_pathText hc with rfl | ⟨t, ht, hc⟩
      · exact .inl rfl
      · exact .inr ⟨t, by simp [ht], hc⟩
  have hclean : clean (e ++ Url.pathText es) = e ++ Url.pathText es := clean_eq_self fun c hc => by
    rcases hchars c hc with rfl | ⟨t, ht, hc⟩
    · decide
    · exact (hes t ht).lt_toNat hc
  have hscheme : ':' ∉ e ++ Url.pathText es := by
    intro hc
    rcases hchars _ hc with hc | ⟨t, ht, hc⟩
    · cases hc
    · exact hcolon t ht hc
  have hend : ∀ c ∈ e ++ Url.pathText es, endsPath c = false := by
    intro c hc
    rcases hchars c hc with rfl | ⟨t, ht, hc⟩
    · decide
    · exact (hes t ht).endsPath_eq_false hc
  have htake : (e ++ Url.pathText es).takeWhile (!endsPath ·) = e ++ Url.pathText es :=
    List.takeWhile_eq_self_iff.mpr fun c hc => by rw [hend c hc]; rfl
  have hdrop : (e ++ Url.pathText es).dropWhile (!endsPath ·) = [] :=
    List.dropWhile_eq_nil_iff.mpr fun c hc => by rw [hend c hc]; rfl
  have hfirst : ∃ c cs, e ++ Url.pathText es = c :: cs ∧ isSlash true c = false := by
    obtain ⟨c, e, rfl⟩ := List.exists_cons_of_ne_nil he
    exact ⟨c, _, rfl, ((hes _ List.mem_cons_self).chars c List.mem_cons_self).2⟩
  obtain ⟨c, cs, hcs, hc⟩ := hfirst
  rw [intercalate_slash, parse_relative_path h (hclean.trans hcs) (hcs ▸ hscheme) hc (hend c (by simp [hcs])), pathState,
    ← hcs, htake, hdrop, readPath_pathText h.hasOrigin _ hes]
  rfl

include h in
theorem parse_empty : parse parseHost (some base) [] = some { base with fragment := none } := by
  have hparse : parse parseHost (some base) [] = relativeState parseHost base [] :=
    parse_without_scheme h rfl (.inr List.not_mem_nil)
  exact hparse

include h in
theorem pathname_eq : base.pathname = Url.pathText base.segments ∧ base.segments ≠ [] ∧
    ∀ s ∈ base.segments, IsSegment s := by
  obtain ⟨s, segments, hpath, hall⟩ := h.path
  simp only [Url.pathname, Url.segments, hpath]
  exact ⟨trivial, by simp, hall⟩

include h hes in
/-- **A text that begins with a slash has as many slashes as the path it becomes, or more.** -/
theorem countP_pathname_le {target : Url} (htarget : parse parseHost (some base) (Url.pathText (e :: es)) = some target) :
    target.pathname.countP (isSlash true) ≤ (e :: es).length := by
  have hclean : clean (Url.pathText (e :: es)) = '/' :: (e ++ Url.pathText es) := by
    rw [← pathText_cons]
    refine clean_eq_self fun c hc => ?_
    rcases mem_pathText hc with rfl | ⟨t, ht, hc⟩
    · decide
    · exact (hes t ht).lt_toNat hc
  have hstate : ∀ (u : Url) (cs : List Char), u.scheme.hasOrigin = true → cs.countP (isSlash true) + 1 ≤ (e :: es).length →
      (pathState u [] cs).pathname.countP (isSlash true) ≤ (e :: es).length := by
    intro u cs hu hcs
    have hsegments : ∀ s ∈ readPath u.scheme [] (cs.takeWhile (!endsPath ·)), IsSegment s := fun s hs =>
      isSegment_of_mem_readPath hu (by simp) hs
    have hspecial : u.scheme.isSpecial = true := (Bool.and_eq_true _ _ ▸ hu).1
    calc (pathState u [] cs).pathname.countP (isSlash true)
        = (readPath u.scheme [] (cs.takeWhile (!endsPath ·))).length := countP_pathText hsegments
      _ ≤ ((cs.takeWhile (!endsPath ·)).splitOnP (isSlash u.scheme.isSpecial)).length := by
          simpa [readPath] using length_walk_le u.scheme [] ((cs.takeWhile (!endsPath ·)).splitOnP (isSlash u.scheme.isSpecial))
      _ = (cs.takeWhile (!endsPath ·)).countP (isSlash true) + 1 := by rw [length_splitOnP, hspecial]
      _ ≤ cs.countP (isSlash true) + 1 := by
          have := (List.takeWhile_sublist (!endsPath ·) (l := cs)).countP_le (p := isSlash true)
          omega
      _ ≤ (e :: es).length := hcs
  have hcount := countP_pathText hes
  rw [pathText_cons, List.countP_cons, if_pos (by rfl)] at hcount
  rcases hrest : e ++ Url.pathText es with _ | ⟨c, cs⟩
  · rw [hrest] at hclean hcount
    rw [parse_absolute_path h hclean (by simp)] at htarget
    obtain rfl := Option.some.inj htarget
    exact hstate base [] h.hasOrigin (by omega)
  rw [hrest] at hclean hcount
  by_cases hc : isSlash true c = true
  · -- the rest of the text is read as an authority, and one slash more is lost with it
    rw [parse_authority h hclean hc] at htarget
    obtain ⟨w, hw, rfl⟩ := Option.map_eq_some_iff.mp htarget
    have hscheme : w.scheme.hasOrigin = true := by
      rw [scheme_readAuthority hw]
      exact h.hasOrigin
    rw [pathStart_eq (Bool.and_eq_true _ _ ▸ hscheme).1]
    refine hstate w _ hscheme ?_
    have hsub := (behindAuthority_sublist _).trans
      ((List.dropWhile_sublist (inAuthority (Url.blank base.scheme).scheme.isSpecial)).trans
        (List.dropWhile_sublist (isSlash true) (l := cs)))
    have := hsub.countP_le (p := isSlash true)
    rw [List.countP_cons, if_pos hc] at hcount
    omega
  · rw [parse_absolute_path h hclean (by simpa using hc)] at htarget
    obtain rfl := Option.some.inj htarget
    exact hstate base _ h.hasOrigin (by omega)

end Target

/-! ### The gates -/

section Gates

theorem ascii_of_all {name : List Char} (h : name.all (·.toNat < 0x80) = true) : ∀ c ∈ name, c.toNat < 0x80 :=
  fun c hc => of_decide_eq_true (List.all_eq_true.mp h c hc)

variable {bs : List UInt8} {cs : List Char}

theorem isAdminNetworkPath_iff : isAdminNetworkPath (decodeReplace bs) = true ↔
    bs = asciiBytes "/auth/admin/login".toList ∨ bs = asciiBytes "/admin".toList ∨ asciiBytes "/admin/".toList <+: bs := by
  simp only [isAdminNetworkPath, Bool.or_eq_true, decide_eq_true_eq, List.isPrefixOf_iff_prefix, or_assoc]
  rw [decodeReplace_eq_iff (ascii_of_all (by decide)), decodeReplace_eq_iff (ascii_of_all (by decide)),
    isPrefix_decodeReplace_iff (ascii_of_all (by decide))]

theorem namesInternal_iff : NamesInternal (decodeReplace bs) ↔
    bs = asciiBytes "/internal".toList ∨ asciiBytes "/internal/".toList <+: bs := by
  rw [NamesInternal, decodeReplace_eq_iff (ascii_of_all (by decide)), isPrefix_decodeReplace_iff (ascii_of_all (by decide))]

theorem ofChars_inj {cs ds : List Char} : ofChars cs = ofChars ds ↔ cs = ds :=
  (List.map_injective_iff.mpr fun _ _ h => CodePoint.scalar.inj h).eq_iff

theorem ofChars_isPrefix_iff {cs ds : List Char} : ofChars cs <+: ofChars ds ↔ cs <+: ds :=
  List.prefix_map_iff_of_injective fun _ _ h => CodePoint.scalar.inj h

theorem isAdminApiPath_iff : isAdminApiPath (ofChars cs) = true ↔
    cs.flatMap String.utf8EncodeChar = asciiBytes "auth/admin/login".toList ∨
      cs.flatMap String.utf8EncodeChar = asciiBytes "admin".toList ∨
      asciiBytes "admin/".toList <+: cs.flatMap String.utf8EncodeChar := by
  simp only [isAdminApiPath, Bool.or_eq_true, decide_eq_true_eq, List.isPrefixOf_iff_prefix, or_assoc, ofChars_inj,
    ofChars_isPrefix_iff]
  rw [← decodeReplace_eq_iff (ascii_of_all (by decide)), ← decodeReplace_eq_iff (ascii_of_all (by decide)),
    ← isPrefix_decodeReplace_iff (ascii_of_all (by decide)), decodeReplace_utf8]

/-- What stands in front of a cut behind a slash. -/
theorem cut_eq {name front back : List UInt8} (h : front ++ back = name) (hfront : front.getLast? = some 0x2f) :
    ∃ k ≤ name.length, front = name.take k ∧ back = name.drop k ∧ (name.take k).getLast? = some 0x2f := by
  refine ⟨front.length, ?_, ?_, ?_, ?_⟩
  · rw [← h, List.length_append]
    omega
  · rw [← h, List.take_left]
  · rw [← h, List.drop_left]
  · rw [← h, List.take_left, hfront]

theorem cut_login {front back : List UInt8} (h : front ++ back = asciiBytes "/auth/admin/login".toList)
    (hfront : front.getLast? = some 0x2f) :
    front = asciiBytes ['/'] ∧ back = asciiBytes "auth/admin/login".toList ∨
      asciiBytes "admin/".toList <+: back ∨
      front = asciiBytes "/auth/admin/".toList ∧ back = asciiBytes "login".toList := by
  obtain ⟨k, hk, rfl, rfl, hlast⟩ := cut_eq h hfront
  have hall : ∀ k ≤ (asciiBytes "/auth/admin/login".toList).length,
      ((asciiBytes "/auth/admin/login".toList).take k).getLast? = some 0x2f → k = 1 ∨ k = 6 ∨ k = 12 := by
    decide
  rcases hall k hk hlast with rfl | rfl | rfl
  · exact .inl ⟨rfl, rfl⟩
  · exact .inr (.inl ⟨asciiBytes "login".toList, rfl⟩)
  · exact .inr (.inr ⟨rfl, rfl⟩)

/-- In a slash and a name there is one cut behind a slash. -/
theorem cut_name {name front : List UInt8} (hname : 0x2f ∉ name) (hfront : front.getLast? = some 0x2f)
    (h : front <+: 0x2f :: name) : front = [0x2f] := by
  cases front with
  | nil => cases hfront
  | cons b front =>
    obtain ⟨rfl, hname_le⟩ := List.cons_prefix_cons.mp h
    cases front with
    | nil => rfl
    | cons c front =>
      rw [List.getLast?_cons_cons] at hfront
      exact absurd (hname_le.subset (List.mem_of_getLast? hfront)) hname

/-- A name between two slashes in front of a text that is cut behind a slash. -/
theorem prefix_cut_iff {name front back : List UInt8} (hname : 0x2f ∉ name) (hfront : front.getLast? = some 0x2f) :
    0x2f :: name ++ [0x2f] <+: front ++ back ↔
      0x2f :: name ++ [0x2f] <+: front ∨ front = [0x2f] ∧ name ++ [0x2f] <+: back := by
  constructor
  · rintro ⟨t, ht⟩
    rcases List.append_eq_append_iff.mp ht with ⟨a, rfl, rfl⟩ | ⟨c, hc, rfl⟩
    · exact .inl (List.prefix_append _ _)
    · rcases List.eq_nil_or_concat c with rfl | ⟨c, d, rfl⟩
      · rw [List.append_nil] at hc
        exact .inl (hc ▸ List.prefix_refl _)
      · -- the cut is before the second slash
        rw [List.concat_eq_append, ← List.append_assoc] at hc
        obtain ⟨hfirst, hlast⟩ := List.append_inj' hc rfl
        obtain rfl := cut_name hname hfront (hfirst ▸ List.prefix_append front c)
        obtain rfl := (List.cons.inj hlast).1
        obtain rfl := (List.cons.inj hfirst).2
        exact .inr ⟨rfl, by simp⟩
  · rintro (h | ⟨rfl, h⟩)
    · exact h.trans (List.prefix_append _ _)
    · exact List.cons_prefix_cons.mpr ⟨rfl, h⟩

/-- **The gates on a path behind that of the base**, which ends with a slash where the path is not empty. -/
theorem admin_gate_iff (hbs : bs.getLast? = some 0x2f ∨ cs = []) :
    (isAdminNetworkPath (decodeReplace (bs ++ cs.flatMap String.utf8EncodeChar)) = true →
        isAdminApiPath (ofChars cs) = true) ↔
      (isAdminNetworkPath (decodeReplace bs) = true → isAdminApiPath (ofChars cs) = true) ∧
        (decodeReplace bs = "/auth/admin/".toList → ofChars cs ≠ ofChars "login".toList) := by
  rcases hbs with hbs | rfl
  · have hname : (0x2f : UInt8) ∉ asciiBytes "admin".toList := by decide
    have hlogin : ofChars cs = ofChars "login".toList ↔
        cs.flatMap String.utf8EncodeChar = asciiBytes "login".toList := by
      rw [ofChars_inj, ← decodeReplace_eq_iff (ascii_of_all (by decide)), decodeReplace_utf8]
    rw [isAdminNetworkPath_iff, isAdminNetworkPath_iff, isAdminApiPath_iff, Ne, hlogin,
      decodeReplace_eq_iff (ascii_of_all (by decide))]
    generalize cs.flatMap String.utf8EncodeChar = back
    constructor
    · intro h
      refine ⟨?_, ?_⟩
      · rintro (rfl | rfl | hname_le)
        · exact absurd hbs (by decide)
        · exact absurd hbs (by decide)
        · exact h (.inr (.inr (hname_le.trans (List.prefix_append _ _))))
      · rintro rfl rfl
        exact absurd (h (.inl rfl)) (by decide)
    · rintro ⟨hbase, hcut⟩ (h | h | h)
      · rcases cut_login h hbs with ⟨-, rfl⟩ | hback | ⟨rfl, rfl⟩
        · exact .inl rfl
        · exact .inr (.inr hback)
        · exact absurd rfl (hcut rfl)
      · have h : bs ++ back = 0x2f :: asciiBytes "admin".toList := h.trans (by decide)
        obtain rfl := cut_name hname hbs (h ▸ List.prefix_append bs back)
        exact .inr (.inl (List.cons.inj h).2)
      · rcases (prefix_cut_iff hname hbs).mp h with h | ⟨-, h⟩
        · exact hbase (.inr (.inr h))
        · exact .inr (.inr h)
  · simp only [List.flatMap_nil, List.append_nil, iff_self_and]
    intro _ _ h
    exact absurd (ofChars_inj.mp h) (by decide)

theorem internal_gate_iff (hbs : bs.getLast? = some 0x2f ∨ cs = [])
    (hcs : cs ≠ "internal".toList ∧ ¬"internal/".toList <+: cs) :
    NamesInternal (decodeReplace (bs ++ cs.flatMap String.utf8EncodeChar)) ↔ NamesInternal (decodeReplace bs) := by
  rcases hbs with hbs | rfl
  · have hname : (0x2f : UInt8) ∉ asciiBytes "internal".toList := by decide
    have hfirst : cs.flatMap String.utf8EncodeChar ≠ asciiBytes "internal".toList ∧
        ¬asciiBytes "internal/".toList <+: cs.flatMap String.utf8EncodeChar := by
      rwa [Ne, ← decodeReplace_eq_iff (ascii_of_all (by decide)), ← isPrefix_decodeReplace_iff (ascii_of_all (by decide)),
        decodeReplace_utf8]
    rw [namesInternal_iff, namesInternal_iff]
    generalize cs.flatMap String.utf8EncodeChar = back at hfirst
    constructor
    · rintro (h | h)
      · have h : bs ++ back = 0x2f :: asciiBytes "internal".toList := h.trans (by decide)
        obtain rfl := cut_name hname hbs (h ▸ List.prefix_append bs back)
        exact absurd (List.cons.inj h).2 hfirst.1
      · rcases (prefix_cut_iff hname hbs).mp h with h | ⟨-, h⟩
        · exact .inr h
        · exact absurd h hfirst.2
    · rintro (rfl | h)
      · exact absurd hbs (by decide)
      · exact .inr (h.trans (List.prefix_append _ _))
  · rw [List.flatMap_nil, List.append_nil]

end Gates

/-! ### The path of the target -/

namespace Returned

variable {segments decoded : List (List CodePoint)} {base : Url} {encoded : List (List Char)} {upstream : UpstreamTarget}

theorem not_slash_mem (h : Returned parseHost segments base decoded encoded upstream) : ∀ e ∈ encoded, '/' ∉ e := by
  intro e he hc
  exact absurd ((h.isSegment e he).chars _ hc).2 (by decide)

theorem not_colon_mem (h : Returned parseHost segments base decoded encoded upstream) : ∀ e ∈ encoded, ':' ∉ e := by
  intro e he hc
  obtain ⟨s, -, hencode⟩ := Lists.exists_mem_of_mapM_eq_some h.encodes he
  rcases mem_encodeURIComponent hencode hc with hc | hc
  · exact absurd hc (by decide)
  · exact absurd hc (by decide)

theorem forall₂ (h : Returned parseHost segments base decoded encoded upstream) :
    List.Forall₂ (fun s e => encodeURIComponent s = some e) decoded encoded :=
  Lists.mapM_eq_some_iff_forall₂.mp h.encodes

/-- The text that is parsed splits into the encoded segments. -/
theorem splitOn_eq (h : Returned parseHost segments base decoded encoded upstream) (hne : decoded ≠ []) :
    (List.intercalate ['/'] encoded).splitOn '/' = encoded := by
  refine List.splitOn_intercalate '/' h.not_slash_mem ?_
  rintro rfl
  exact hne (List.forall₂_nil_right_iff.mp h.forall₂)

/-- The first encoded segment is empty where the first decoded one is. -/
theorem exists_cons (h : Returned parseHost segments base decoded encoded upstream) {s : List CodePoint}
    {rest : List (List CodePoint)} (hdecoded : decoded = s :: rest) :
    ∃ e es, encoded = e :: es ∧ encodeURIComponent s = some e ∧ (e = [] ↔ s = []) ∧ (es = [] ↔ rest = []) := by
  have hall := h.forall₂
  subst hdecoded
  obtain ⟨e, es, hse, hes, rfl⟩ := List.forall₂_cons_left_iff.mp hall
  refine ⟨e, es, rfl, hse, ⟨?_, ?_⟩, ⟨?_, ?_⟩⟩
  · rintro rfl
    exact (Decodes.nil.unique (decodes_encodeURIComponent hse)).symm
  · rintro rfl
    exact (Option.some.inj hse).symm
  · rintro rfl
    exact List.forall₂_nil_right_iff.mp hes
  · rintro rfl
    exact List.forall₂_nil_left_iff.mp hes

/-- The path of a base that ends with a slash, and of one that does not. -/
theorem exists_pathname_eq (hb : IsBase base) : ∃ l, base.segments = base.segments.dropLast ++ [l] ∧ IsSegment l ∧
    base.pathname = Url.pathText base.segments.dropLast ++ '/' :: l ∧ (base.pathname.getLast? = some '/' ↔ l = []) := by
  obtain ⟨hpath, hne, hall⟩ := pathname_eq hb
  have hsplit : base.segments = base.segments.dropLast ++ [base.segments.getLast hne] :=
    (List.dropLast_append_getLast hne).symm
  have hl := hall _ (List.getLast_mem hne)
  generalize base.segments.getLast hne = l at hsplit hl
  have htext : base.pathname = Url.pathText base.segments.dropLast ++ '/' :: l := by
    rw [hpath]
    conv_lhs => rw [hsplit]
    simp [Url.pathText]
  refine ⟨l, hsplit, hl, htext, ?_⟩
  rw [htext, List.getLast?_append_of_ne_nil _ (by simp)]
  rcases List.eq_nil_or_concat l with rfl | ⟨l, d, rfl⟩
  · simp
  · have hd : d ≠ '/' := by
      rintro rfl
      exact absurd (hl.chars '/' (by simp)).2 (by decide)
    have hlast : ('/' :: l.concat d).getLast? = some d := by
      rw [List.concat_eq_append, ← List.cons_append, List.getLast?_append_of_ne_nil _ (by simp)]
      rfl
    rw [hlast]
    simp [hd]

/-- **Where the first segment is not empty and the base ends with a slash**, the target is the base and the segments. -/
theorem pathname_target (h : Returned parseHost segments base decoded encoded upstream) (hb : IsBase base)
    (hfirst : ∃ s rest, decoded = s :: rest ∧ (s = [] → rest = []))
    (hslash : decoded = [[]] ∨ base.pathname.getLast? = some '/') :
    upstream.target.pathname = base.pathname ++ List.intercalate ['/'] encoded ∧ upstream.target.SameOrigin base := by
  have horigin : base.origin ≠ none := by simp [Url.origin, hb.hasOrigin]
  have hsame : upstream.target.SameOrigin base := ⟨h.origin, by rwa [h.origin]⟩
  refine ⟨?_, hsame⟩
  obtain ⟨s, rest, hdecoded, hs⟩ := hfirst
  obtain ⟨e, es, rfl, hse, he, hes⟩ := h.exists_cons hdecoded
  have htarget := h.target
  by_cases hempty : s = []
  · obtain rfl := he.mpr hempty
    obtain rfl := hes.mpr (hs hempty)
    have hnil : List.intercalate ['/'] [([] : List Char)] = [] := rfl
    rw [hnil, parse_empty hb] at htarget
    rw [← Option.some.inj htarget, hnil, List.append_nil]
    rfl
  · have hlast : base.pathname.getLast? = some '/' := hslash.resolve_left (by simp [hdecoded, hempty])
    obtain ⟨l, -, -, hpath, hl⟩ := exists_pathname_eq hb
    obtain rfl := hl.mp hlast
    rw [parse_segments hb h.isSegment h.not_colon_mem (fun h => hempty (he.mp h))] at htarget
    rw [← Option.some.inj htarget, hpath, intercalate_slash]
    show Url.pathText (base.segments.dropLast ++ e :: es) = _
    simp [Url.pathText]

theorem joinSegments_cons (s : List CodePoint) (rest : List (List CodePoint)) :
    joinSegments (s :: rest) = s ++ rest.flatMap (.scalar '/' :: ·) := by
  induction rest generalizing s with
  | nil => simp [joinSegments, List.intercalate]
  | cons t rest ih =>
    rw [List.flatMap_cons, List.cons_append, ← ih]
    simp [joinSegments, List.intercalate]

/-- The path of the gates, and the text that decodes to it. -/
theorem exists_path_eq (h : Returned parseHost segments base decoded encoded upstream) (hne : decoded ≠ []) :
    ∃ cs, joinSegments decoded = ofChars cs ∧ Decodes (ofChars (List.intercalate ['/'] encoded)) (ofChars cs) := by
  obtain ⟨s, rest, rfl⟩ := List.exists_cons_of_ne_nil hne
  obtain ⟨e, es, hse, hes, rfl⟩ := List.forall₂_cons_left_iff.mp h.forall₂
  have htail : ∃ ds, rest.flatMap (.scalar '/' :: ·) = ofChars ds ∧ Decodes (ofChars (Url.pathText es)) (ofChars ds) := by
    clear h hse hne
    induction hes with
    | nil => exact ⟨[], rfl, .nil⟩
    | @cons t f _ _ htf _ ih =>
      obtain ⟨cs, rfl⟩ := exists_ofChars_of_encodeURIComponent htf
      obtain ⟨ds, hds, hdecodes⟩ := ih
      refine ⟨'/' :: (cs ++ ds), ?_, ?_⟩
      · rw [List.flatMap_cons, hds]
        simp [ofChars]
      · rw [pathText_cons, ofChars, List.map_cons, List.map_append, ofChars, List.map_cons, List.map_append]
        exact .raw (by decide) ((decodes_encodeURIComponent htf).append hdecodes)
  obtain ⟨cs, rfl⟩ := exists_ofChars_of_encodeURIComponent hse
  obtain ⟨ds, hds, hdecodes⟩ := htail
  refine ⟨cs ++ ds, ?_, ?_⟩
  · rw [joinSegments_cons, hds, ofChars, ofChars, ofChars, List.map_append]
  · rw [intercalate_slash, ofChars, List.map_append, ofChars, List.map_append]
    exact (decodes_encodeURIComponent hse).append hdecodes

theorem toNat_lt_of_mem (h : Returned parseHost segments base decoded encoded upstream) (hne : decoded ≠ []) :
    ∀ c ∈ List.intercalate ['/'] encoded, c.toNat < 0x80 := by
  obtain ⟨s, rest, rfl⟩ := List.exists_cons_of_ne_nil hne
  obtain ⟨e, es, rfl, -⟩ := h.exists_cons rfl
  have hsegment : ∀ t ∈ e :: es, ∀ c ∈ t, c.toNat < 0x80 := by
    intro t ht c hc
    have hset := ((h.isSegment t ht).chars c hc).1
    simp only [pathSet, querySet, c0ControlSet, Bool.or_eq_false_iff, decide_eq_false_iff_not] at hset
    omega
  rw [intercalate_slash]
  intro c hc
  rcases List.mem_append.mp hc with hc | hc
  · exact hsegment e (by simp) c hc
  · rcases mem_pathText hc with rfl | ⟨t, ht, hc⟩
    · decide
    · exact hsegment t (by simp [ht]) c hc

/-- **The bytes of the path the backend sees.** -/
theorem unquoteToBytes_target (h : Returned parseHost segments base decoded encoded upstream) (hb : IsBase base)
    (hfirst : ∃ s rest, decoded = s :: rest ∧ (s = [] → rest = []))
    (hslash : decoded = [[]] ∨ base.pathname.getLast? = some '/') {cs : List Char}
    (hcs : joinSegments decoded = ofChars cs) :
    unquoteToBytes upstream.target.pathname =
      unquoteToBytes base.pathname ++ cs.flatMap String.utf8EncodeChar := by
  have hne : decoded ≠ [] := by
    obtain ⟨s, rest, rfl, -⟩ := hfirst
    simp
  obtain ⟨ds, hds, hdecodes⟩ := h.exists_path_eq hne
  obtain rfl : cs = ds := ofChars_inj.mp (hcs.symm.trans hds)
  rw [(h.pathname_target hb hfirst hslash).1, ← unquoteToBytes_of_decodes (h.toNat_lt_of_mem hne) hdecodes]
  rcases hslash with rfl | hlast
  · obtain ⟨e, es, rfl, -, he, hes⟩ := h.exists_cons rfl
    obtain rfl := he.mpr rfl
    obtain rfl := hes.mpr rfl
    have hnil : List.intercalate ['/'] [([] : List Char)] = [] := rfl
    rw [hnil, List.append_nil]
    exact (List.append_nil _).symm
  · obtain ⟨l, -, -, hpath, hl⟩ := exists_pathname_eq hb
    obtain rfl := hl.mp hlast
    rw [hpath, List.append_assoc, List.singleton_append, unquoteToBytes_append_cons (by decide),
      unquoteToBytes_append_cons (by decide), unquoteToBytes_cons (by decide), unquoteToBytes_cons (by decide),
      List.append_assoc]
    rfl

/-- The path of the gates does not begin with `internal`. -/
theorem not_internal (h : Returned parseHost segments base decoded encoded upstream) {cs : List Char}
    (hne : decoded ≠ []) (hcs : joinSegments decoded = ofChars cs) :
    cs ≠ "internal".toList ∧ ¬"internal/".toList <+: cs := by
  obtain ⟨s, rest, rfl⟩ := List.exists_cons_of_ne_nil hne
  have hs := (h.isNormal s (by simp)).no_slash
  have hhead : s ≠ ofChars "internal".toList := fun he => h.head (by rw [he]; rfl)
  have hname : CodePoint.scalar '/' ∉ ofChars "internal".toList := by decide
  rw [joinSegments_cons] at hcs
  -- what stands behind the first segment begins with a slash
  have hrest : ∀ c t, rest.flatMap (.scalar '/' :: ·) = c ++ t → c ≠ [] → CodePoint.scalar '/' ∈ c := by
    intro c t heq hc
    obtain ⟨p, c, rfl⟩ := List.exists_cons_of_ne_nil hc
    cases rest with
    | nil => cases heq
    | cons r rest =>
      rw [List.flatMap_cons, List.cons_append, List.cons_append] at heq
      obtain ⟨rfl, -⟩ := List.cons.inj heq
      simp
  constructor
  · rintro rfl
    by_cases hflat : rest.flatMap (.scalar '/' :: ·) = ([] : List CodePoint)
    · rw [hflat, List.append_nil] at hcs
      exact hhead hcs
    · have := hrest _ [] (List.append_nil _).symm hflat
      exact hname (hcs ▸ List.mem_append_right s this)
  · rintro ⟨t, rfl⟩
    have hsplit : ofChars ("internal/".toList ++ t) = ofChars "internal".toList ++ .scalar '/' :: ofChars t := by
      rw [ofChars, List.map_append]
      rfl
    rw [hsplit] at hcs
    rcases List.append_eq_append_iff.mp hcs with ⟨c, hc, hflat⟩ | ⟨c, rfl, hflat⟩
    · rcases List.eq_nil_or_concat c with rfl | ⟨c, d, rfl⟩
      · exact hhead (by simpa using hc.symm)
      · refine hname (hc ▸ List.mem_append_right s (hrest _ _ hflat (by simp)))
    · cases c with
      | nil => exact hhead (List.append_nil _)
      | cons p c =>
        obtain ⟨rfl, -⟩ := List.cons.inj hflat
        exact hs (by simp)

/-- An empty segment in front of others is one slash too few. -/
theorem first_of_splits (h : Returned parseHost segments base decoded encoded upstream) (hb : IsBase base)
    (hsplits : ∃ rest, upstream.target.pathname = base.pathname ++ rest ∧
      (rest.splitOn '/').mapM (fun s => decodeURIComponent (ofChars s)) = some decoded) :
    ∃ s rest, decoded = s :: rest ∧ (s = [] → rest = []) := by
  obtain ⟨rest, hpath, hrest⟩ := hsplits
  have hlen : (rest.splitOn '/').length = decoded.length := (Lists.mapM_eq_some_iff_forall₂.mp hrest).length_eq
  have hne : decoded ≠ [] := by
    rintro rfl
    exact List.splitOn_ne_nil '/' rest (List.length_eq_zero_iff.mp hlen)
  obtain ⟨s, tail, rfl⟩ := List.exists_cons_of_ne_nil hne
  refine ⟨s, tail, rfl, fun hs => ?_⟩
  by_contra htail
  obtain ⟨e, es, rfl, -, he, hes⟩ := h.exists_cons rfl
  obtain rfl := he.mpr hs
  obtain ⟨f, fs, rfl⟩ := List.exists_cons_of_ne_nil fun hnil => htail (hes.mp hnil)
  have htarget := h.target
  rw [intercalate_slash, List.nil_append] at htarget
  have hcount := countP_pathname_le hb (fun t ht => h.isSegment t (by simp [ht])) htarget
  -- the base has a slash of its own, and there is one between any two segments
  obtain ⟨l, -, -, hbase, -⟩ := exists_pathname_eq hb
  have hslashes : rest.countP (isSlash true) + 1 ≤ upstream.target.pathname.countP (isSlash true) := by
    rw [hpath, hbase, List.countP_append, List.countP_append, List.countP_cons, if_pos (by rfl)]
    omega
  have hrest' : (rest.splitOn '/').length ≤ rest.countP (isSlash true) + 1 := by
    rw [List.splitOn_eq_splitOnP, length_splitOnP]
    have := List.countP_mono_left (l := rest) (p := (· == '/')) (q := isSlash true) fun c _ hc => by
      obtain rfl := beq_iff_eq.mp hc
      rfl
    omega
  have hforall := h.forall₂.length_eq
  simp only [List.length_cons] at hforall hlen hcount
  omega

/-- A base that does not end with a slash loses its last segment. -/
theorem slash_of_splits (h : Returned parseHost segments base decoded encoded upstream) (hb : IsBase base)
    (hfirst : ∃ s rest, decoded = s :: rest ∧ (s = [] → rest = []))
    (hsplits : ∃ rest, upstream.target.pathname = base.pathname ++ rest ∧
      (rest.splitOn '/').mapM (fun s => decodeURIComponent (ofChars s)) = some decoded) :
    decoded = [[]] ∨ base.pathname.getLast? = some '/' := by
  obtain ⟨s, tail, rfl, hs⟩ := hfirst
  by_cases hempty : s = []
  · exact .inl (by rw [hempty, hs hempty])
  refine .inr ?_
  obtain ⟨e, es, rfl, hse, he, -⟩ := h.exists_cons rfl
  obtain ⟨l, -, hl, hbase, hlast⟩ := exists_pathname_eq hb
  refine hlast.mpr ?_
  have htarget := h.target
  rw [parse_segments hb h.isSegment h.not_colon_mem fun h => hempty (he.mp h)] at htarget
  have hpath : upstream.target.pathname = Url.pathText base.segments.dropLast ++ '/' :: (e ++ Url.pathText es) := by
    rw [← Option.some.inj htarget]
    show Url.pathText (base.segments.dropLast ++ e :: es) = _
    simp [Url.pathText]
  obtain ⟨rest, hrest, hdecode⟩ := hsplits
  rw [hpath, hbase, List.append_assoc, List.cons_append] at hrest
  have hrest := (List.cons.inj (List.append_cancel_left hrest)).2
  -- the last segment of the base is the front of the first one of the text
  obtain ⟨r, hr, hrest⟩ : ∃ r, e = l ++ r ∧ rest = r ++ Url.pathText es := by
    rcases List.append_eq_append_iff.mp hrest with ⟨c, hc, hflat⟩ | ⟨c, hc, hflat⟩
    · cases c with
      | nil =>
        rw [List.append_nil] at hc
        exact ⟨[], by rw [hc, List.append_nil], by simpa using hflat.symm⟩
      | cons d c =>
        cases es with
        | nil => cases hflat
        | cons f es =>
          rw [pathText_cons] at hflat
          obtain ⟨rfl, -⟩ := List.cons.inj hflat
          exact absurd (hl.chars '/' (by simp [hc])).2 (by decide)
    · exact ⟨c, hc, hflat⟩
  have hfirst : decodeURIComponent (ofChars r) = some s := by
    have hsplit : rest.splitOn '/' = r :: es := by
      rw [hrest, ← intercalate_slash]
      refine List.splitOn_intercalate '/' (fun t ht => ?_) (by simp)
      rcases List.mem_cons.mp ht with rfl | ht
      · exact fun hc => h.not_slash_mem e (by simp) (by rw [hr]; exact List.mem_append_right l hc)
      · exact h.not_slash_mem t (by simp [ht])
    rw [hsplit, Lists.mapM_eq_some_iff_forall₂] at hdecode
    exact (List.forall₂_cons.mp hdecode).1
  have hle := length_encodeURIComponent_le (decodeURIComponent_eq_some_iff.mp hfirst) (fun p hp => by
    obtain ⟨c, hc, rfl⟩ := List.mem_map.mp hp
    rcases mem_encodeURIComponent hse (hr ▸ List.mem_append_right l hc) with rfl | hc
    · exact .inl rfl
    · exact .inr ⟨c, rfl, hc⟩) hse
  rw [hr, ofChars, List.length_map, List.length_append] at hle
  exact List.length_eq_zero_iff.mp (by omega)

end Returned

/-- **When a call to the backend goes where the gates looked.** -/
theorem upstream_faithful_iff {segments : List (List CodePoint)} {apiBase : List CodePoint} {upstream : UpstreamTarget}
    (h : buildUpstreamTarget parseHost segments apiBase = .ok (some upstream)) :
    ∃ base decoded, parse parseHost none (baseText apiBase) = some base ∧
      segments.mapM decodeURIComponent = some decoded ∧
      (Faithful base decoded upstream ↔ RoutesAlike base decoded) := by
  obtain ⟨base, decoded, encoded, hbase, hret⟩ := returned_of_ok h
  refine ⟨base, decoded, hbase, hret.decoded_eq, ?_⟩
  -- the gates agree where the text is put behind the base
  have hgates : IsBase base → (∃ s rest, decoded = s :: rest ∧ (s = [] → rest = [])) →
      (decoded = [[]] ∨ base.pathname.getLast? = some '/') →
      ((isAdminNetworkPath (requestPath upstream.target) = true → isAdminApiPath upstream.path = true) ↔
        (isAdminNetworkPath (requestPath base) = true → isAdminApiPath (joinSegments decoded) = true) ∧
          (requestPath base = "/auth/admin/".toList → joinSegments decoded ≠ ofChars "login".toList)) ∧
      (NamesInternal (requestPath upstream.target) ↔ NamesInternal (requestPath base)) := by
    intro hb hfirst hslash
    have hne : decoded ≠ [] := by
      obtain ⟨s, rest, rfl, -⟩ := hfirst
      simp
    obtain ⟨cs, hcs, -⟩ := hret.exists_path_eq hne
    have hbytes := hret.unquoteToBytes_target hb hfirst hslash hcs
    have hlast : (unquoteToBytes base.pathname).getLast? = some 0x2f ∨ cs = [] := by
      rcases hslash with rfl | hlast
      · exact .inr (ofChars_inj.mp hcs.symm)
      · obtain ⟨l, -, -, hpath, hl⟩ := Returned.exists_pathname_eq hb
        obtain rfl := hl.mp hlast
        rw [hpath, unquoteToBytes_append_cons (by decide)]
        exact .inl (List.getLast?_append_of_ne_nil _ (by simp [unquoteToBytes]))
    rw [requestPath, requestPath, unquote, unquote, hbytes, hret.path, hcs]
    exact ⟨admin_gate_iff hlast, internal_gate_iff hlast (hret.not_internal hne hcs)⟩
  constructor
  · intro hf
    have horigin : base.scheme.hasOrigin = true := by
      have := hf.origin.1 ▸ hf.origin.2
      rw [Url.origin] at this
      by_contra hno
      exact this (if_neg hno)
    have hb := isBase_of_parse hbase horigin
    have hfirst := hret.first_of_splits hb hf.segments
    have hslash := hret.slash_of_splits hb hfirst hf.segments
    obtain ⟨hadmin, hinternal⟩ := hgates hb hfirst hslash
    exact ⟨horigin, hfirst, hslash, fun hn => hf.internal (hinternal.mpr hn), (hadmin.mp hf.admin).1,
      (hadmin.mp hf.admin).2⟩
  · intro hr
    have hb := isBase_of_parse hbase hr.hasOrigin
    obtain ⟨hpath, hsame⟩ := hret.pathname_target hb hr.first hr.slash
    obtain ⟨hadmin, hinternal⟩ := hgates hb hr.first hr.slash
    have hne : decoded ≠ [] := by
      obtain ⟨s, rest, rfl, -⟩ := hr.first
      simp
    exact ⟨hsame, ⟨_, hpath, by rw [hret.splitOn_eq hne, hret.decodes]⟩, hadmin.mpr ⟨hr.admin, hr.login⟩,
      fun hn => hr.internal (hinternal.mp hn)⟩

/-! ### An empty segment in front -/

/-- The base of the API. -/
def marketBase : List CodePoint := ofChars "http://market:8001".toList

/-- A call for an admin page, with an empty segment in front of it. -/
def emptyFirst : List (List CodePoint) := [[], ofChars "admin".toList, ofChars "users".toList]

/-- What the URL parser makes of the base and a path behind it. -/
def marketUrl (segments : List (List Char)) : Url :=
  ⟨.http, [], [], some "market".toList, some 8001, .list segments, none, none⟩

/-- **The backend is asked for an admin page and the gate of the BFF sees none.** -/
theorem empty_segment_passes_gates :
    buildUpstreamTarget plainHost emptyFirst marketBase =
        .ok (some ⟨ofChars "/admin/users".toList, marketUrl ["admin".toList, "users".toList]⟩) ∧
      isAdminNetworkPath (requestPath (marketUrl ["admin".toList, "users".toList])) = true ∧
      isAdminApiPath (ofChars "/admin/users".toList) = false ∧
      ¬Faithful (marketUrl [[]]) emptyFirst ⟨ofChars "/admin/users".toList, marketUrl ["admin".toList, "users".toList]⟩ := by
  have hbackend : isAdminNetworkPath (requestPath (marketUrl ["admin".toList, "users".toList])) = true := by
    decide
  have hgate : isAdminApiPath (ofChars "/admin/users".toList) = false := by decide
  refine ⟨by decide, hbackend, hgate, fun hf => ?_⟩
  exact absurd (hf.admin hbackend) (by rw [hgate]; decide)

/-- A call for a product. -/
def productCall : List (List CodePoint) := [ofChars "products".toList, ofChars "12".toList]

/-- The theorem at a call for a product. -/
theorem upstream_faithful_iff_product :
    ∃ base decoded, parse plainHost none (baseText marketBase) = some base ∧
      productCall.mapM decodeURIComponent = some decoded ∧
      (Faithful base decoded ⟨ofChars "products/12".toList, marketUrl ["products".toList, "12".toList]⟩ ↔
        RoutesAlike base decoded) := by
  have h : buildUpstreamTarget plainHost productCall marketBase =
      .ok (some ⟨ofChars "products/12".toList, marketUrl ["products".toList, "12".toList]⟩) := by decide
  exact upstream_faithful_iff h

end Marketplace.Upstream
