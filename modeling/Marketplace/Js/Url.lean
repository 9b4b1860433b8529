import Mathlib.Data.List.TakeDrop
import Marketplace.Js.Uri
import Marketplace.Text.Strip

/-!
# The URL parser

`new URL(text, base)`, as the URL Standard describes it: the text is read from left to right, state by state,
and what a relative text does not say is taken from the base. A state is a function of what is left of the
text. How a host is read (IDNA, and addresses written as numbers) is left open (`HostParser`).

The path of a hierarchical URL is a list of segments. A segment that says `.` or `..`, also with its dots
escaped, is not kept: it takes away the segment before it, or nothing (`walk`).

`parse_absolute_path` is a text that begins with one slash, `parse_relative_path` one that begins with a name;
a path that was serialised is read back (`readPath_pathText`).
-/

namespace Js

open Utf16 Text

/-! ### URLs -/

/-- Schemes: those a parser treats in their own way, and all others. -/
inductive Scheme
  | ftp | file | http | https | ws | wss
  | other (name : List Char)
  deriving DecidableEq

namespace Scheme

def ofName (name : List Char) : Scheme :=
  if name = ['f', 't', 'p'] then .ftp
  else if name = ['f', 'i', 'l', 'e'] then .file
  else if name = ['h', 't', 't', 'p'] then .http
  else if name = ['h', 't', 't', 'p', 's'] then .https
  else if name = ['w', 's'] then .ws
  else if name = ['w', 's', 's'] then .wss
  else .other name

/-- A special scheme. -/
def isSpecial : Scheme → Bool
  | .other _ => false
  | _ => true

def defaultPort : Scheme → Option ℕ
  | .ftp => some 21
  | .http | .ws => some 80
  | .https | .wss => some 443
  | .file | .other _ => none

/-- The origin of such a URL is its scheme, host and port. -/
def hasOrigin (scheme : Scheme) : Bool := scheme.isSpecial && scheme ≠ .file

theorem isSpecial_of_hasOrigin {scheme : Scheme} (h : scheme.hasOrigin = true) : scheme.isSpecial = true := by
  rw [hasOrigin, Bool.and_eq_true] at h
  exact h.1

end Scheme

/-- A path is a text that is not looked into, or a list of segments. -/
inductive Path
  | text (cs : List Char)
  | list (segments : List (List Char))
  deriving DecidableEq

structure Url where
  scheme : Scheme
  username : List Char
  password : List Char
  host : Option (List Char)
  port : Option ℕ
  path : Path
  query : Option (List Char)
  fragment : Option (List Char)
  deriving DecidableEq

/-- Reads a host, of a special URL or of another one, and writes it as it is serialised. -/
abbrev HostParser := Bool → List Char → Option (List Char)

namespace Url

def segments (u : Url) : List (List Char) :=
  match u.path with
  | .list segments => segments
  | .text _ => []

/-- The text of a path. -/
def pathText (segments : List (List Char)) : List Char := segments.flatMap ('/' :: ·)

/-- `url.pathname` -/
def pathname (u : Url) : List Char :=
  match u.path with
  | .list segments => pathText segments
  | .text cs => cs

/-- What stands behind `?` or `#`, with it; `""` where that is nothing. -/
def behind (mark : Char) : Option (List Char) → List Char
  | none | some [] => []
  | some cs => mark :: cs

/-- `url.search` -/
def search (u : Url) : List Char := behind '?' u.query

/-- `url.hash` -/
def hash (u : Url) : List Char := behind '#' u.fragment

/-- What `url.origin` stands for; `none` is an origin that is no other URL's, which is written `null`. -/
def origin (u : Url) : Option (Scheme × Option (List Char) × Option ℕ) :=
  if u.scheme.hasOrigin then some (u.scheme, u.host, u.port) else none

/-- Two URLs of the same origin. -/
def SameOrigin (u v : Url) : Prop := u.origin = v.origin ∧ u.origin ≠ none

end Url

/-! ### Characters -/

def c0ControlSet (c : Char) : Bool := c.toNat < 0x20 || 0x7e < c.toNat

def fragmentSet (c : Char) : Bool := c0ControlSet c || [' ', '"', '<', '>', '`'].contains c

def querySet (c : Char) : Bool := c0ControlSet c || [' ', '"', '#', '<', '>'].contains c

def specialQuerySet (c : Char) : Bool := querySet c || c = '\''

def pathSet (c : Char) : Bool := querySet c || ['?', '^', '`', '{', '}'].contains c

def userinfoSet (c : Char) : Bool := pathSet c || ['/', ':', ';', '=', '@', '[', '\\', ']', '|'].contains c

/-- A slash, of either kind in a special URL. -/
def isSlash (special : Bool) (c : Char) : Bool := c = '/' || special && c = '\\'

/-- The characters at which the query or the fragment begins. -/
def endsPath (c : Char) : Bool := c = '?' || c = '#'

/-- A text without what is around it and without tabs and newlines. -/
def clean (cs : List Char) : List Char :=
  (stripChars (fun c => c.toNat ≤ 0x20) cs).filter fun c => c ≠ '\t' && c ≠ '\n' && c ≠ '\r'

/-! ### Query and fragment -/

def readFragment : List Char → Option (List Char)
  | [] => none
  | _ :: cs => some (percentEncode fragmentSet cs)

/-- What follows the path: the query and the fragment. -/
def readTail (special : Bool) : List Char → Option (List Char) × Option (List Char)
  | '?' :: cs =>
    (some (percentEncode (if special then specialQuerySet else querySet) (cs.takeWhile (· ≠ '#'))),
      readFragment (cs.dropWhile (· ≠ '#')))
  | cs => (none, readFragment cs)

/-! ### Paths -/

/-- How many dots a segment is made of, where it is made of dots only. -/
def dotCount : List Char → Option ℕ
  | [] => some 0
  | '.' :: cs => (dotCount cs).map (· + 1)
  | '%' :: '2' :: c :: cs => if c = 'e' ∨ c = 'E' then (dotCount cs).map (· + 1) else none
  | _ :: _ => none

/-- A letter and a colon, or a bar. -/
def isDriveLetter : List Char → Bool
  | [a, b] => a.isAlpha && (b = ':' || b = '|')
  | _ => false

def isNormalizedDriveLetter : List Char → Bool
  | [a, b] => a.isAlpha && b = ':'
  | _ => false

def startsWithDriveLetter : List Char → Bool
  | a :: b :: rest => isDriveLetter [a, b] && rest.head?.all fun c => isSlash true c || endsPath c
  | _ => false

/-- "Shorten" a path. -/
def shorten (scheme : Scheme) (segments : List (List Char)) : List (List Char) :=
  match segments with
  | [s] => if scheme = .file ∧ isNormalizedDriveLetter s then [s] else []
  | _ => segments.dropLast

/-- A segment is put behind the path. -/
def putSegment (scheme : Scheme) (segments : List (List Char)) (s : List Char) : List (List Char) :=
  if scheme = .file ∧ segments = [] ∧ isDriveLetter s then segments ++ [s.take 1 ++ [':']]
  else segments ++ [percentEncode pathSet s]

/-- Behind dots with no slash there is an empty segment. -/
def closeDots (last : Bool) (segments : List (List Char)) : List (List Char) :=
  if last then segments ++ [[]] else segments

/-- One segment of the path state; `last` is the one with no slash behind it. -/
def stepSegment (scheme : Scheme) (segments : List (List Char)) (s : List Char) (last : Bool) : List (List Char) :=
  if dotCount s = some 2 then closeDots last (shorten scheme segments)
  else if dotCount s = some 1 then closeDots last segments
  else putSegment scheme segments s

/-- The path state, segment by segment. -/
def walk (scheme : Scheme) : List (List Char) → List (List Char) → List (List Char)
  | segments, [] => segments
  | segments, [s] => stepSegment scheme segments s true
  | segments, s :: rest => walk scheme (stepSegment scheme segments s false) rest

/-- The text of a path, put behind the segments there are. -/
def readPath (scheme : Scheme) (segments : List (List Char)) (cs : List Char) : List (List Char) :=
  walk scheme segments (cs.splitOnP (isSlash scheme.isSpecial))

/-- "Path state". -/
def pathState (u : Url) (segments : List (List Char)) (cs : List Char) : Url :=
  let tail := readTail u.scheme.isSpecial (cs.dropWhile (!endsPath ·))
  { u with
    path := .list (readPath u.scheme segments (cs.takeWhile (!endsPath ·)))
    query := tail.1
    fragment := tail.2 }

/-- "Path start state". -/
def pathStart (u : Url) (cs : List Char) : Url :=
  match cs with
  | [] => if u.scheme.isSpecial then pathState u [] [] else { u with path := .list [], query := none, fragment := none }
  | c :: rest =>
    if isSlash u.scheme.isSpecial c then pathState u [] rest
    else if u.scheme.isSpecial || !endsPath c then pathState u [] cs
    else
      let tail := readTail false cs
      { u with path := .list [], query := tail.1, fragment := tail.2 }

/-! ### Authority -/

/-- The host in front of the port; `inside` are the brackets of an address. -/
def splitHost : Bool → List Char → List Char × Option (List Char)
  | _, [] => ([], none)
  | inside, c :: cs =>
    if c = ':' ∧ inside = false then ([], some cs)
    else
      let (host, port) := splitHost (if c = '[' then true else if c = ']' then false else inside) cs
      (c :: host, port)

/-- "Port state"; `none` is the failure. -/
def readPort (scheme : Scheme) : Option (List Char) → Option (Option ℕ)
  | none | some [] => some none
  | some ds =>
    if ds.all Char.isDigit then
      let port := ds.foldl (fun n d => 10 * n + (d.toNat - 48)) 0
      if 65535 < port then none else if scheme.defaultPort = some port then some none else some (some port)
    else none

variable (parseHost : HostParser)

/-- The text between the slashes in front of the host and the path. -/
def readAuthority (u : Url) (cs : List Char) : Option Url := do
  let behindAt := (cs.reverse.takeWhile (· ≠ '@')).reverse
  let credentials := cs.take (cs.length - behindAt.length - 1)
  if '@' ∈ cs ∧ behindAt = [] then none
  else
    let (host, port) := splitHost false behindAt
    if host = [] ∧ (u.scheme.isSpecial ∨ port.isSome) then none
    else
      let host ← parseHost u.scheme.isSpecial host
      let port ← readPort u.scheme port
      some { u with
        username := percentEncode userinfoSet (credentials.takeWhile (· ≠ ':'))
        password := percentEncode userinfoSet ((credentials.dropWhile (· ≠ ':')).drop 1)
        host := some host
        port := port }

/-- The characters that may stand in an authority. -/
def inAuthority (special : Bool) (c : Char) : Bool := !(isSlash special c || endsPath c)

/-- "Authority state" and those after it. -/
def authorityState (u : Url) (cs : List Char) : Option Url :=
  (readAuthority parseHost u (cs.takeWhile (inAuthority u.scheme.isSpecial))).map fun v =>
    pathStart v (cs.dropWhile (inAuthority u.scheme.isSpecial))

/-- "Special authority ignore slashes state". -/
def ignoreSlashes (u : Url) (cs : List Char) : Option Url := authorityState parseHost u (cs.dropWhile (isSlash true))

/-- A URL of which nothing but the scheme is known. -/
def Url.blank (scheme : Scheme) : Url := ⟨scheme, [], [], none, none, .list [], none, none⟩

/-! ### Relative texts -/

/-- "Relative slash state". -/
def relativeSlash (base : Url) (cs : List Char) : Option Url :=
  match cs with
  | [] => some (pathState base [] [])
  | c :: rest =>
    if isSlash base.scheme.isSpecial c then
      if base.scheme.isSpecial then ignoreSlashes parseHost (.blank base.scheme) rest
      else authorityState parseHost (.blank base.scheme) rest
    else some (pathState base [] cs)

/-- "Relative state". -/
def relativeState (base : Url) (cs : List Char) : Option Url :=
  match cs with
  | [] => some { base with fragment := none }
  | c :: rest =>
    if isSlash base.scheme.isSpecial c then relativeSlash parseHost base rest
    else if c = '#' then some { base with fragment := readFragment cs }
    else if c = '?' then
      let tail := readTail base.scheme.isSpecial cs
      some { base with query := tail.1, fragment := tail.2 }
    else some (pathState base (shorten base.scheme base.segments) cs)

/-! ### Files -/

/-- "File host state". -/
def fileHost (u : Url) (cs : List Char) : Option Url :=
  let host := cs.takeWhile (inAuthority true)
  let rest := cs.dropWhile (inAuthority true)
  if isDriveLetter host then some (pathState u [] cs)
  else if host = [] then some (pathStart u rest)
  else (parseHost true host).map fun host =>
    pathStart { u with host := some (if host = "localhost".toList then [] else host) } rest

/-- "File slash state". -/
def fileSlash (base : Option Url) (cs : List Char) : Option Url :=
  let blank : Url := { Url.blank .file with host := some [] }
  match cs with
  | c :: rest =>
    if isSlash true c then fileHost parseHost blank rest
    else some (onDrive blank cs)
  | [] => some (onDrive blank [])
where
  /-- The drive is that of the base. -/
  onDrive (blank : Url) (cs : List Char) : Url :=
    match base with
    | none => pathState blank [] cs
    | some base =>
      pathState { blank with host := base.host }
        (if startsWithDriveLetter cs then [] else (base.segments.take 1).filter isNormalizedDriveLetter) cs

/-- "File state"; `base` is a file as well. -/
def fileState (base : Option Url) (cs : List Char) : Option Url :=
  let blank : Url := { Url.blank .file with host := some [] }
  if (cs.head?.any (isSlash true)) then fileSlash parseHost base (cs.drop 1)
  else
    match base with
    | none => some (pathState blank [] cs)
    | some base =>
      let same : Url := { blank with host := base.host, path := base.path, query := base.query }
      match cs with
      | [] => some same
      | '#' :: _ => some { same with fragment := readFragment cs }
      | '?' :: _ =>
        let tail := readTail true cs
        some { same with query := tail.1, fragment := tail.2 }
      | _ => some (pathState same (if startsWithDriveLetter cs then [] else shorten .file base.segments) cs)

/-! ### The parser -/

def isSchemeChar (c : Char) : Bool := c.isAlphanum || c = '+' || c = '-' || c = '.'

/-- A scheme and what follows its colon. -/
def readScheme (cs : List Char) : Option (Scheme × List Char) :=
  if cs.head?.any Char.isAlpha then
    match cs.dropWhile isSchemeChar with
    | ':' :: rest => some (.ofName ((cs.takeWhile isSchemeChar).map Char.toLower), rest)
    | _ => none
  else none

/-- "Opaque path state": of the blanks before the query or the fragment the last is escaped. -/
def textPath (u : Url) (cs : List Char) : Url :=
  let path := cs.takeWhile (!endsPath ·)
  let rest := cs.dropWhile (!endsPath ·)
  let written := percentEncode c0ControlSet path
  let tail := readTail false rest
  { u with
    path := .text (if rest ≠ [] ∧ path.getLast? = some ' ' then written.dropLast ++ ['%', '2', '0'] else written)
    query := tail.1
    fragment := tail.2 }

/-- What follows a scheme. -/
def afterScheme (base : Option Url) (scheme : Scheme) (cs : List Char) : Option Url :=
  if scheme = .file then fileState parseHost (base.filter (·.scheme = .file)) cs
  else if scheme.isSpecial then
    match base.filter (·.scheme = scheme) with
    | some base =>
      if ['/', '/'].isPrefixOf cs then ignoreSlashes parseHost (.blank scheme) cs else relativeState parseHost base cs
    | none => ignoreSlashes parseHost (.blank scheme) cs
  else
    match cs with
    | '/' :: '/' :: rest => authorityState parseHost (.blank scheme) rest
    | '/' :: rest => some (pathState (.blank scheme) [] rest)
    | _ => some (textPath (.blank scheme) cs)

/-- "No scheme state". -/
def withoutScheme (base : Option Url) (cs : List Char) : Option Url :=
  match base with
  | none => none
  | some base =>
    match base.path with
    | .text _ => if cs.head? = some '#' then some { base with fragment := readFragment cs } else none
    | .list _ => if base.scheme = .file then fileState parseHost (some base) cs else relativeState parseHost base cs

/-- `URL.parse(text, base)`; `none` is the failure. -/
def parse (base : Option Url) (text : List Char) : Option Url :=
  let cs := clean text
  match readScheme cs with
  | some (scheme, rest) => afterScheme parseHost base scheme rest
  | none => withoutScheme parseHost base cs

/-- What the functions over URLs throw. -/
inductive UrlError
  | typeError
  | uriError
  deriving DecidableEq

/-- `new URL(text, base)`, where it may throw. -/
def newUrl (base : Option Url) (text : List Char) : Except UrlError Url :=
  match parse parseHost base text with
  | some url => .ok url
  | none => .error .typeError

/-- Hosts of small letters and dots, which are written as they are. -/
def plainHost : HostParser := fun _ cs => if cs.all fun c => c.isLower || c = '.' then some cs else none

/-! ### Escaped characters -/

theorem percentEncode_cons (set : Char → Bool) (c : Char) (cs : List Char) :
    percentEncode set (c :: cs) = (if set c then escapeChar c else [c]) ++ percentEncode set cs := by
  rw [percentEncode, List.flatMap_cons, percentEncode]

/-- A character of what was escaped. -/
theorem mem_percentEncode {set : Char → Bool} {cs : List Char} {d : Char} (h : d ∈ percentEncode set cs) :
    d ∈ cs ∧ set d = false ∨ d = '%' ∨ ∃ n < 16, d = hexDigit n := by
  obtain ⟨c, hc, hd⟩ := List.mem_flatMap.mp h
  split_ifs at hd with hset
  · exact .inr (mem_escapeChar hd)
  · obtain rfl := List.mem_singleton.mp hd
    exact .inl ⟨hc, by simpa using hset⟩

theorem percentEncode_eq_self {set : Char → Bool} {cs : List Char} (h : ∀ c ∈ cs, set c = false) :
    percentEncode set cs = cs := by
  induction cs with
  | nil => rfl
  | cons c cs ih =>
    rw [percentEncode_cons, h c (by simp), ih fun d hd => h d (by simp [hd])]
    rfl

/-- A character other than the dot is not escaped as one. -/
theorem exists_escapeChar_eq {c : Char} (hc : c ≠ '.') : ∃ x y rest, escapeChar c = '%' :: x :: y :: rest ∧
    ¬(x = '2' ∧ (y = 'e' ∨ y = 'E')) := by
  obtain ⟨b, bs, he, -, -⟩ := exists_utf8EncodeChar_eq_cons c
  refine ⟨hexDigit (b.toNat / 16), hexDigit (b.toNat % 16), bs.flatMap escapeByte, ?_, ?_⟩
  · rw [escapeChar, he, List.flatMap_cons]
    rfl
  · rintro ⟨hx, hy⟩
    have hlt := b.toNat_lt
    have hx' := hexValue_hexDigit (n := b.toNat / 16) (by omega)
    have hy' := hexValue_hexDigit (n := b.toNat % 16) (by omega)
    have hhigh : b.toNat / 16 = 2 := by
      rw [hx] at hx'
      exact (Option.some.inj ((by decide : hexValue '2' = some 2).symm.trans hx')).symm
    have hlow : b.toNat % 16 = 14 := by
      rcases hy with hy | hy
      · rw [hy] at hy'
        exact (Option.some.inj ((by decide : hexValue 'e' = some 14).symm.trans hy')).symm
      · rw [hy] at hy'
        exact (Option.some.inj ((by decide : hexValue 'E' = some 14).symm.trans hy')).symm
    -- the byte is that of the dot, and a byte below 128 is the whole character
    have hval := octetsValue_utf8EncodeChar c
    have hlen : (String.utf8EncodeChar c).length = 1 := by
      obtain ⟨b', bs', he', hcount, -⟩ := exists_utf8EncodeChar_eq_cons c
      obtain ⟨rfl, -⟩ := List.cons.inj (he.symm.trans he')
      have hb : b.toNat = 0x2e := by omega
      rw [← hcount, octetCount, if_pos]
      rw [UInt8.lt_iff_toNat_lt, hb]
      decide
    rw [he, List.length_cons] at hlen
    obtain rfl := List.length_eq_zero_iff.mp (by omega : bs.length = 0)
    rw [he, octetsValue] at hval
    have : c.toNat = '.'.toNat := by
      have : '.'.toNat = 0x2e := rfl
      omega
    exact hc (Char.toNat_inj.mp this)

/-! ### Segments -/

/-- A segment as it stands in a URL with an origin. -/
structure IsSegment (s : List Char) : Prop where
  chars : ∀ c ∈ s, pathSet c = false ∧ isSlash true c = false
  no_dot : dotCount s ≠ some 1
  no_dots : dotCount s ≠ some 2

theorem isSegment_nil : IsSegment [] := ⟨by simp, by decide, by decide⟩

theorem dotCount_cons_eq_none {c : Char} {cs : List Char} (hc : c ≠ '.')
    (h : c = '%' → ∀ d rest, cs = '2' :: d :: rest → ¬(d = 'e' ∨ d = 'E')) : dotCount (c :: cs) = none := by
  rw [dotCount.eq_def]
  split
  · next heq => cases heq
  · next heq => exact absurd (List.cons.inj heq).1 hc
  · next d rest heq =>
    obtain ⟨rfl, rfl⟩ := List.cons.inj heq
    exact if_neg (h rfl d rest rfl)
  · rfl

/-- Escaping makes no dots. -/
theorem dotCount_percentEncode (s : List Char) : dotCount (percentEncode pathSet s) = dotCount s := by
  have hpercent : pathSet '%' = false := by decide
  have htwo : pathSet '2' = false := by decide
  have hdot : pathSet '.' = false := by decide
  have he : ∀ c, c = 'e' ∨ c = 'E' → pathSet c = false := by
    rintro c (rfl | rfl) <;> decide
  induction s using dotCount.induct with
  | case1 => rfl
  | case2 cs ih => simp [percentEncode_cons, hdot, dotCount, ih]
  | case3 c cs hc ih => simp [percentEncode_cons, hpercent, htwo, he c hc, dotCount, hc, ih]
  | case4 c cs hc =>
    rw [percentEncode_cons, percentEncode_cons, percentEncode_cons, hpercent, htwo]
    by_cases hset : pathSet c = true
    · obtain ⟨x, y, rest, hesc, -⟩ := exists_escapeChar_eq (c := c) fun h => by simp [h, hdot] at hset
      simp [hset, hesc, dotCount, hc]
    · simp [hset, dotCount, hc]
  | case5 c cs hne hesc =>
    rw [dotCount_cons_eq_none hne fun hc d rest hcs _ => hesc d rest hc hcs, percentEncode_cons]
    by_cases hset : pathSet c = true
    · obtain ⟨x, y, rest, hchar, hxy⟩ := exists_escapeChar_eq hne
      rw [if_pos hset, hchar]
      refine dotCount_cons_eq_none (by decide) ?_
      rintro - d rest' heq hd
      obtain ⟨rfl, heq⟩ := List.cons.inj heq
      obtain ⟨hy, -⟩ := List.cons.inj (List.cons.inj heq).2
      exact hxy ⟨rfl, by rwa [hy]⟩
    · rw [if_neg hset]
      refine dotCount_cons_eq_none hne ?_
      rintro hc d rest heq -
      -- what begins with `2` and one more character does so before it is escaped
      cases cs with
      | nil => cases heq
      | cons c₁ cs =>
        rw [percentEncode_cons] at heq
        split_ifs at heq with h₁
        · obtain ⟨x, y, tail, hchar, -⟩ := exists_escapeChar_eq (c := c₁) fun h => by simp [h, hdot] at h₁
          rw [hchar] at heq
          exact absurd (List.cons.inj heq).1 (by decide)
        · obtain ⟨rfl, heq⟩ := List.cons.inj heq
          cases cs with
          | nil => cases heq
          | cons c₂ cs => exact hesc c₂ cs hc rfl

/-- What a segment of a text becomes. -/
theorem isSegment_percentEncode {s : List Char} (hslash : ∀ c ∈ s, isSlash true c = false)
    (hdot : dotCount s ≠ some 1) (hdots : dotCount s ≠ some 2) : IsSegment (percentEncode pathSet s) := by
  refine ⟨fun c hc => ?_, by rwa [dotCount_percentEncode], by rwa [dotCount_percentEncode]⟩
  rcases mem_percentEncode hc with ⟨hmem, hset⟩ | rfl | ⟨n, hn, rfl⟩
  · exact ⟨hset, hslash c hmem⟩
  · decide
  · have : ∀ n < 16, pathSet (hexDigit n) = false ∧ isSlash true (hexDigit n) = false := by decide
    exact this n hn

/-! ### Paths -/

theorem shorten_eq {scheme : Scheme} (h : scheme ≠ .file) (segments : List (List Char)) :
    shorten scheme segments = segments.dropLast := by
  rw [shorten.eq_def]
  split
  · simp [h]
  · rfl

theorem putSegment_eq {scheme : Scheme} (h : scheme ≠ .file) (segments : List (List Char)) (s : List Char) :
    putSegment scheme segments s = segments ++ [percentEncode pathSet s] := by
  rw [putSegment, if_neg fun hfile => h hfile.1]

theorem stepSegment_eq {scheme : Scheme} (h : scheme ≠ .file) {s : List Char} (hs : IsSegment s)
    (segments : List (List Char)) (last : Bool) : stepSegment scheme segments s last = segments ++ [s] := by
  rw [stepSegment, if_neg hs.no_dots, if_neg hs.no_dot, putSegment_eq h,
    percentEncode_eq_self fun c hc => (hs.chars c hc).1]

/-- A step keeps what holds of all segments. -/
theorem forall_mem_stepSegment {scheme : Scheme} (h : scheme ≠ .file) {P : List Char → Prop} (hnil : P [])
    {segments : List (List Char)} (hsegments : ∀ s ∈ segments, P s) {s : List Char}
    (hs : dotCount s ≠ some 1 → dotCount s ≠ some 2 → P (percentEncode pathSet s)) (last : Bool) :
    ∀ t ∈ stepSegment scheme segments s last, P t := by
  have hclose : ∀ {ts : List (List Char)}, (∀ t ∈ ts, P t) → ∀ t ∈ closeDots last ts, P t := by
    intro ts hts t ht
    rw [closeDots] at ht
    split_ifs at ht
    · rcases List.mem_append.mp ht with ht | ht
      · exact hts t ht
      · exact List.mem_singleton.mp ht ▸ hnil
    · exact hts t ht
  rw [stepSegment]
  split_ifs with htwo hone
  · refine hclose fun t ht => hsegments t ?_
    rw [shorten_eq h] at ht
    exact List.mem_of_mem_dropLast ht
  · exact hclose hsegments
  · rw [putSegment_eq h]
    intro t ht
    rcases List.mem_append.mp ht with ht | ht
    · exact hsegments t ht
    · exact List.mem_singleton.mp ht ▸ hs hone htwo

theorem forall_mem_walk {scheme : Scheme} (h : scheme ≠ .file) {P : List Char → Prop} (hnil : P [])
    {segments texts : List (List Char)} (hsegments : ∀ s ∈ segments, P s)
    (htexts : ∀ s ∈ texts, dotCount s ≠ some 1 → dotCount s ≠ some 2 → P (percentEncode pathSet s)) :
    ∀ t ∈ walk scheme segments texts, P t := by
  induction segments, texts using walk.induct scheme with
  | case1 => exact hsegments
  | case2 segments s => exact forall_mem_stepSegment h hnil hsegments (htexts s (by simp)) true
  | case3 segments s rest _ ih =>
    rw [walk]
    · exact ih (forall_mem_stepSegment h hnil hsegments (htexts s (by simp)) false) fun s hs =>
        htexts s (by simp [hs])
    · assumption

/-- The last segment of a text is not lost. -/
theorem walk_ne_nil {scheme : Scheme} {segments texts : List (List Char)} (htexts : texts ≠ []) :
    walk scheme segments texts ≠ [] := by
  induction segments, texts using walk.induct scheme with
  | case1 => exact absurd rfl htexts
  | case2 segments s =>
    rw [walk, stepSegment]
    split_ifs
    · simp [closeDots]
    · simp [closeDots]
    · rw [putSegment]
      split_ifs <;> simp
  | case3 segments s rest hrest ih =>
    rw [walk]
    · refine ih ?_
      rintro rfl
      exact hrest rfl
    · assumption

/-- Segments without dots are put behind the path as they are. -/
theorem walk_eq {scheme : Scheme} (h : scheme ≠ .file) {segments texts : List (List Char)}
    (htexts : ∀ s ∈ texts, IsSegment s) : walk scheme segments texts = segments ++ texts := by
  induction segments, texts using walk.induct scheme with
  | case1 => rw [walk, List.append_nil]
  | case2 segments s => rw [walk, stepSegment_eq h (htexts s (by simp))]
  | case3 segments s rest hrest ih =>
    rw [walk]
    · rw [stepSegment_eq h (htexts s (by simp))] at ih ⊢
      rw [ih fun t ht => htexts t (by simp [ht]), List.append_assoc, List.singleton_append]
    · assumption

/-- The parts between the separators have none. -/
theorem not_mem_of_mem_splitOnP {p : Char → Bool} {cs s : List Char} (hs : s ∈ cs.splitOnP p) :
    ∀ c ∈ s, p c = false := by
  induction cs generalizing s with
  | nil =>
    rw [List.splitOnP_nil, List.mem_singleton] at hs
    subst hs
    simp
  | cons c cs ih =>
    rw [List.splitOnP_cons_eq_if_modifyHead] at hs
    split_ifs at hs with hc
    · rcases List.mem_cons.mp hs with rfl | hs
      · simp
      · exact ih hs
    · obtain ⟨first, rest, he⟩ := List.exists_cons_of_ne_nil (List.splitOnP_ne_nil p cs)
      rw [he] at hs ih
      rcases List.mem_cons.mp hs with rfl | hs
      · intro d hd
        rcases List.mem_cons.mp hd with rfl | hd
        · simpa using hc
        · exact ih List.mem_cons_self d hd
      · exact ih (List.mem_cons_of_mem _ hs)

theorem length_splitOnP (p : Char → Bool) (cs : List Char) : (cs.splitOnP p).length = cs.countP p + 1 := by
  induction cs with
  | nil => rfl
  | cons c cs ih =>
    rw [List.splitOnP_cons_eq_if_modifyHead, List.countP_cons]
    split_ifs with hc
    · rw [List.length_cons, ih]
    · rw [List.length_modifyHead, ih]

/-- A path has as many slashes as segments. -/
theorem countP_pathText {segments : List (List Char)} (h : ∀ s ∈ segments, IsSegment s) :
    (Url.pathText segments).countP (isSlash true) = segments.length := by
  induction segments with
  | nil => rfl
  | cons s segments ih =>
    have hs : s.countP (isSlash true) = 0 := List.countP_eq_zero.mpr fun c hc => by
      simp [((h s (by simp)).chars c hc).2]
    rw [Url.pathText, List.flatMap_cons, List.cons_append, List.countP_cons, List.countP_append, hs]
    rw [Url.pathText] at ih
    rw [ih fun t ht => h t (by simp [ht]), List.length_cons]
    simp [isSlash]

/-- **The path of a URL with an origin is made of segments.** -/
theorem isSegment_of_mem_readPath {scheme : Scheme} (h : scheme.hasOrigin = true) {segments : List (List Char)}
    (hsegments : ∀ s ∈ segments, IsSegment s) {cs s : List Char} (hs : s ∈ readPath scheme segments cs) :
    IsSegment s := by
  simp only [Scheme.hasOrigin, Bool.and_eq_true, decide_eq_true_eq] at h
  refine forall_mem_walk h.2 isSegment_nil hsegments (fun t ht hone htwo => ?_) s hs
  rw [h.1] at ht
  exact isSegment_percentEncode (not_mem_of_mem_splitOnP ht) hone htwo

theorem pathText_cons (s : List Char) (segments : List (List Char)) :
    Url.pathText (s :: segments) = '/' :: (s ++ Url.pathText segments) := by
  rw [Url.pathText, List.flatMap_cons, Url.pathText, List.cons_append]

/-- **A path that was serialised is read back**, behind the segments there are. -/
theorem readPath_pathText {scheme : Scheme} (h : scheme.hasOrigin = true) (front : List (List Char)) {s : List Char}
    {segments : List (List Char)} (hsegments : ∀ t ∈ s :: segments, IsSegment t) :
    readPath scheme front (s ++ Url.pathText segments) = front ++ s :: segments := by
  simp only [Scheme.hasOrigin, Bool.and_eq_true, decide_eq_true_eq] at h
  have hsplit : (s ++ Url.pathText segments).splitOnP (isSlash true) = s :: segments := by
    induction segments generalizing s with
    | nil =>
      rw [Url.pathText, List.flatMap_nil, List.append_nil]
      exact List.splitOnP_eq_singleton fun c hc => ((hsegments s (by simp)).chars c hc).2
    | cons t segments ih =>
      rw [pathText_cons, List.splitOnP_append_cons_of_forall_mem
        (fun c hc => ((hsegments s (by simp)).chars c hc).2) _ (by rfl), ih fun r hr => hsegments r (by simp_all)]
  rw [readPath, h.1, hsplit, walk_eq h.2 hsegments]

/-- There are not more segments than texts. -/
theorem length_walk_le (scheme : Scheme) (segments texts : List (List Char)) :
    (walk scheme segments texts).length ≤ segments.length + texts.length := by
  have hstep : ∀ (segments : List (List Char)) (s : List Char) (last : Bool),
      (stepSegment scheme segments s last).length ≤ segments.length + 1 := by
    intro segments s last
    have hclose : ∀ ts : List (List Char), ts.length ≤ segments.length →
        (closeDots last ts).length ≤ segments.length + 1 := by
      intro ts hts
      rw [closeDots]
      split_ifs
      · rw [List.length_append, List.length_singleton]
        omega
      · omega
    rw [stepSegment]
    split_ifs
    · refine hclose _ ?_
      rw [shorten.eq_def]
      split
      · split_ifs <;> simp
      · simp
    · exact hclose _ le_rfl
    · rw [putSegment]
      split_ifs <;> simp
  induction segments, texts using walk.induct scheme with
  | case1 => simp [walk]
  | case2 segments s => exact hstep segments s true
  | case3 segments s rest hrest ih =>
    rw [walk]
    · have := hstep segments s false
      rw [List.length_cons]
      omega
    · assumption

/-- A segment of dots decodes to them. -/
theorem decodes_of_dotCount {s : List Char} {n : ℕ} (h : dotCount s = some n) :
    Decodes (ofChars s) (List.replicate n (.scalar '.')) := by
  have hspells : ∀ c, c = 'e' ∨ c = 'E' →
      Spells (ofChars ['%', '2', c]) (String.utf8EncodeChar '.') := by
    rintro c hc
    have hvalue : hexValue c = some 14 := by rcases hc with rfl | rfl <;> decide
    exact .cons (m := 2) (by decide) hvalue .nil
  induction s using dotCount.induct generalizing n with
  | case1 =>
    obtain rfl := Option.some.inj h
    exact .nil
  | case2 cs ih =>
    rw [dotCount] at h
    obtain ⟨m, hm, rfl⟩ := Option.map_eq_some_iff.mp h
    exact .raw (by decide) (ih hm)
  | case3 c cs hc ih =>
    rw [dotCount, if_pos hc] at h
    obtain ⟨m, hm, rfl⟩ := Option.map_eq_some_iff.mp h
    exact .escaped (hspells c hc) (ih hm)
  | case4 c cs hc =>
    rw [dotCount, if_neg hc] at h
    cases h
  | case5 c cs hne hesc =>
    rw [dotCount_cons_eq_none hne fun hc d rest hcs _ => hesc d rest hc hcs] at h
    cases h

/-- What `encodeURIComponent` returns stands in a URL as it is, unless it is dots. -/
theorem isSegment_encodeURIComponent {ps : List CodePoint} {e : List Char} (h : encodeURIComponent ps = some e)
    (hdot : ps ≠ [.scalar '.']) (hdots : ps ≠ [.scalar '.', .scalar '.']) : IsSegment e := by
  refine ⟨fun c hc => ?_, fun hone => ?_, fun htwo => ?_⟩
  · have hpercent : pathSet '%' = false ∧ isSlash true '%' = false := by decide
    rcases mem_encodeURIComponent h hc with rfl | hc
    · exact hpercent
    · have hall : ∀ n < 128, isUnescaped (Char.ofNat n) = true →
          pathSet (Char.ofNat n) = false ∧ isSlash true (Char.ofNat n) = false := by decide
      have := hall c.toNat (toNat_lt_of_isUnescaped hc)
      rw [Char.ofNat_toNat] at this
      exact this hc
  · exact hdot ((decodes_encodeURIComponent h).unique (decodes_of_dotCount hone))
  · exact hdots ((decodes_encodeURIComponent h).unique (decodes_of_dotCount htwo))

/-! ### Relative texts -/

/-- A base of which a text with a path can take the rest. -/
structure IsBase (base : Url) : Prop where
  hasOrigin : base.scheme.hasOrigin = true
  path : ∃ s segments, base.path = .list (s :: segments) ∧ ∀ t ∈ s :: segments, IsSegment t

variable {parseHost}

namespace IsBase

variable {base : Url}

theorem isSpecial (h : IsBase base) : base.scheme.isSpecial = true := Scheme.isSpecial_of_hasOrigin h.hasOrigin

theorem ne_file (h : IsBase base) : base.scheme ≠ .file := by
  have := h.hasOrigin
  simp only [Scheme.hasOrigin, Bool.and_eq_true, decide_eq_true_eq] at this
  exact this.2

end IsBase

theorem readScheme_eq_none {cs : List Char} (h : cs.head? = some '/' ∨ ':' ∉ cs) : readScheme cs = none := by
  rw [readScheme]
  split_ifs with hhead
  · split
    · next rest heq =>
      rcases h with h | h
      · rw [h] at hhead
        exact absurd hhead (by decide)
      · exact absurd (List.dropWhile_sublist _ |>.subset (heq ▸ List.mem_cons_self)) h
    · rfl
  · rfl

theorem parse_without_scheme {base : Url} (h : IsBase base) {text cs : List Char} (hclean : clean text = cs)
    (hscheme : cs.head? = some '/' ∨ ':' ∉ cs) :
    parse parseHost (some base) text = relativeState parseHost base cs := by
  obtain ⟨s, segments, hpath, -⟩ := h.path
  simp only [parse, hclean, readScheme_eq_none hscheme, withoutScheme, hpath, if_neg h.ne_file]

/-- **A text that begins with one slash** has the authority of the base. -/
theorem parse_absolute_path {base : Url} (h : IsBase base) {text cs : List Char} (hclean : clean text = '/' :: cs)
    (hcs : ∀ c ∈ cs.head?, isSlash true c = false) :
    parse parseHost (some base) text = some (pathState base [] cs) := by
  rw [parse_without_scheme h hclean (.inl rfl), relativeState, h.isSpecial, if_pos (by rfl), relativeSlash.eq_def]
  split
  · rfl
  · next c rest =>
    rw [h.isSpecial, if_neg]
    simpa using hcs

/-- A text that begins with two slashes has its own. -/
theorem parse_authority {base : Url} (h : IsBase base) {text cs : List Char} {c : Char}
    (hclean : clean text = '/' :: c :: cs) (hc : isSlash true c = true) :
    parse parseHost (some base) text = ignoreSlashes parseHost (.blank base.scheme) cs := by
  rw [parse_without_scheme h hclean (.inl rfl), relativeState, h.isSpecial, if_pos (by rfl), relativeSlash,
    h.isSpecial, if_pos hc, if_pos rfl]

/-- **A text that begins with a name** stands behind the path of the base. -/
theorem parse_relative_path {base : Url} (h : IsBase base) {text cs : List Char} {c : Char}
    (hclean : clean text = c :: cs) (hscheme : ':' ∉ c :: cs) (hc : isSlash true c = false) (hend : endsPath c = false) :
    parse parseHost (some base) text = some (pathState base base.segments.dropLast (c :: cs)) := by
  simp only [endsPath, Bool.or_eq_false_iff, decide_eq_false_iff_not] at hend
  rw [parse_without_scheme h hclean (.inr hscheme), relativeState, h.isSpecial, hc, if_neg (by simp),
    if_neg hend.2, if_neg hend.1, shorten_eq h.ne_file]

/-! ### Absolute texts -/

theorem splitHost_eq {cs : List Char} (h : ':' ∉ cs) (inside : Bool) : splitHost inside cs = (cs, none) := by
  induction cs generalizing inside with
  | nil => rfl
  | cons c cs ih =>
    rw [List.mem_cons, not_or] at h
    rw [splitHost, if_neg fun hc => h.1 hc.1.symm, ih h.2]

/-- An authority that is a host. -/
theorem readAuthority_host {u : Url} {cs : List Char} (hne : cs ≠ []) (hat : '@' ∉ cs) (hcolon : ':' ∉ cs) :
    readAuthority parseHost u cs = (parseHost u.scheme.isSpecial cs).map fun host =>
      { u with username := [], password := [], host := some host, port := none } := by
  have hbehind : (cs.reverse.takeWhile (· ≠ '@')).reverse = cs := by
    rw [List.takeWhile_eq_self_iff.mpr, List.reverse_reverse]
    intro c hc
    simp only [ne_eq, decide_eq_true_eq]
    rintro rfl
    exact hat (List.mem_reverse.mp hc)
  simp only [readAuthority, hbehind, hat, false_and, if_false, splitHost_eq hcolon, hne, Nat.sub_self, Nat.zero_sub,
    List.take_zero, readPort]
  cases parseHost u.scheme.isSpecial cs <;> rfl

theorem scheme_pathStart (u : Url) (cs : List Char) : (pathStart u cs).scheme = u.scheme := by
  rw [pathStart.eq_def]
  split <;> split_ifs <;> rfl

/-- What is read as a path behind an authority. -/
def behindAuthority : List Char → List Char
  | [] => []
  | c :: cs => if isSlash true c then cs else c :: cs

theorem pathStart_eq {u : Url} {cs : List Char} (hu : u.scheme.isSpecial = true) :
    pathStart u cs = pathState u [] (behindAuthority cs) := by
  cases cs with
  | nil => exact if_pos hu
  | cons c cs =>
    rw [pathStart, behindAuthority, hu]
    split_ifs <;> simp_all

theorem behindAuthority_sublist (cs : List Char) : (behindAuthority cs).Sublist cs := by
  cases cs with
  | nil => exact .refl _
  | cons c cs =>
    rw [behindAuthority]
    split_ifs
    · exact List.sublist_cons_self c cs
    · exact .refl _

theorem scheme_readAuthority {u v : Url} {cs : List Char} (h : readAuthority parseHost u cs = some v) :
    v.scheme = u.scheme := by
  simp only [readAuthority] at h
  split_ifs at h
  obtain ⟨host, -, h⟩ := Option.bind_eq_some_iff.mp h
  obtain ⟨port, -, h⟩ := Option.bind_eq_some_iff.mp h
  rw [← Option.some.inj h]

theorem scheme_authorityState {u v : Url} {cs : List Char} (h : authorityState parseHost u cs = some v) :
    v.scheme = u.scheme := by
  obtain ⟨w, hw, rfl⟩ := Option.map_eq_some_iff.mp h
  rw [scheme_pathStart, scheme_readAuthority hw]

theorem scheme_fileState {u : Url} {cs : List Char} (h : fileState parseHost none cs = some u) : u.scheme = .file := by
  rw [fileState] at h
  split_ifs at h
  · rw [fileSlash.eq_def] at h
    split at h
    · split_ifs at h
      · simp only [fileHost] at h
        split_ifs at h
        · rw [← Option.some.inj h]
          rfl
        · rw [← Option.some.inj h, scheme_pathStart]
          rfl
        · obtain ⟨host, -, rfl⟩ := Option.map_eq_some_iff.mp h
          rw [scheme_pathStart]
          rfl
      · rw [← Option.some.inj h]
        rfl
    · rw [← Option.some.inj h]
      rfl
  · rw [← Option.some.inj h]
    rfl

/-! ### What is serialised -/

theorem clean_eq_self {cs : List Char} (h : ∀ c ∈ cs, 0x20 < c.toNat) : clean cs = cs := by
  rw [clean, stripChars_eq_self fun c hc => by simpa using h c hc]
  refine List.filter_eq_self.mpr fun c hc => ?_
  have hlt := h c hc
  have hne : ∀ d : Char, d.toNat ≤ 0x20 → c ≠ d := by
    rintro d hd rfl
    omega
  simp [hne '\t' (by decide), hne '\n' (by decide), hne '\r' (by decide)]

/-- A query or a fragment as it is serialised. -/
def IsTail (set : Char → Bool) (o : Option (List Char)) : Prop := ∀ cs ∈ o, ∀ c ∈ cs, set c = false

/-- **A query and a fragment that were serialised are read back.** -/
theorem readTail_behind {query fragment : Option (List Char)} (hquery : IsTail specialQuerySet query)
    (hfragment : IsTail fragmentSet fragment) :
    readTail true (Url.behind '?' query ++ Url.behind '#' fragment) =
      (query.filter (· ≠ []), fragment.filter (· ≠ [])) := by
  have hstop : (Url.behind '#' fragment).takeWhile (· ≠ '#') = [] ∧
      (Url.behind '#' fragment).dropWhile (· ≠ '#') = Url.behind '#' fragment := by
    rcases fragment with _ | _ | ⟨d, cs⟩
    · exact ⟨rfl, rfl⟩
    · exact ⟨rfl, rfl⟩
    · constructor <;> simp [Url.behind]
  have hread : readFragment (Url.behind '#' fragment) = fragment.filter (· ≠ []) := by
    rcases fragment with _ | _ | ⟨d, cs⟩
    · rfl
    · rfl
    · simp only [Url.behind, readFragment]
      rw [percentEncode_eq_self (hfragment _ rfl)]
      rfl
  -- without a query the text begins with `#`, if it is not empty
  have hnone : readTail true (Url.behind '#' fragment) = (none, fragment.filter (· ≠ [])) := by
    rw [← hread]
    rcases fragment with _ | _ | ⟨d, cs⟩ <;> rfl
  rcases query with _ | _ | ⟨d, cs⟩
  · exact hnone
  · exact hnone
  · have hq : ∀ c ∈ d :: cs, decide (c ≠ '#') = true := by
      intro c hc
      have := hquery _ rfl c hc
      simp only [ne_eq, decide_eq_true_eq]
      rintro rfl
      exact absurd this (by decide)
    have htake : (d :: cs ++ Url.behind '#' fragment).takeWhile (· ≠ '#') = d :: cs := by
      rw [List.takeWhile_append_of_pos hq, hstop.1, List.append_nil]
    have hdrop : (d :: cs ++ Url.behind '#' fragment).dropWhile (· ≠ '#') = Url.behind '#' fragment := by
      rw [List.dropWhile_append_of_pos hq, hstop.2]
    show readTail true ('?' :: (d :: cs ++ Url.behind '#' fragment)) = _
    rw [readTail, htake, hdrop, hread, if_pos rfl, percentEncode_eq_self (hquery _ rfl)]
    rfl

/-- A text whose characters were escaped has none of them, where escapes have none. -/
theorem isTail_percentEncode {set : Char → Bool} (hpercent : set '%' = false)
    (hdigits : ∀ n < 16, set (hexDigit n) = false) (cs : List Char) : IsTail set (some (percentEncode set cs)) := by
  rintro _ ⟨⟩ c hc
  rcases mem_percentEncode hc with ⟨-, hset⟩ | rfl | ⟨n, hn, rfl⟩
  · exact hset
  · exact hpercent
  · exact hdigits n hn

theorem isTail_readFragment (cs : List Char) : IsTail fragmentSet (readFragment cs) := by
  rcases cs with _ | ⟨d, cs⟩
  · rintro _ ⟨⟩
  · exact isTail_percentEncode (by decide) (by decide) cs

theorem isTail_readTail (cs : List Char) :
    IsTail specialQuerySet (readTail true cs).1 ∧ IsTail fragmentSet (readTail true cs).2 := by
  rw [readTail.eq_def]
  split
  · exact ⟨isTail_percentEncode (by decide) (by decide) _, isTail_readFragment _⟩
  · exact ⟨by rintro _ ⟨⟩, isTail_readFragment _⟩

/-! ### What the parser returns -/

/-- A URL as requests are sent to. -/
structure IsWeb (url : Url) : Prop extends IsBase url where
  query : IsTail specialQuerySet url.query

theorem isWeb_pathState {u : Url} (h : u.scheme.hasOrigin = true) {segments : List (List Char)}
    (hsegments : ∀ s ∈ segments, IsSegment s) (cs : List Char) : IsWeb (pathState u segments cs) := by
  have hne : readPath u.scheme segments (cs.takeWhile (!endsPath ·)) ≠ [] := walk_ne_nil (List.splitOnP_ne_nil _ _)
  obtain ⟨s, rest, he⟩ := List.exists_cons_of_ne_nil hne
  refine ⟨⟨h, s, rest, congrArg Path.list he, fun t ht => ?_⟩, ?_⟩
  · rw [← he] at ht
    exact isSegment_of_mem_readPath h hsegments ht
  · show IsTail specialQuerySet (readTail u.scheme.isSpecial _).1
    rw [Scheme.isSpecial_of_hasOrigin h]
    exact (isTail_readTail _).1

theorem isWeb_of_authorityState {u v : Url} {cs : List Char} (hu : u.scheme.hasOrigin = true)
    (h : authorityState parseHost u cs = some v) : IsWeb v := by
  obtain ⟨w, hw, rfl⟩ := Option.map_eq_some_iff.mp h
  rw [← scheme_readAuthority hw] at hu
  rw [pathStart_eq (Scheme.isSpecial_of_hasOrigin hu)]
  exact isWeb_pathState hu (by simp) _

theorem isWeb_of_relativeState {base u : Url} (hb : IsWeb base) {cs : List Char}
    (h : relativeState parseHost base cs = some u) : IsWeb u := by
  obtain ⟨s, segments, hpath, hsegments⟩ := hb.path
  have hshorten : ∀ t ∈ shorten base.scheme base.segments, IsSegment t := by
    rw [shorten_eq hb.toIsBase.ne_file]
    intro t ht
    rw [Url.segments, hpath] at ht
    exact hsegments t (List.mem_of_mem_dropLast ht)
  rw [relativeState.eq_def] at h
  split at h
  · rw [← Option.some.inj h]
    exact ⟨⟨hb.hasOrigin, hb.path⟩, hb.query⟩
  · split_ifs at h
    · rw [relativeSlash.eq_def] at h
      split at h
      · rw [← Option.some.inj h]
        exact isWeb_pathState hb.hasOrigin (by simp) _
      · split_ifs at h
        · exact isWeb_of_authorityState (u := .blank base.scheme) hb.hasOrigin h
        · exact isWeb_of_authorityState (u := .blank base.scheme) hb.hasOrigin h
        · rw [← Option.some.inj h]
          exact isWeb_pathState hb.hasOrigin (by simp) _
    · rw [← Option.some.inj h]
      exact ⟨⟨hb.hasOrigin, hb.path⟩, hb.query⟩
    · rw [← Option.some.inj h]
      refine ⟨⟨hb.hasOrigin, hb.path⟩, ?_⟩
      rw [hb.toIsBase.isSpecial]
      exact (isTail_readTail _).1
    · rw [← Option.some.inj h]
      exact isWeb_pathState hb.hasOrigin hshorten _

/-- **What is read of a text with an origin is a URL that requests are sent to**, on a base that is one or on none. -/
theorem isWeb_of_parse {base : Option Url} (hbase : ∀ b ∈ base, IsWeb b) {text : List Char} {u : Url}
    (h : parse parseHost base text = some u) (hu : u.scheme.hasOrigin = true) : IsWeb u := by
  have hfile : base.filter (·.scheme = .file) = none := by
    rcases base with _ | b
    · rfl
    · have := (hbase b rfl).toIsBase.ne_file
      simp [Option.filter, this]
  simp only [parse] at h
  split at h
  · next scheme rest _ =>
    simp only [afterScheme] at h
    by_cases hscheme : scheme = .file
    · rw [if_pos hscheme, hfile] at h
      rw [scheme_fileState h] at hu
      exact absurd hu (by decide)
    rw [if_neg hscheme] at h
    by_cases hspecial : scheme.isSpecial = true
    · have horigin : (Url.blank scheme).scheme.hasOrigin = true := by
        simp [Url.blank, Scheme.hasOrigin, hspecial, hscheme]
      rw [if_pos hspecial] at h
      split at h
      · next b hb =>
        split_ifs at h
        · exact isWeb_of_authorityState horigin h
        · exact isWeb_of_relativeState (hbase b (Option.eq_some_of_filter_eq_some hb)) h
      · exact isWeb_of_authorityState horigin h
    · rw [if_neg hspecial] at h
      -- a scheme that is not special has no origin
      have hnone : u.scheme = scheme → IsWeb u := by
        intro hsame
        rw [hsame, Scheme.hasOrigin, Bool.and_eq_true] at hu
        exact absurd hu.1 hspecial
      split at h
      · exact hnone (scheme_authorityState h)
      · rw [← Option.some.inj h] at hnone ⊢
        exact hnone rfl
      · rw [← Option.some.inj h] at hnone ⊢
        exact hnone rfl
  · rcases base with _ | b
    · cases h
    · obtain ⟨s, segments, hpath, -⟩ := (hbase b rfl).path
      simp only [withoutScheme, hpath, if_neg (hbase b rfl).toIsBase.ne_file] at h
      exact isWeb_of_relativeState (hbase b rfl) h

/-- **What is read without a base can be one.** -/
theorem isBase_of_parse {text : List Char} {u : Url} (h : parse parseHost none text = some u)
    (hu : u.scheme.hasOrigin = true) : IsBase u :=
  (isWeb_of_parse (by simp) h hu).toIsBase

/-! ### Characters of what is serialised -/

/-- The characters of a segment are printed ones. -/
theorem lt_toNat_of_not_c0ControlSet {c : Char} (h : c0ControlSet c = false) (hspace : c ≠ ' ') : 0x20 < c.toNat := by
  simp only [c0ControlSet, Bool.or_eq_false_iff, decide_eq_false_iff_not] at h
  have : c.toNat ≠ ' '.toNat := fun he => hspace (Char.toNat_inj.mp he)
  have : ' '.toNat = 0x20 := rfl
  omega

theorem mem_pathText {segments : List (List Char)} {c : Char} (h : c ∈ Url.pathText segments) :
    c = '/' ∨ ∃ s ∈ segments, c ∈ s := by
  obtain ⟨s, hs, hc⟩ := List.mem_flatMap.mp h
  rcases List.mem_cons.mp hc with rfl | hc
  · exact .inl rfl
  · exact .inr ⟨s, hs, hc⟩

theorem mem_behind {mark : Char} {o : Option (List Char)} {c : Char} (h : c ∈ Url.behind mark o) :
    c = mark ∨ ∃ cs ∈ o, c ∈ cs := by
  rcases o with _ | _ | ⟨d, cs⟩
  · simp [Url.behind] at h
  · simp [Url.behind] at h
  · rcases List.mem_cons.mp h with rfl | h
    · exact .inl rfl
    · exact .inr ⟨_, rfl, h⟩

/-- What follows a path begins with one of the two marks. -/
theorem head?_behind (query fragment : Option (List Char)) :
    ∀ c ∈ (Url.behind '?' query ++ Url.behind '#' fragment).head?, endsPath c = true := by
  rcases query with _ | _ | ⟨d, cs⟩ <;> rcases fragment with _ | _ | ⟨d', cs'⟩ <;> simp [Url.behind, endsPath]

/-- The path ends where the query or the fragment begins. -/
theorem span_endsPath {path tail : List Char} (hpath : ∀ c ∈ path, endsPath c = false)
    (htail : ∀ c ∈ tail.head?, endsPath c = true) :
    (path ++ tail).takeWhile (!endsPath ·) = path ∧ (path ++ tail).dropWhile (!endsPath ·) = tail := by
  have hpos : ∀ c ∈ path, (!endsPath c) = true := fun c hc => by rw [hpath c hc]; rfl
  rw [List.takeWhile_append_of_pos hpos, List.dropWhile_append_of_pos hpos]
  rcases tail with _ | ⟨c, tail⟩
  · simp
  · simp [htail c rfl]

namespace IsSegment

variable {s : List Char}

theorem lt_toNat (h : IsSegment s) {c : Char} (hc : c ∈ s) : 0x20 < c.toNat := by
  have hset := (h.chars c hc).1
  refine lt_toNat_of_not_c0ControlSet ?_ ?_
  · simp only [pathSet, querySet, Bool.or_eq_false_iff] at hset
    exact hset.1.1
  · rintro rfl
    exact absurd hset (by decide)

theorem endsPath_eq_false (h : IsSegment s) {c : Char} (hc : c ∈ s) : endsPath c = false := by
  have hset := (h.chars c hc).1
  simp only [endsPath, Bool.or_eq_false_iff, decide_eq_false_iff_not]
  constructor <;>
  · rintro rfl
    exact absurd hset (by decide)

end IsSegment

/-- **What was taken from a URL is read as it was**, on any base with an origin, where its path does not begin with
two slashes. -/
theorem parse_pathText {base : Url} (h : IsBase base) {s : List Char} {segments : List (List Char)}
    {query fragment : Option (List Char)} (hsegments : ∀ t ∈ s :: segments, IsSegment t) (hs : s = [] → segments = [])
    (hquery : IsTail specialQuerySet query) (hfragment : IsTail fragmentSet fragment) :
    parse parseHost (some base) (Url.pathText (s :: segments) ++ (Url.behind '?' query ++ Url.behind '#' fragment)) =
      some { base with
        path := .list (s :: segments)
        query := query.filter (· ≠ [])
        fragment := fragment.filter (· ≠ []) } := by
  have hsegment : ∀ c ∈ s ++ Url.pathText segments, c = '/' ∨ ∃ t ∈ s :: segments, c ∈ t := by
    intro c hc
    rcases List.mem_append.mp hc with hc | hc
    · exact .inr ⟨s, by simp, hc⟩
    · rcases mem_pathText hc with rfl | ⟨t, ht, hc⟩
      · exact .inl rfl
      · exact .inr ⟨t, by simp [ht], hc⟩
  have hclean : clean (Url.pathText (s :: segments) ++ (Url.behind '?' query ++ Url.behind '#' fragment)) =
      '/' :: (s ++ Url.pathText segments ++ (Url.behind '?' query ++ Url.behind '#' fragment)) := by
    rw [pathText_cons, List.cons_append]
    refine clean_eq_self fun c hc => ?_
    rcases List.mem_cons.mp hc with rfl | hc
    · decide
    rcases List.mem_append.mp hc with hc | hc
    · rcases hsegment c hc with rfl | ⟨t, ht, hc⟩
      · decide
      · exact (hsegments t ht).lt_toNat hc
    · rcases List.mem_append.mp hc with hc | hc
      · rcases mem_behind hc with rfl | ⟨cs, hcs, hc⟩
        · decide
        · have hset := hquery cs hcs c hc
          refine lt_toNat_of_not_c0ControlSet ?_ ?_
          · simp only [specialQuerySet, querySet, Bool.or_eq_false_iff] at hset
            exact hset.1.1
          · rintro rfl
            exact absurd hset (by decide)
      · rcases mem_behind hc with rfl | ⟨cs, hcs, hc⟩
        · decide
        · have hset := hfragment cs hcs c hc
          refine lt_toNat_of_not_c0ControlSet ?_ ?_
          · simp only [fragmentSet, Bool.or_eq_false_iff] at hset
            exact hset.1
          · rintro rfl
            exact absurd hset (by decide)
  have hends := head?_behind query fragment
  -- a path of one empty segment is followed by one of the marks
  have hhead : ∀ c ∈ (s ++ Url.pathText segments ++ (Url.behind '?' query ++ Url.behind '#' fragment)).head?,
      isSlash true c = false := by
    intro c hc
    rcases s with _ | ⟨d, s⟩
    · rw [hs rfl] at hc
      have := hends c hc
      simp only [endsPath, Bool.or_eq_true, decide_eq_true_eq] at this
      rcases this with rfl | rfl <;> decide
    · obtain rfl := Option.some.inj hc
      exact ((hsegments _ List.mem_cons_self).chars d List.mem_cons_self).2
  have hpath : ∀ c ∈ s ++ Url.pathText segments, endsPath c = false := by
    intro c hc
    rcases hsegment c hc with rfl | ⟨t, ht, hc⟩
    · decide
    · exact (hsegments t ht).endsPath_eq_false hc
  obtain ⟨htake, hdrop⟩ := span_endsPath hpath hends
  rw [parse_absolute_path h hclean hhead, pathState, htake, hdrop, readPath_pathText h.hasOrigin [] hsegments, List.nil_append, h.isSpecial,
    readTail_behind hquery hfragment]

end Js
