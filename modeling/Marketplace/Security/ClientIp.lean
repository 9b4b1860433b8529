import Marketplace.Python.IpAddress
import Marketplace.Text.Regex

/-!
# The address a request is counted under

`security/client_ip.py`: behind trusted proxies, the client is the last address of `X-Forwarded-For` that is not
trusted itself. Each proxy appends the address it was connected from, on a line of the header that is there, as a line of
its own, or on one line it joins the others to; all of these are the same list. The code reads the first line.

`forward` is what a chain of proxies makes of the lines a client sends. `client_ip_iff` says when the client is
found: if its address is on the first line, or if the client has named it there itself.
-/

namespace Marketplace.ClientIp

open Python Text

variable (digits : DigitClass) (trusted : List IpNetwork)

/-- `_ip_in_trusted`. -/
def ipInTrusted (host : String) : Bool := (ipAddress host).any fun address => trusted.any (·.contains address)

/-- The address in a part of the list, without a port or brackets. -/
def bareHop (candidate : List Char) : List Char :=
  if candidate.head? = some '[' then
    if ']' ∈ candidate then candidate.tail.takeWhile (· ≠ ']') else candidate
  else if candidate.count ':' = 1 ∧ digits.allDigits (candidate.dropWhile (· ≠ ':')).tail = true then
    candidate.takeWhile (· ≠ ':')
  else candidate

/-- `_normalize_hop`. -/
def normalizeHop (hop : List Char) : Option String :=
  let candidate := stripChars isSpace hop
  if candidate = [] then none
  else
    let bare := String.ofList (bareHop digits candidate)
    if (ipAddress bare).isSome then some bare else none

/-- The addresses of a line. -/
def hops (line : List Char) : List String := (line.splitOn ',').filterMap (normalizeHop digits)

/-- `client_from_xff`. -/
def clientFromXff (xff : List Char) (peer : String) : Option String :=
  (hops digits xff).reverse.find? fun hop => !(peer ≠ "" && hop = peer) && !ipInTrusted trusted hop

/-- `client_ip`, of the peer and the lines of the header: `headers.get` is the first. -/
def clientIp (peer : Option String) (lines : List (List Char)) : String :=
  match peer.filter (· ≠ "") with
  | none => "unknown"
  | some peer =>
    if trusted ≠ [] ∧ ipInTrusted trusted peer = true then
      match lines.head?.filter (· ≠ []) with
      | some xff => ((clientFromXff digits trusted xff peer).filter (· ≠ "")).getD peer
      | none => peer
    else peer

/-! ### Proxies -/

/-- How a proxy appends an address: on the last line, on a line of its own, or on one line with all there is. -/
inductive Appending
  | sameLine (blanks : ℕ)
  | newLine
  | joined (blanks : ℕ)
  deriving DecidableEq, Repr

/-- A further part of a line. -/
def item (blanks : ℕ) (part : List Char) : List Char := ',' :: (List.replicate blanks ' ' ++ part)

/-- The lines on one. -/
def joinLines (blanks : ℕ) : List (List Char) → List Char
  | [] => []
  | [line] => line
  | line :: lines => line ++ item blanks (joinLines blanks lines)

/-- The lines a proxy sends on, with the address it was connected from. -/
def Appending.apply (appending : Appending) (address : String) (lines : List (List Char)) : List (List Char) :=
  if lines = [] then [address.toList]
  else
    match appending with
    | .sameLine blanks => lines.dropLast ++ [lines.getLastD [] ++ item blanks address.toList]
    | .newLine => lines ++ [address.toList]
    | .joined blanks => [joinLines blanks lines ++ item blanks address.toList]

/-- A proxy: its address, and how it appends. -/
structure Proxy where
  address : String
  appending : Appending

/-- The lines that arrive through proxies, and the peer they arrive from. -/
def forward (address : String) : List Proxy → List (List Char) → List (List Char) × String
  | [], lines => (lines, address)
  | proxy :: proxies, lines => forward proxy.address proxies (proxy.appending.apply address lines)

/-- An address that can be a part of the list: it is valid, without a comma and without blanks around it. -/
structure Listed (address : String) : Prop where
  valid : (ipAddress address).isSome = true
  comma : ',' ∉ address.toList
  stripped : stripChars isSpace address.toList = address.toList

/-- The client sends no such line, or a single one that the first proxy appends to, or some proxy joins the lines. -/
def OnFirstLine (lines : List (List Char)) (proxies : List Proxy) : Prop :=
  lines = [] ∨ lines.length = 1 ∧ (∃ proxy ∈ proxies.head?, proxy.appending ≠ .newLine) ∨
    ∃ proxy ∈ proxies, ∃ blanks, proxy.appending = .joined blanks

variable {digits trusted} {address : String}

/-! ### Parts of a line -/

/-- The characters of an address are between the point and the small letters. -/
theorem toNat_of_hexDigit {c : Char} (h : (hexDigit c).isSome = true ∨ c = '.' ∨ c = ':') :
    46 ≤ c.toNat ∧ c.toNat ≤ 102 := by
  rcases h with h | rfl | rfl
  · have hle : ∀ {a b : Char}, a ≤ b → a.toNat ≤ b.toNat := fun h => h
    rw [hexDigit] at h
    split_ifs at h with h₁ h₂ h₃
    · have hdigit : 48 ≤ c.toNat ∧ c.toNat ≤ 57 := by
        simp only [Char.isDigit, Bool.and_eq_true, decide_eq_true_eq] at h₁
        exact ⟨hle h₁.1, hle h₁.2⟩
      omega
    · have hlow : 97 ≤ c.toNat := hle h₂.1
      have hhigh : c.toNat ≤ 102 := hle h₂.2
      omega
    · have hlow : 65 ≤ c.toNat := hle h₃.1
      have hhigh : c.toNat ≤ 70 := hle h₃.2
      omega
    · cases h
  · decide
  · decide

theorem not_isSpace {c : Char} (hlow : 46 ≤ c.toNat) (hhigh : c.toNat ≤ 102) : isSpace c = false := by
  have hne : ∀ n : UInt32, ¬(46 ≤ n.toNat ∧ n.toNat ≤ 102) → c.val ≠ n := by
    rintro n hn rfl
    exact hn ⟨hlow, hhigh⟩
  have hlt : ¬ (0x2000 : UInt32) ≤ c.val := by
    rw [UInt32.le_iff_toNat_le]
    show ¬ 8192 ≤ c.toNat
    omega
  simp only [isSpace, List.mem_cons, List.not_mem_nil, or_false, Bool.or_eq_false_iff, decide_eq_false_iff_not,
    Bool.and_eq_false_imp, decide_eq_true_eq]
  refine ⟨?_, fun h => absurd h hlt⟩
  rintro (h | h | h | h | h | h | h | h | h | h | h | h | h | h | h | h | h | h)
  all_goals exact hne _ (by decide) h

/-- **An address without a zone can be a part of the list.** -/
theorem listed_of_ipAddress {a : IpAddress} (h : ipAddress address = some a) (hzone : '%' ∉ address.toList) :
    Listed address := by
  have hchars := chars_of_ipAddress h hzone
  refine ⟨by rw [h]; rfl, fun hcomma => ?_, ?_⟩
  · have hbounds := toNat_of_hexDigit (hchars ',' hcomma)
    exact absurd hbounds.1 (by decide)
  · have hspace : ∀ c ∈ address.toList, isSpace c = false := fun c hc =>
      have hbounds := toNat_of_hexDigit (hchars c hc)
      not_isSpace hbounds.1 hbounds.2
    have hdrop : ∀ {cs : List Char}, (∀ c ∈ cs, isSpace c = false) → cs.dropWhile isSpace = cs := by
      intro cs hcs
      rw [List.dropWhile_eq_self_iff]
      intro hlen
      simp [hcs _ (List.getElem_mem hlen)]
    rw [stripChars, hdrop hspace, hdrop fun c hc => hspace c (List.mem_reverse.mp hc), List.reverse_reverse]

/-- Blanks in front of a part are taken off. -/
theorem normalizeHop_blanks (blanks : ℕ) (part : List Char) :
    normalizeHop digits (List.replicate blanks ' ' ++ part) = normalizeHop digits part := by
  have hstrip : stripChars isSpace (List.replicate blanks ' ' ++ part) = stripChars isSpace part := by
    rw [stripChars, stripChars, List.dropWhile_append_of_pos]
    intro c hc
    obtain rfl := List.eq_of_mem_replicate hc
    decide
  rw [normalizeHop, normalizeHop, hstrip]

theorem normalizeHop_listed (h : Listed address) : normalizeHop digits address.toList = some address := by
  obtain ⟨a, ha⟩ := Option.isSome_iff_exists.mp h.valid
  obtain ⟨hcolons, hbracket⟩ := colons_of_ipAddress ha
  have hne : address.toList ≠ [] := by
    intro hempty
    have haddress : address = "" := String.toList_inj.mp (by simpa using hempty)
    have hnone : ipAddress "" = none := rfl
    rw [haddress, hnone] at ha
    cases ha
  have hbare : bareHop digits address.toList = address.toList := by
    rw [bareHop, if_neg hbracket, if_neg fun hc => hcolons hc.1]
  simp [normalizeHop, h.stripped, hne, hbare, h.valid]

/-! ### Lines -/

theorem hops_listed (h : Listed address) : hops digits address.toList = [address] := by
  rw [hops, List.splitOn_eq_singleton h.comma]
  simp [normalizeHop_listed h]

/-- Blanks in front of a line are taken off its first part. -/
theorem hops_blanks (blanks : ℕ) (line : List Char) :
    hops digits (List.replicate blanks ' ' ++ line) = hops digits line := by
  have hsplit : (List.replicate blanks ' ' ++ line).splitOn ',' =
      (line.splitOn ',').modifyHead (List.replicate blanks ' ' ++ ·) := by
    induction blanks with
    | zero =>
      rcases hparts : line.splitOn ',' with _ | ⟨part, parts⟩
      · exact absurd hparts (List.splitOn_ne_nil ',' line)
      · simpa using hparts
    | succ n ih =>
      rw [List.replicate_succ, List.cons_append, List.splitOn_cons_eq_if_modifyHead, ih]
      rcases line.splitOn ',' with _ | ⟨part, parts⟩
      · rfl
      · rfl
  rw [hops, hops, hsplit]
  rcases line.splitOn ',' with _ | ⟨part, parts⟩
  · rfl
  · simp only [List.modifyHead_cons, List.filterMap_cons, normalizeHop_blanks]

theorem hops_item (blanks : ℕ) (line rest : List Char) :
    hops digits (line ++ item blanks rest) = hops digits line ++ hops digits rest := by
  rw [item, hops, List.splitOn_append_cons_self, List.filterMap_append, ← hops, ← hops, hops_blanks]

theorem hops_joinLines (blanks : ℕ) (lines : List (List Char)) :
    hops digits (joinLines blanks lines) = lines.flatMap (hops digits) := by
  induction lines with
  | nil => simp [joinLines, hops, normalizeHop, stripChars]
  | cons line lines ih =>
    rcases lines with _ | ⟨second, lines⟩
    · simp [joinLines]
    · show hops digits (line ++ item blanks (joinLines blanks (second :: lines))) = _
      rw [hops_item, ih]
      rfl

/-! ### The chain -/

variable (digits trusted) in
/-- The address is on the first line, and only trusted ones are behind it. -/
def Shown (address : String) (lines : List (List Char)) : Prop :=
  ∃ first more before after, lines = first :: more ∧ hops digits first = before ++ address :: after ∧
    (∀ hop ∈ after, ipInTrusted trusted hop = true) ∧ ∀ hop ∈ more.flatMap (hops digits), ipInTrusted trusted hop = true

variable (digits trusted) in
/-- The first line is the one the client sent, and the address is on a later one, with only trusted ones behind it. -/
def Hidden (address : String) (first : List Char) (lines : List (List Char)) : Prop :=
  ∃ more before after, lines = first :: more ∧ more.flatMap (hops digits) = before ++ address :: after ∧
    ∀ hop ∈ after, ipInTrusted trusted hop = true

variable {lines : List (List Char)} {first : List Char} {hop : String} {appending : Appending}

/-- What is appended comes last. -/
theorem flatMap_hops_apply (h : Listed hop) :
    (appending.apply hop lines).flatMap (hops digits) = lines.flatMap (hops digits) ++ [hop] := by
  rw [Appending.apply.eq_def]
  split
  next hempty => simp [hempty, hops_listed h]
  next hne =>
    cases appending with
    | sameLine blanks =>
      have hlast : lines = lines.dropLast ++ [lines.getLastD []] := by
        rw [List.getLastD_eq_getLast?, List.getLast?_eq_getLast_of_ne_nil hne, Option.getD_some,
          List.dropLast_append_getLast]
      conv_rhs => rw [hlast]
      simp [List.flatMap_append, hops_item, hops_listed h]
    | newLine => simp [List.flatMap_append, hops_listed h]
    | joined blanks => simp [hops_item, hops_joinLines, hops_listed h]

/-- Without joining them, a proxy leaves the first of several lines as it is. -/
theorem apply_cons {more : List (List Char)} (hmore : more ≠ []) (h : ∀ blanks, appending ≠ .joined blanks) :
    appending.apply hop (first :: more) = first :: appending.apply hop more := by
  rw [Appending.apply.eq_def, Appending.apply.eq_def, if_neg (List.cons_ne_nil _ _), if_neg hmore]
  cases appending with
  | sameLine blanks =>
    obtain ⟨second, rest, rfl⟩ := List.exists_cons_of_ne_nil hmore
    rfl
  | newLine => rfl
  | joined blanks => exact absurd rfl (h blanks)

/-- **What is shown stays shown.** -/
theorem Shown.apply (hshown : Shown digits trusted address lines) (h : Listed hop)
    (htrusted : ipInTrusted trusted hop = true) (appending : Appending) :
    Shown digits trusted address (appending.apply hop lines) := by
  obtain ⟨first, more, before, after, rfl, hfirst, hafter, hmore⟩ := hshown
  have hsnoc : ∀ {l : List String}, (∀ x ∈ l, ipInTrusted trusted x = true) →
      ∀ x ∈ l ++ [hop], ipInTrusted trusted x = true := by
    intro l hl x hx
    rcases List.mem_append.mp hx with hx | hx
    · exact hl x hx
    · exact List.mem_singleton.mp hx ▸ htrusted
  by_cases hjoined : ∃ blanks, appending = .joined blanks
  · -- all is on one line now
    obtain ⟨blanks, rfl⟩ := hjoined
    refine ⟨_, [], before, after ++ more.flatMap (hops digits) ++ [hop], rfl, ?_, ?_, by simp⟩
    · rw [hops_item, hops_joinLines, hops_listed h, List.flatMap_cons, hfirst]
      simp
    · refine hsnoc fun x hx => ?_
      rcases List.mem_append.mp hx with hx | hx
      · exact hafter x hx
      · exact hmore x hx
  · have hnot : ∀ blanks, appending ≠ .joined blanks := fun blanks he => hjoined ⟨blanks, he⟩
    rcases eq_or_ne more [] with rfl | hne
    · cases appending with
      | sameLine blanks =>
        refine ⟨first ++ item blanks hop.toList, [], before, after ++ [hop], rfl, ?_, hsnoc hafter, by simp⟩
        rw [hops_item, hops_listed h, hfirst]
        simp
      | newLine =>
        refine ⟨first, [hop.toList], before, after, rfl, hfirst, hafter, ?_⟩
        simpa [hops_listed h] using htrusted
      | joined blanks => exact absurd rfl (hnot blanks)
    · refine ⟨first, appending.apply hop more, before, after, apply_cons hne hnot, hfirst, hafter, ?_⟩
      rw [flatMap_hops_apply h]
      exact hsnoc hmore

/-- What is hidden is shown once the lines are joined, and stays hidden before that. -/
theorem Hidden.apply (hhidden : Hidden digits trusted address first lines) (appending : Appending) (h : Listed hop)
    (htrusted : ipInTrusted trusted hop = true) :
    (∀ blanks, Shown digits trusted address ((Appending.joined blanks).apply hop lines)) ∧
      ((∀ blanks, appending ≠ .joined blanks) → Hidden digits trusted address first (appending.apply hop lines)) := by
  obtain ⟨more, before, after, rfl, hmore, hafter⟩ := hhidden
  have hsnoc : ∀ x ∈ after ++ [hop], ipInTrusted trusted x = true := by
    intro x hx
    rcases List.mem_append.mp hx with hx | hx
    · exact hafter x hx
    · exact List.mem_singleton.mp hx ▸ htrusted
  constructor
  · intro blanks
    refine ⟨_, [], hops digits first ++ before, after ++ [hop], rfl, ?_, hsnoc, by simp⟩
    rw [hops_item, hops_joinLines, hops_listed h, List.flatMap_cons, hmore]
    simp
  · intro hnot
    have hne : more ≠ [] := by
      rintro rfl
      simp at hmore
    refine ⟨appending.apply hop more, before, after ++ [hop], apply_cons hne hnot, ?_, hsnoc⟩
    rw [flatMap_hops_apply h, hmore]
    simp

/-- The proxies are trusted. -/
def Chain (trusted : List IpNetwork) (proxies : List Proxy) : Prop :=
  ∀ proxy ∈ proxies, Listed proxy.address ∧ ipInTrusted trusted proxy.address = true

/-- What is shown when it comes from a trusted proxy is shown in the end. -/
theorem Shown.forward {proxies : List Proxy} (hshown : Shown digits trusted address lines) (h : Listed hop)
    (htrusted : ipInTrusted trusted hop = true) (hchain : Chain trusted proxies) :
    Shown digits trusted address (forward hop proxies lines).1 := by
  induction proxies generalizing hop lines with
  | nil => exact hshown
  | cons proxy proxies ih =>
    obtain ⟨hlisted, htrusted'⟩ := hchain proxy List.mem_cons_self
    exact ih (hshown.apply h htrusted proxy.appending) hlisted htrusted'
      fun p hp => hchain p (List.mem_cons_of_mem _ hp)

theorem Hidden.forward {proxies : List Proxy} (hhidden : Hidden digits trusted address first lines) (h : Listed hop)
    (htrusted : ipInTrusted trusted hop = true) (hchain : Chain trusted proxies) :
    ((∃ proxy ∈ proxies, ∃ blanks, proxy.appending = .joined blanks) →
      Shown digits trusted address (ClientIp.forward hop proxies lines).1) ∧
    ((∀ proxy ∈ proxies, ∀ blanks, proxy.appending ≠ .joined blanks) →
      Hidden digits trusted address first (ClientIp.forward hop proxies lines).1) := by
  induction proxies generalizing hop lines with
  | nil => exact ⟨by simp, fun _ => hhidden⟩
  | cons proxy proxies ih =>
    obtain ⟨hlisted, htrusted'⟩ := hchain proxy List.mem_cons_self
    have hrest : Chain trusted proxies := fun p hp => hchain p (List.mem_cons_of_mem _ hp)
    have happly := hhidden.apply proxy.appending h htrusted
    constructor
    · rintro ⟨p, hp, blanks, hjoined⟩
      by_cases hthis : ∃ blanks, proxy.appending = .joined blanks
      · obtain ⟨blanks', he⟩ := hthis
        have hshown := happly.1 blanks'
        rw [← he] at hshown
        exact hshown.forward hlisted htrusted' hrest
      · have hnot : ∀ blanks, proxy.appending ≠ .joined blanks := fun blanks he => hthis ⟨blanks, he⟩
        rcases List.mem_cons.mp hp with rfl | hp
        · exact absurd hjoined (hnot blanks)
        · exact (ih (happly.2 hnot) hlisted htrusted' hrest).1 ⟨p, hp, blanks, hjoined⟩
    · intro hnot
      exact (ih (happly.2 (hnot proxy List.mem_cons_self)) hlisted htrusted' hrest).2
        fun p hp => hnot p (List.mem_cons_of_mem _ hp)

/-- The peer is a trusted proxy. -/
theorem peer_forward {proxies : List Proxy} (h : Listed hop) (htrusted : ipInTrusted trusted hop = true)
    (hchain : Chain trusted proxies) :
    Listed (forward hop proxies lines).2 ∧ ipInTrusted trusted (forward hop proxies lines).2 = true := by
  induction proxies generalizing hop lines with
  | nil => exact ⟨h, htrusted⟩
  | cons proxy proxies ih =>
    obtain ⟨hlisted, htrusted'⟩ := hchain proxy List.mem_cons_self
    exact ih hlisted htrusted' fun p hp => hchain p (List.mem_cons_of_mem _ hp)

/-! ### The client -/

theorem Listed.ne_empty (h : Listed address) : address ≠ "" := by
  rintro rfl
  have hnone : ipAddress "" = none := rfl
  have hvalid := h.valid
  rw [hnone] at hvalid
  cases hvalid

section Client

variable {peer : String} (hpeer : Listed peer) (htrusted : ipInTrusted trusted peer = true) (hlisted : Listed address)
  (huntrusted : ipInTrusted trusted address = false)

include hpeer htrusted in
/-- Behind a trusted peer, the first line decides. -/
theorem clientIp_cons (first : List Char) (more : List (List Char)) :
    clientIp digits trusted (some peer) (first :: more) =
      if first = [] then peer else ((clientFromXff digits trusted first peer).filter (· ≠ "")).getD peer := by
  have hne : trusted ≠ [] := by
    rintro rfl
    simp [ipInTrusted] at htrusted
  have hfilter : (some peer).filter (· ≠ "") = some peer := by simp [Option.filter, hpeer.ne_empty]
  rw [clientIp, hfilter]
  simp only [hne, ne_eq, not_false_eq_true, htrusted, and_self, if_true, List.head?_cons]
  by_cases hfirst : first = []
  · simp [Option.filter, hfirst]
  · simp [Option.filter, hfirst]

include hpeer htrusted hlisted huntrusted

/-- **A client that is shown is found.** -/
theorem clientIp_of_shown (hshown : Shown digits trusted address lines) :
    clientIp digits trusted (some peer) lines = address := by
  obtain ⟨first, more, before, after, rfl, hfirst, hafter, -⟩ := hshown
  have hne : first ≠ [] := by
    rintro rfl
    simp [hops, normalizeHop, stripChars] at hfirst
  have hpeer' : address ≠ peer := by
    rintro rfl
    rw [htrusted] at huntrusted
    cases huntrusted
  have hfind : clientFromXff digits trusted first peer = some address := by
    have hnone : after.reverse.find? (fun hop => !(peer ≠ "" && hop = peer) && !ipInTrusted trusted hop) = none := by
      refine List.find?_eq_none.mpr fun hop hhop => ?_
      simp [hafter hop (List.mem_reverse.mp hhop)]
    rw [clientFromXff, hfirst, List.reverse_append, List.reverse_cons, List.append_assoc, List.find?_append, hnone]
    simp [hpeer', huntrusted]
  rw [clientIp_cons hpeer htrusted, if_neg hne, hfind]
  simp [Option.filter, hlisted.ne_empty]

/-- **A client that is hidden is found where it is the last one on the line it sent.** -/
theorem clientIp_iff_of_hidden (hhidden : Hidden digits trusted address first lines) :
    clientIp digits trusted (some peer) lines = address ↔ clientFromXff digits trusted first peer = some address := by
  obtain ⟨more, -, -, rfl, -, -⟩ := hhidden
  have hpeer' : peer ≠ address := by
    rintro rfl
    rw [htrusted] at huntrusted
    cases huntrusted
  rw [clientIp_cons hpeer htrusted]
  split
  next hempty =>
    refine iff_of_false hpeer' ?_
    subst hempty
    simp [clientFromXff, hops, normalizeHop, stripChars]
  next =>
    rcases clientFromXff digits trusted first peer with _ | found
    · simp [hpeer']
    · by_cases hfound : found = ""
      · subst hfound
        simp [Option.filter, hpeer', hlisted.ne_empty.symm]
      · simp [Option.filter, hfound]

end Client

variable (digits trusted) in
/-- What the first proxy sends on: the client is on the first line, or on one behind it. -/
theorem shown_or_hidden (h : Listed address) (appending : Appending) (lines : List (List Char)) :
    (Shown digits trusted address (appending.apply address lines) ∧
      (lines = [] ∨ lines.length = 1 ∧ appending ≠ .newLine ∨ ∃ blanks, appending = .joined blanks)) ∨
    ∃ first, lines.head? = some first ∧ Hidden digits trusted address first (appending.apply address lines) ∧
      ¬ (lines = [] ∨ lines.length = 1 ∧ appending ≠ .newLine ∨ ∃ blanks, appending = .joined blanks) := by
  rcases lines with _ | ⟨first, more⟩
  · exact .inl ⟨⟨address.toList, [], [], [], rfl, hops_listed h, by simp, by simp⟩, .inl rfl⟩
  by_cases hjoined : ∃ blanks, appending = .joined blanks
  · obtain ⟨blanks, rfl⟩ := hjoined
    refine .inl ⟨⟨_, [], (first :: more).flatMap (hops digits), [], rfl, ?_, by simp, by simp⟩, .inr (.inr ⟨_, rfl⟩)⟩
    rw [hops_item, hops_joinLines, hops_listed h]
  have hnot : ∀ blanks, appending ≠ .joined blanks := fun blanks he => hjoined ⟨blanks, he⟩
  rcases eq_or_ne more [] with rfl | hne
  · cases appending with
    | sameLine blanks =>
      refine .inl ⟨⟨first ++ item blanks address.toList, [], hops digits first, [], rfl, ?_, by simp, by simp⟩,
        .inr (.inl ⟨rfl, by simp⟩)⟩
      rw [hops_item, hops_listed h]
    | newLine =>
      refine .inr ⟨first, rfl, ⟨[address.toList], [], [], rfl, ?_, by simp⟩, by simp⟩
      simp [hops_listed h]
    | joined blanks => exact absurd rfl (hnot blanks)
  · refine .inr ⟨first, rfl, ⟨appending.apply address more, more.flatMap (hops digits), [], apply_cons hne hnot, ?_,
      by simp⟩, ?_⟩
    · rw [flatMap_hops_apply h]
    · rintro (hempty | ⟨hlength, -⟩ | hblanks)
      · cases hempty
      · exact hne (List.eq_nil_of_length_eq_zero (Nat.succ.inj hlength))
      · exact hjoined hblanks

/-- **The client is found behind any chain of trusted proxies** exactly when it sends no line of its own, or one that
the first proxy appends to, or when a proxy joins the lines, or else when the last address that is not trusted on the
first line it sends is its own. -/
theorem client_ip_iff {proxies : List Proxy} (hproxies : proxies ≠ []) (hlisted : Listed address)
    (huntrusted : ipInTrusted trusted address = false) (hchain : Chain trusted proxies) (lines : List (List Char)) :
    clientIp digits trusted (some (forward address proxies lines).2) (forward address proxies lines).1 = address ↔
      OnFirstLine lines proxies ∨
        ∃ line ∈ lines.head?, clientFromXff digits trusted line (forward address proxies lines).2 = some address := by
  obtain ⟨proxy, proxies, rfl⟩ := List.exists_cons_of_ne_nil hproxies
  obtain ⟨hproxy, htrusted⟩ := hchain proxy List.mem_cons_self
  have hrest : Chain trusted proxies := fun p hp => hchain p (List.mem_cons_of_mem _ hp)
  have hpeer : ∀ lines, Listed (forward proxy.address proxies lines).2 ∧
      ipInTrusted trusted (forward proxy.address proxies lines).2 = true := fun lines =>
    peer_forward hproxy htrusted hrest
  have hfound : ∀ {ls : List (List Char)}, Shown digits trusted address (forward proxy.address proxies ls).1 →
      clientIp digits trusted (some (forward proxy.address proxies ls).2) (forward proxy.address proxies ls).1 =
        address := fun hshown =>
    clientIp_of_shown (hpeer _).1 (hpeer _).2 hlisted huntrusted hshown
  rw [forward]
  have hcases := shown_or_hidden digits trusted hlisted proxy.appending lines
  rcases hcases with ⟨hshown, hon⟩ | ⟨first, hfirst, hhidden, hoff⟩
  · have hon : OnFirstLine lines (proxy :: proxies) := by
      rcases hon with hempty | ⟨hlength, hne⟩ | ⟨blanks, hjoined⟩
      · exact .inl hempty
      · exact .inr (.inl ⟨hlength, proxy, rfl, hne⟩)
      · exact .inr (.inr ⟨proxy, List.mem_cons_self, blanks, hjoined⟩)
    exact iff_of_true (hfound (hshown.forward hproxy htrusted hrest)) (.inl hon)
  · have hforward := hhidden.forward hproxy htrusted hrest
    by_cases hjoined : ∃ p ∈ proxies, ∃ blanks, p.appending = .joined blanks
    · obtain ⟨p, hp, hblanks⟩ := hjoined
      exact iff_of_true (hfound (hforward.1 ⟨p, hp, hblanks⟩)) (.inl (.inr (.inr ⟨p, List.mem_cons_of_mem _ hp, hblanks⟩)))
    · -- the first line is the one the client has sent
      have hoff : ¬ OnFirstLine lines (proxy :: proxies) := by
        rintro (hempty | ⟨hlength, p, hp, hne⟩ | ⟨p, hp, hblanks⟩)
        · exact hoff (.inl hempty)
        · obtain rfl : proxy = p := Option.some.inj hp
          exact hoff (.inr (.inl ⟨hlength, hne⟩))
        · rcases List.mem_cons.mp hp with rfl | hp
          · exact hoff (.inr (.inr hblanks))
          · exact hjoined ⟨p, hp, hblanks⟩
      have hhidden' := hforward.2 fun p hp blanks he => hjoined ⟨p, hp, blanks, he⟩
      rw [clientIp_iff_of_hidden (hpeer _).1 (hpeer _).2 hlisted huntrusted hhidden', hfirst]
      simp [hoff]

/-- `10.0.0.0/8`. -/
def tenNetwork : List IpNetwork := [.v4 (IpAddress.ofOctets 10 0 0 0) 8]

/-- Two proxies of the network, the first of which appends on the line the client has sent. -/
theorem client_ip_iff_two_proxies :
    clientIp .ascii tenNetwork (some "10.0.0.3")
      ["1.1.1.1, 10.0.0.9, 203.0.113.9".toList, "10.0.0.2".toList] = "203.0.113.9" := by
  have hlisted : ∀ address : String, (ipAddress address).isSome = true → '%' ∉ address.toList → Listed address := by
    intro address hvalid hzone
    obtain ⟨a, ha⟩ := Option.isSome_iff_exists.mp hvalid
    exact listed_of_ipAddress ha hzone
  have hchain : Chain tenNetwork [⟨"10.0.0.2", .sameLine 1⟩, ⟨"10.0.0.3", .newLine⟩] := by
    intro proxy hproxy
    rcases List.mem_cons.mp hproxy with rfl | hproxy
    · exact ⟨hlisted _ rfl (by decide), by decide⟩
    · obtain rfl := List.mem_singleton.mp hproxy
      exact ⟨hlisted _ rfl (by decide), by decide⟩
  have hon : OnFirstLine ["1.1.1.1, 10.0.0.9".toList] [⟨"10.0.0.2", .sameLine 1⟩, ⟨"10.0.0.3", .newLine⟩] :=
    .inr (.inl ⟨rfl, _, rfl, by simp⟩)
  exact (client_ip_iff (List.cons_ne_nil _ _) (hlisted "203.0.113.9" rfl (by decide)) (by decide)
    hchain _).mpr (.inl hon)

/-- A proxy that appends a line of its own leaves the client to choose its address. -/
theorem chosen_address :
    Listed "203.0.113.9" ∧ ipInTrusted tenNetwork "203.0.113.9" = false ∧
      Chain tenNetwork [⟨"10.0.0.2", .newLine⟩] ∧
      clientIp .ascii tenNetwork (some (forward "203.0.113.9" [⟨"10.0.0.2", .newLine⟩] ["1.1.1.1".toList]).2)
        (forward "203.0.113.9" [⟨"10.0.0.2", .newLine⟩] ["1.1.1.1".toList]).1 = "1.1.1.1" := by
  have hlisted : ∀ address : String, (ipAddress address).isSome = true → '%' ∉ address.toList → Listed address := by
    intro address hvalid hzone
    obtain ⟨a, ha⟩ := Option.isSome_iff_exists.mp hvalid
    exact listed_of_ipAddress ha hzone
  refine ⟨hlisted _ rfl (by decide), by decide, fun proxy hproxy => ?_, by decide⟩
  obtain rfl := List.mem_singleton.mp hproxy
  exact ⟨hlisted _ rfl (by decide), by decide⟩

end Marketplace.ClientIp
