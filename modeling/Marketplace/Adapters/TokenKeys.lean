import Marketplace.Adapters.Handover
import Marketplace.Lists.FirstSeen
import Marketplace.Python.Text
import Marketplace.Resources.Normal

/-!
# Tokens by the batch

`adapters/token_keys.py`: one request has the supplier grant a batch of tokens under a key of its own, and the
tokens are then read with that key, page after page, until the supplier's total is reached or a page is empty.
No more than a hundred pages are read, of a size an administrator may set to any positive number, and
nothing relates the two to what was granted.

`delivered_iff` says when a granted batch is delivered whole: where the first hundred pages hold as many
tokens as are to be delivered, and the two conversions on the way return.

The requests are answers to be had: one to the purchase, and one to each attempt to read a page. Logs are left out.
-/

namespace Marketplace.TokenKeys

open Python Text

/-- A dict of JSON by its items. -/
abbrev Fields := List (String × Json)

/-- An answer; `json` is `none` where `resp.json()` raises its `ValueError`. -/
structure Reply where
  status : ℕ
  json : Option Json
  text : String

/-- The exceptions that come out of a purchase. -/
inductive Exn
  | unavailable (text : String)
  | contract (text : String)
  | python (error : Error)

/-- `_MAX_PAGES`, `_DEFAULT_PAGE_SIZE`, `_READ_ATTEMPTS`, `MAX_PER_ORDER` -/
def maxPages : ℕ := 100
def defaultPageSize : ℤ := 100
def readAttempts : ℕ := 3
/-- `PurchaseOutcome`, with the stock the supplier reports. -/
structure Outcome extends Catalog.PurchaseOutcome where
  upstreamStock : Option ℤ

section Adapter

variable (py : Language)

/-- `_positive_int`: the two exceptions that are caught are not those of an infinite number. -/
def positiveInt (config : Fields) (key : String) (default : ℤ) : Except Error ℤ :=
  let value := Json.get config key
  match py.toInt (if value.truthy then value else .int default) with
  | .ok n => .ok (if 0 < n then n else default)
  | .error .valueError | .error .typeError => .ok default
  | .error e => .error e

/-- `isinstance(value, int)`, which a truth value is too. -/
def intValue : Json → Option ℤ
  | .int n => some n
  | .bool b => some (if b then 1 else 0)
  | _ => none

/-- `_reported_stock` -/
def reportedStock (body : Fields) : Except Error (Option ℤ) :=
  match Json.get body "stock" with
  | .str s =>
    if py.digits.allDigits (strip s).toList then
      (py.toInt (.str (strip s))).map fun n => if 0 ≤ n then some n else none
    else .ok none
  | .int n => .ok (if 0 ≤ n then some n else none)
  | _ => .ok none

/-- `str(value)[:width]!r` -/
def clipped (value : Json) (width : ℕ := 120) : String :=
  py.repr (.str (String.ofList ((py.str value).toList.take width)))

/-- `_call`, once the request has been answered; `error` is the text of an `httpx.HTTPError`. -/
def call (reply : Except String Reply) : Except Exn (ℕ × Fields) :=
  match reply with
  | .error text => .error (.unavailable text)
  | .ok resp =>
    if 500 ≤ resp.status then .error (.unavailable ("HTTP " ++ toString resp.status))
    else
      match resp.json with
      | none => .error (.contract
          ("Body không phải JSON (" ++ toString resp.status ++ "): " ++
            py.repr (.str (String.ofList (resp.text.toList.take 120)))))
      | some (.obj fields) => .ok (resp.status, fields)
      | some body => .error (.contract ("Body không phải object: " ++ clipped py body))

/-- The attempts of `_read_page` that are left, after the exception of the last one. -/
def readPageFrom (answers : ℕ → Except String Reply) : ℕ → ℕ → Exn → Except Exn (ℕ × Fields)
  | 0, _, last => .error last
  | left + 1, attempt, _ =>
    match call py (answers attempt) with
    | .error (.unavailable text) => readPageFrom answers left (attempt + 1) (.unavailable text)
    | result => result

/-- `_read_page` -/
def readPage (answers : ℕ → Except String Reply) : Except Exn (ℕ × Fields) :=
  readPageFrom py answers readAttempts 0 (.unavailable "customer/tokens không phản hồi")

/-- The token of a row, where it has one. -/
def tokenOf : Json → Option String
  | .obj fields =>
    match Json.get fields "access_token" with
    | .str token => if strip token = "" then none else some (strip token)
    | _ => none
  | _ => none

/-- The tokens that have been read, and those of one more page. -/
def addRows (tokens : List String) (rows : List Json) : List String := (rows.filterMap tokenOf).foldl Lists.see tokens

/-- The loop of `_read_tokens`, over the pages that may still be read. -/
def readTokensFrom (answers : ℕ → ℕ → Except String Reply) (limit : ℤ) :
    ℕ → ℕ → List String → Except Exn (List String)
  | 0, _, tokens => .ok tokens
  | left + 1, page, tokens => do
    let (status, body) ← readPage py (answers page)
    if status = 401 ∨ status = 403 then
      .error (.contract ("customer/tokens từ chối key vừa cấp (HTTP " ++ toString status ++ ")"))
    else if 400 ≤ status then
      .error (.contract ("customer/tokens HTTP " ++ toString status ++ ": " ++ clipped py (.obj body)))
    else
      match Json.get body "data" with
      | .arr rows =>
        let tokens := addRows tokens rows
        let enough := match intValue (Json.get body "total") with
          | some total => decide (total ≤ tokens.length)
          | none => decide ((rows.length : ℤ) < limit)
        if rows.isEmpty || enough then .ok tokens else readTokensFrom answers limit left (page + 1) tokens
      | rows => .error (.contract ("customer/tokens: data không phải mảng (" ++ clipped py rows 80 ++ ")"))

/-- `_read_tokens`; what is answered may depend on the size of the pages. -/
def readTokens (config : Fields) (answers : ℤ → ℕ → ℕ → Except String Reply) : Except Exn (List String) := do
  let limit ← (positiveInt py config "page_size" defaultPageSize).mapError .python
  readTokensFrom py (answers limit) limit maxPages 1 []

/-- `body.get(a) or body.get(b) or …` -/
def firstTruthy (body : Fields) (keys : List String) (default : Json) : Json :=
  ((keys.map (Json.get body)).find? Json.truthy).getD default

/-- `_classify` -/
def classify (lower : String → String) (status : ℕ) (body : Fields) : Catalog.ErrorKind :=
  let text := lower (py.str (firstTruthy body ["error", "detail", "message"] (.str "")))
  if status = 401 ∨ status = 403 then .auth
  else if status = 409 ∨ status = 410 ∨ "stock".toList <:+: text.toList ∨ "hết".toList <:+: text.toList then .outOfStock
  else if status = 400 ∨ status = 422 then .invalid
  else .unknown

/-- The keys' answer, once a key and the number of tokens have been read from it. -/
def deliver (quantity : ℕ) (keyId : Option String) (granted : Option ℤ) (stock : Option ℤ) (tokens : List String) :
    Outcome :=
  let tokens := match granted with
    | some g => tokens.take g.toNat
    | none => tokens
  let tokens := tokens.take quantity
  if tokens = [] then
    { ok := false, items := [], transId := keyId, errorKind := some .outOfStock
      rawMessage := some ("Key " ++ keyId.getD "None" ++ " không có token nào"), upstreamStock := stock }
  else
    { ok := true, items := tokens.map some, transId := keyId, errorKind := none
      rawMessage := some (toString tokens.length ++ "/" ++ toString quantity ++ " token"), upstreamStock := stock }

/-- What a failure to read the tokens is raised as: the key has been granted. -/
def readFailed (keyId : Option String) (ref : String) : Exn → Exn
  | .unavailable e | .contract e =>
    .unavailable ("đã cấp key " ++ keyId.getD "?" ++ " cho " ++ ref ++ " nhưng không đọc được token: " ++ e)
  | e => e

/-- `purchase` -/
def purchase (lower : String → String) (config : Fields) (ref : String) (quantity : ℕ) (grant : Except String Reply)
    (answers : ℤ → ℕ → ℕ → Except String Reply) : Except Exn Outcome := do
  let (status, body) ← call py grant
  let stock ← (reportedStock py body).mapError .python
  if 400 ≤ status then
    .ok { ok := false, items := [], transId := none, errorKind := some (classify py lower status body)
          rawMessage := some (String.ofList
            ((py.str (firstTruthy body ["error", "detail"] (.obj body))).toList.take 255)), upstreamStock := stock }
  else
    let keyId := (some (py.str (firstTruthy body ["api_key_id"] (.str "")))).filter (· ≠ "")
    match (Json.get body "api_key").text? with
    | none => .error (.contract ("keys: thiếu api_key (" ++ clipped py (.obj body) ++ ")"))
    | some _ =>
      let granted := intValue (Json.get body "tokens")
      if granted.any (· ≤ 0) then
        .ok { ok := false, items := [], transId := keyId, errorKind := some .outOfStock
              rawMessage := some ("Nguồn cấp 0/" ++ toString quantity ++ " token"), upstreamStock := stock }
      else
        let tokens ← (readTokens py config answers).mapError (readFailed keyId ref)
        .ok (deliver quantity keyId granted stock tokens)

end Adapter

/-! ### A supplier that serves what it granted -/

/-- The distinct tokens of some pages, in the order of the listing. -/
def distinct (pages : List (List Json)) : List String := (pages.flatten.filterMap tokenOf).eraseDups

/-- The answer to a purchase that was granted. -/
structure Grant (py : Language) where
  granted : ℕ
  status : ℕ
  body : Fields
  reply : Except String Reply
  granted_pos : 0 < granted
  status_lt : status < 400
  replied : call py reply = .ok (status, body)
  key : ∃ apiKey, (Json.get body "api_key").text? = some apiKey
  tokens : Json.get body "tokens" = .int granted

/-- The pages of a listing of tokens, at least as many as were granted, and of no more rows than were asked for; only
the last page may be empty. The total counts every distinct token. A page is answered after at most two failures. -/
structure Listing (py : Language) (granted : ℕ) (limit : ℤ) where
  pages : List (List Json)
  total : ℤ
  reply : ℕ → ℕ → Except String Reply
  fits : 0 < limit → ∀ rows ∈ pages, (rows.length : ℤ) ≤ limit
  filled : ∀ rows ∈ pages.dropLast, rows ≠ []
  enough : granted ≤ (distinct pages).length
  counted : ((distinct pages).length : ℤ) ≤ total
  served : ∀ page, ∃ attempt < readAttempts, (∀ a < attempt, ∃ text, call py (reply page a) = .error (.unavailable text)) ∧
    ∃ status body, call py (reply page attempt) = .ok (status, body) ∧ status < 400 ∧
      Json.get body "data" = .arr (pages.getD (page - 1) []) ∧ Json.get body "total" = .int total

section Reading

variable {py : Language}

/-- A page is read once an attempt is answered. -/
theorem readPageFrom_eq {answers : ℕ → Except String Reply} {left first k : ℕ} {last : Exn} {page : ℕ × Fields}
    (hk : k < left) (hfail : ∀ a < k, ∃ text, call py (answers (first + a)) = .error (.unavailable text))
    (hok : call py (answers (first + k)) = .ok page) : readPageFrom py answers left first last = .ok page := by
  induction k generalizing left first last with
  | zero =>
    obtain ⟨left, rfl⟩ : ∃ l, left = l + 1 := ⟨left - 1, by omega⟩
    rw [readPageFrom, ← Nat.add_zero first, hok]
  | succ k ih =>
    obtain ⟨left, rfl⟩ : ∃ l, left = l + 1 := ⟨left - 1, by omega⟩
    obtain ⟨text, htext⟩ := hfail 0 (by omega)
    rw [Nat.add_zero] at htext
    rw [readPageFrom, htext]
    refine ih (by omega) (fun a ha => ?_) (by rw [← hok]; congr 2; omega)
    obtain ⟨text', htext'⟩ := hfail (a + 1) (by omega)
    exact ⟨text', by rw [← htext']; congr 2; omega⟩

variable {granted : ℕ} {limit : ℤ}

theorem Listing.exists_readPage (listing : Listing py granted limit) (page : ℕ) :
    ∃ status body, readPage py (listing.reply page) = .ok (status, body) ∧ status < 400 ∧
      Json.get body "data" = .arr (listing.pages.getD (page - 1) []) ∧ Json.get body "total" = .int listing.total := by
  obtain ⟨attempt, hattempt, hfail, status, body, hok, hstatus, hdata, htotal⟩ := listing.served page
  refine ⟨status, body, readPageFrom_eq hattempt (fun a ha => ?_) ?_, hstatus, hdata, htotal⟩
  · rw [Nat.zero_add]
    exact hfail a ha
  · rw [Nat.zero_add]
    exact hok

/-- One more page. -/
theorem addRows_distinct (pages : List (List Json)) (n : ℕ) :
    addRows (distinct (pages.take n)) (pages.getD n []) = distinct (pages.take (n + 1)) := by
  rw [addRows, distinct, distinct, Lists.foldl_see, List.take_add_one, List.flatten_append, List.filterMap_append]
  congr 3
  cases h : pages[n]? <;> simp [List.getD, h]

/-- What the first pages hold comes first. -/
theorem distinct_take_prefix (pages : List (List Json)) (n : ℕ) : distinct (pages.take n) <+: distinct pages := by
  have h := Lists.eraseDups_prefix_append ((pages.take n).flatten.filterMap tokenOf)
    ((pages.drop n).flatten.filterMap tokenOf)
  rwa [← List.filterMap_append, ← List.flatten_append, List.take_append_drop] at h

/-- After an empty page there is nothing. -/
theorem Listing.take_of_empty (listing : Listing py granted limit) {n : ℕ} (h : listing.pages.getD n [] = []) :
    listing.pages.take (n + 1) = listing.pages := by
  refine List.take_of_length_le ?_
  by_contra hlt
  have hn : n < listing.pages.dropLast.length := by
    rw [List.length_dropLast]
    omega
  refine listing.filled _ (List.getElem_mem hn) ?_
  rw [List.getElem_dropLast, ← h, List.getD, List.getElem?_eq_getElem (by omega), Option.getD_some]

/-- **The loop reads the distinct tokens of as many pages as it may.** -/
theorem Listing.readTokensFrom_eq (listing : Listing py granted limit) (left n : ℕ) :
    readTokensFrom py listing.reply limit left (n + 1) (distinct (listing.pages.take n)) =
      .ok (distinct (listing.pages.take (n + left))) := by
  induction left generalizing n with
  | zero => rfl
  | succ left ih =>
    obtain ⟨status, body, hread, hstatus, hdata, htotal⟩ := listing.exists_readPage (n + 1)
    rw [Nat.add_sub_cancel] at hdata
    rw [readTokensFrom, hread]
    simp only [bind, Except.bind]
    rw [if_neg (by omega), if_neg (by omega), hdata]
    dsimp only
    rw [addRows_distinct, htotal]
    simp only [intValue, Bool.or_eq_true, List.isEmpty_iff, decide_eq_true_eq]
    split_ifs with hstop
    · -- the loop stops early only where it has read all there is
      rcases hstop with hempty | henough
      · have hall := listing.take_of_empty hempty
        have hmore : listing.pages.take (n + (left + 1)) = listing.pages := by
          refine List.take_of_length_le ?_
          have := congrArg List.length hall
          rw [List.length_take] at this
          omega
        rw [hall, hmore]
      · have hcounted := listing.counted
        have h1 := distinct_take_prefix listing.pages (n + 1)
        have h2 := distinct_take_prefix listing.pages (n + (left + 1))
        have h3 : distinct (listing.pages.take (n + 1)) <+: distinct (listing.pages.take (n + (left + 1))) := by
          have := distinct_take_prefix (listing.pages.take (n + (left + 1))) (n + 1)
          rwa [List.take_take, Nat.min_eq_left (by omega)] at this
        rw [h3.eq_of_length_le (by have := h2.length_le; omega)]
    · rw [ih (n + 1), show n + 1 + left = n + (left + 1) by omega]

/-! ### What is delivered -/

/-- The stock that comes with the grant is no text of digits that is not a number to `int`. -/
def StockReads (py : Language) (body : Fields) : Prop :=
  match Json.get body "stock" with
  | .str s => Numeral py (strip s).toList
  | _ => True

theorem exists_reportedStock_iff {body : Fields} :
    (∃ stock, reportedStock py body = .ok stock) ↔ StockReads py body := by
  rw [reportedStock, StockReads]
  cases Json.get body "stock" with
  | str s =>
    dsimp only
    split_ifs with hd
    · have hstrip : stripChars isSpace (strip s).toList = (strip s).toList := by rw [toList_strip, stripChars_idem]
      rw [← exists_intOfText_iff hstrip hd, Language.toInt]
      cases py.intOfText (strip s).toList <;> simp [Except.map]
    · exact ⟨fun _ h => absurd h hd, fun _ => ⟨none, rfl⟩⟩
  | _ => simp

/-- **A number of the configuration is read unless it is infinite.** -/
theorem exists_positiveInt_iff (py : Language) {config : Fields} {key : String} (default : ℤ) :
    (∃ n, positiveInt py config key default = .ok n) ↔ (Json.get config key).isInfinite = false := by
  generalize hv : (if (Json.get config key).truthy then Json.get config key else .int default) = value
  have hinf : value.isInfinite = (Json.get config key).isInfinite := by
    rw [← hv]
    cases Json.get config key with
    | float x =>
      cases x with
      | finite q => split_ifs <;> rfl
      | inf negative => rfl
      | nan => rfl
    | _ => split_ifs <;> rfl
  rw [positiveInt]
  simp only [hv]
  rw [← hinf]
  cases hi : value.isInfinite with
  | true => simp [(py.toInt_eq_overflow_iff value).mpr hi]
  | false =>
    rcases py.toInt_cases hi with ⟨n, h⟩ | h | h <;> simp [h]

/-- The number of the key, as it is remembered. -/
def Grant.keyId (grant : Grant py) : Option String :=
  (some (py.str (firstTruthy grant.body ["api_key_id"] (.str "")))).filter (· ≠ "")

variable {lower : String → String} {config : Fields} {ref : String} {quantity : ℕ}

/-- A purchase that was granted delivers of the first pages. -/
theorem purchase_eq (grant : Grant py) (listing : (limit : ℤ) → Listing py grant.granted limit) {stock : Option ℤ}
    (hstock : reportedStock py grant.body = .ok stock) {limit : ℤ}
    (hlimit : positiveInt py config "page_size" defaultPageSize = .ok limit) :
    purchase py lower config ref quantity grant.reply (fun limit => (listing limit).reply) =
      .ok (deliver quantity grant.keyId (some grant.granted) stock (distinct ((listing limit).pages.take maxPages))) := by
  obtain ⟨apiKey, hkey⟩ := grant.key
  have hread := (listing limit).readTokensFrom_eq maxPages 0
  have hpos := grant.granted_pos
  have hstatus := grant.status_lt
  rw [purchase, grant.replied]
  simp only [bind, Except.bind, hstock, Except.mapError, hkey, grant.tokens, intValue, readTokens, hlimit]
  rw [if_neg (by omega), if_neg (by simpa using hpos.ne')]
  have hnone : distinct ((listing limit).pages.take 0) = [] := rfl
  rw [hnone, Nat.zero_add, Nat.zero_add] at hread
  rw [hread]
  rfl

/-- Tokens of which there are no more than were granted and ordered are all delivered. -/
theorem deliver_eq (keyId : Option String) {g : ℕ} (stock : Option ℤ) {tokens : List String} (hne : tokens ≠ [])
    (hgranted : tokens.length ≤ g) (hordered : tokens.length ≤ quantity) :
    deliver quantity keyId (some (g : ℤ)) stock tokens =
      { ok := true, items := tokens.map some, transId := keyId, errorKind := none
        rawMessage := some (toString tokens.length ++ "/" ++ toString quantity ++ " token"), upstreamStock := stock } := by
  rw [deliver]
  simp only [Int.toNat_natCast, List.take_of_length_le hgranted, List.take_of_length_le hordered, if_neg hne]

/-- **When a granted batch is read completely.** A purchase delivers the first tokens of the listing, as many as
were granted and ordered and each once, exactly where the page size and the reported stock can be read and the
first hundred pages hold that many distinct tokens. -/
theorem granted_batch_delivered_iff (grant : Grant py) (listing : (limit : ℤ) → Listing py grant.granted limit)
    (hquantity : 0 < quantity) :
    (∃ outcome limit, purchase py lower config ref quantity grant.reply (fun limit => (listing limit).reply) = .ok outcome ∧
        positiveInt py config "page_size" defaultPageSize = .ok limit ∧ outcome.ok = true ∧
        outcome.items = ((distinct (listing limit).pages).take (min grant.granted quantity)).map some) ↔
      StockReads py grant.body ∧ (Json.get config "page_size").isInfinite = false ∧
        ∀ limit, positiveInt py config "page_size" defaultPageSize = .ok limit →
          min grant.granted quantity ≤ (distinct ((listing limit).pages.take maxPages)).length := by
  have hpos := grant.granted_pos
  rw [← exists_reportedStock_iff, ← exists_positiveInt_iff py defaultPageSize]
  constructor
  · rintro ⟨outcome, limit, hpurchase, hlimit, hok, hitems⟩
    have hstock : ∃ stock, reportedStock py grant.body = .ok stock := by
      cases h : reportedStock py grant.body with
      | ok stock => exact ⟨stock, rfl⟩
      | error e =>
        rw [purchase, grant.replied] at hpurchase
        simp [bind, Except.bind, h, Except.mapError] at hpurchase
    refine ⟨hstock, ⟨limit, hlimit⟩, fun limit' hlimit' => ?_⟩
    obtain rfl : limit = limit' := Except.ok.inj (hlimit.symm.trans hlimit')
    obtain ⟨stock, hstock⟩ := hstock
    rw [purchase_eq grant listing hstock hlimit, Except.ok.injEq] at hpurchase
    have hlen := congrArg List.length hitems
    have henough := (listing limit).enough
    rw [← hpurchase, deliver] at hlen
    simp only [Int.toNat_natCast] at hlen
    split_ifs at hlen
    · simp only [List.length_nil, List.length_map, List.length_take] at hlen
      omega
    · simp only [List.length_map, List.length_take] at hlen
      omega
  · rintro ⟨⟨stock, hstock⟩, ⟨limit, hlimit⟩, hall⟩
    have henough := hall limit hlimit
    have htake : ((distinct ((listing limit).pages.take maxPages)).take grant.granted).take quantity =
        (distinct (listing limit).pages).take (min grant.granted quantity) := by
      rw [List.take_take, Nat.min_comm]
      obtain ⟨rest, hrest⟩ := distinct_take_prefix (listing limit).pages maxPages
      rw [← hrest, List.take_append_of_le_length henough]
    have hne : (distinct (listing limit).pages).take (min grant.granted quantity) ≠ [] := by
      have := (listing limit).enough
      rw [← List.length_pos_iff, List.length_take]
      omega
    refine ⟨_, limit, purchase_eq grant listing hstock hlimit, hlimit, ?_, ?_⟩
    · rw [deliver]
      simp only [Int.toNat_natCast, htake, if_neg hne]
    · rw [deliver]
      simp only [Int.toNat_natCast, htake, if_neg hne]

/-! ### A hundred of a hundred and one -/

/-- Python, as far as the digits of ASCII go. -/
def asciiLanguage : Language where
  digits := DigitClass.ascii
  repr _ := ""
  fromisoformat _ := none

/-- Pages of one token each. -/
def singles (n : ℕ) : List (List Json) :=
  (List.range n).map fun i => [.obj [("access_token", .str (toString i))]]

theorem distinct_singles (n : ℕ) : distinct (singles n) = (List.range n).map toString := by
  have htoken : ∀ i : ℕ, tokenOf (.obj [("access_token", .str (toString i))]) = some (toString i) := by
    intro i
    have hstrip : strip (toString i) = toString i := by
      rw [← String.toList_inj, toList_strip, stripChars_eq_self fun c hc => isSpace_of_isDigit (isDigit_of_mem_toString hc)]
    have hne : toString i ≠ "" := fun h => toList_toString_ne_nil i (by rw [h]; rfl)
    have hget : Json.get [("access_token", Json.str (toString i))] "access_token" = .str (toString i) := rfl
    rw [tokenOf, hget]
    simp only [hstrip, if_neg hne]
  have hmap : (singles n).flatten.filterMap tokenOf = (List.range n).map toString := by
    rw [singles]
    induction List.range n with
    | nil => rfl
    | cons i is ih => rw [List.map_cons, List.flatten_cons, List.filterMap_append, ih, List.filterMap_cons, htoken]; rfl
  rw [distinct, hmap, Lists.eraseDups_eq_self]
  exact List.nodup_range.map fun i j h => toString_inj.mp h

/-- A grant of a hundred and one tokens. -/
def singleGrant : Grant asciiLanguage where
  granted := 101
  status := 200
  body := [("api_key", .str "k"), ("tokens", .int 101)]
  reply := .ok ⟨200, some (.obj [("api_key", .str "k"), ("tokens", .int 101)]), ""⟩
  granted_pos := by decide
  status_lt := by decide
  replied := rfl
  key := ⟨"k", rfl⟩
  tokens := rfl

/-- They are listed one to a page. -/
def singleListing (limit : ℤ) : Listing asciiLanguage singleGrant.granted limit where
  pages := singles 101
  total := 101
  reply page _ := .ok ⟨200, some (.obj [("data", .arr ((singles 101).getD (page - 1) [])), ("total", .int 101)]), ""⟩
  fits hlimit rows hrows := by
    obtain ⟨i, -, rfl⟩ := List.mem_map.mp hrows
    simpa using Int.add_one_le_iff.mpr hlimit
  filled rows hrows := by
    obtain ⟨i, -, rfl⟩ := List.mem_map.mp (List.dropLast_subset _ hrows)
    simp
  enough := by simp [distinct_singles, singleGrant]
  counted := by simp [distinct_singles]
  served page := ⟨0, by decide, by simp, 200, _, rfl, by decide, rfl, rfl⟩

/-- With pages of one token, a hundred of a hundred and one granted tokens are delivered, and the supplier is said
to have come short. -/
theorem granted_batch_short :
    ∃ outcome, purchase asciiLanguage id [("page_size", .int 1)] "ORD-K7F3Q9X2" 101 singleGrant.reply
        (fun limit => (singleListing limit).reply) = .ok outcome ∧
      outcome.items.length = 100 ∧ outcome.rawMessage = some "100/101 token" ∧
      ((distinct (singleListing 1).pages).take (min singleGrant.granted 101)).length = 101 := by
  have htake : (singles 101).take maxPages = singles 100 := by
    rw [singles, ← List.map_take]
    rfl
  have hread : distinct ((singleListing 1).pages.take maxPages) = (List.range 100).map toString := by
    rw [← distinct_singles, ← htake]
    rfl
  have hlen : ((List.range 100).map (toString : ℕ → String)).length = 100 := by simp
  have hne : (List.range 100).map (toString : ℕ → String) ≠ [] := by simp
  have hgranted : ((List.range 100).map (toString : ℕ → String)).length ≤ singleGrant.granted := by rw [hlen]; decide
  have hordered : ((List.range 100).map (toString : ℕ → String)).length ≤ 101 := by rw [hlen]; decide
  have hdeliver := deliver_eq singleGrant.keyId none hne hgranted hordered
  have hstock : reportedStock asciiLanguage singleGrant.body = .ok none := rfl
  have hlimit : positiveInt asciiLanguage [("page_size", .int 1)] "page_size" defaultPageSize = .ok 1 := rfl
  refine ⟨_, purchase_eq singleGrant singleListing hstock hlimit, ?_, ?_, ?_⟩
  · rw [hread, hdeliver, List.length_map, hlen]
  · rw [hread, hdeliver, hlen]
    rfl
  · have : (singleListing 1).pages = singles 101 := rfl
    rw [this, distinct_singles]
    simp [singleGrant]

theorem granted_batch_delivered_iff_singles :
    (∃ outcome limit, purchase asciiLanguage id [("page_size", .int 1)] "ORD-K7F3Q9X2" 7 singleGrant.reply
          (fun limit => (singleListing limit).reply) = .ok outcome ∧
        positiveInt asciiLanguage [("page_size", .int 1)] "page_size" defaultPageSize = .ok limit ∧ outcome.ok = true ∧
        outcome.items = ((distinct (singleListing limit).pages).take (min singleGrant.granted 7)).map some) ↔
      StockReads asciiLanguage singleGrant.body ∧ (Json.get [("page_size", .int 1)] "page_size").isInfinite = false ∧
        ∀ limit, positiveInt asciiLanguage [("page_size", .int 1)] "page_size" defaultPageSize = .ok limit →
          min singleGrant.granted 7 ≤ (distinct ((singleListing limit).pages.take maxPages)).length :=
  granted_batch_delivered_iff singleGrant singleListing (by decide)

end Reading

end Marketplace.TokenKeys
