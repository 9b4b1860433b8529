import Mathlib.Data.Set.Function
import Marketplace.Http.Message
import Marketplace.Js.Url
import Marketplace.Python.Unquote

/-!
# Requests signed by the BFF

`lib/bff-request-signing.ts` signs what it sends to the backend: the method in capitals, path and query, the
second, and the digest of the body, one on a line. `security/bff_request_signing.py` puts the same lines together
from what the server has received and compares the digests.

`accepted_iff`: what was signed is accepted, for every target that the URL parser returns (`IsWeb`), if the name of the
key arrives as it is configured. `sameSigned_of_accepted`: without collisions a signature belongs to one method,
target, second and body. `returns_or_unauthorized_iff`: which headers end in another exception than the 401.
-/

namespace Marketplace.BffSignature

open Http Js Text Utf16

/-! ### Digests -/

def isHexdigit (c : Char) : Bool := c.isDigit || ('a' ≤ c && c ≤ 'f')

/-- A digest of 32 bytes in base 16. -/
def IsHexdigest (cs : List Char) : Prop := cs.length = 64 ∧ cs.all isHexdigit = true

instance : DecidablePred IsHexdigest := fun cs => inferInstanceAs (Decidable (cs.length = 64 ∧ cs.all isHexdigit = true))

abbrev Hexdigest := { cs : List Char // IsHexdigest cs }

/-- SHA-256, and HMAC-SHA256 of a key and a message. -/
structure Digests where
  sha256 : List UInt8 → Hexdigest
  hmac : List UInt8 → List UInt8 → Hexdigest

/-- A text in UTF-8. -/
def utf8 (cs : List Char) : List UInt8 := cs.flatMap String.utf8EncodeChar

/-! ### The frontend -/

/-- What may be the body of a request: the text of `URLSearchParams` is what `toString()` returns. -/
inductive BodyInit
  | text (cs : List CodePoint)
  | urlSearchParams (cs : List CodePoint)
  | arrayBuffer (bytes : List UInt8)
  | view (buffer : List UInt8) (byteOffset byteLength : ℕ)
  | other

inductive SignError
  | typeError
  | secretMissing
  deriving DecidableEq

/-- `new TextEncoder().encode(text)` -/
def encodeText (cs : List CodePoint) : List UInt8 := utf8 (cs.map toScalar)

/-- `requestBodyBytes` -/
def requestBodyBytes : Option BodyInit → Except SignError (List UInt8)
  | none => .ok []
  | some (.text cs) => .ok (encodeText cs)
  | some (.urlSearchParams cs) => .ok (encodeText cs)
  | some (.arrayBuffer bytes) => .ok bytes
  | some (.view buffer byteOffset byteLength) => .ok ((buffer.drop byteOffset).take byteLength)
  | some .other => .error .typeError

/-- `process.env` -/
structure Env where
  keyId : Option (List Char)
  secret : Option (List Char)

/-- A time value of JavaScript, in milliseconds. -/
abbrev TimeValue := { ms : ℕ // ms ≤ 8640000000000000 }

variable (digests : Digests)

/-- `canonicalRequest` of the frontend. -/
def canonicalText (method : Method) (target : Url) (timestamp : List Char) (body : List UInt8) : List Char :=
  method.upper ++ '\n' :: (target.pathname ++ target.search ++ '\n' :: (timestamp ++ '\n' :: (digests.sha256 body).val))

def apiKey : List UInt8 := latin1Bytes "x-api-key".toList
def timestampName : List UInt8 := latin1Bytes "x-timestamp".toList
def signatureName : List UInt8 := latin1Bytes "x-signature".toList

/-- `SIGNING_HEADER_NAMES` -/
def signingHeaderNames : List (List UInt8) := [apiKey, timestampName, signatureName]

def Env.keyName (env : Env) : List Char := env.keyId.getD "market-bff-v1".toList

/-- `new Headers` of one field, which throws where the value is none. -/
def putField (name : List UInt8) (value : List Char) : Except SignError (List UInt8 × List UInt8) :=
  match fieldValue value with
  | some bytes => .ok (name, bytes)
  | none => .error .typeError

/-- The digest of a request under a secret. -/
def signature (secret : List Char) (method : Method) (target : Url) (timestamp : List Char) (body : List UInt8) :
    Hexdigest :=
  digests.hmac (utf8 secret) (latin1Bytes (canonicalText digests method target timestamp body))

/-- The digest behind the version of the signature. -/
def versioned (digest : Hexdigest) : List Char := "v1=".toList ++ digest.val

/-- The second that a time value lies in, as it is written. -/
def TimeValue.stamp (now : TimeValue) : List Char := (toString (now.val / 1000)).toList

/-- `signedHeaders` -/
def signedHeaders (env : Env) (method : Method) (target : Url) (body : Option BodyInit) (now : TimeValue) :
    Except SignError Fields :=
  match env.secret.filter (· ≠ []) with
  | none => .error .secretMissing
  | some secret => do
    let bytes ← requestBodyBytes body
    let value := versioned (signature digests secret method target now.stamp bytes)
    [(apiKey, env.keyName), (timestampName, now.stamp), (signatureName, value)].mapM
      fun field => putField field.1 field.2

/-- `signedFetch`: the message of the request that is handed to `fetch`. -/
def signedFetch (env : Env) (method : Method) (target : Url) (headers : Fields) (body : Option BodyInit)
    (now : TimeValue) : Except SignError Message := do
  let signed ← signedHeaders digests env method target body now
  let bytes ← requestBodyBytes body
  return {
    method := method.sent
    target := latin1Bytes (target.pathname ++ target.search)
    fields := signed.foldl (fun fields field => Fields.set field.1 field.2 fields) headers
    body := bytes }

/-- `signedBackendFetch`, of a path that is read on the base of the backend. -/
def signedBackendFetch (parseHost : HostParser) (env : Env) (serverApiBase path : List Char) (method : Option Method)
    (headers : Fields) (body : Option BodyInit) (now : TimeValue) : Except SignError Message :=
  match (parse parseHost none serverApiBase).bind fun base => parse parseHost (some base) path with
  | none => .error .typeError
  | some target =>
    signedFetch digests env (method.getD .get) target
      (signingHeaderNames.foldl Fields.delete headers) body now

/-! ### The backend -/

/-- `query_string` of an ASGI scope. -/
inductive QueryString
  | absent
  | bytes (bs : List UInt8)
  | text (cs : List Char)
  deriving DecidableEq

/-- A request as the server hands it on; `urlPath` is `request.url.path`. -/
structure Request where
  method : Method
  rawPath : Option (List UInt8)
  urlPath : List Char
  queryString : QueryString
  headers : Fields
  body : List UInt8
  deriving DecidableEq

/-- A message as it is received: the target is cut at the first `?`. -/
def received (message : Message) : Request :=
  let path := message.target.takeWhile (· ≠ 0x3f)
  { method := message.method
    rawPath := some path
    urlPath := Python.unquote (latin1Text path)
    queryString := .bytes ((message.target.dropWhile (· ≠ 0x3f)).drop 1)
    headers := message.fields
    body := message.body }

/-- What verification raises: the 401, and what Python raises of itself. -/
inductive Raised
  | unauthorized
  | typeError
  | valueError
  deriving DecidableEq

structure Settings where
  keyId : List Char
  secret : List Char
  tolerance : ℤ

def IsAscii (cs : List Char) : Prop := cs.all (·.toNat < 0x80) = true

instance : DecidablePred IsAscii := fun cs => inferInstanceAs (Decidable (cs.all (·.toNat < 0x80) = true))

/-- `text.encode("ascii")`, where the error becomes the 401. -/
def asciiOrUnauthorized (cs : List Char) : Except Raised (List UInt8) :=
  if IsAscii cs then .ok (latin1Bytes cs) else .error .unauthorized

namespace Request

variable (request : Request)

def path : Except Raised (List UInt8) :=
  match request.rawPath with
  | some path => .ok path
  | none => asciiOrUnauthorized request.urlPath

def query : Except Raised (List UInt8) :=
  match request.queryString with
  | .absent => .ok []
  | .bytes bs => .ok bs
  | .text cs => asciiOrUnauthorized cs

/-- `_raw_target` -/
def rawTarget : Except Raised (List UInt8) := do
  let path ← request.path
  let query ← request.query
  let target := if query = [] then path else path ++ 0x3f :: query
  if target.any (0x7f < ·) then .error .unauthorized else .ok target

/-- `request.headers.get(name) or ""` -/
def header (name : List UInt8) : List Char := latin1Text ((request.headers.get? name).getD [])

def rawTimestamp : List Char := request.header timestampName

/-- `int(raw_timestamp)` -/
def timestamp : Option ℕ := DigitClass.latin1.int? request.rawTimestamp

end Request

/-- `canonical_request` -/
def canonicalRequest (request : Request) (timestamp : ℕ) (rawBody : List UInt8) : Except Raised (List UInt8) := do
  let target ← request.rawTarget
  return List.intercalate [0x0a]
    [latin1Bytes request.method.upper, target, latin1Bytes (toString timestamp).toList,
      latin1Bytes (digests.sha256 rawBody).val]

/-- `hmac.compare_digest` of two texts. -/
def compareDigest (a b : List Char) : Except Raised Bool :=
  if IsAscii a ∧ IsAscii b then .ok (a = b) else .error .typeError

/-- The group of `^v1=([0-9a-f]{64})$`. -/
def signatureGroup (text : List Char) : Option (List Char) :=
  let group := (text.drop 3).take 64
  if text.take 3 = "v1=".toList ∧ IsHexdigest group ∧ Regex.atEnd .python (text.drop 67) = true then some group else none

/-- What is checked of the timestamp before it is read. -/
def IsTimestamp (cs : List Char) : Prop :=
  cs ≠ [] ∧ cs.length ≤ 20 ∧ DigitClass.latin1.allDigits cs = true ∧ (cs.head? = some '0' → cs = ['0'])

instance : DecidablePred IsTimestamp := fun cs =>
  inferInstanceAs (Decidable (cs ≠ [] ∧ cs.length ≤ 20 ∧ DigitClass.latin1.allDigits cs = true ∧
    (cs.head? = some '0' → cs = ['0'])))

/-- `verify_bff_request_signature`, at the second `clock`. -/
def verifyBffRequestSignature (settings : Settings) (clock : ℤ) (request : Request) : Except Raised Unit := do
  if signingHeaderNames.all fun name => (request.headers.get? name).isSome then
    let sameKey ← compareDigest (request.header apiKey) settings.keyId
    if sameKey ∧ IsTimestamp request.rawTimestamp ∧ (request.header signatureName).length ≤ 80 then
      match signatureGroup (request.header signatureName), request.timestamp with
      | none, _ => .error .unauthorized
      | some _, none => .error .valueError
      | some group, some timestamp =>
        if settings.tolerance < |clock - timestamp| then .error .unauthorized
        else
          let canonical ← canonicalRequest digests request timestamp request.body
          let expected := digests.hmac (utf8 settings.secret) canonical
          if ← compareDigest expected.val group then return else .error .unauthorized
    else .error .unauthorized
  else .error .unauthorized

/-! ### Characters -/

theorem isAscii_iff {cs : List Char} : IsAscii cs ↔ ∀ c ∈ cs, c.toNat < 0x80 := by simp [IsAscii]

theorem IsAscii.lt_0x100 {cs : List Char} (h : IsAscii cs) : ∀ c ∈ cs, c.toNat < 0x100 := fun c hc => by
  have := isAscii_iff.mp h c hc
  omega

theorem bounds_of_isDigit {c : Char} (h : c.isDigit = true) : 0x20 < c.toNat ∧ c.toNat < 0x80 := by
  have := Char.isDigit_iff_toNat.mp h
  have : '0'.toNat = 48 ∧ '9'.toNat = 57 := ⟨rfl, rfl⟩
  omega

theorem bounds_of_isHexdigit {c : Char} (h : isHexdigit c = true) : 0x20 < c.toNat ∧ c.toNat < 0x80 := by
  simp only [isHexdigit, Bool.or_eq_true, Bool.and_eq_true, decide_eq_true_eq] at h
  rcases h with h | ⟨hle, hge⟩
  · exact bounds_of_isDigit h
  · have hle : 'a'.toNat ≤ c.toNat := hle
    have hge : c.toNat ≤ 'f'.toNat := hge
    have : 'a'.toNat = 97 ∧ 'f'.toNat = 102 := ⟨rfl, rfl⟩
    omega

theorem IsHexdigest.bounds {cs : List Char} (h : IsHexdigest cs) {c : Char} (hc : c ∈ cs) :
    0x20 < c.toNat ∧ c.toNat < 0x80 :=
  bounds_of_isHexdigit (List.all_eq_true.mp h.2 c hc)

theorem IsHexdigest.isAscii {cs : List Char} (h : IsHexdigest cs) : IsAscii cs :=
  isAscii_iff.mpr fun _ hc => (h.bounds hc).2

/-! ### What is accepted -/

/-- What a request that is accepted has passed, with the group of its signature, its timestamp and its lines. -/
structure Accepted (settings : Settings) (clock : ℤ) (request : Request) (group : List Char) (second : ℕ)
    (message : List UInt8) : Prop where
  present : ∀ name ∈ signingHeaderNames, (request.headers.get? name).isSome = true
  keyId : request.header apiKey = settings.keyId
  ascii : IsAscii settings.keyId
  isTimestamp : IsTimestamp request.rawTimestamp
  length : (request.header signatureName).length ≤ 80
  signature : signatureGroup (request.header signatureName) = some group
  timestamp : request.timestamp = some second
  near : |clock - second| ≤ settings.tolerance
  canonical : canonicalRequest digests request second request.body = .ok message
  digest : (digests.hmac (utf8 settings.secret) message).val = group

theorem isHexdigest_of_signatureGroup {text group : List Char} (h : signatureGroup text = some group) :
    IsHexdigest group := by
  simp only [signatureGroup] at h
  split_ifs at h with hmatch
  rw [← Option.some.inj h]
  exact hmatch.2.1

/-- What matches is no longer than the digest, the version and a newline. -/
theorem length_of_signatureGroup {text group : List Char} (h : signatureGroup text = some group) : text.length ≤ 68 := by
  simp only [signatureGroup] at h
  split_ifs at h with hmatch
  have hend := hmatch.2.2
  simp only [Regex.atEnd, decide_eq_true_eq] at hend
  have hlen : (text.drop 67).length ≤ 1 := by
    rcases hend with he | he <;> rw [he] <;> decide
  rw [List.length_drop] at hlen
  omega

theorem compareDigest_eq {a b : List Char} (ha : IsAscii a) (hb : IsAscii b) : compareDigest a b = .ok (a = b) :=
  if_pos ⟨ha, hb⟩

/-- **What verification asks for.** -/
theorem verify_eq_ok_iff {settings : Settings} {clock : ℤ} {request : Request} :
    verifyBffRequestSignature digests settings clock request = .ok () ↔
      ∃ group second message, Accepted digests settings clock request group second message := by
  constructor
  · intro h
    rw [verifyBffRequestSignature] at h
    split_ifs at h with hpresent
    rw [compareDigest] at h
    split_ifs at h with hascii
    swap
    · cases h
    simp only [bind, Except.bind] at h
    split_ifs at h with hchecks
    rcases hgroup : signatureGroup (request.header signatureName) with _ | group
    · simp [hgroup] at h
    rcases htimestamp : request.timestamp with _ | second
    · simp [hgroup, htimestamp] at h
    simp only [hgroup, htimestamp] at h
    split_ifs at h with hfar
    rcases hcanonical : canonicalRequest digests request second request.body with _ | message
    · simp [hcanonical] at h
    rw [hcanonical] at h
    simp only [compareDigest_eq (Subtype.prop (digests.hmac _ message)).isAscii
      (isHexdigest_of_signatureGroup hgroup).isAscii] at h
    split_ifs at h with hdigest
    exact ⟨group, second, message, by simpa using hpresent, of_decide_eq_true hchecks.1, hascii.2, hchecks.2.1,
      hchecks.2.2, hgroup, htimestamp, not_lt.mp hfar, hcanonical, of_decide_eq_true hdigest⟩
  · rintro ⟨group, second, message, h⟩
    have hkey : IsAscii (request.header apiKey) := h.keyId ▸ h.ascii
    have hgroup := (isHexdigest_of_signatureGroup h.signature).isAscii
    rw [verifyBffRequestSignature, if_pos (by simpa using h.present), compareDigest_eq hkey h.ascii]
    simp only [bind, Except.bind]
    rw [if_pos ⟨decide_eq_true h.keyId, h.isTimestamp, h.length⟩]
    simp only [h.signature, h.timestamp]
    rw [if_neg (not_lt.mpr h.near), h.canonical]
    simp only [compareDigest_eq (Subtype.prop (digests.hmac _ message)).isAscii hgroup]
    simp [h.digest, pure, Except.pure]

/-! ### What is raised -/

/-- What ends in another exception than the 401: a text that `compare_digest` does not take, or a digit that `int` does not
read. -/
def Raises (settings : Settings) (request : Request) : Prop :=
  (∀ name ∈ signingHeaderNames, (request.headers.get? name).isSome = true) ∧
    (¬(IsAscii (request.header apiKey) ∧ IsAscii settings.keyId) ∨
      request.header apiKey = settings.keyId ∧ IsTimestamp request.rawTimestamp ∧
        (signatureGroup (request.header signatureName)).isSome = true ∧
        ∃ c ∈ request.rawTimestamp, DigitClass.isSuperscript c = true)

theorem asciiOrUnauthorized_eq_error {cs : List Char} {e : Raised} (h : asciiOrUnauthorized cs = .error e) :
    e = .unauthorized := by
  rw [asciiOrUnauthorized] at h
  split_ifs at h
  exact (Except.error.inj h).symm

/-- A target that is not ASCII is the only thing the canonical request does not take. -/
theorem canonicalRequest_eq_error {request : Request} {second : ℕ} {body : List UInt8} {e : Raised}
    (h : canonicalRequest digests request second body = .error e) : e = .unauthorized := by
  simp only [canonicalRequest, Request.rawTarget, bind, Except.bind] at h
  rcases hpath : request.path with e' | path
  · simp only [hpath] at h
    obtain rfl := Except.error.inj h
    rw [Request.path] at hpath
    split at hpath
    · cases hpath
    · exact asciiOrUnauthorized_eq_error hpath
  rcases hquery : request.query with e' | query
  · simp only [hpath, hquery] at h
    obtain rfl := Except.error.inj h
    rw [Request.query] at hquery
    split at hquery
    · cases hquery
    · cases hquery
    · exact asciiOrUnauthorized_eq_error hquery
  simp only [hpath, hquery] at h
  by_cases hany : ((if query = [] then path else path ++ 0x3f :: query).any (0x7f < ·)) = true
  · rw [if_pos hany] at h
    exact (Except.error.inj h).symm
  · rw [if_neg hany] at h
    cases h

/-- **Verification returns or raises the 401 exactly where it does not raise otherwise.** -/
theorem returns_or_unauthorized_iff {settings : Settings} {clock : ℤ} {request : Request} :
    verifyBffRequestSignature digests settings clock request = .ok () ∨
        verifyBffRequestSignature digests settings clock request = .error .unauthorized ↔
      ¬Raises settings request := by
  by_cases hpresent : ∀ name ∈ signingHeaderNames, (request.headers.get? name).isSome = true
  swap
  · rw [verifyBffRequestSignature, if_neg (by simpa using hpresent)]
    simp [Raises, hpresent]
  by_cases hascii : IsAscii (request.header apiKey) ∧ IsAscii settings.keyId
  swap
  · have hraises : Raises settings request := ⟨hpresent, .inl hascii⟩
    rw [verifyBffRequestSignature, if_pos (by simpa using hpresent), compareDigest, if_neg hascii]
    simp [hraises, bind, Except.bind]
  rw [verifyBffRequestSignature, if_pos (by simpa using hpresent), compareDigest_eq hascii.1 hascii.2]
  simp only [bind, Except.bind]
  by_cases hchecks : decide (request.header apiKey = settings.keyId) = true ∧ IsTimestamp request.rawTimestamp ∧
      (request.header signatureName).length ≤ 80
  swap
  · rw [if_neg hchecks]
    refine iff_of_true (.inr rfl) ?_
    rintro ⟨-, h | ⟨hkey, htimestamp, hsignature, -⟩⟩
    · exact h hascii
    · obtain ⟨group, hgroup⟩ := Option.isSome_iff_exists.mp hsignature
      have := length_of_signatureGroup hgroup
      exact hchecks ⟨decide_eq_true hkey, htimestamp, by omega⟩
  rw [if_pos hchecks]
  rcases hgroup : signatureGroup (request.header signatureName) with _ | group
  · simp only
    refine iff_of_true (.inr trivial) ?_
    rintro ⟨-, h | ⟨-, -, hsignature, -⟩⟩
    · exact h hascii
    · rw [hgroup] at hsignature
      cases hsignature
  have hint := DigitClass.int?_latin1_eq_none_iff hchecks.2.1.2.2.1
  rcases htimestamp : request.timestamp with _ | second
  · -- a superscript is left for `int`
    simp only [reduceCtorEq, Except.error.injEq, or_self, false_iff, not_not]
    exact ⟨hpresent, .inr ⟨of_decide_eq_true hchecks.1, hchecks.2.1, by rw [hgroup]; rfl, hint.mp htimestamp⟩⟩
  · refine iff_of_true ?_ ?_
    · simp only
      split_ifs with hfar
      · exact .inr rfl
      rcases hcanonical : canonicalRequest digests request second request.body with e | message
      · simp only [canonicalRequest_eq_error digests hcanonical]
        exact .inr trivial
      · simp only [compareDigest_eq (Subtype.prop (digests.hmac _ message)).isAscii
          (isHexdigest_of_signatureGroup hgroup).isAscii]
        split_ifs
        · exact .inl rfl
        · exact .inr rfl
    · rintro ⟨-, h | ⟨-, -, -, hsuperscript⟩⟩
      · exact h hascii
      · rw [Request.timestamp, hint.mpr hsuperscript] at htimestamp
        cases htimestamp

/-! ### Signed requests are accepted -/

/-- A name of a key that arrives as it was configured. -/
structure IsKeyId (keyId : List Char) : Prop where
  sent : fieldValue keyId = some (latin1Bytes keyId)
  ascii : IsAscii keyId

/-- Both sides are configured alike. -/
structure Shared (env : Env) (settings : Settings) : Prop where
  keyId : settings.keyId = env.keyName
  secret : env.secret = some settings.secret
  ne_nil : settings.secret ≠ []

/-- The second a request was signed at is a timestamp as it is asked for. -/
theorem isTimestamp_toString {n : ℕ} (h : n < 10 ^ 20) : IsTimestamp (toString n).toList := by
  have hdigits : ∀ c ∈ (toString n).toList, c.isDigit = true := fun c hc => isDigit_of_mem_toString hc
  refine ⟨toList_toString_ne_nil n, ?_, ?_, fun hzero => ?_⟩
  · rw [toList_toString]
    exact (Nat.length_toDigits_le_iff (by decide) (by decide)).mpr h
  · rw [DigitClass.allDigits, Bool.and_eq_true, List.all_eq_true]
    refine ⟨by simp, fun c hc => ?_⟩
    show (c.isDigit || _) = true
    rw [hdigits c hc, Bool.true_or]
  · rw [head?_toString hzero]
    decide

/-- The characters of a path and a query. -/
theorem bounds_of_isWeb {target : Url} (h : IsWeb target) :
    (∀ c ∈ target.pathname, c.toNat < 0x80 ∧ c ≠ '?') ∧ ∀ c ∈ target.search, c.toNat < 0x80 := by
  have hset : ∀ {c : Char}, c0ControlSet c = false → c.toNat < 0x80 := by
    intro c hc
    simp only [c0ControlSet, Bool.or_eq_false_iff, decide_eq_false_iff_not] at hc
    omega
  obtain ⟨s, segments, hpath, hsegments⟩ := h.path
  constructor
  · intro c hc
    rw [Url.pathname, hpath] at hc
    rcases mem_pathText hc with rfl | ⟨t, ht, hc⟩
    · decide
    · have hends := (hsegments t ht).endsPath_eq_false hc
      have hc := (hsegments t ht).chars c hc
      simp only [pathSet, querySet, Bool.or_eq_false_iff] at hc
      refine ⟨hset hc.1.1.1, ?_⟩
      rintro rfl
      exact absurd hends (by decide)
  · intro c hc
    rcases mem_behind hc with rfl | ⟨cs, hcs, hc⟩
    · decide
    · have hc := h.query cs hcs c hc
      simp only [specialQuerySet, querySet, Bool.or_eq_false_iff] at hc
      exact hset hc.1.1

/-- A query that is there is not empty. -/
theorem search_eq (target : Url) : target.search = [] ∨ ∃ cs, cs ≠ [] ∧ target.search = '?' :: cs := by
  rw [Url.search]
  rcases target.query with _ | _ | ⟨c, cs⟩
  · exact .inl rfl
  · exact .inl rfl
  · exact .inr ⟨c :: cs, by simp, rfl⟩

/-- **The server puts together the target that was cut.** -/
theorem rawTarget_received {message : Message} {path query : List Char} (hpath : ∀ c ∈ path, c.toNat < 0x80 ∧ c ≠ '?')
    (hquery : query = [] ∨ ∃ cs, cs ≠ [] ∧ query = '?' :: cs) (hascii : ∀ c ∈ query, c.toNat < 0x80)
    (htarget : message.target = latin1Bytes (path ++ query)) :
    (received message).rawTarget = .ok message.target := by
  have hbytes : ∀ b ∈ latin1Bytes (path ++ query), ¬0x7f < b := by
    intro b hb
    obtain ⟨c, hc, rfl⟩ := List.mem_map.mp hb
    have hlt : c.toNat < 0x80 := by
      rcases List.mem_append.mp hc with hc | hc
      · exact (hpath c hc).1
      · exact hascii c hc
    rw [UInt8.lt_iff_toNat_lt, UInt8.toNat_ofNat']
    show ¬127 < c.toNat % 256
    omega
  have hmark : ∀ b ∈ latin1Bytes path, decide (b ≠ 0x3f) = true := by
    intro b hb
    rw [decide_eq_true_eq]
    rintro rfl
    refine not_mem_latin1Bytes (fun c hc => ?_) (d := '?') (by decide) (fun hc => (hpath _ hc).2 rfl) hb
    have := (hpath c hc).1
    omega
  have hany : (latin1Bytes (path ++ query)).any (0x7f < ·) = false := by
    simpa using hbytes
  rw [latin1Bytes_append] at htarget hany
  simp only [Request.rawTarget, Request.path, Request.query, received, htarget, List.takeWhile_append_of_pos hmark,
    List.dropWhile_append_of_pos hmark]
  rcases hquery with rfl | ⟨cs, hne, rfl⟩
  · have hnil : latin1Bytes [] = [] := rfl
    rw [hnil, List.append_nil] at hany
    simp [hnil, hany, bind, Except.bind]
  · -- the mark is found where the query begins
    have hne : latin1Bytes cs ≠ [] := by simpa [latin1Bytes] using hne
    have hcut : latin1Bytes ('?' :: cs) = 0x3f :: latin1Bytes cs := rfl
    rw [hcut] at hany ⊢
    simp [hne, hany, bind, Except.bind]

/-- The group of a signature that is sent. -/
theorem signatureGroup_versioned (digest : Hexdigest) : signatureGroup (versioned digest) = some digest.val := by
  have hlen := digest.2.1
  have htake : ("v1=".toList ++ digest.val).take 3 = "v1=".toList := List.take_left' rfl
  have hdrop : ("v1=".toList ++ digest.val).drop 3 = digest.val := List.drop_left' rfl
  have hrest : ("v1=".toList ++ digest.val).drop 67 = [] := by
    refine List.drop_eq_nil_of_le ?_
    rw [List.length_append, hlen]
    rfl
  have hall : digest.val.take 64 = digest.val := List.take_of_length_le hlen.le
  simp only [signatureGroup, versioned, htake, hdrop, hrest, hall]
  exact if_pos ⟨trivial, digest.2, rfl⟩

/-- The header of a message that is set. -/
theorem header_eq {request : Request} {name value : List UInt8} {text : List Char}
    (h : request.headers.get? name = some value) (hvalue : value = latin1Bytes text)
    (htext : ∀ c ∈ text, c.toNat < 0x100) : request.header name = text := by
  rw [Request.header, h, hvalue]
  exact latin1Text_latin1Bytes htext

/-- Both sides put the same lines together. -/
theorem canonicalRequest_eq {request : Request} {method : Method} {target : Url} {timestamp : ℕ} {body : List UInt8}
    (hmethod : request.method.upper = method.upper)
    (htarget : request.rawTarget = .ok (latin1Bytes (target.pathname ++ target.search))) :
    canonicalRequest digests request timestamp body =
      .ok (latin1Bytes (canonicalText digests method target (toString timestamp).toList body)) := by
  simp [canonicalRequest, htarget, canonicalText, latin1Bytes, hmethod, List.intercalate, bind, Except.bind, pure,
    Except.pure]

theorem bounds_of_mem_versioned {digest : Hexdigest} {c : Char} (hc : c ∈ versioned digest) :
    0x20 < c.toNat ∧ c.toNat < 0x80 := by
  rcases List.mem_append.mp hc with hc | hc
  · have hall : ("v1=".toList.all fun c => 0x20 < c.toNat ∧ c.toNat < 0x80) = true := by decide
    exact of_decide_eq_true (List.all_eq_true.mp hall c hc)
  · exact digest.2.bounds hc

/-- The fields of a message that is signed, over the ones there are. -/
def signedFields (headers : Fields) (keyId : List UInt8) (timestamp : List Char) (digest : Hexdigest) : Fields :=
  Fields.set signatureName (latin1Bytes (versioned digest))
    (Fields.set timestampName (latin1Bytes timestamp) (Fields.set apiKey keyId headers))

theorem get?_signedFields (headers : Fields) (keyId : List UInt8) (timestamp : List Char) (digest : Hexdigest) :
    Fields.get? (signedFields headers keyId timestamp digest) apiKey = some keyId ∧
      Fields.get? (signedFields headers keyId timestamp digest) timestampName = some (latin1Bytes timestamp) ∧
      Fields.get? (signedFields headers keyId timestamp digest) signatureName =
        some (latin1Bytes (versioned digest)) := by
  have hne : apiKey ≠ signatureName ∧ timestampName ≠ signatureName ∧ apiKey ≠ timestampName := by decide
  refine ⟨?_, ?_, ?_⟩
  · rw [signedFields, Fields.get?_set_of_ne _ _ hne.1, Fields.get?_set_of_ne _ _ hne.2.2, Fields.get?_set_self]
  · rw [signedFields, Fields.get?_set_of_ne _ _ hne.2.1, Fields.get?_set_self]
  · rw [signedFields, Fields.get?_set_self]

variable {digests} {env : Env} {settings : Settings}

/-- **What `signedFetch` sends.** -/
theorem signedFetch_eq_ok_iff (hshared : Shared env settings) {method : Method} {target : Url} {headers : Fields}
    {body : Option BodyInit} {bytes : List UInt8} (hbody : requestBodyBytes body = .ok bytes) {now : TimeValue}
    {message : Message} :
    signedFetch digests env method target headers body now = .ok message ↔
      ∃ value, fieldValue settings.keyId = some value ∧ message =
        { method := method.sent
          target := latin1Bytes (target.pathname ++ target.search)
          fields := signedFields headers value now.stamp (signature digests settings.secret method target now.stamp bytes)
          body := bytes } := by
  have hsecret : env.secret.filter (· ≠ []) = some settings.secret := by
    rw [hshared.secret]
    simp [hshared.ne_nil]
  have hstamp : fieldValue now.stamp = some (latin1Bytes now.stamp) :=
    fieldValue_eq fun c hc => bounds_of_isDigit (isDigit_of_mem_toString hc)
  have hsignature (digest : Hexdigest) : fieldValue (versioned digest) = some (latin1Bytes (versioned digest)) :=
    fieldValue_eq fun c hc => bounds_of_mem_versioned hc
  rw [signedFetch, signedHeaders, hsecret, ← hshared.keyId]
  rcases hkey : fieldValue settings.keyId with _ | value
  · simp [hbody, putField, hkey, bind, Except.bind]
  · simp [hbody, putField, hkey, hstamp, hsignature, bind, Except.bind, pure, Except.pure, signedFields, eq_comm]

/-- **A request that is signed and received as it was sent is accepted, if the name of the key arrives.** -/
theorem accepted_iff (hshared : Shared env settings) (method : Method) {target : Url} (htarget : IsWeb target)
    (headers : Fields) {body : Option BodyInit} {bytes : List UInt8} (hbody : requestBodyBytes body = .ok bytes)
    (now : TimeValue) {clock : ℤ} (hclock : |clock - (now.val / 1000 : ℕ)| ≤ settings.tolerance) :
    (∃ message, signedFetch digests env method target headers body now = .ok message ∧
        verifyBffRequestSignature digests settings clock (received message) = .ok ()) ↔
      IsKeyId settings.keyId := by
  constructor
  · rintro ⟨message, hmessage, hverify⟩
    obtain ⟨value, hvalue, rfl⟩ := (signedFetch_eq_ok_iff hshared hbody).mp hmessage
    obtain ⟨group, second, lines, h⟩ := (verify_eq_ok_iff digests).mp hverify
    have hkey : latin1Text value = settings.keyId := by
      rw [← h.keyId, Request.header]
      exact congrArg latin1Text (by rw [received, (get?_signedFields ..).1]; rfl)
    refine ⟨?_, h.ascii⟩
    rw [hvalue, ← hkey, latin1Bytes_latin1Text]
  · intro hkey
    obtain ⟨hpath, hsearch⟩ := bounds_of_isWeb htarget
    set digest := signature digests settings.secret method target now.stamp bytes with hdigest
    have hstamp : ∀ c ∈ now.stamp, c.toNat < 0x100 := fun c hc => by
      have := bounds_of_isDigit (isDigit_of_mem_toString hc)
      omega
    have hversioned : ∀ c ∈ versioned digest, c.toNat < 0x100 := fun c hc => by
      have := bounds_of_mem_versioned hc
      omega
    refine ⟨_, (signedFetch_eq_ok_iff hshared hbody).mpr ⟨_, hkey.sent, rfl⟩, (verify_eq_ok_iff digests).mpr ?_⟩
    rw [← hdigest]
    set message : Message :=
      { method := method.sent
        target := latin1Bytes (target.pathname ++ target.search)
        fields := signedFields headers (latin1Bytes settings.keyId) now.stamp digest
        body := bytes } with hmessage
    obtain ⟨hfirst, hsecond, hthird⟩ := get?_signedFields headers (latin1Bytes settings.keyId) now.stamp digest
    have htimestamp : (received message).rawTimestamp = now.stamp := header_eq hsecond rfl hstamp
    have hsignature : (received message).header signatureName = versioned digest := header_eq hthird rfl hversioned
    have htarget' : (received message).rawTarget = .ok (latin1Bytes (target.pathname ++ target.search)) :=
      rawTarget_received hpath (search_eq target) hsearch rfl
    refine ⟨digest.val, now.val / 1000, latin1Bytes (canonicalText digests method target now.stamp bytes), ?_⟩
    constructor
    · intro name hname
      simp only [signingHeaderNames, List.mem_cons, List.not_mem_nil, or_false] at hname
      rcases hname with rfl | rfl | rfl
      · exact hfirst ▸ rfl
      · exact hsecond ▸ rfl
      · exact hthird ▸ rfl
    · exact header_eq hfirst rfl hkey.ascii.lt_0x100
    · exact hkey.ascii
    · rw [htimestamp]
      have := now.2
      exact isTimestamp_toString (by omega)
    · rw [hsignature, versioned, List.length_append, digest.2.1]
      decide
    · rw [hsignature, signatureGroup_versioned]
    · rw [Request.timestamp, htimestamp]
      exact DigitClass.int?_toString _ _
    · exact hclock
    · exact canonicalRequest_eq digests (Method.upper_sent method) htarget'
    · rfl

/-- A page of the server asks the backend with what is signed. -/
theorem signedBackendFetch_accepted_iff {parseHost : HostParser} (hshared : Shared env settings)
    {serverApiBase path : List Char} {base target : Url} (hbase : parse parseHost none serverApiBase = some base)
    (horigin : base.scheme.hasOrigin = true) (htarget : parse parseHost (some base) path = some target)
    (horigin' : target.scheme.hasOrigin = true) (method : Option Method) (headers : Fields) {body : Option BodyInit}
    {bytes : List UInt8} (hbody : requestBodyBytes body = .ok bytes) (now : TimeValue) {clock : ℤ}
    (hclock : |clock - (now.val / 1000 : ℕ)| ≤ settings.tolerance) :
    (∃ message, signedBackendFetch digests parseHost env serverApiBase path method headers body now = .ok message ∧
        verifyBffRequestSignature digests settings clock (received message) = .ok ()) ↔
      IsKeyId settings.keyId := by
  have hweb : ∀ b ∈ some base, IsWeb b := by
    rintro b ⟨⟩
    exact isWeb_of_parse (by simp) hbase horigin
  simp only [signedBackendFetch, hbase, Option.bind_some, htarget]
  exact accepted_iff hshared _ (isWeb_of_parse hweb htarget horigin') _ hbody now hclock

/-! ### A signature belongs to one request -/

/-- Two texts that are cut at their first mark. -/
theorem append_cons_inj {α : Type} {x : α} {front front' rest rest' : List α} (h : x ∉ front) (h' : x ∉ front') :
    front ++ x :: rest = front' ++ x :: rest' ↔ front = front' ∧ rest = rest' := by
  constructor
  · intro he
    induction front generalizing front' with
    | nil =>
      cases front' with
      | nil => exact ⟨rfl, List.tail_eq_of_cons_eq he⟩
      | cons b front' => exact absurd (List.head_eq_of_cons_eq he) (fun hb => h' (hb ▸ List.mem_cons_self))
    | cons a front ih =>
      cases front' with
      | nil => exact absurd (List.head_eq_of_cons_eq he) (fun ha => h (ha ▸ List.mem_cons_self))
      | cons b front' =>
        rw [List.mem_cons, not_or] at h h'
        obtain ⟨rfl, rfl⟩ := ih h.2 h'.2 (List.tail_eq_of_cons_eq he)
        exact ⟨by rw [List.head_eq_of_cons_eq he], rfl⟩
  · rintro ⟨rfl, rfl⟩
    rfl

/-- Two texts that are cut at their last mark. -/
theorem append_cons_inj_last {α : Type} {x : α} {front front' rest rest' : List α} (h : x ∉ rest) (h' : x ∉ rest') :
    front ++ x :: rest = front' ++ x :: rest' ↔ front = front' ∧ rest = rest' := by
  rw [← List.reverse_inj, List.reverse_append, List.reverse_append, List.reverse_cons, List.reverse_cons,
    List.append_assoc, List.append_assoc, List.singleton_append, List.singleton_append,
    append_cons_inj (by simpa using h) (by simpa using h'), List.reverse_inj, List.reverse_inj, and_comm]

/-- Two requests that were signed as one. -/
structure SameSigned (r₁ r₂ : Request) : Prop where
  method : r₁.method.upper = r₂.method.upper
  target : r₁.rawTarget = r₂.rawTarget
  timestamp : r₁.timestamp = r₂.timestamp
  body : r₁.body = r₂.body

variable (digests) in
/-- What is signed of a request. -/
def signedMessage (request : Request) : Option (List UInt8) :=
  request.timestamp.bind fun second => (canonicalRequest digests request second request.body).toOption

theorem canonicalRequest_eq_ok {request : Request} {second : ℕ} {body message : List UInt8}
    (h : canonicalRequest digests request second body = .ok message) : ∃ target, request.rawTarget = .ok target ∧
      message = latin1Bytes request.method.upper ++ 0x0a :: (target ++ 0x0a ::
        (latin1Bytes (toString second).toList ++ 0x0a :: latin1Bytes (digests.sha256 body).val)) := by
  simp only [canonicalRequest, bind, Except.bind] at h
  rcases htarget : request.rawTarget with _ | target
  · rw [htarget] at h
    cases h
  · rw [htarget] at h
    refine ⟨target, rfl, ?_⟩
    rw [← Except.ok.inj h]
    simp [List.intercalate]

/-- **The lines of a request say what it was**, up to the digest of its body. -/
theorem canonicalRequest_inj {r₁ r₂ : Request} {s₁ s₂ : ℕ} {b₁ b₂ message : List UInt8}
    (h₁ : canonicalRequest digests r₁ s₁ b₁ = .ok message) (h₂ : canonicalRequest digests r₂ s₂ b₂ = .ok message) :
    r₁.method.upper = r₂.method.upper ∧ r₁.rawTarget = r₂.rawTarget ∧ s₁ = s₂ ∧
      digests.sha256 b₁ = digests.sha256 b₂ := by
  obtain ⟨t₁, ht₁, rfl⟩ := canonicalRequest_eq_ok h₁
  obtain ⟨t₂, ht₂, he⟩ := canonicalRequest_eq_ok h₂
  have hlt (m : Method) : ∀ c ∈ m.upper, c.toNat < 0x100 := fun c hc => by
    have := (Method.bounds_of_mem_upper hc).2
    omega
  have hdigits (n : ℕ) : ∀ c ∈ (toString n).toList, 0x20 < c.toNat ∧ c.toNat < 0x80 := fun c hc =>
    bounds_of_isDigit (isDigit_of_mem_toString hc)
  -- a newline stands neither in a method nor in a number nor in a digest
  have hline {cs : List Char} (h : ∀ c ∈ cs, 0x20 < c.toNat ∧ c.toNat < 0x80) : 0x0a ∉ latin1Bytes cs := by
    refine not_mem_latin1Bytes (fun c hc => ?_) (d := '\n') (by decide) fun hc => absurd (h _ hc).1 (by decide)
    have := (h c hc).2
    omega
  obtain ⟨hmethod, he⟩ := (append_cons_inj (hline fun _ => Method.bounds_of_mem_upper)
    (hline fun _ => Method.bounds_of_mem_upper)).mp he
  have hassoc (t s d : List UInt8) : t ++ 0x0a :: (s ++ 0x0a :: d) = (t ++ 0x0a :: s) ++ 0x0a :: d := by simp
  rw [hassoc, hassoc, append_cons_inj_last (hline fun _ => (digests.sha256 b₁).2.bounds)
    (hline fun _ => (digests.sha256 b₂).2.bounds), append_cons_inj_last (hline (hdigits s₁)) (hline (hdigits s₂))] at he
  obtain ⟨⟨rfl, hsecond⟩, hdigest⟩ := he
  have hascii {cs : List Char} (h : ∀ c ∈ cs, 0x20 < c.toNat ∧ c.toNat < 0x80) : ∀ c ∈ cs, c.toNat < 0x100 :=
    fun c hc => by
      have := (h c hc).2
      omega
  refine ⟨(latin1Bytes_inj (hlt _) (hlt _)).mp hmethod, by rw [ht₁, ht₂], ?_, Subtype.ext ?_⟩
  · have := (latin1Bytes_inj (hascii (hdigits s₁)) (hascii (hdigits s₂))).mp hsecond
    exact toString_inj.mp (String.toList_inj.mp this)
  · exact (latin1Bytes_inj (hascii fun _ => (digests.sha256 b₁).2.bounds)
      (hascii fun _ => (digests.sha256 b₂).2.bounds)).mp hdigest

/-- **A signature belongs to one method, target, timestamp and body**, among requests whose digests do not collide. -/
theorem sameSigned_of_accepted {asked : Set Request}
    (hhmac : Set.InjOn (digests.hmac (utf8 settings.secret)) {m | ∃ r ∈ asked, signedMessage digests r = some m})
    (hsha : Set.InjOn digests.sha256 (Request.body '' asked)) {r₁ r₂ : Request} (hr₁ : r₁ ∈ asked) (hr₂ : r₂ ∈ asked)
    {c₁ c₂ : ℤ} (h₁ : verifyBffRequestSignature digests settings c₁ r₁ = .ok ())
    (h₂ : verifyBffRequestSignature digests settings c₂ r₂ = .ok ())
    (hsame : signatureGroup (r₁.header signatureName) = signatureGroup (r₂.header signatureName)) :
    SameSigned r₁ r₂ := by
  obtain ⟨g₁, s₁, m₁, h₁⟩ := (verify_eq_ok_iff digests).mp h₁
  obtain ⟨g₂, s₂, m₂, h₂⟩ := (verify_eq_ok_iff digests).mp h₂
  have hmessage : ∀ {r c g s m}, Accepted digests settings c r g s m → signedMessage digests r = some m := by
    intro r c g s m h
    rw [signedMessage, h.timestamp, Option.bind_some, h.canonical]
    rfl
  have hdigest : digests.hmac (utf8 settings.secret) m₁ = digests.hmac (utf8 settings.secret) m₂ := by
    refine Subtype.ext ?_
    rw [h₁.digest, h₂.digest]
    exact Option.some.inj (h₁.signature.symm.trans (hsame.trans h₂.signature))
  obtain rfl := hhmac ⟨r₁, hr₁, hmessage h₁⟩ ⟨r₂, hr₂, hmessage h₂⟩ hdigest
  obtain ⟨hmethod, htarget, hsecond, hbody⟩ := canonicalRequest_inj h₁.canonical h₂.canonical
  refine ⟨hmethod, htarget, ?_, hsha ⟨r₁, hr₁, rfl⟩ ⟨r₂, hr₂, rfl⟩ hbody⟩
  rw [h₁.timestamp, h₂.timestamp, hsecond]

/-! ### Signing -/

variable (digests) in
/-- **Signing is complete and binding, and verification raises the 401 only, but for two kinds of header.** What is signed
is accepted where the name of the key arrives as it is configured; a signature belongs to one request; and what
verification does to a request is the 401 at worst, exactly where no header has a text that `compare_digest` does not
take or a digit that `int` does not read. -/
theorem bff_signing_iff :
    (∀ (env : Env) (settings : Settings), Shared env settings → ∀ (method : Method) (target : Url), IsWeb target →
      ∀ (headers : Fields) (body : Option BodyInit) (bytes : List UInt8), requestBodyBytes body = .ok bytes →
      ∀ (now : TimeValue) (clock : ℤ), |clock - (now.val / 1000 : ℕ)| ≤ settings.tolerance →
        ((∃ message, signedFetch digests env method target headers body now = .ok message ∧
            verifyBffRequestSignature digests settings clock (received message) = .ok ()) ↔
          IsKeyId settings.keyId)) ∧
    (∀ (settings : Settings) (asked : Set Request),
      Set.InjOn (digests.hmac (utf8 settings.secret)) {m | ∃ r ∈ asked, signedMessage digests r = some m} →
      Set.InjOn digests.sha256 (Request.body '' asked) → ∀ r₁ ∈ asked, ∀ r₂ ∈ asked, ∀ c₁ c₂ : ℤ,
        verifyBffRequestSignature digests settings c₁ r₁ = .ok () →
        verifyBffRequestSignature digests settings c₂ r₂ = .ok () →
        signatureGroup (r₁.header signatureName) = signatureGroup (r₂.header signatureName) → SameSigned r₁ r₂) ∧
    (∀ (settings : Settings) (clock : ℤ) (request : Request),
      verifyBffRequestSignature digests settings clock request = .ok () ∨
          verifyBffRequestSignature digests settings clock request = .error .unauthorized ↔
        ¬Raises settings request) :=
  ⟨fun _ _ hshared method _ htarget headers _ _ hbody now _ hclock =>
      accepted_iff hshared method htarget headers hbody now hclock,
    fun _ _ hhmac hsha _ hr₁ _ hr₂ _ _ h₁ h₂ hsame => sameSigned_of_accepted hhmac hsha hr₁ hr₂ h₁ h₂ hsame,
    fun _ _ _ => returns_or_unauthorized_iff digests⟩

/-! ### Two requests -/

def zeros : Hexdigest := ⟨List.replicate 64 '0', by decide⟩

def orderBody : List UInt8 := latin1Bytes "\x7b\"items\":[1,2]\x7d".toList

def orderBodyDigest : Hexdigest :=
  ⟨"02d21651bf4a0c676159456cd47d09d4ac585db5ed1324ac191f3e98640846a3".toList, by decide⟩

def orderDigest : Hexdigest :=
  ⟨"07748135ba729109bbe4925e2d7da1891550e993cc11cba90d023d57278478f3".toList, by decide⟩

/-- The lines of an order. -/
def orderLines : List UInt8 :=
  latin1Bytes ("POST\n/orders?status=pending&limit=10\n1786089600\n".toList ++ orderBodyDigest.val)

/-- The digests of the order. -/
def orderDigests : Digests where
  sha256 body := if body = orderBody then orderBodyDigest else zeros
  hmac _ message := if message = orderLines then orderDigest else zeros

def signingSettings : Settings where
  keyId := "market-bff-v1".toList
  secret := "frontend-bff-signing-test-secret-32-bytes".toList
  tolerance := 300

def signingEnv : Env := ⟨none, some signingSettings.secret⟩

def orderMethod : Method := ⟨"post".toList, by decide, by decide⟩

/-- `http://marketplace-svc:8001/orders?status=pending&limit=10` -/
def orderTarget : Url :=
  ⟨.http, [], [], some "marketplace-svc".toList, some 8001, .list ["orders".toList],
    some "status=pending&limit=10".toList, none⟩

def orderNow : TimeValue := ⟨1786089600000, by decide⟩

/-- A timestamp of one superscript, under the name of the key and a signature of zeros. -/
def superscriptRequest : Request where
  method := orderMethod
  rawPath := some (latin1Bytes "/orders".toList)
  urlPath := "/orders".toList
  queryString := .absent
  headers := [(apiKey, latin1Bytes "market-bff-v1".toList), (timestampName, [0xb2]),
    (signatureName, latin1Bytes (versioned zeros))]
  body := []

theorem verify_superscriptRequest :
    verifyBffRequestSignature orderDigests signingSettings 0 superscriptRequest = .error .valueError := by
  decide

/-- **A superscript in the timestamp is a `ValueError`.** -/
theorem superscript_timestamp_raises :
    verifyBffRequestSignature orderDigests signingSettings 0 superscriptRequest = .error .valueError ∧
      ¬(verifyBffRequestSignature orderDigests signingSettings 0 superscriptRequest = .ok () ∨
        verifyBffRequestSignature orderDigests signingSettings 0 superscriptRequest = .error .unauthorized) := by
  rw [verify_superscriptRequest]
  simp

theorem isWeb_orderTarget : IsWeb orderTarget := by
  have hsegment : ("orders".toList.all fun c => !pathSet c && !isSlash true c) = true := by decide
  have hquery : ("status=pending&limit=10".toList.all fun c => !specialQuerySet c) = true := by decide
  refine ⟨⟨rfl, _, [], rfl, fun t ht => ?_⟩, ?_⟩
  · obtain rfl := List.mem_singleton.mp ht
    refine ⟨fun c hc => ?_, by decide, by decide⟩
    simpa using List.all_eq_true.mp hsegment c hc
  · rintro _ ⟨⟩ c hc
    simpa using List.all_eq_true.mp hquery c hc

/-- The theorem at an order, and at the superscript. -/
theorem bff_signing_iff_order :
    (∃ message, signedFetch orderDigests signingEnv orderMethod orderTarget [] (some (.arrayBuffer orderBody)) orderNow =
        .ok message ∧
      verifyBffRequestSignature orderDigests signingSettings 1786089601 (received message) = .ok () ∧
      SameSigned (received message) (received message)) ∧ Raises signingSettings superscriptRequest := by
  obtain ⟨haccepted, hbinding, htotal⟩ := bff_signing_iff orderDigests
  have hkey : IsKeyId signingSettings.keyId := ⟨by decide, by decide⟩
  have hclock : |(1786089601 : ℤ) - (orderNow.val / 1000 : ℕ)| ≤ signingSettings.tolerance := by decide
  obtain ⟨message, hmessage, hverify⟩ := (haccepted signingEnv signingSettings ⟨rfl, rfl, by decide⟩ orderMethod
    orderTarget isWeb_orderTarget [] (some (.arrayBuffer orderBody)) orderBody rfl orderNow 1786089601 hclock).mpr hkey
  refine ⟨⟨message, hmessage, hverify, ?_⟩, ?_⟩
  · refine hbinding signingSettings {received message} ?_ ?_ _ rfl _ rfl 1786089601 1786089601 hverify hverify rfl
    · rintro m ⟨r, rfl, hm⟩ m' ⟨r', rfl, hm'⟩ -
      exact Option.some.inj (hm.symm.trans hm')
    · rintro b ⟨r, rfl, rfl⟩ b' ⟨r', rfl, rfl⟩ -
      rfl
  · by_contra hraises
    have := (htotal signingSettings 0 superscriptRequest).mpr hraises
    rw [verify_superscriptRequest] at this
    simp at this

end Marketplace.BffSignature
