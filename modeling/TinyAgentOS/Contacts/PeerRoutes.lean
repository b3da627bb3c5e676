import TinyAgentOS.Contacts.ContactsStore
import TinyAgentOS.Library.Json
import TinyAgentOS.Registry.CanonicalId

/-!
# The peer routes

A request of a peer is authenticated by its token; the envelope that it brings must come from that
contact, be meant for this instance, be fresh and carry a valid signature before its nonce is
recorded.

Main results:

- `find_of_authenticatePeer`: a request is taken for one of a contact that its token is looked up
  to.
- `timestamp_of_verifyEnvelope`: how old an envelope is that is taken for fresh.
- `beginRecord_eq_ok`: the nonce that is recorded for an envelope.
-/

namespace TinyAgentOS.Contacts

open Collections Connections Json

/-! ## Requests and envelopes -/

/-- The fields of an envelope by their names. -/
abbrev Envelope := Dict String Value

/-- What the routes take from elsewhere: the hash of the tokens, the doubles of the texts of floats
(`none` if not finite) and their texts in a column, the length of the compact text of an
envelope, and whether a key has signed the canonical text of an envelope. -/
structure Host where
  hashToken : String → String
  floatValue : FloatText → Option ℚ
  floatColumn : FloatText → String
  compactSize : Envelope → Nat
  verifySignature : String → Envelope → Value → Bool

inductive Endpoint where
  | inbox
  | chat
deriving DecidableEq

/-- The header `Content-Length`, read as a number. -/
inductive ContentLength where
  | invalid
  | bytes (n : Int)
deriving DecidableEq

/-- A request, with the verdict of the rate limiter. -/
structure Request where
  endpoint : Endpoint
  authorization : String
  withinRate : Bool
  contentLength : Option ContentLength
  envelope : Envelope

inductive EnvelopeError where
  | missingField (field : String)
  | nonFinite
  | fromFuture
  | tooOld
  | unexpectedKind

/-- Why a request is refused, or that an exception is left to the server; the texts are not
modelled. -/
inductive Rejection where
  | bearerRequired
  | emptyToken
  | invalidToken
  | rateLimited
  | invalidContentLength
  | requestTooLarge
  | envelopeTooLarge
  | kindNotChat
  | fromMismatch
  | notConfigured
  | toMismatch
  | invalidEnvelope (error : EnvelopeError)
  | contactNotFound
  | invalidSignature
  | missingNonce
  | nonceReplay
  | internalError

/-- `status_code`. -/
def Rejection.statusCode : Rejection → Nat
  | .bearerRequired => 401
  | .emptyToken => 401
  | .invalidToken => 401
  | .rateLimited => 429
  | .invalidContentLength => 400
  | .requestTooLarge => 413
  | .envelopeTooLarge => 413
  | .kindNotChat => 400
  | .fromMismatch => 403
  | .notConfigured => 503
  | .toMismatch => 403
  | .invalidEnvelope _ => 400
  | .contactNotFound => 404
  | .invalidSignature => 403
  | .missingNonce => 400
  | .nonceReplay => 409
  | .internalError => 500

/-- `_MAX_ENVELOPE_BYTES`. -/
def maxEnvelopeBytes : Nat := 32 * 1024

/-- `envelope.get(field, "")`. -/
def Envelope.get (envelope : Envelope) (field : String) : Value :=
  (Dict.get? envelope field).getD (.str "")

/-- `value == text`. -/
def isText (text : String) : Value → Bool
  | .str s => decide (s = text)
  | _ => false

/-! ## Tokens -/

/-- `_authenticate_peer`. -/
def authenticatePeer (hashToken : String → String) (t : Tables) (authorization : String) :
    Except Rejection String :=
  let auth := authorization.toList
  if "bearer ".toList.isPrefixOf (auth.map Char.toLower) then
    let presented := Registry.strip Registry.isSpace (auth.drop 7)
    if presented = [] then .error .emptyToken
    else
      match t.findContactByInboundToken hashToken (String.ofList presented) with
      | none => .error .invalidToken
      | some row => .ok row.contactId
  else .error .bearerRequired

variable {contactId : String} {host : Host} {now : ℚ} {request : Request}

theorem find_of_authenticatePeer {hashToken : String → String} {t : Tables} {authorization : String}
    (h : authenticatePeer hashToken t authorization = .ok contactId) :
    ∃ token row, t.findContactByInboundToken hashToken token = some row ∧
      row.contactId = contactId := by
  simp only [authenticatePeer] at h
  split at h
  · split at h
    · contradiction
    · split at h
      · contradiction
      · rename_i row hfound
        cases h
        exact ⟨_, row, hfound, rfl⟩
  · contradiction

/-! ## Freshness -/

/-- A timestamp: not a finite number, an integer that no double holds, or a number. -/
inductive Timestamp where
  | nonFinite
  | overflow
  | finite (ts : ℚ)

/-- `isinstance(ts, (int, float))` and `math.isfinite(ts)`, which raises for a large
integer. -/
def Host.timestamp (host : Host) : Value → Timestamp
  | .const .true => .finite 1
  | .const .false => .finite 0
  | .num (.int n) => if n.natAbs < 2 ^ 1024 - 2 ^ 970 then .finite n else .overflow
  | .num (.float x) =>
    match host.floatValue x with
    | none => .nonFinite
    | some ts => .finite ts
  | _ => .nonFinite

/-- The fields that `verify_envelope` requires. -/
def requiredFields : List String := ["from", "to", "kind", "ts", "nonce", "sig"]

/-- The default of `max_age_seconds`. -/
def maxAgeSeconds : ℚ := 300

inductive Verdict where
  | ok
  | invalid (error : EnvelopeError)
  | raised

/-- `verify_envelope`, at a time. -/
def Host.verifyEnvelope (host : Host) (envelope : Envelope) (expectedKind : Option String)
    (now : ℚ) : Verdict :=
  match requiredFields.find? fun field => (Dict.get? envelope field).isNone with
  | some field => .invalid (.missingField field)
  | none =>
    match host.timestamp (envelope.get "ts") with
    | .nonFinite => .invalid .nonFinite
    | .overflow => .raised
    | .finite ts =>
      let age := now - ts
      if age < -30 then .invalid .fromFuture
      else if maxAgeSeconds + 30 < age then .invalid .tooOld
      else
        match expectedKind with
        | none => .ok
        | some kind =>
          if isText kind (envelope.get "kind") then .ok else .invalid .unexpectedKind

/-- A fresh envelope has a timestamp, which is not long before the time and not long after. -/
theorem timestamp_of_verifyEnvelope {envelope : Envelope} {expectedKind : Option String}
    (h : host.verifyEnvelope envelope expectedKind now = .ok) :
    ∃ ts, host.timestamp (envelope.get "ts") = .finite ts ∧ ts - 30 ≤ now ∧
      now ≤ ts + 330 := by
  unfold Host.verifyEnvelope at h
  split at h
  · contradiction
  split at h
  · contradiction
  · contradiction
  · rename_i ts hts
    by_cases hfuture : now - ts < -30
    · rw [if_pos hfuture] at h
      contradiction
    · by_cases hold : maxAgeSeconds + 30 < now - ts
      · rw [if_neg hfuture, if_pos hold] at h
        contradiction
      · unfold maxAgeSeconds at hold
        refine ⟨ts, hts, ?_, ?_⟩
        · linarith
        · linarith

/-! ## Nonces -/

/-- The truth value of a nonce. -/
def Host.truthy (host : Host) : Value → Bool
  | .const .null => false
  | .const .false => false
  | .const _ => true
  | .num (.int n) => decide (n ≠ 0)
  | .num (.float x) => decide (host.floatValue x ≠ some 0)
  | .str s => decide (s ≠ "")
  | .arr items => !items.isEmpty
  | .obj fields => !fields.isEmpty

/-- A value as a parameter of a column of text. -/
def Host.bind (host : Host) : Value → Binding
  | .const .null => .null
  | .const .true => .text "1"
  | .const .false => .text "0"
  | .const .nan => .null
  | .const .infinity => .text "Inf"
  | .const .negInfinity => .text "-Inf"
  | .num (.int n) =>
    if -2 ^ 63 ≤ n ∧ n < 2 ^ 63 then .text (String.ofList (intText n)) else .unsupported
  | .num (.float x) =>
    match host.floatValue x with
    | none => .text (if x.neg then "-Inf" else "Inf")
    | some _ => .text (host.floatColumn x)
  | .str s => .text s
  | .arr _ => .unsupported
  | .obj _ => .unsupported

/-- `verify_envelope_signature`. -/
def Host.verifyEnvelopeSignature (host : Host) (envelope : Envelope) (senderEd25519Pub : String) :
    Bool :=
  match Dict.get? envelope "sig" with
  | none => false
  | some (.const .null) => false
  | some sig => host.verifySignature senderEd25519Pub (Dict.pop envelope "sig") sig

/-! ## Handlers -/

/-- The header gives more bytes than an envelope may have. -/
def tooManyBytes : Option ContentLength → Bool
  | some (.bytes n) => decide ((maxEnvelopeBytes : Int) < n)
  | _ => false

/-- The checks of `peer_inbox` and `peer_chat` before the local identity is read. -/
def Host.checkRequest (host : Host) (request : Request) (contactId : String) :
    Except Rejection Unit :=
  if request.withinRate = false then .error .rateLimited
  else if request.contentLength = some .invalid then .error .invalidContentLength
  else if tooManyBytes request.contentLength then .error .requestTooLarge
  else if maxEnvelopeBytes < host.compactSize request.envelope then .error .envelopeTooLarge
  else if request.endpoint = .chat ∧ isText "chat" (request.envelope.get "kind") = false then
    .error .kindNotChat
  else if isText contactId (request.envelope.get "from") then .ok ()
  else .error .fromMismatch

/-- `expected_kind`. -/
def Endpoint.expectedKind : Endpoint → Option String
  | .inbox => none
  | .chat => some "chat"

/-- The checks against the local identity and the time. -/
def Host.checkEnvelope (host : Host) (request : Request) (localId : Option String) (now : ℚ) :
    Except Rejection Unit :=
  match localId with
  | none => .error .notConfigured
  | some localId =>
    if isText localId (request.envelope.get "to") then
      match host.verifyEnvelope request.envelope request.endpoint.expectedKind now with
      | .ok => .ok ()
      | .invalid error => .error (.invalidEnvelope error)
      | .raised => .error .internalError
    else .error .toMismatch

/-- The check of the signature against the key of the contact, and the call of
`record_nonce`. -/
def Host.beginRecord (host : Host) (t : Tables) (request : Request) (contactId : String)
    (now : ℚ) : Except Rejection Call :=
  match t.contacts.get? contactId with
  | none => .error .contactNotFound
  | some contact =>
    if host.verifyEnvelopeSignature request.envelope contact.ed25519Pub then
      if host.truthy (request.envelope.get "nonce") then
        .ok (Operation.begin host.hashToken now (.recordNonce
          (host.bind (request.envelope.get "nonce")) contactId
          (host.bind (request.envelope.get "kind"))))
      else .error .missingNonce
    else .error .invalidSignature

theorem isText_eq_true {text : String} {v : Value} (h : isText text v = true) : v = .str text := by
  cases v with
  | str s => exact congrArg Value.str (of_decide_eq_true h)
  | _ => contradiction

/-- A request that passes the checks brings an envelope of its contact. -/
theorem from_of_checkRequest (h : host.checkRequest request contactId = .ok ()) :
    request.envelope.get "from" = .str contactId := by
  unfold Host.checkRequest at h
  iterate 5
    split at h
    · contradiction
  split at h
  · rename_i hfrom
    exact isText_eq_true hfrom
  · contradiction

/-- An envelope that passes the checks is fresh. -/
theorem verifyEnvelope_of_checkEnvelope {localId : Option String}
    (h : host.checkEnvelope request localId now = .ok ()) :
    host.verifyEnvelope request.envelope request.endpoint.expectedKind now = .ok := by
  unfold Host.checkEnvelope at h
  split at h
  · contradiction
  split at h
  · split at h
    · assumption
    · contradiction
    · contradiction
  · contradiction

/-- The call that is begun records the nonce of the envelope. -/
theorem beginRecord_eq_ok {t : Tables} {call : Call}
    (h : host.beginRecord t request contactId now = .ok call) :
    call = .pruning ⟨host.bind (request.envelope.get "nonce"), contactId,
      host.bind (request.envelope.get "kind"), now⟩ := by
  unfold Host.beginRecord at h
  split at h
  · contradiction
  split at h
  · split at h
    · cases h
      rfl
    · contradiction
  · contradiction

end TinyAgentOS.Contacts
