import TinyAgentOS.Library.Dict
import TinyAgentOS.Library.Transition

/-!
# Signed tickets: minting, validation and single use

A token is a JSON payload, a dot and a 32-byte signature, in base64.  A
validator opens the token, compares the clock with the payload's expiry, and
only then asks the tracker of its kind of ticket whether the payload's id is
new.  The two halves read the clock separately, and other calls may run
between them, so a call in flight is a state of its own here.

The base64, HMAC and JSON functions are the parameters of a codec.

Main results:

- `openToken_mintToken`: a minted token opens to its payload until it expires.
- `JtiTracker.recordIfNew_eq`: what one critical section does.
- `singleUse_of_punctual`: the runs in which no ticket is accepted twice.
-/

namespace TinyAgentOS.Tickets

open Collections Transition

abbrev Bytes := List UInt8

/-- Whole seconds, `int(time.time())`. -/
abbrev Seconds := Int

/-- The JSON values a payload holds. -/
inductive Json where
  | int (value : Int)
  | str (value : String)
  | other
deriving DecidableEq

/-- A decoded JSON object. -/
abbrev Payload := Dict String Json

/-- The functions under the tickets; a failing one gives the text of its exception. -/
structure Codec where
  b64encode : Bytes → String
  b64decode : String → Except String Bytes
  hmacSha256 : Bytes → Bytes → Bytes
  dumps : Payload → Bytes
  loads : Bytes → Except String Payload

/-- What the tickets rely on. -/
structure Codec.Lawful (codec : Codec) : Prop where
  signature_length : ∀ key payload, (codec.hmacSha256 key payload).length = 32
  loads_dumps : ∀ payload, codec.loads (codec.dumps payload) = .ok payload
  /-- Surplus padding is ignored. -/
  b64decode_encode : ∀ raw n,
    codec.b64decode (codec.b64encode raw ++ String.ofList (List.replicate n '=')) = .ok raw
  dumps_ne_nil : ∀ payload, codec.dumps payload ≠ []

/-- The exceptions of a validator. -/
inductive TicketError where
  | valueError (message : String)
  | keyError (key : String)
  | typeError

/-- `data[key]`, used as a string. -/
def strField (data : Payload) (key : String) : Except TicketError String :=
  match data.get? key with
  | none => .error (.keyError key)
  | some (.str value) => .ok value
  | some _ => .error .typeError

/-- `data[key]`, used as an integer. -/
def intField (data : Payload) (key : String) : Except TicketError Int :=
  match data.get? key with
  | none => .error (.keyError key)
  | some (.int value) => .ok value
  | some _ => .error .typeError

/-! ## Tokens -/

/-- `_sign`. -/
def sign (codec : Codec) (payload key : Bytes) : Bytes :=
  codec.hmacSha256 key payload

/-- The separator between payload and signature. -/
def separator : UInt8 := 46

/-- The shared tail of the mint functions. -/
def mintToken (codec : Codec) (data : Payload) (signingKey : Bytes) : String :=
  let payload := codec.dumps data
  codec.b64encode (payload ++ separator :: sign codec payload signingKey)

/-- The padding that completes a token to a multiple of four. -/
def padding (token : String) : String :=
  String.ofList (List.replicate ((4 - token.length % 4) % 4) '=')

def malformed : String := "malformed token: no separator"

/-- Split a token into payload and signature at the fixed offset. -/
def decodeToken (codec : Codec) (token : String) : Except TicketError (Bytes × Bytes) :=
  match codec.b64decode (token ++ padding token) with
  | .error exc => .error (.valueError ("invalid signature: token decode failed — " ++ exc))
  | .ok raw =>
    if raw.length < 34 ∨ raw[raw.length - 33]? ≠ some separator then
      .error (.valueError ("invalid signature: token decode failed — " ++ malformed))
    else .ok (raw.take (raw.length - 33), raw.drop (raw.length - 32))

/-- A payload that passed the expiry test, with the fields read from it. -/
structure Checked where
  data : Payload
  exp : Int
  jti : String
  exp_eq : intField data "exp" = .ok exp
  jti_eq : strField data "jti" = .ok jti

/-- Equal payloads have equal fields. -/
theorem Checked.fields_eq {c c' : Checked} (h : c.data = c'.data) :
    c.exp = c'.exp ∧ c.jti = c'.jti := by
  have hexp := c.exp_eq
  have hjti := c.jti_eq
  rw [h] at hexp hjti
  constructor
  · simpa [hexp] using c'.exp_eq
  · simpa [hjti] using c'.jti_eq

/-- The expiry test, and the id the tracker will be asked about. -/
def checkExpiry (data : Payload) (now : Seconds) : Except TicketError Checked :=
  match hexp : intField data "exp" with
  | .error e => .error e
  | .ok exp =>
    if now > exp then .error (.valueError "ticket expired")
    else
      match hjti : strField data "jti" with
      | .error e => .error e
      | .ok jti => .ok ⟨data, exp, jti, hexp, hjti⟩

/-- A validator up to its call of the tracker. -/
def openToken (codec : Codec) (token : String) (signingKey : Bytes) (now : Seconds) :
    Except TicketError Checked :=
  if signingKey.length < 32 then
    .error (.valueError "signing_key must be at least 32 bytes")
  else
    match decodeToken codec token with
    | .error e => .error e
    | .ok (payload, sig) =>
      if sig ≠ sign codec payload signingKey then .error (.valueError "invalid signature")
      else
        match codec.loads payload with
        | .error exc => .error (.valueError ("invalid signature: payload not JSON — " ++ exc))
        | .ok data => checkExpiry data now

variable {data : Payload}

theorem checkExpiry_of_le {exp : Int} {jti : String} {now : Seconds}
    (hexp : intField data "exp" = .ok exp) (hjti : strField data "jti" = .ok jti)
    (hnow : now ≤ exp) : checkExpiry data now = .ok ⟨data, exp, jti, hexp, hjti⟩ := by
  unfold checkExpiry
  split
  · rename_i e he
    simp [hexp] at he
  · rename_i exp' hexp'
    obtain rfl : exp = exp' := by simpa [hexp] using hexp'
    rw [if_neg (not_lt.mpr hnow)]
    split
    · rename_i e he
      simp [hjti] at he
    · rename_i jti' hjti'
      obtain rfl : jti = jti' := by simpa [hjti] using hjti'
      rfl

/-- The decoder finds the payload and the signature of a minted token. -/
theorem decodeToken_mintToken {codec : Codec} (h : codec.Lawful) (data : Payload)
    (signingKey : Bytes) :
    decodeToken codec (mintToken codec data signingKey) =
      .ok (codec.dumps data, sign codec (codec.dumps data) signingKey) := by
  have hsig : (sign codec (codec.dumps data) signingKey).length = 32 :=
    h.signature_length signingKey (codec.dumps data)
  have hpos : 0 < (codec.dumps data).length := List.length_pos_iff.mpr (h.dumps_ne_nil data)
  unfold decodeToken padding
  rw [mintToken, h.b64decode_encode]
  generalize codec.dumps data = payload at *
  generalize sign codec payload signingKey = sig at *
  have hlen : (payload ++ separator :: sig).length = payload.length + 33 := by
    simp [hsig]
  have hdot : (payload ++ separator :: sig)[payload.length]? = some separator := by
    simp
  simp only [hlen, Nat.add_sub_cancel, hdot]
  rw [if_neg (by simp; omega)]
  simp

/-- A minted token opens to its payload until it expires. -/
theorem openToken_mintToken {codec : Codec} (h : codec.Lawful)
    {signingKey : Bytes} {now : Seconds} {exp : Int} {jti : String}
    (hkey : 32 ≤ signingKey.length) (hexp : intField data "exp" = .ok exp)
    (hjti : strField data "jti" = .ok jti) (hnow : now ≤ exp) :
    openToken codec (mintToken codec data signingKey) signingKey now =
      .ok ⟨data, exp, jti, hexp, hjti⟩ := by
  unfold openToken
  rw [if_neg (by omega), decodeToken_mintToken h]
  simp [h.loads_dumps, checkExpiry_of_le hexp hjti hnow]

/-! ## The tracker -/

/-- The in-memory single-use tracker: id to expiry. -/
structure JtiTracker where
  seenJtis : Dict String Seconds

namespace JtiTracker

/-- A tracker that has seen nothing. -/
def init : JtiTracker := ⟨Dict.empty⟩

/-- Ids whose expiry has passed. -/
def expired (t : JtiTracker) (now : Seconds) : List String :=
  (t.seenJtis.entries.filter fun e => decide (e.2 < now)).map Prod.fst

/-- Remove expired entries. -/
def evict (t : JtiTracker) (now : Seconds) : JtiTracker :=
  ⟨(t.expired now).foldl Dict.pop t.seenJtis⟩

/-- Check and record in one critical section, evicting first. -/
def recordIfNew (t : JtiTracker) (jti : String) (exp now : Seconds) : JtiTracker × Bool :=
  match (t.evict now).seenJtis.get? jti with
  | some _ => (t.evict now, false)
  | none => (⟨(t.evict now).seenJtis.set jti exp⟩, true)

/-- Has an id been recorded?  The question evicts too. -/
def seen (t : JtiTracker) (jti : String) (now : Seconds) : JtiTracker × Bool :=
  (t.evict now, ((t.evict now).seenJtis.get? jti).isSome)

theorem mem_expired {t : JtiTracker} {now : Seconds} {jti : String} :
    jti ∈ t.expired now ↔ ∃ exp, t.seenJtis.get? jti = some exp ∧ exp < now := by
  unfold expired
  simp only [List.mem_map, List.mem_filter, decide_eq_true_eq, Prod.exists, exists_and_right,
    exists_eq_right, Dict.mem_entries_iff]

/-- An eviction keeps exactly the entries whose expiry has not passed. -/
theorem evict_get? {t : JtiTracker} {now : Seconds} {jti : String} {exp : Seconds} :
    (t.evict now).seenJtis.get? jti = some exp ↔
      t.seenJtis.get? jti = some exp ∧ now ≤ exp := by
  unfold evict
  simp only [Dict.get?_foldl_pop, mem_expired]
  split
  · rename_i hexpired
    obtain ⟨exp', hget, hlt⟩ := hexpired
    simp only [reduceCtorEq, false_iff, not_and, hget, Option.some.injEq]
    rintro rfl
    exact not_le.mpr hlt
  · rename_i hkept
    constructor
    · intro hget
      exact ⟨hget, not_lt.mp fun hlt => hkept ⟨exp, hget, hlt⟩⟩
    · exact And.left

/-- A critical section evicts, and writes exactly when the id is new to it. -/
theorem recordIfNew_eq (t : JtiTracker) (jti : String) (exp now : Seconds) :
    (∃ exp', t.seenJtis.get? jti = some exp' ∧ now ≤ exp' ∧
        t.recordIfNew jti exp now = (t.evict now, false)) ∨
      ((t.evict now).seenJtis.get? jti = none ∧
        t.recordIfNew jti exp now = (⟨(t.evict now).seenJtis.set jti exp⟩, true)) := by
  unfold recordIfNew
  cases hget : (t.evict now).seenJtis.get? jti with
  | none => exact .inr ⟨rfl, rfl⟩
  | some exp' =>
    obtain ⟨hold, hle⟩ := evict_get?.mp hget
    exact .inl ⟨exp', hold, hle, rfl⟩

end JtiTracker

/-! ## The two validators -/

/-- A shortcut ticket. -/
structure Ticket where
  agentId : String
  shortcutIdx : Int
  scope : String
  exp : Seconds
  jti : String
  workerUrl : String

/-- A browser-proxy ticket. -/
structure ProxyTicket where
  userId : String
  exp : Seconds

/-- The payload of a shortcut ticket. -/
def Ticket.payload (t : Ticket) : Payload :=
  Dict.empty
    |>.set "agent_id" (.str t.agentId)
    |>.set "shortcut_idx" (.int t.shortcutIdx)
    |>.set "scope" (.str t.scope)
    |>.set "exp" (.int t.exp)
    |>.set "jti" (.str t.jti)
    |>.set "worker_url" (.str t.workerUrl)

/-- The payload of a browser-proxy ticket. -/
def ProxyTicket.payload (t : ProxyTicket) (jti : String) : Payload :=
  Dict.empty
    |>.set "user_id" (.str t.userId)
    |>.set "exp" (.int t.exp)
    |>.set "jti" (.str jti)

/-- Mint a shortcut ticket; `jti` is the random id drawn for it. -/
def mintTicket (codec : Codec) (agentId : String) (shortcutIdx : Int) (scope : String)
    (signingKey : Bytes) (workerUrl : String) (ttl : Int) (now : Seconds) (jti : String) :
    Except TicketError (Ticket × String) :=
  if signingKey.length < 32 then
    .error (.valueError "signing_key must be at least 32 bytes")
  else
    let ticket : Ticket := ⟨agentId, shortcutIdx, scope, now + ttl, jti, workerUrl⟩
    .ok (ticket, mintToken codec ticket.payload signingKey)

/-- Mint a browser-proxy ticket. -/
def mintProxyTicket (codec : Codec) (userId : String) (signingKey : Bytes) (ttl : Int)
    (now : Seconds) (jti : String) : Except TicketError (ProxyTicket × String) :=
  if signingKey.length < 32 then
    .error (.valueError "signing_key must be at least 32 bytes")
  else
    let ticket : ProxyTicket := ⟨userId, now + ttl⟩
    .ok (ticket, mintToken codec (ticket.payload jti) signingKey)

/-- The ticket `validate_ticket` returns. -/
def ticketOf (c : Checked) : Except TicketError Ticket := do
  let agentId ← strField c.data "agent_id"
  let shortcutIdx ← intField c.data "shortcut_idx"
  let scope ← strField c.data "scope"
  let workerUrl ← strField c.data "worker_url"
  return ⟨agentId, shortcutIdx, scope, c.exp, c.jti, workerUrl⟩

/-- The ticket `validate_proxy_ticket` returns. -/
def proxyTicketOf (c : Checked) : Except TicketError ProxyTicket := do
  let userId ← strField c.data "user_id"
  return ⟨userId, c.exp⟩

/-- A validator from its call of the tracker on. -/
def redeem {τ : Type} (build : Checked → Except TicketError τ) (c : Checked)
    (tracker : JtiTracker) (now : Seconds) : JtiTracker × Except TicketError τ :=
  match tracker.recordIfNew c.jti c.exp now with
  | (tracker', false) => (tracker', .error (.valueError "replayed jti"))
  | (tracker', true) => (tracker', build c)

/-- A whole validator call; the clock is read before and inside the critical section. -/
def validate {τ : Type} (build : Checked → Except TicketError τ) (codec : Codec)
    (token : String) (signingKey : Bytes) (tracker : JtiTracker) (now now' : Seconds) :
    JtiTracker × Except TicketError τ :=
  match openToken codec token signingKey now with
  | .error e => (tracker, .error e)
  | .ok c => redeem build c tracker now'

/-- `validate_ticket`. -/
def validateTicket : Codec → String → Bytes → JtiTracker → Seconds → Seconds →
    JtiTracker × Except TicketError Ticket :=
  validate ticketOf

/-- `validate_proxy_ticket`. -/
def validateProxyTicket : Codec → String → Bytes → JtiTracker → Seconds → Seconds →
    JtiTracker × Except TicketError ProxyTicket :=
  validate proxyTicketOf

/-! ## Interleaved calls -/

/-- The two kinds of tickets, each with a tracker of its own. -/
inductive Kind where
  | shortcut
  | proxy
deriving DecidableEq

/-- Does the validator of a kind return its ticket for this payload? -/
def builds (kind : Kind) (c : Checked) : Bool :=
  match kind with
  | .shortcut => (ticketOf c).isOk
  | .proxy => (proxyTicketOf c).isOk

/-- The trackers, the calls between their two clock readings, and the tickets
accepted so far. -/
structure RedeemState where
  clock : Seconds
  trackers : Kind → JtiTracker
  inFlight : List (Kind × Checked)
  accepted : List (Kind × Payload)

/-- Nothing presented yet. -/
def RedeemState.init (clock : Seconds) : RedeemState :=
  ⟨clock, fun _ => JtiTracker.init, [], []⟩

/-- The stretches of the calls; each reads the clock once. -/
inductive RedeemEvent where
  /-- A call runs up to its tracker. -/
  | present (kind : Kind) (token : String) (signingKey : Bytes) (now : Seconds)
  /-- A call in flight runs its critical section and returns. -/
  | redeem (call : Nat) (now : Seconds)
  | seen (kind : Kind) (jti : String) (now : Seconds)

/-- The reading of the clock an event makes. -/
def RedeemEvent.now : RedeemEvent → Seconds
  | .present _ _ _ now => now
  | .redeem _ now => now
  | .seen _ _ now => now

namespace RedeemState

/-- What the critical section of a call leaves. -/
def enter (s : RedeemState) (kind : Kind) (c : Checked) (now : Seconds) : RedeemState :=
  let recorded := (s.trackers kind).recordIfNew c.jti c.exp now
  { s with
    clock := now
    trackers := Function.update s.trackers kind recorded.1
    accepted :=
      if recorded.2 && builds kind c then s.accepted ++ [(kind, c.data)] else s.accepted }

/-- One stretch.  The clock never goes back. -/
def step (codec : Codec) (s : RedeemState) (e : RedeemEvent) : Option RedeemState :=
  if e.now < s.clock then none
  else
    match e with
    | .present kind token signingKey now =>
      match openToken codec token signingKey now with
      | .error _ => some { s with clock := now }
      | .ok c => some { s with clock := now, inFlight := s.inFlight ++ [(kind, c)] }
    | .redeem call now =>
      match s.inFlight[call]? with
      | none => none
      | some (kind, c) =>
        some { s.enter kind c now with inFlight := s.inFlight.eraseIdx call }
    | .seen kind jti now =>
      some
        { s with
          clock := now
          trackers := Function.update s.trackers kind ((s.trackers kind).seen jti now).1 }

/-- No ticket is accepted twice. -/
def SingleUse (s : RedeemState) : Prop :=
  ∀ ticket, s.accepted.count ticket ≤ 1

/-- A call that carries an already accepted ticket gets to the tracker while the
clock is not past the ticket's expiry. -/
def Punctual (s : RedeemState) (e : RedeemEvent) : Prop :=
  match e with
  | .redeem call now =>
    ∀ kind c, s.inFlight[call]? = some (kind, c) → (kind, c.data) ∈ s.accepted → now ≤ c.exp
  | _ => True

instance (s : RedeemState) (e : RedeemEvent) : Decidable (Punctual s e) :=
  match e with
  | .present _ _ _ _ => isTrue trivial
  | .seen _ _ _ => isTrue trivial
  | .redeem call now =>
    match hcall : s.inFlight[call]? with
    | none => isTrue (by simp [Punctual, hcall])
    | some (kind, c) =>
      decidable_of_iff ((kind, c.data) ∈ s.accepted → now ≤ c.exp) (by
        constructor
        · intro h kind' c' heq
          simp only [hcall, Option.some.injEq, Prod.mk.injEq] at heq
          obtain ⟨rfl, rfl⟩ := heq
          exact h
        · intro h
          exact h kind c hcall)

/-- The inductive strengthening: until it expires, an accepted ticket is remembered. -/
structure Invariant (s : RedeemState) : Prop where
  nodup : s.accepted.Nodup
  remembered : ∀ kind (c : Checked), (kind, c.data) ∈ s.accepted → s.clock ≤ c.exp →
    (s.trackers kind).seenJtis.get? c.jti = some c.exp

theorem Invariant.init (clock : Seconds) : Invariant (init clock) where
  nodup := List.nodup_nil
  remembered := by simp [RedeemState.init]

/-- Evicting at a later clock forgets no ticket that is still good. -/
theorem Invariant.evict {s s' : RedeemState} (h : Invariant s) (kind : Kind)
    (hclock : s.clock ≤ s'.clock) (haccepted : s'.accepted = s.accepted) (htrackers : s'.trackers =
      Function.update s.trackers kind ((s.trackers kind).evict s'.clock)) : Invariant s' where
  nodup := haccepted ▸ h.nodup
  remembered := by
    intro kind' c hmem hexp
    have hold := h.remembered kind' c (haccepted ▸ hmem) (hclock.trans hexp)
    rw [htrackers]
    by_cases hkind : kind' = kind
    · subst hkind
      rw [Function.update_self]
      exact JtiTracker.evict_get?.mpr ⟨hold, hexp⟩
    · rwa [Function.update_of_ne hkind]

/-- The critical section of a punctual call keeps the invariant. -/
theorem Invariant.enter {s : RedeemState} (h : Invariant s) {kind : Kind} {c : Checked}
    {now : Seconds} (hclock : s.clock ≤ now)
    (hpunctual : (kind, c.data) ∈ s.accepted → now ≤ c.exp) : Invariant (s.enter kind c now) := by
  rcases (s.trackers kind).recordIfNew_eq c.jti c.exp now with
    ⟨_, _, _, hreplayed⟩ | ⟨hnew, hrecorded⟩
  · refine h.evict kind hclock ?_ ?_ <;> simp [RedeemState.enter, hreplayed]
  · -- an accepted copy would still be in the tracker
    have hfresh : (kind, c.data) ∉ s.accepted := by
      intro hmem
      have hold := h.remembered kind c hmem (hclock.trans (hpunctual hmem))
      have hkept := JtiTracker.evict_get?.mpr ⟨hold, hpunctual hmem⟩
      simp [hnew] at hkept
    have hother : ∀ kind' (c' : Checked), (kind', c'.data) ∈ s.accepted → now ≤ c'.exp →
        ((s.enter kind c now).trackers kind').seenJtis.get? c'.jti = some c'.exp := by
      intro kind' c' hmem hexp
      have hold := h.remembered kind' c' hmem (hclock.trans hexp)
      by_cases hkind : kind' = kind
      · subst hkind
        have hkept := JtiTracker.evict_get?.mpr ⟨hold, hexp⟩
        have hne : c.jti ≠ c'.jti := by
          intro heq
          simp [heq, hkept] at hnew
        simpa [RedeemState.enter, hrecorded, Dict.get?_set_of_ne _ _ hne] using hkept
      · simpa [RedeemState.enter, Function.update_of_ne hkind] using hold
    refine ⟨?_, ?_⟩
    · simp only [RedeemState.enter, hrecorded, Bool.true_and]
      split
      · exact h.nodup.append (List.nodup_singleton _) (by simpa using hfresh)
      · exact h.nodup
    · intro kind' c' hmem hexp
      simp only [RedeemState.enter, hrecorded, Bool.true_and] at hmem
      split at hmem
      · rcases List.mem_append.mp hmem with hold | hself
        · exact hother kind' c' hold hexp
        · obtain ⟨rfl, hdata⟩ := Prod.mk.inj (List.mem_singleton.mp hself)
          obtain ⟨hexpEq, hjtiEq⟩ := Checked.fields_eq hdata
          simp [RedeemState.enter, hrecorded, hexpEq, hjtiEq]
      · exact hother kind' c' hmem hexp

/-- A punctual stretch keeps the invariant. -/
theorem Invariant.step {codec : Codec} {s s' : RedeemState} {e : RedeemEvent}
    (h : Invariant s) (hpunctual : Punctual s e) (hstep : s.step codec e = some s') :
    Invariant s' := by
  unfold RedeemState.step at hstep
  split at hstep
  · contradiction
  rename_i hclock
  replace hclock := not_lt.mp hclock
  cases e with
  | present kind token signingKey now =>
    have hframe : ∀ calls, Invariant { s with clock := now, inFlight := calls } := fun _ =>
      { nodup := h.nodup
        remembered := fun kind' c hmem hexp =>
          h.remembered kind' c hmem (hclock.trans hexp) }
    simp only at hstep
    split at hstep
    · cases hstep
      exact hframe _
    · cases hstep
      exact hframe _
  | redeem call now =>
    simp only at hstep
    split at hstep
    · contradiction
    rename_i kind c hcall
    cases hstep
    have hentered := h.enter hclock (hpunctual kind c hcall)
    exact { hentered with }
  | seen kind jti now =>
    cases hstep
    exact h.evict kind hclock rfl rfl

/-- A late copy is accepted, whether or not its ticket was accepted before: the
critical section itself evicts what remembers it. -/
theorem enter_of_late {s : RedeemState} {kind : Kind} {c : Checked} {now : Seconds}
    (hlate : c.exp < now) (hbuilds : builds kind c)
    (hown : ∀ exp, (s.trackers kind).seenJtis.get? c.jti = some exp → exp = c.exp) :
    (s.enter kind c now).accepted = s.accepted ++ [(kind, c.data)] := by
  rcases (s.trackers kind).recordIfNew_eq c.jti c.exp now with
    ⟨exp, hget, hkept, _⟩ | ⟨_, hrecorded⟩
  · exact absurd (hown exp hget ▸ hkept) (not_le.mpr hlate)
  · simp [enter, hrecorded, hbuilds]

/-- In a punctual run no ticket is accepted twice. -/
theorem singleUse_of_punctual (codec : Codec) (clock : Seconds) (events : List RedeemEvent)
    (s : RedeemState) (hrun : run (step codec) (init clock) events = some s)
    (hguard : Guarded (step codec) Punctual (init clock) events) : SingleUse s := by
  have hinv := invariant_of_guarded_run
    (fun _ _ _ h hpunctual hstep => Invariant.step h hpunctual hstep)
    (Invariant.init clock) hguard hrun
  exact fun ticket => List.nodup_iff_count_le_one.mp hinv.nodup ticket

/-! ### A ticket redeemed twice -/

/-- Key, payload, signature and token of one minted proxy ticket. -/
def sampleKey : Bytes := List.replicate 32 107

def sampleData : Payload :=
  (ProxyTicket.mk "u1" 130).payload "6f1d2c3b4a5948f7a6b5c4d3e2f10918"

def samplePayload : Bytes :=
  [123, 34, 117, 115, 101, 114, 95, 105, 100, 34, 58, 34, 117, 49, 34, 44, 34, 101, 120, 112,
    34, 58, 49, 51, 48, 44, 34, 106, 116, 105, 34, 58, 34, 54, 102, 49, 100, 50, 99, 51, 98, 52,
    97, 53, 57, 52, 56, 102, 55, 97, 54, 98, 53, 99, 52, 100, 51, 101, 50, 102, 49, 48, 57, 49,
    56, 34, 125]

def sampleSignature : Bytes :=
  [177, 46, 106, 142, 180, 215, 4, 145, 246, 187, 101, 158, 156, 156, 225, 112, 41, 32, 49, 238,
    91, 254, 199, 255, 235, 2, 231, 166, 112, 75, 69, 65]

def sampleToken : String :=
  "eyJ1c2VyX2lkIjoidTEiLCJleHAiOjEzMCwianRpIjoiNmYxZDJjM2I0YTU5NDhmN2E2" ++
    "YjVjNGQzZTJmMTA5MTgifS6xLmqOtNcEkfa7ZZ6cnOFwKSAx7lv-x__rAuemcEtFQQ=="

/-- The real codec's values at the sample ticket. -/
def sampleCodec : Codec where
  b64encode raw :=
    if raw = samplePayload ++ separator :: sampleSignature then sampleToken else ""
  b64decode token :=
    if token = sampleToken then .ok (samplePayload ++ separator :: sampleSignature)
    else .error "Incorrect padding"
  hmacSha256 key payload :=
    if key = sampleKey ∧ payload = samplePayload then sampleSignature else List.replicate 32 0
  dumps data := if data = sampleData then samplePayload else []
  loads payload := if payload = samplePayload then .ok sampleData else .error "Expecting value"

/-- Two copies pass the expiry test in the ticket's last second; the second one
reaches the tracker a second later, evicts the id and is accepted again. -/
def lateCopy : List RedeemEvent :=
  [.present .proxy sampleToken sampleKey 129, .present .proxy sampleToken sampleKey 130,
    .redeem 0 130, .redeem 0 131]

theorem ticket_accepted_twice :
    ∃ s, run (step sampleCodec) (init 100) lateCopy = some s ∧ ¬SingleUse s := by
  have htwice : (run (step sampleCodec) (init 100) lateCopy).map (fun s => s.accepted) =
      some [(.proxy, sampleData), (.proxy, sampleData)] := by
    decide +kernel
  obtain ⟨s, hrun, haccepted⟩ := Option.map_eq_some_iff.mp htwice
  refine ⟨s, hrun, ?_⟩
  intro hsingle
  have hcount := hsingle (.proxy, sampleData)
  rw [haccepted] at hcount
  simp at hcount

/-- The same two copies, with the second one in time. -/
theorem singleUse_of_punctual_copy :
    ∃ s, run (step sampleCodec) (init 100)
        [.present .proxy sampleToken sampleKey 129, .present .proxy sampleToken sampleKey 130,
          .redeem 0 130, .redeem 0 130] = some s ∧ SingleUse s := by
  obtain ⟨s, hrun⟩ := Option.isSome_iff_exists.mp
    (by decide +kernel : (run (step sampleCodec) (init 100)
        [.present .proxy sampleToken sampleKey 129, .present .proxy sampleToken sampleKey 130,
          .redeem 0 130, .redeem 0 130]).isSome)
  exact ⟨s, hrun, singleUse_of_punctual _ _ _ _ hrun (by decide +kernel)⟩

end RedeemState

end TinyAgentOS.Tickets
