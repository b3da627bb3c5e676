import TinyAgentOS.Contacts.PeerRoutes
import TinyAgentOS.Library.Transition

/-!
# Deliveries of envelopes

A request to `/api/peer/inbox` or `/api/peer/chat` is a process that takes its statements
among those of other requests and of other callers of the store, at times that do not decrease.

Main results:

- `moves_of_next`: the steps that a delivery takes.
- `Moves.pends` and `Moves.claims`: a delivery passes the checks only while its envelope is fresh,
  and holds its nonce from the insertion on.
-/

namespace TinyAgentOS.Contacts
namespace Deliveries

open Collections Connections Json

/-! ## Phases -/

/-- A delivery, by what it comes to next; `rejected` with the answer. -/
inductive Phase where
  | authenticating
  | resolving (contactId : String)
  | gettingContact (contactId : String)
  | recording (contactId : String) (call : Call)
  | marking (call : Call)
  | dispatched
  | rejected (rejection : Rejection)

/-- A delivery, or another call of the store. -/
inductive Process where
  | method (call : Call)
  | delivery (request : Request) (phase : Phase)

/-- How a delivery goes on after a statement of `record_nonce`. -/
def afterRecord (host : Host) (contactId : String) (now : ℚ) : Call → Phase
  | .returned (.flag true) =>
    .marking (Operation.begin host.hashToken now (.markPeerSeen contactId))
  | .returned _ => .rejected .nonceReplay
  | .failed => .rejected .internalError
  | call => .recording contactId call

/-- How a delivery goes on after a statement of `mark_peer_seen`. -/
def afterMark : Call → Phase
  | .returned _ => .dispatched
  | .failed => .rejected .internalError
  | call => .marking call

/-- The next statement of a delivery, or the reading of the local identity, at a time. -/
def Phase.next (host : Host) (t : Tables) (request : Request) (localId : Option String) (now : ℚ) :
    Phase → Option (Effect Tables × Phase)
  | .authenticating =>
    match authenticatePeer host.hashToken t request.authorization with
    | .error rejection => some (.read, .rejected rejection)
    | .ok contactId =>
      match host.checkRequest request contactId with
      | .error rejection => some (.read, .rejected rejection)
      | .ok () => some (.read, .resolving contactId)
  | .resolving contactId =>
    match host.checkEnvelope request localId now with
    | .error rejection => some (.read, .rejected rejection)
    | .ok () => some (.read, .gettingContact contactId)
  | .gettingContact contactId =>
    match host.beginRecord t request contactId now with
    | .error rejection => some (.read, .rejected rejection)
    | .ok call => some (.read, .recording contactId call)
  | .recording contactId call =>
    match call.next host.hashToken t with
    | none => none
    | some (e, call') => some (e, afterRecord host contactId now call')
  | .marking call =>
    match call.next host.hashToken t with
    | none => none
    | some (e, call') => some (e, afterMark call')
  | .dispatched => none
  | .rejected _ => none

/-- The next statement of a process. -/
def Process.next (host : Host) (t : Tables) (localId : Option String) (now : ℚ) :
    Process → Option (Effect Tables × Process)
  | .method call =>
    match call.next host.hashToken t with
    | none => none
    | some (e, call') => some (e, .method call')
  | .delivery request phase =>
    match phase.next host t request localId now with
    | none => none
    | some (e, phase') => some (e, .delivery request phase')

/-! ## Runs -/

structure State where
  connection : Session Tables
  clock : ℚ
  processes : Dict Nat Process

inductive Event where
  | call (id : Nat) (operation : Operation) (now : ℚ)
  | deliver (id : Nat) (request : Request) (now : ℚ)
  | go (id : Nat) (localId : Option String) (now : ℚ)

namespace State

/-- No process has begun. -/
def start (t : Tables) (clock : ℚ) : State := ⟨Session.opened t, clock, Dict.empty⟩

/-- A process begins, under a number that no process has. -/
def spawn (s : State) (id : Nat) (p : Process) (now : ℚ) : Option State :=
  if now < s.clock ∨ (s.processes.get? id).isSome then none
  else some { s with clock := now, processes := s.processes.set id p }

/-- A process goes on. -/
def advance (host : Host) (s : State) (id : Nat) (localId : Option String) (now : ℚ) :
    Option State :=
  if now < s.clock then none
  else
    match s.processes.get? id with
    | none => none
    | some p =>
      match p.next host s.connection.current localId now with
      | none => none
      | some (e, p') =>
        some { connection := s.connection.take e, clock := now,
               processes := s.processes.set id p' }

def step (host : Host) (s : State) : Event → Option State
  | .call id operation now => s.spawn id (.method (operation.begin host.hashToken now)) now
  | .deliver id request now => s.spawn id (.delivery request .authenticating) now
  | .go id localId now => s.advance host id localId now

end State

/-! ## What a delivery has done -/

/-- The delivery has not come to `record_nonce`. -/
def Phase.beforeNonce : Phase → Bool
  | .authenticating => true
  | .resolving _ => true
  | .gettingContact _ => true
  | _ => false

/-- The envelope was found fresh, and its nonce is not inserted. -/
def Phase.pends : Phase → Bool
  | .gettingContact _ => true
  | .recording _ (.pruning _) => true
  | .recording _ (.committingPrune _) => true
  | .recording _ (.inserting _) => true
  | _ => false

/-- The delivery is past `record_nonce`, which has told it that the nonce is new. -/
def Phase.acts : Phase → Bool
  | .marking _ => true
  | .dispatched => true
  | _ => false

/-- The delivery has inserted the nonce. -/
def Phase.claims : Phase → Bool
  | .recording _ (.committingNonce _) => true
  | phase => phase.acts

/-- The call of the store that a process stands in. -/
def Process.call? : Process → Option Call
  | .method call => some call
  | .delivery _ (.recording _ call) => some call
  | .delivery _ (.marking call) => some call
  | _ => none

/-- The key of a nonce that can be inserted. -/
def nonceKey? (contactId : String) : Binding → Binding → Option NonceKey
  | .text kind, .text nonce => some ⟨contactId, kind, nonce⟩
  | _, _ => none

/-- The key of the nonce of an envelope. -/
def keyOf (host : Host) (envelope : Envelope) : Option NonceKey :=
  match envelope.get "from" with
  | .str contactId =>
    nonceKey? contactId (host.bind (envelope.get "kind")) (host.bind (envelope.get "nonce"))
  | _ => none

/-- A nonce is inserted under a key that is free. -/
theorem insertNonce_key {t t' : Tables} {row : NonceRow} (h : t.insertNonce row = .ok t') :
    ∃ key, nonceKey? row.contactId row.kind row.nonce = some key ∧ t.nonces.get? key = none ∧
      t' = { t with nonces := t.nonces.set key row.seenAt } := by
  obtain ⟨kind, nonce, hkind, hnonce, hfree, rfl⟩ := insertNonce_eq_ok h
  refine ⟨⟨row.contactId, kind, nonce⟩, ?_, hfree, rfl⟩
  rw [hkind, hnonce]
  rfl

/-- The row that `record_nonce` is to insert for an envelope. -/
def rowOf (host : Host) (envelope : Envelope) (contactId : String) (now : ℚ) : NonceRow :=
  ⟨host.bind (envelope.get "nonce"), contactId, host.bind (envelope.get "kind"), now⟩

/-- A call of `record_nonce` that has not returned, with the row that it has to insert. -/
inductive Records (row : NonceRow) : Call → Prop
  | pruning : Records row (.pruning row)
  | committingPrune : Records row (.committingPrune row)
  | inserting : Records row (.inserting row)
  | committingNonce : Records row (.committingNonce row)
  | rollingBack : Records row (.rollingBack row)

/-- A call of `mark_peer_seen` that has not returned. -/
inductive Marks : Call → Prop
  | writing (contactId : String) (now : ℚ) : Marks (.writing (.setLastSeen contactId now) [])
  | committing : Marks .committing

/-- What a delivery relies on: whose the envelope is, that it was not from the future, and the row
that is to be inserted for it. -/
def Phase.Proper (host : Host) (clock : ℚ) (envelope : Envelope) : Phase → Prop
  | .resolving contactId => envelope.get "from" = .str contactId
  | .gettingContact contactId =>
    envelope.get "from" = .str contactId ∧
      ∃ ts, host.timestamp (envelope.get "ts") = .finite ts ∧ ts - 30 ≤ clock
  | .recording contactId call =>
    envelope.get "from" = .str contactId ∧
      ∃ seenAt ts, Records (rowOf host envelope contactId seenAt) call ∧ seenAt ≤ clock ∧
        host.timestamp (envelope.get "ts") = .finite ts ∧ ts - 30 ≤ seenAt
  | .marking call => Marks call
  | _ => True

/-! ## Steps of a delivery -/

/-- The steps of a delivery at a time on the tables that it sees. -/
inductive Moves (host : Host) (t : Tables) (envelope : Envelope) (now : ℚ) :
    Phase → Effect Tables → Phase → Prop
  | reject (phase : Phase) (rejection : Rejection) :
      Moves host t envelope now phase .read (.rejected rejection)
  | accept (contactId : String) (hfrom : envelope.get "from" = .str contactId) :
      Moves host t envelope now .authenticating .read (.resolving contactId)
  | check (contactId : String) (ts : ℚ) (hts : host.timestamp (envelope.get "ts") = .finite ts)
      (hfuture : ts - 30 ≤ now) (hold : now ≤ ts + 330) :
      Moves host t envelope now (.resolving contactId) .read (.gettingContact contactId)
  | begin (contactId : String) :
      Moves host t envelope now (.gettingContact contactId) .read
        (.recording contactId (.pruning (rowOf host envelope contactId now)))
  | prune (contactId : String) (row : NonceRow) :
      Moves host t envelope now (.recording contactId (.pruning row))
        (.write (t.prune (row.seenAt - nonceMaxAgeSecs)))
        (.recording contactId (.committingPrune row))
  | commitPrune (contactId : String) (row : NonceRow) :
      Moves host t envelope now (.recording contactId (.committingPrune row)) .commit
        (.recording contactId (.inserting row))
  | insert (contactId : String) (row : NonceRow) (t' : Tables)
      (hinsert : t.insertNonce row = .ok t') :
      Moves host t envelope now (.recording contactId (.inserting row)) (.write t')
        (.recording contactId (.committingNonce row))
  | duplicate (contactId : String) (row : NonceRow) :
      Moves host t envelope now (.recording contactId (.inserting row)) .read
        (.recording contactId (.rollingBack row))
  | commitNonce (contactId : String) (row : NonceRow) :
      Moves host t envelope now (.recording contactId (.committingNonce row)) .commit
        (.marking (.writing (.setLastSeen contactId now) []))
  | rollBack (contactId : String) (row : NonceRow) :
      Moves host t envelope now (.recording contactId (.rollingBack row)) .rollback
        (.rejected .nonceReplay)
  | mark (call : Call) (t' : Tables) (hnonces : t'.nonces = t.nonces) :
      Moves host t envelope now (.marking call) (.write t') (.marking .committing)
  | finish : Moves host t envelope now (.marking .committing) .commit .dispatched

section Steps

variable {host : Host} {t : Tables} {now clock : ℚ} {e : Effect Tables}

variable {phase phase' : Phase} {envelope : Envelope}

/-- A delivery takes one of the steps. -/
theorem moves_of_next {request : Request} {localId : Option String}
    (h : phase.Proper host clock request.envelope)
    (hnext : phase.next host t request localId now = some (e, phase')) :
    Moves host t request.envelope now phase e phase' := by
  cases phase with
  | authenticating =>
    simp only [Phase.next] at hnext
    split at hnext
    · cases hnext
      exact .reject _ _
    · split at hnext
      · cases hnext
        exact .reject _ _
      · rename_i hrequest
        cases hnext
        exact .accept _ (from_of_checkRequest hrequest)
  | resolving contactId =>
    simp only [Phase.next] at hnext
    split at hnext
    · cases hnext
      exact .reject _ _
    · rename_i hcheck
      cases hnext
      obtain ⟨ts, hts, hfuture, hold⟩ :=
        timestamp_of_verifyEnvelope (verifyEnvelope_of_checkEnvelope hcheck)
      exact .check contactId ts hts hfuture hold
  | gettingContact contactId =>
    simp only [Phase.next] at hnext
    split at hnext
    · cases hnext
      exact .reject _ _
    · rename_i call hbegin
      cases hnext
      rw [beginRecord_eq_ok hbegin]
      exact .begin contactId
  | recording contactId call =>
    obtain ⟨_, seenAt, ts, hrecords, _⟩ := h
    simp only [Phase.next] at hnext
    cases hrecords with
    | pruning =>
      cases hnext
      exact .prune contactId _
    | committingPrune =>
      cases hnext
      exact .commitPrune contactId _
    | inserting =>
      simp only [Call.next] at hnext
      cases hinsert : t.insertNonce (rowOf host request.envelope contactId seenAt) with
      | ok t' =>
        rw [hinsert] at hnext
        cases hnext
        exact .insert contactId _ t' hinsert
      | error error =>
        rw [hinsert] at hnext
        cases error with
        | integrityError =>
          cases hnext
          exact .duplicate contactId _
        | unsupportedType =>
          cases hnext
          exact .reject _ _
    | committingNonce =>
      cases hnext
      exact .commitNonce contactId _
    | rollingBack =>
      cases hnext
      exact .rollBack contactId _
  | marking call =>
    simp only [Phase.next] at hnext
    cases h with
    | writing contactId seenAt =>
      cases hnext
      exact .mark _ _ rfl
    | committing =>
      cases hnext
      exact .finish
  | dispatched | rejected => contradiction

theorem Phase.Proper.later {clock' : ℚ}
    (h : phase.Proper host clock envelope) (hle : clock ≤ clock') :
    phase.Proper host clock' envelope := by
  cases phase with
  | gettingContact contactId =>
    obtain ⟨hfrom, ts, hts, hfuture⟩ := h
    exact ⟨hfrom, ts, hts, hfuture.trans hle⟩
  | recording contactId call =>
    obtain ⟨hfrom, seenAt, ts, hrecords, hseen, hrest⟩ := h
    exact ⟨hfrom, seenAt, ts, hrecords, hseen.trans hle, hrest⟩
  | _ => exact h

section

variable (hmoves : Moves host t envelope now phase e phase')
include hmoves

/-- A step keeps what the delivery relies on. -/
theorem Moves.proper (h : phase.Proper host clock envelope)
    (hle : clock ≤ now) : phase'.Proper host now envelope := by
  cases hmoves with
  | reject | rollBack | finish => trivial
  | accept contactId hfrom => exact hfrom
  | check contactId ts hts hfuture hold => exact ⟨h, ts, hts, hfuture⟩
  | begin contactId =>
    obtain ⟨hfrom, ts, hts, hfuture⟩ := h
    exact ⟨hfrom, now, ts, .pruning, le_rfl, hts, hfuture.trans hle⟩
  | prune contactId row =>
    obtain ⟨hfrom, seenAt, ts, hrecords, hseen, hts⟩ := h
    cases hrecords
    exact ⟨hfrom, seenAt, ts, .committingPrune, hseen.trans hle, hts⟩
  | commitPrune contactId row =>
    obtain ⟨hfrom, seenAt, ts, hrecords, hseen, hts⟩ := h
    cases hrecords
    exact ⟨hfrom, seenAt, ts, .inserting, hseen.trans hle, hts⟩
  | insert contactId row t' hinsert =>
    obtain ⟨hfrom, seenAt, ts, hrecords, hseen, hts⟩ := h
    cases hrecords
    exact ⟨hfrom, seenAt, ts, .committingNonce, hseen.trans hle, hts⟩
  | duplicate contactId row =>
    obtain ⟨hfrom, seenAt, ts, hrecords, hseen, hts⟩ := h
    cases hrecords
    exact ⟨hfrom, seenAt, ts, .rollingBack, hseen.trans hle, hts⟩
  | commitNonce contactId row => exact .writing contactId now
  | mark call t' hnonces => exact .committing

/-- A delivery passes the checks only while its envelope is fresh. -/
theorem Moves.pends (hpends : phase'.pends = true) : phase.pends = true ∨
      ∃ ts, host.timestamp (envelope.get "ts") = .finite ts ∧ now ≤ ts + 330 := by
  cases hmoves with
  | check contactId ts hts hfuture hold => exact Or.inr ⟨ts, hts, hold⟩
  | begin | prune | commitPrune => exact Or.inl rfl
  | _ => contradiction

/-- A delivery holds its nonce from the insertion on. -/
theorem Moves.claims (hclaims : phase'.claims = true) : phase.claims = true ∨
      ∃ contactId row t', phase = .recording contactId (.inserting row) ∧
        phase' = .recording contactId (.committingNonce row) ∧ e = .write t' ∧
        t.insertNonce row = .ok t' := by
  cases hmoves with
  | insert contactId row t' hinsert => exact Or.inr ⟨contactId, row, t', rfl, rfl, rfl, hinsert⟩
  | commitNonce | mark | finish => exact Or.inl rfl
  | _ => contradiction

/-- A delivery acts once its nonce is committed. -/
theorem Moves.acts (hacts : phase'.acts = true) : phase.acts = true ∨
      ∃ contactId row, phase = .recording contactId (.committingNonce row) ∧ e = .commit := by
  cases hmoves with
  | commitNonce contactId row => exact Or.inr ⟨contactId, row, rfl, rfl⟩
  | mark | finish => exact Or.inl rfl
  | _ => contradiction

end

end Steps

end Deliveries
end TinyAgentOS.Contacts
