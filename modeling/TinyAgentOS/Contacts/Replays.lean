import TinyAgentOS.Contacts.Deliveries

/-!
# Replayed envelopes

An envelope that was accepted is kept out by its nonce as long as the nonce is there, and by its age
afterwards: nonces are kept for 600 seconds, and an envelope is fresh for 330 seconds at most after
its timestamp, which is 30 seconds at most after its first acceptance.  This needs that no rollback
takes back a nonce that is about to be committed, and that no nonce is removed between the check of
the age and the insertion of another delivery of the envelope.

Main results:

- `expired_of_pruned`: a nonce that is removed belongs to an envelope that is too old.
- `step_sound`: a step keeps accepted envelopes out.
- `atMostOnce_of_guarded_run`: an envelope is acted on at most once.
-/

namespace TinyAgentOS.Contacts
namespace Deliveries

open Collections Connections Json Transition

/-- What a process relies on: a delivery on its phase, and a call that removes old nonces on the
time it began at. -/
def Process.Proper (host : Host) (clock : ℚ) : Process → Prop
  | .method call => ∀ row, call = .pruning row → row.seenAt ≤ clock
  | .delivery request phase => phase.Proper host clock request.envelope

/-- The nonce of the envelope is there, with a time from which the envelope's own is not far. -/
def Recorded (host : Host) (envelope : Envelope) (t : Tables) : Prop :=
  ∃ key ts seenAt, keyOf host envelope = some key ∧
    host.timestamp (envelope.get "ts") = .finite ts ∧ t.nonces.get? key = some seenAt ∧
    ts - 30 ≤ seenAt

section Processes

variable {host : Host} {t t' : Tables} {p p' : Process} {localId : Option String} {now clock : ℚ}
  {e : Effect Tables}

theorem Process.Proper.later {clock' : ℚ} (h : p.Proper host clock) (hle : clock ≤ clock') :
    p.Proper host clock' := by
  cases p with
  | method call => exact fun row hcall => (h row hcall).trans hle
  | delivery request phase => exact Phase.Proper.later h hle

variable {row : NonceRow}

/-- A call does not come back to its first statement. -/
theorem ne_pruning_of_next {hashToken : String → String} {call call' : Call}
    (h : call.next hashToken t = some (e, call')) : call' ≠ .pruning row := by
  rintro rfl
  cases call with
  | writing next rest =>
    simp only [Call.next] at h
    split at h
    · cases h
    · cases rest <;> cases h
  | inserting row' =>
    simp only [Call.next] at h
    split at h <;> cases h
  | returned | failed => contradiction
  | _ => cases h

/-- How a process goes on: another call by its next statement, a delivery by one of its steps. -/
theorem next_cases (h : p.Proper host clock) (hnext : p.next host t localId now = some (e, p')) :
    (∃ call call', p = .method call ∧ p' = .method call' ∧
      call.next host.hashToken t = some (e, call')) ∨
      ∃ request phase phase', p = .delivery request phase ∧ p' = .delivery request phase' ∧
        Moves host t request.envelope now phase e phase' := by
  cases p with
  | method call =>
    simp only [Process.next] at hnext
    split at hnext
    · contradiction
    rename_i effect call' hcall
    cases hnext
    exact Or.inl ⟨call, call', rfl, rfl, hcall⟩
  | delivery request phase =>
    simp only [Process.next] at hnext
    split at hnext
    · contradiction
    rename_i effect phase' hphase
    cases hnext
    exact Or.inr ⟨request, phase, phase', rfl, rfl, moves_of_next h hphase⟩

theorem next_proper (h : p.Proper host clock) (hle : clock ≤ now)
    (hnext : p.next host t localId now = some (e, p')) : p'.Proper host now := by
  rcases next_cases h hnext with
    ⟨call, call', rfl, rfl, hcall⟩ | ⟨request, phase, phase', rfl, rfl, hmoves⟩
  · exact fun row heq => absurd heq (ne_pruning_of_next hcall)
  · exact hmoves.proper h hle

/-- A process leaves the nonces alone, removes old ones or adds one. -/
theorem nonces_of_next (h : p.Proper host clock)
    (hnext : p.next host t localId now = some (.write t', p')) :
    t'.nonces = t.nonces ∨
      (∃ row, p.call? = some (.pruning row) ∧ t' = t.prune (row.seenAt - nonceMaxAgeSecs)) ∨
      ∃ row, t.insertNonce row = .ok t' := by
  rcases next_cases h hnext with
    ⟨call, call', rfl, rfl, hcall⟩ | ⟨request, phase, phase', rfl, rfl, hmoves⟩
  · rcases write_cases hcall with
      ⟨next, rest, rfl, hrun, _⟩ | ⟨row, rfl, rfl, _⟩ | ⟨row, rfl, hinsert, _⟩
    · exact Or.inl (nonces_of_run hrun)
    · exact Or.inr (Or.inl ⟨row, rfl, rfl⟩)
    · exact Or.inr (Or.inr ⟨row, hinsert⟩)
  · cases hmoves with
    | prune contactId row => exact Or.inr (Or.inl ⟨row, rfl, rfl⟩)
    | insert contactId row t' hinsert => exact Or.inr (Or.inr ⟨row, hinsert⟩)
    | mark call t' hnonces => exact Or.inl hnonces

theorem rollingBack_of_next (h : p.Proper host clock)
    (hnext : p.next host t localId now = some (.rollback, p')) :
    ∃ row, p.call? = some (.rollingBack row) := by
  rcases next_cases h hnext with
    ⟨call, call', rfl, rfl, hcall⟩ | ⟨request, phase, phase', rfl, rfl, hmoves⟩
  · obtain ⟨row, rfl, _⟩ := rollback_cases hcall
    exact ⟨row, rfl⟩
  · cases hmoves with
    | rollBack contactId row => exact ⟨row, rfl⟩

theorem seenAt_of_pruning (h : p.Proper host clock)
    (hcall : p.call? = some (.pruning row)) : row.seenAt ≤ clock := by
  cases p with
  | method call => exact h row (Option.some.inj hcall)
  | delivery request phase =>
    cases phase with
    | recording contactId call =>
      obtain ⟨_, seenAt, ts, hrecords, hseen, _⟩ := h
      cases Option.some.inj hcall
      cases hrecords
      exact hseen
    | marking call =>
      cases Option.some.inj hcall
      cases h
    | _ => contradiction

variable {envelope : Envelope}

/-- The key under which a delivery inserts its nonce is that of the envelope. -/
theorem keyOf_of_rowOf {contactId : String} {seenAt : ℚ} {key : NonceKey}
    (hfrom : envelope.get "from" = .str contactId)
    (hkey : nonceKey? (rowOf host envelope contactId seenAt).contactId
      (rowOf host envelope contactId seenAt).kind (rowOf host envelope contactId seenAt).nonce =
        some key) : keyOf host envelope = some key := by
  unfold keyOf
  rw [hfrom]
  exact hkey

/-- Adding a nonce takes none away. -/
theorem Recorded.insert (h : Recorded host envelope t)
    (hinsert : t.insertNonce row = .ok t') : Recorded host envelope t' := by
  obtain ⟨key, ts, seenAt, hkey, hts, hget, hseen⟩ := h
  obtain ⟨key', _, hfree, rfl⟩ := insertNonce_key hinsert
  refine ⟨key, ts, seenAt, hkey, hts, ?_, hseen⟩
  refine (Dict.get?_set_of_ne _ _ ?_).trans hget
  rintro rfl
  rw [hfree] at hget
  contradiction

end Processes

namespace State

variable {host : Host} {s s' : State}

/-- Of the deliveries of an envelope, at most one has been told that its nonce is new. -/
def AtMostOnce (s : State) : Prop :=
  ∀ id id' request request' phase phase',
    s.processes.get? id = some (.delivery request phase) →
    s.processes.get? id' = some (.delivery request' phase') →
    request.envelope = request'.envelope → phase.acts = true → phase'.acts = true → id = id'

/-- The process comes to a rollback. -/
def rollsBack (s : State) (id : Nat) : Bool :=
  match (s.processes.get? id).bind Process.call? with
  | some (.rollingBack _) => true
  | _ => false

/-- The row with whose time the process comes to remove old nonces. -/
def prunes (s : State) (id : Nat) : Option NonceRow :=
  match (s.processes.get? id).bind Process.call? with
  | some (.pruning row) => some row
  | _ => none

/-- A rollback takes back no nonce that a delivery is about to commit. -/
def KeepsInserted (host : Host) (s : State) : Prop :=
  ∀ id request contactId row key,
    s.processes.get? id = some (.delivery request (.recording contactId (.committingNonce row))) →
    keyOf host request.envelope = some key →
    s.connection.durable.nonces.get? key = s.connection.current.nonces.get? key

/-- No nonce that was seen before the cutoff keeps out a delivery that was found fresh. -/
def KeepsAwaited (host : Host) (s : State) (cutoff : ℚ) : Prop :=
  ∀ id id' request request' phase phase' key seenAt,
    s.processes.get? id = some (.delivery request phase) →
    s.processes.get? id' = some (.delivery request' phase') →
    request.envelope = request'.envelope → phase.claims = true → phase'.pends = true →
    keyOf host request.envelope = some key →
    s.connection.current.nonces.get? key = some seenAt → cutoff ≤ seenAt

/-- No rollback and no removal of old nonces takes away a nonce that still keeps an envelope out. -/
def Unraced (host : Host) (s : State) : Event → Prop
  | .go id _ _ =>
    (s.rollsBack id = true → s.KeepsInserted host) ∧
      ∀ row, s.prunes id = some row → s.KeepsAwaited host (row.seenAt - nonceMaxAgeSecs)
  | _ => True

/-- The envelope is too old, and no delivery of it was found fresh and has still to insert its
nonce. -/
structure Expired (host : Host) (envelope : Envelope) (s : State) : Prop where
  old : ∃ ts, host.timestamp (envelope.get "ts") = .finite ts ∧ ts + 330 < s.clock
  idle : ∀ id request phase, s.processes.get? id = some (.delivery request phase) →
    request.envelope = envelope → phase.pends = false

/-- Envelopes that were accepted are kept out. -/
structure Sound (host : Host) (s : State) : Prop where
  proper : ∀ id p, s.processes.get? id = some p → p.Proper host s.clock
  committing : ∀ id request contactId row,
    s.processes.get? id = some (.delivery request (.recording contactId (.committingNonce row))) →
    Recorded host request.envelope s.connection.current ∨ s.Expired host request.envelope
  acted : ∀ id request phase, s.processes.get? id = some (.delivery request phase) →
    phase.acts = true →
    s.connection.Both (Recorded host request.envelope) ∨ s.Expired host request.envelope
  single : ∀ id id' request request' phase phase',
    s.processes.get? id = some (.delivery request phase) →
    s.processes.get? id' = some (.delivery request' phase') →
    request.envelope = request'.envelope → phase.claims = true → phase'.claims = true → id = id'

section Steps

variable {id : Nat} {p p' : Process} {localId : Option String} {now : ℚ} {e : Effect Tables}

/-- The state after a step of a process. -/
def moved (s : State) (id : Nat) (p' : Process) (now : ℚ) (e : Effect Tables) : State :=
  { connection := s.connection.take e, clock := now, processes := s.processes.set id p' }

variable {request : Request} {phase : Phase} {other : Nat} {row : NonceRow} {contactId : String}

/-- A delivery after a step was there before, at the same phase or at the one it has left. -/
theorem delivery_moved (h : s.Sound host) (hget : s.processes.get? id = some p)
    (hnext : p.next host s.connection.current localId now = some (e, p'))
    (hother : (s.moved id p' now e).processes.get? other = some (.delivery request phase)) :
    s.processes.get? other = some (.delivery request phase) ∧ other ≠ id ∨
      other = id ∧ ∃ before, p = .delivery request before ∧
        Moves host s.connection.current request.envelope now before e phase := by
  rcases Dict.get?_set_cases hother with ⟨rfl, heq⟩ | ⟨hne, hbefore⟩
  · rcases next_cases (h.proper id p hget) hnext with
      ⟨call, call', rfl, rfl, hcall⟩ | ⟨request', before, after, rfl, rfl, hmoves⟩
    · contradiction
    · cases heq
      exact Or.inr ⟨rfl, before, rfl, hmoves⟩
  · exact Or.inl ⟨hbefore, hne.symm⟩

/-- An envelope that is too old stays so. -/
theorem Expired.moved {envelope : Envelope} (hexpired : s.Expired host envelope)
    (h : s.Sound host) (hle : s.clock ≤ now) (hget : s.processes.get? id = some p)
    (hnext : p.next host s.connection.current localId now = some (e, p')) :
    (s.moved id p' now e).Expired host envelope := by
  obtain ⟨ts, hts, hold⟩ := hexpired.old
  constructor
  · exact ⟨ts, hts, hold.trans_le hle⟩
  · rintro other request phase hother rfl
    rw [← Bool.not_eq_true]
    intro hpends
    rcases delivery_moved h hget hnext hother with
      ⟨hbefore, _⟩ | ⟨rfl, before, rfl, hmoves⟩
    · have hidle := hexpired.idle other request phase hbefore rfl
      rw [hpends] at hidle
      contradiction
    · rcases hmoves.pends hpends with hbefore | ⟨ts', hts', hfresh⟩
      · have hidle := hexpired.idle other request before hget rfl
        rw [hbefore] at hidle
        contradiction
      · rw [hts] at hts'
        cases hts'
        linarith

/-- A nonce that is removed belongs to an envelope that is too old. -/
theorem expired_of_pruned (h : s.Sound host) (hget : s.processes.get? id = some p)
    (hcall : p.call? = some (.pruning row))
    (hguard : s.KeepsAwaited host (row.seenAt - nonceMaxAgeSecs))
    (hother : s.processes.get? other = some (.delivery request phase))
    (hclaims : phase.claims = true)
    (hrecorded : Recorded host request.envelope s.connection.current)
    (hpruned : ¬ Recorded host request.envelope
      (s.connection.current.prune (row.seenAt - nonceMaxAgeSecs))) :
    s.Expired host request.envelope := by
  obtain ⟨key, ts, seenAt, hkey, hts, hseenAt, hnear⟩ := hrecorded
  have hremoved : ¬ row.seenAt - nonceMaxAgeSecs ≤ seenAt := by
    intro hkept
    refine hpruned ⟨key, ts, seenAt, hkey, hts, ?_, hnear⟩
    exact Dict.get?_filterValues_iff.mpr ⟨hseenAt, decide_eq_true hkept⟩
  constructor
  · have hrow := seenAt_of_pruning (h.proper id p hget) hcall
    refine ⟨ts, hts, ?_⟩
    unfold nonceMaxAgeSecs at hremoved
    linarith
  · intro id' request' phase' hget' henvelope
    rw [← Bool.not_eq_true]
    intro hpends
    exact hremoved (hguard other id' request request' phase phase' key seenAt hother hget'
      henvelope.symm hclaims hpends hkey hseenAt)

variable {t' : Tables}

/-- What a step writes keeps out an envelope that was accepted, unless it is too old. -/
theorem recorded_of_write (h : s.Sound host) (hget : s.processes.get? id = some p)
    (hnext : p.next host s.connection.current localId now = some (.write t', p'))
    (hguard : ∀ row, s.prunes id = some row →
      s.KeepsAwaited host (row.seenAt - nonceMaxAgeSecs)) (hother : s.processes.get? other = some
    (.delivery request phase)) (hclaims : phase.claims = true)
    (hrecorded : Recorded host request.envelope s.connection.current) :
    Recorded host request.envelope t' ∨ s.Expired host request.envelope := by
  rcases nonces_of_next (h.proper id p hget) hnext with
    hnonces | ⟨row, hcall, rfl⟩ | ⟨row, hinsert⟩
  · left
    obtain ⟨key, ts, seenAt, hkey, hts, hseenAt, hnear⟩ := hrecorded
    refine ⟨key, ts, seenAt, hkey, hts, ?_, hnear⟩
    rw [hnonces]
    exact hseenAt
  · have hprunes : s.prunes id = some row := by
      simp only [prunes, hget, Option.bind_some, hcall]
    by_cases hkept : Recorded host request.envelope
        (s.connection.current.prune (row.seenAt - nonceMaxAgeSecs))
    · exact Or.inl hkept
    · exact Or.inr
        (expired_of_pruned h hget hcall (hguard row hprunes) hother hclaims hrecorded hkept)
  · exact Or.inl (hrecorded.insert hinsert)

/-- A step keeps both tables' nonce of an envelope that was acted on, unless it is too old. -/
theorem acted_of_next (h : s.Sound host) (hget : s.processes.get? id = some p)
    (hnext : p.next host s.connection.current localId now = some (e, p'))
    (hguard : ∀ row, s.prunes id = some row →
      s.KeepsAwaited host (row.seenAt - nonceMaxAgeSecs)) (hother : s.processes.get? other = some
    (.delivery request phase)) (hclaims : phase.claims = true)
    (hboth : s.connection.Both (Recorded host request.envelope)) :
    (s.connection.take e).Both (Recorded host request.envelope) ∨
      s.Expired host request.envelope := by
  by_cases hexpired : s.Expired host request.envelope
  · exact Or.inr hexpired
  · left
    apply hboth.take
    rintro t' rfl
    exact (recorded_of_write h hget hnext hguard hother hclaims hboth.current).resolve_right
      hexpired

/-- A step keeps the nonce that a delivery is about to commit, unless its envelope is too old. -/
theorem claimed_of_next (h : s.Sound host) (hget : s.processes.get? id = some p)
    (hnext : p.next host s.connection.current localId now = some (e, p'))
    (hguard : s.Unraced host (.go id localId now)) (hother : s.processes.get? other =
      some (.delivery request (.recording contactId (.committingNonce row))))
    (hrecorded : Recorded host request.envelope s.connection.current) :
    Recorded host request.envelope (s.connection.take e).current ∨
      s.Expired host request.envelope := by
  by_cases hexpired : s.Expired host request.envelope
  · exact Or.inr hexpired
  · left
    apply Session.current_take hrecorded
    · rintro t' rfl
      exact (recorded_of_write h hget hnext hguard.2 hother rfl hrecorded).resolve_right hexpired
    · rintro rfl
      obtain ⟨row', hcall⟩ := rollingBack_of_next (h.proper id p hget) hnext
      have hrolls : s.rollsBack id = true := by
        simp only [rollsBack, hget, Option.bind_some, hcall]
      obtain ⟨key, ts, seenAt, hkey, hts, hseenAt, hnear⟩ := hrecorded
      refine ⟨key, ts, seenAt, hkey, hts, ?_, hnear⟩
      rw [hguard.1 hrolls other request contactId row key hother hkey]
      exact hseenAt

/-- The envelope of a delivery that has inserted its nonce is kept out. -/
theorem Sound.claimed (h : s.Sound host)
    (hget : s.processes.get? id = some (.delivery request phase)) (hclaims : phase.claims = true) :
    Recorded host request.envelope s.connection.current ∨ s.Expired host request.envelope := by
  cases phase with
  | recording contactId call =>
    cases call with
    | committingNonce row => exact h.committing id request contactId row hget
    | _ => contradiction
  | marking | dispatched => exact (h.acted id request _ hget rfl).imp_left Session.Both.current
  | _ => contradiction

theorem claims_of_acts (hacts : phase.acts = true) : phase.claims = true := by
  cases phase with
  | marking call => rfl
  | dispatched => rfl
  | _ => contradiction

/-- A delivery that inserts its nonce is the first of its envelope. -/
theorem claims_of_insert (h : s.Sound host) (hget : s.processes.get? id =
      some (.delivery request (.recording contactId (.inserting row))))
    (hinsert : s.connection.current.insertNonce row = .ok t') {request' : Request}
    (hother : s.processes.get? other = some (.delivery request' phase))
    (henvelope : request.envelope = request'.envelope) : phase.claims = false := by
  rw [← Bool.not_eq_true]
  intro hclaims
  rcases h.claimed hother hclaims with hrecorded | hexpired
  · obtain ⟨key, _, seenAt, hkey, _, hseenAt, _⟩ := hrecorded
    obtain ⟨hfrom, at', _, hrecords, _⟩ := h.proper id _ hget
    cases hrecords
    obtain ⟨key', hkey', hfree, _⟩ := insertNonce_key hinsert
    have hsame := keyOf_of_rowOf hfrom hkey'
    rw [henvelope, hkey] at hsame
    cases hsame
    rw [hfree] at hseenAt
    contradiction
  · have hidle := hexpired.idle id request _ hget henvelope
    contradiction

/-- The nonce that a delivery has inserted is there. -/
theorem recorded_of_insert (h : s.Sound host) (hget : s.processes.get? id =
      some (.delivery request (.recording contactId (.inserting row))))
    (hinsert : s.connection.current.insertNonce row = .ok t') :
    Recorded host request.envelope t' := by
  obtain ⟨hfrom, seenAt, ts, hrecords, _, hts, hnear⟩ := h.proper id _ hget
  cases hrecords
  obtain ⟨key, hkey, _, rfl⟩ := insertNonce_key hinsert
  exact ⟨key, ts, seenAt, keyOf_of_rowOf hfrom hkey, hts, Dict.get?_set_self _ _ _, hnear⟩

/-- A step of a process keeps accepted envelopes out. -/
theorem Sound.moved (h : s.Sound host) (hle : s.clock ≤ now) (hget : s.processes.get? id = some p)
    (hnext : p.next host s.connection.current localId now = some (e, p'))
    (hguard : s.Unraced host (.go id localId now)) : (s.moved id p' now e).Sound host := by
  have hlater : ∀ envelope, s.Expired host envelope →
      (s.moved id p' now e).Expired host envelope :=
    fun envelope hexpired => hexpired.moved h hle hget hnext
  constructor
  · intro other q hother
    rcases Dict.get?_set_cases hother with ⟨_, rfl⟩ | ⟨_, hbefore⟩
    · exact next_proper (h.proper id p hget) hle hnext
    · exact (h.proper other q hbefore).later hle
  · intro other request contactId row hother
    rcases delivery_moved h hget hnext hother with
      ⟨hbefore, _⟩ | ⟨_, before, rfl, hmoves⟩
    · rcases h.committing other request contactId row hbefore with hrecorded | hexpired
      · exact (claimed_of_next h hget hnext hguard hbefore hrecorded).imp_right (hlater _)
      · exact Or.inr (hlater _ hexpired)
    · cases hmoves with
      | insert contactId row t' hinsert => exact Or.inl (recorded_of_insert h hget hinsert)
  · intro other request phase hother hacts
    rcases delivery_moved h hget hnext hother with
      ⟨hbefore, _⟩ | ⟨_, before, rfl, hmoves⟩
    · rcases h.acted other request phase hbefore hacts with hboth | hexpired
      · exact (acted_of_next h hget hnext hguard.2 hbefore (claims_of_acts hacts) hboth).imp_right
          (hlater _)
      · exact Or.inr (hlater _ hexpired)
    · rcases hmoves.acts hacts with hbefore | ⟨contactId, row, rfl, rfl⟩
      · rcases h.acted id request before hget hbefore with hboth | hexpired
        · exact (acted_of_next h hget hnext hguard.2 hget (claims_of_acts hbefore)
            hboth).imp_right (hlater _)
        · exact Or.inr (hlater _ hexpired)
      · rcases h.committing id request contactId row hget with hrecorded | hexpired
        · exact Or.inl ⟨hrecorded, hrecorded⟩
        · exact Or.inr (hlater _ hexpired)
  · intro i j request request' phase phase' hi hj henvelope hclaims hclaims'
    rcases delivery_moved h hget hnext hi with ⟨hbefore, _⟩ | ⟨rfl, before, rfl, hmoves⟩
    · rcases delivery_moved h hget hnext hj with ⟨hbefore', _⟩ | ⟨rfl, before, rfl, hmoves⟩
      · exact h.single i j request request' phase phase' hbefore hbefore' henvelope hclaims
          hclaims'
      · rcases hmoves.claims hclaims' with hold | ⟨contactId, row, t', rfl, _, _, hinsert⟩
        · exact h.single i j request request' phase before hbefore hget henvelope hclaims hold
        · have hnone := claims_of_insert h hget hinsert hbefore henvelope.symm
          rw [hclaims] at hnone
          contradiction
    · rcases delivery_moved h hget hnext hj with ⟨hbefore', _⟩ | ⟨rfl, _⟩
      · rcases hmoves.claims hclaims with hold | ⟨contactId, row, t', rfl, _, _, hinsert⟩
        · exact h.single i j request request' before phase' hget hbefore' henvelope hold hclaims'
        · have hnone := claims_of_insert h hget hinsert hbefore' henvelope
          rw [hclaims'] at hnone
          contradiction
      · rfl

end Steps

/-! ## Processes that begin -/

section Spawns

variable {id : Nat} {p : Process} {now : ℚ}

/-- A process that begins is at its first statement. -/
def Begins (now : ℚ) : Process → Prop
  | .method call => ∀ row, call = .pruning row → row.seenAt = now
  | .delivery _ phase => phase = .authenticating

theorem begins_method (operation : Operation) :
    Begins now (.method (operation.begin host.hashToken now)) := by
  intro row hrow
  cases operation with
  | recordNonce nonce contactId kind =>
    cases hrow
    rfl
  | addContact | setContactStatus =>
    simp only [Operation.begin] at hrow
    split at hrow <;> cases hrow
  | _ => cases hrow

theorem Begins.proper (h : Begins now p) : p.Proper host now := by
  cases p with
  | method call => exact fun row hcall => (h row hcall).le
  | delivery request phase =>
    cases h
    trivial

/-- A delivery after a process has begun was there before, or is at its first statement. -/
theorem delivery_spawned (hbegins : Begins now p) {other : Nat} {request : Request} {phase : Phase}
    (hother : (s.processes.set id p).get? other = some (.delivery request phase)) :
    s.processes.get? other = some (.delivery request phase) ∨ phase = .authenticating := by
  rcases Dict.get?_set_cases hother with ⟨_, rfl⟩ | ⟨_, hbefore⟩
  · exact Or.inr hbegins
  · exact Or.inl hbefore

/-- A process that begins keeps accepted envelopes out. -/
theorem Sound.spawn (h : s.Sound host) (hbegins : Begins now p)
    (hstep : s.spawn id p now = some s') : s'.Sound host := by
  simp only [State.spawn] at hstep
  split at hstep
  · contradiction
  rename_i hcond
  cases hstep
  have hle : s.clock ≤ now := not_lt.mp fun hlt => hcond (Or.inl hlt)
  have hlater : ∀ envelope, s.Expired host envelope →
      ({ s with clock := now, processes := s.processes.set id p } : State).Expired host
        envelope := by
    intro envelope hexpired
    obtain ⟨ts, hts, hold⟩ := hexpired.old
    refine ⟨⟨ts, hts, hold.trans_le hle⟩, ?_⟩
    intro other request phase hother henvelope
    rcases delivery_spawned hbegins hother with hbefore | rfl
    · exact hexpired.idle other request phase hbefore henvelope
    · rfl
  constructor
  · intro other q hother
    rcases Dict.get?_set_cases hother with ⟨_, rfl⟩ | ⟨_, hbefore⟩
    · exact hbegins.proper
    · exact (h.proper other q hbefore).later hle
  · intro other request contactId row hother
    rcases delivery_spawned hbegins hother with hbefore | hphase
    · exact (h.committing other request contactId row hbefore).imp_right (hlater _)
    · contradiction
  · intro other request phase hother hacts
    rcases delivery_spawned hbegins hother with hbefore | rfl
    · exact (h.acted other request phase hbefore hacts).imp_right (hlater _)
    · contradiction
  · intro i j request request' phase phase' hi hj henvelope hclaims hclaims'
    rcases delivery_spawned hbegins hi with hbefore | rfl
    · rcases delivery_spawned hbegins hj with hbefore' | rfl
      · exact h.single i j request request' phase phase' hbefore hbefore' henvelope hclaims
          hclaims'
      · contradiction
    · contradiction

end Spawns

/-! ## Runs -/

theorem sound_start (t : Tables) (clock : ℚ) : (start t clock).Sound host := by
  constructor
  · intro id p hget
    contradiction
  · intro id request contactId row hget
    contradiction
  · intro id request phase hget
    contradiction
  · intro id id' request request' phase phase' hget
    contradiction

/-- A step keeps accepted envelopes out, if it meets the guard. -/
theorem step_sound (h : s.Sound host) {e : Event} (hguard : s.Unraced host e)
    (hstep : s.step host e = some s') : s'.Sound host := by
  cases e with
  | call id operation now => exact h.spawn (begins_method operation) hstep
  | deliver id request now =>
    have hbegins : Begins now (.delivery request .authenticating) := rfl
    exact h.spawn hbegins hstep
  | go id localId now =>
    simp only [step, advance] at hstep
    split at hstep
    · contradiction
    rename_i hle
    split at hstep
    · contradiction
    rename_i p hget
    split at hstep
    · contradiction
    rename_i effect p' hnext
    cases hstep
    exact h.moved (not_lt.mp hle) hget hnext hguard

theorem atMostOnce_of_sound (h : s.Sound host) : s.AtMostOnce := by
  intro id id' request request' phase phase' hget hget' henvelope hacts hacts'
  exact h.single id id' request request' phase phase' hget hget' henvelope (claims_of_acts hacts)
    (claims_of_acts hacts')

/-- A step that a delivery takes before it comes to its nonce leaves the tables alone. -/
def Untouched (s : State) (e : Event) (s' : State) : Prop :=
  ∀ id localId now request phase, e = .go id localId now →
    s.processes.get? id = some (.delivery request phase) → phase.beforeNonce = true →
    s'.connection = s.connection

variable {request : Request}

variable {t : Tables}

theorem read_of_beforeNonce {localId : Option String} {now : ℚ}
    {phase phase' : Phase} {effect : Effect Tables} (hbefore : phase.beforeNonce = true)
    (hnext : phase.next host t request localId now = some (effect, phase')) : effect = .read := by
  cases phase with
  | authenticating =>
    simp only [Phase.next] at hnext
    split at hnext
    · cases hnext
      rfl
    · split at hnext <;> cases hnext <;> rfl
  | resolving | gettingContact =>
    simp only [Phase.next] at hnext
    split at hnext <;> cases hnext <;> rfl
  | _ => contradiction

theorem untouched_of_step {e : Event} (hstep : s.step host e = some s') : s.Untouched e s' := by
  rintro id localId now request phase rfl hget hbefore
  simp only [step, advance, hget, Process.next] at hstep
  split at hstep
  · contradiction
  split at hstep
  · contradiction
  rename_i effect p' hnext
  split at hnext
  · contradiction
  rename_i effect' phase' hphase
  cases hnext
  cases hstep
  rw [read_of_beforeNonce hbefore hphase]
  rfl

/-- Where no rollback takes back a nonce that is about to be committed and no nonce is removed that
still keeps out a delivery, an envelope is acted on at most once, and a delivery that is refused
before it comes to its nonce has not used it up. -/
theorem atMostOnce_of_guarded_run {t : Tables} {clock : ℚ} {events : List Event}
    (hguard : Guarded (step host) (Unraced host) (start t clock) events)
    (hrun : run (step host) (start t clock) events = some s) :
    s.AtMostOnce ∧ EveryStep (step host) Untouched (start t clock) events := by
  constructor
  · exact atMostOnce_of_sound (invariant_of_guarded_run
      (fun _ _ _ h hguard hstep => step_sound h hguard hstep) (sound_start t clock) hguard hrun)
  · exact everyStep_of_guarded (P := Untouched) (fun _ _ _ _ hstep => untouched_of_step hstep)
      hguard

/-! ## One envelope, sent several times -/

/-- Hashes that are the tokens, and signatures that are all valid. -/
def openHost : Host :=
  { hashToken := id
    floatValue := fun _ => none
    floatColumn := fun _ => ""
    compactSize := fun _ => 0
    verifySignature := fun _ _ _ => true }

/-- One active contact, with a token. -/
def onePeer : Tables :=
  { contacts := ⟨[("hub:ann",
      { hubUsername := "ann"
        displayName := "Ann"
        ed25519Pub := "ed"
        x25519Pub := "x"
        status := .active
        localCrmId := none
        createdAt := 0
        revokedAt := none })], List.nodup_singleton _⟩
    links := ⟨[("hub:ann",
      { inboundTokenHash := "t1"
        outboundToken := "t2"
        endpoints := []
        establishedAt := 0
        lastSeenAt := none
        revokedAt := none })], List.nodup_singleton _⟩
    nonces := Dict.empty }

/-- An invitation from the contact. -/
def invitation : Request :=
  { endpoint := .inbox
    authorization := "Bearer t1"
    withinRate := true
    contentLength := none
    envelope := ⟨[("from", .str "hub:ann"), ("to", .str "hub:me"), ("kind", .str "collab_invite"),
      ("ts", .num (.int 1000)), ("nonce", .str "n1"), ("sig", .str "s1")], by decide⟩ }

/-- A delivery of the invitation, up to the insertion of its nonce. -/
def deliverUpToInsertion (id : Nat) : List Event :=
  [.deliver id invitation 1010, .go id none 1010, .go id (some "hub:me") 1010, .go id none 1010,
    .go id none 1010, .go id none 1010]

/-- The first delivery is dispatched, and the second one finds the nonce. -/
def sentTwice : List Event :=
  deliverUpToInsertion 0 ++ [.go 0 none 1010, .go 0 none 1010, .go 0 none 1010, .go 0 none 1010] ++
    deliverUpToInsertion 1 ++ [.go 1 none 1010, .go 1 none 1010]

/-- The second delivery finds the nonce that the first one has inserted, and rolls back before that
one commits. -/
def rolledBackInBetween : List Event :=
  deliverUpToInsertion 0 ++ deliverUpToInsertion 1 ++
    [.go 0 none 1010, .go 1 none 1010, .go 1 none 1010, .go 0 none 1010] ++
    deliverUpToInsertion 2 ++ [.go 2 none 1010, .go 2 none 1010]

/-- The delivery has been told that its nonce is new. -/
def actsAt (s : State) (id : Nat) : Bool :=
  match s.processes.get? id with
  | some (.delivery _ phase) => phase.acts
  | _ => false

theorem delivery_of_actsAt {id : Nat} (h : s.actsAt id = true) :
    ∃ request phase, s.processes.get? id = some (.delivery request phase) ∧ phase.acts = true := by
  unfold actsAt at h
  split at h
  · rename_i request phase hget
    exact ⟨request, phase, hget, h⟩
  · contradiction

/-- All deliveries bring one request. -/
def Brings (request : Request) (s : State) : Prop :=
  ∀ id request' phase, s.processes.get? id = some (.delivery request' phase) → request' = request

/-- A process that brings a request brought it before. -/
theorem delivery_of_next {p : Process} {localId : Option String} {now : ℚ}
    {e : Effect Tables} {phase : Phase}
    (hnext : p.next host t localId now = some (e, .delivery request phase)) :
    ∃ before, p = .delivery request before := by
  cases p with
  | method call =>
    simp only [Process.next] at hnext
    split at hnext <;> cases hnext
  | delivery request' before =>
    simp only [Process.next] at hnext
    split at hnext
    · contradiction
    cases hnext
    exact ⟨before, rfl⟩

theorem Brings.step (h : s.Brings request) {e : Event}
    (he : ∀ id request' now, e = .deliver id request' now → request' = request)
    (hstep : s.step host e = some s') : s'.Brings request := by
  intro other request' phase hother
  cases e with
  | call id operation now =>
    simp only [State.step, State.spawn] at hstep
    split at hstep
    · contradiction
    cases hstep
    rcases Dict.get?_set_cases hother with ⟨_, heq⟩ | ⟨_, hbefore⟩
    · contradiction
    · exact h other request' phase hbefore
  | deliver id request'' now =>
    simp only [State.step, State.spawn] at hstep
    split at hstep
    · contradiction
    cases hstep
    rcases Dict.get?_set_cases hother with ⟨_, heq⟩ | ⟨_, hbefore⟩
    · cases heq
      exact he id request' now rfl
    · exact h other request' phase hbefore
  | go id localId now =>
    simp only [State.step, State.advance] at hstep
    split at hstep
    · contradiction
    split at hstep
    · contradiction
    rename_i p hget
    split at hstep
    · contradiction
    rename_i effect p' hnext
    cases hstep
    rcases Dict.get?_set_cases hother with ⟨_, rfl⟩ | ⟨_, hbefore⟩
    · obtain ⟨before, rfl⟩ := delivery_of_next hnext
      exact h id request' before hget
    · exact h other request' phase hbefore

theorem Brings.run (h : s.Brings request) {events : List Event}
    (hevents : ∀ id request' now, .deliver id request' now ∈ events → request' = request)
    (hrun : run (State.step host) s events = some s') : s'.Brings request := by
  induction events generalizing s with
  | nil =>
    cases hrun
    exact h
  | cons e events ih =>
    obtain ⟨t, hstep, hrest⟩ := run_cons_eq_some.mp hrun
    refine ih (h.step ?_ hstep) ?_ hrest
    · rintro id request' now rfl
      exact hevents id request' now List.mem_cons_self
    · exact fun id request' now hmem => hevents id request' now (List.mem_cons_of_mem e hmem)

theorem brings_start (t : Tables) (clock : ℚ) : (start t clock).Brings request := by
  intro id request' phase hget
  contradiction

/-- Old nonces are removed that are not there, and a rollback comes when no delivery is about to
commit its nonce. -/
def calm (s : State) : Event → Bool
  | .go id _ _ =>
    (!s.rollsBack id || s.processes.values.all fun p =>
      match p with
      | .delivery _ (.recording _ (.committingNonce _)) => false
      | _ => true) &&
    match s.prunes id with
    | none => true
    | some row => s.connection.current.nonces.values.all fun seenAt =>
      decide (row.seenAt - nonceMaxAgeSecs ≤ seenAt)
  | _ => true

theorem unraced_of_calm {e : Event} (h : s.calm e = true) : s.Unraced host e := by
  cases e with
  | call | deliver => trivial
  | go id localId now =>
    obtain ⟨hrolls, hprunes⟩ := Bool.and_eq_true_iff.mp h
    constructor
    · intro hrolling
      rw [hrolling, Bool.not_true, Bool.false_or, List.all_eq_true] at hrolls
      intro other request contactId row key hget
      have hnone := hrolls _ (Dict.mem_values_iff.mpr ⟨other, hget⟩)
      contradiction
    · intro row hrow
      simp only [hrow, List.all_eq_true, decide_eq_true_eq] at hprunes
      intro other other' request request' phase phase' key seenAt _ _ _ _ _ _ hseenAt
      exact hprunes seenAt (Dict.mem_values_iff.mpr ⟨key, hseenAt⟩)

theorem calm_sentTwice :
    Guarded (step openHost) (fun s e => s.calm e = true) (start onePeer 1000) sentTwice := by
  decide +kernel

theorem atMostOnce_sentTwice :
    ∃ s, run (step openHost) (start onePeer 1000) sentTwice = some s ∧ s.actsAt 0 = true ∧
      s.actsAt 1 = false ∧ s.AtMostOnce ∧
      EveryStep (step openHost) Untouched (start onePeer 1000) sentTwice := by
  have hend : (run (step openHost) (start onePeer 1000) sentTwice).map
      (fun s => (s.actsAt 0, s.actsAt 1)) = some (true, false) := by
    decide +kernel
  obtain ⟨s, hrun, hs⟩ := Option.map_eq_some_iff.mp hend
  obtain ⟨hfirst, hsecond⟩ := Prod.mk.inj hs
  refine ⟨s, hrun, hfirst, hsecond, ?_⟩
  exact atMostOnce_of_guarded_run (guarded_imp (fun _ _ => unraced_of_calm) calm_sentTwice) hrun

/-- The first and the third delivery are both told that the nonce is new. -/
theorem not_atMostOnce_rolledBackInBetween :
    ∃ s, run (step openHost) (start onePeer 1000) rolledBackInBetween = some s ∧
      s.actsAt 0 = true ∧ s.actsAt 2 = true ∧ ¬ s.AtMostOnce := by
  have hend : (run (step openHost) (start onePeer 1000) rolledBackInBetween).map
      (fun s => (s.actsAt 0, s.actsAt 2)) = some (true, true) := by
    decide +kernel
  obtain ⟨s, hrun, hs⟩ := Option.map_eq_some_iff.mp hend
  obtain ⟨hfirst, hthird⟩ := Prod.mk.inj hs
  have hbrings : s.Brings invitation := by
    refine (brings_start onePeer 1000).run ?_ hrun
    intro id request now hmem
    simp only [rolledBackInBetween, deliverUpToInsertion, List.mem_append, List.mem_cons,
      List.not_mem_nil, or_false, reduceCtorEq, Event.deliver.injEq] at hmem
    rcases hmem with (⟨_, hrequest, _⟩ | ⟨_, hrequest, _⟩) | ⟨_, hrequest, _⟩
    · exact hrequest
    · exact hrequest
    · exact hrequest
  obtain ⟨request, phase, hget, hacts⟩ := delivery_of_actsAt hfirst
  obtain ⟨request', phase', hget', hacts'⟩ := delivery_of_actsAt hthird
  obtain rfl := hbrings 0 request phase hget
  obtain rfl := hbrings 2 request' phase' hget'
  refine ⟨s, hrun, hfirst, hthird, ?_⟩
  intro h
  exact absurd (h 0 2 _ _ phase phase' hget hget' rfl hacts hacts') (by decide)


end State

end Deliveries
end TinyAgentOS.Contacts
