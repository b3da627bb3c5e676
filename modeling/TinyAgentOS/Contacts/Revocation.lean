import TinyAgentOS.Contacts.PeerRoutes
import TinyAgentOS.Library.Transition

/-!
# Revoking a peer

A revocation updates the link and the contact and then commits.  On the same connection a nonce
that is there already rolls back, and takes with it what a revocation has not committed.  As long
as it does not, no token leads to the contact any more once the revocation has returned.

Main results:

- `refuses_of_closed`: a closed contact is found by no token.
- `step_sealed`: a statement keeps closed what a revocation has closed.
- `effective_of_guarded_run`: a revocation that has returned is effective.
-/

namespace TinyAgentOS.Contacts
namespace Revocation

open Collections Connections Transition

/-! ## Calls side by side -/

structure Process where
  operation : Operation
  call : Call
deriving DecidableEq

/-- The connection, the calls, and the revocations after whose updates a method that may open the
contact again has written, which the store does not keep. -/
structure State where
  connection : Session Tables
  calls : Dict Nat Process
  reopened : List Nat

inductive Event where
  | call (id : Nat) (operation : Operation) (now : ℚ)
  | go (id : Nat)

/-- The contact that a statement of `add_contact`, `set_contact_status` or
`establish_peer_link` writes. -/
def reopens : Call → Option String
  | .writing (.upsertContact contactId _) _ => some contactId
  | .writing (.setStatus contactId _ _) _ => some contactId
  | .writing (.upsertLink contactId _) _ => some contactId
  | _ => none

/-- The call is a revocation of the contact that has made its updates. -/
def Process.hasRevoked (p : Process) (contactId : String) : Bool :=
  decide (p.operation = .revokePeerLink contactId) &&
    match p.call with
    | .committing => true
    | .returned _ => true
    | _ => false

namespace State

/-- No call has begun. -/
def start (t : Tables) : State := ⟨Session.opened t, Dict.empty, []⟩

/-- The revocations of a contact that have made their updates. -/
def revocationsOf (s : State) : Option String → List Nat
  | none => []
  | some contactId => (s.calls.entries.filter fun e => e.2.hasRevoked contactId).map Prod.fst

/-- A call begins under a number that no call has, or goes on. -/
def step (hashToken : String → String) (s : State) : Event → Option State
  | .call id operation now =>
    if (s.calls.get? id).isSome then none
    else some { s with calls := s.calls.set id ⟨operation, operation.begin hashToken now⟩ }
  | .go id =>
    match s.calls.get? id with
    | none => none
    | some p =>
      match p.call.next hashToken s.connection.current with
      | none => none
      | some (effect, call) =>
        some
          { connection := s.connection.take effect
            calls := s.calls.set id ⟨p.operation, call⟩
            reopened := s.revocationsOf (reopens p.call) ++ s.reopened }

end State

/-! ## Contacts that no token leads to -/

/-- The contact is not active, or its link is revoked. -/
def Closed (contactId : String) (t : Tables) : Prop :=
  ∀ contact link, t.contacts.get? contactId = some contact → t.links.get? contactId = some link →
    contact.status = .active → link.revokedAt ≠ none

instance decidableClosed (contactId : String) (t : Tables) : Decidable (Closed contactId t) :=
  decidable_of_iff (∀ contact ∈ t.contacts.get? contactId, ∀ link ∈ t.links.get? contactId,
    contact.status = .active → link.revokedAt ≠ none) <| by
    constructor
    · exact fun h contact link hcontact hlink => h contact hcontact link hlink
    · exact fun h contact hcontact link hlink => h contact link hcontact hlink

/-- No token leads to the contact, a token that no other contact has leads nowhere, and no request
is taken for one of the contact. -/
structure Refuses (hashToken : String → String) (t : Tables) (contactId : String) : Prop where
  found : ∀ token row, t.findContactByInboundToken hashToken token = some row →
    row.contactId ≠ contactId
  own : ∀ token, (∀ other link, t.links.get? other = some link →
      link.inboundTokenHash = hashToken token → other = contactId) →
    t.findContactByInboundToken hashToken token = none
  request : ∀ authorization, authenticatePeer hashToken t authorization ≠ .ok contactId

variable {contactId : String}

theorem refuses_of_closed {hashToken : String → String} {t : Tables}
    (h : Closed contactId t) : Refuses hashToken t contactId := by
  have hfound : ∀ token row, t.findContactByInboundToken hashToken token = some row →
      row.contactId ≠ contactId := by
    rintro token row hrow rfl
    obtain ⟨hcontact, hlink, hactive, hrevoked, _⟩ := find_eq_some hrow
    exact h row.contact row.link hcontact hlink hactive hrevoked
  constructor
  · exact hfound
  · intro token hown
    cases hrow : t.findContactByInboundToken hashToken token with
    | none => rfl
    | some row =>
      obtain ⟨_, hlink, _, _, hhash⟩ := find_eq_some hrow
      exact absurd (hown row.contactId row.link hlink hhash) (hfound token row hrow)
  · intro authorization hauth
    obtain ⟨token, row, hrow, hid⟩ := find_of_authenticatePeer hauth
    exact hfound token row hrow hid

/-- A statement that may not open the contact leaves it closed. -/
theorem Closed.run {t t' : Tables} (h : Closed contactId t)
    {stmt : Statement} {rest : List Statement}
    (hreopens : reopens (.writing stmt rest) ≠ some contactId) (hrun : stmt.run t = some t') :
    Closed contactId t' := by
  intro contact link hcontact hlink hactive
  cases stmt with
  | upsertContact other row =>
    have hne : other ≠ contactId := fun heq => hreopens (congrArg some heq)
    simp only [Statement.run] at hrun
    split at hrun
    · cases hrun
      exact h contact link ((Dict.get?_set_of_ne _ _ hne).symm.trans hcontact) hlink hactive
    · split at hrun
      · contradiction
      · cases hrun
        exact h contact link ((Dict.get?_set_of_ne _ _ hne).symm.trans hcontact) hlink hactive
  | setStatus other status revokedAt =>
    have hne : other ≠ contactId := fun heq => hreopens (congrArg some heq)
    cases hrun
    rcases Dict.get?_modify_cases hcontact with ⟨heq, _⟩ | ⟨_, hold⟩
    · exact absurd heq hne
    · exact h contact link hold hlink hactive
  | upsertLink other row =>
    have hne : other ≠ contactId := fun heq => hreopens (congrArg some heq)
    simp only [Statement.run] at hrun
    split at hrun
    · cases hrun
      exact h contact link hcontact ((Dict.get?_set_of_ne _ _ hne).symm.trans hlink) hactive
    · cases hrun
      exact h contact link hcontact ((Dict.get?_set_of_ne _ _ hne).symm.trans hlink) hactive
  | setLastSeen other now =>
    cases hrun
    rcases Dict.get?_modify_cases hlink with ⟨_, old, hold, rfl⟩ | ⟨_, hold⟩
    · exact h contact old hcontact hold hactive
    · exact h contact link hcontact hold hactive
  | revokeLink other now =>
    cases hrun
    rcases Dict.get?_modify_cases hlink with ⟨_, old, hold, rfl⟩ | ⟨_, hold⟩
    · exact Option.some_ne_none now
    · exact h contact link hcontact hold hactive
  | revokeContact other now =>
    cases hrun
    rcases Dict.get?_modify_cases hcontact with ⟨_, old, hold, rfl⟩ | ⟨_, hold⟩
    · contradiction
    · exact h contact link hold hlink hactive

/-- The second update of a revocation closes the contact. -/
theorem closed_revokeContact {now : ℚ} {t t' : Tables}
    (hrun : (Statement.revokeContact contactId now).run t = some t') : Closed contactId t' := by
  cases hrun
  intro contact link hcontact _ hactive
  rcases Dict.get?_modify_cases hcontact with ⟨_, old, _, rfl⟩ | ⟨hne, _⟩
  · contradiction
  · exact absurd rfl hne

section Calls

variable {hashToken : String → String} {t t' : Tables} {call call' : Call}

/-- What a call writes leaves a contact closed that it may not open. -/
theorem Closed.next {contactId : String} (h : Closed contactId t)
    (hreopens : reopens call ≠ some contactId)
    (hnext : call.next hashToken t = some (.write t', call')) : Closed contactId t' := by
  rcases write_cases hnext with
    ⟨next, rest, rfl, hrun, _⟩ | ⟨row, rfl, rfl, _⟩ | ⟨row, rfl, hinsert, _⟩
  · exact h.run hreopens hrun
  · exact h
  · obtain ⟨kind, nonce, _, _, _, rfl⟩ := insertNonce_eq_ok hinsert
    exact h

end Calls

/-! ## Revocations -/

/-- How far a revocation has come. -/
def Revoking (contactId : String) : Call → Prop
  | .writing next rest => ∃ now,
      next = .revokeLink contactId now ∧ rest = [.revokeContact contactId now] ∨
        next = .revokeContact contactId now ∧ rest = []
  | .committing => True
  | .returned _ => True
  | _ => False

namespace State

variable {hashToken : String → String} {s s' : State}

/-- Once a revocation has returned the contact is refused, until a method that may open it again
writes. -/
def Effective (hashToken : String → String) (s : State) : Prop :=
  ∀ id contactId result, s.calls.get? id = some ⟨.revokePeerLink contactId, .returned result⟩ →
    id ∉ s.reopened → Refuses hashToken s.connection.current contactId

/-- The call comes to its rollback. -/
def rollsBack (s : State) (id : Nat) : Bool :=
  match s.calls.get? id with
  | some ⟨_, .rollingBack _⟩ => true
  | _ => false

/-- The call is a revocation that is about to commit, of a contact that the tables that were
committed last do not close. -/
def endangered (s : State) (e : Nat × Process) : Bool :=
  match e.2 with
  | ⟨.revokePeerLink contactId, .committing⟩ =>
    decide (e.1 ∉ s.reopened) && decide (¬ Closed contactId s.connection.durable)
  | _ => false

/-- A rollback endangers no revocation. -/
def Unraced (s : State) : Event → Prop
  | .call .. => True
  | .go id => s.rollsBack id = true → ∀ e ∈ s.calls.entries, s.endangered e = false

instance decidableUnraced (s : State) (e : Event) : Decidable (s.Unraced e) :=
  match e with
  | .call .. => isTrue trivial
  | .go _ => inferInstanceAs (Decidable (_ → _))

/-- What the revocations have closed. -/
structure Sealed (s : State) : Prop where
  revoking : ∀ id contactId call, s.calls.get? id = some ⟨.revokePeerLink contactId, call⟩ →
    Revoking contactId call
  committing : ∀ id contactId, s.calls.get? id = some ⟨.revokePeerLink contactId, .committing⟩ →
    id ∉ s.reopened → Closed contactId s.connection.current
  returned : ∀ id contactId result,
    s.calls.get? id = some ⟨.revokePeerLink contactId, .returned result⟩ → id ∉ s.reopened →
      s.connection.Both (Closed contactId)

theorem effective_of_sealed (h : s.Sealed) : s.Effective hashToken :=
  fun id contactId result hget hnot =>
    refuses_of_closed (h.returned id contactId result hget hnot).current

theorem sealed_start (t : Tables) : (start t).Sealed := by
  constructor
  · intro id contactId call hget
    contradiction
  · intro id contactId hget
    contradiction
  · intro id contactId result hget
    contradiction

/-- A call begins. -/
theorem Sealed.begin (h : s.Sealed) {id : Nat} {operation : Operation} {now : ℚ} :
    ({ s with calls := s.calls.set id ⟨operation, operation.begin hashToken now⟩ } :
      State).Sealed := by
  have hnew : ∀ contactId call,
      (⟨operation, operation.begin hashToken now⟩ : Process) =
        ⟨.revokePeerLink contactId, call⟩ →
      call = .writing (.revokeLink contactId now) [.revokeContact contactId now] := by
    intro contactId call heq
    cases heq
    rfl
  constructor
  · intro other contactId call hget
    rcases Dict.get?_set_cases hget with ⟨_, heq⟩ | ⟨_, hget⟩
    · rw [hnew contactId call heq]
      exact ⟨now, Or.inl ⟨rfl, rfl⟩⟩
    · exact h.revoking other contactId call hget
  · intro other contactId hget hnot
    rcases Dict.get?_set_cases hget with ⟨_, heq⟩ | ⟨_, hget⟩
    · cases hnew contactId _ heq
    · exact h.committing other contactId hget hnot
  · intro other contactId result hget hnot
    rcases Dict.get?_set_cases hget with ⟨_, heq⟩ | ⟨_, hget⟩
    · cases hnew contactId _ heq
    · exact h.returned other contactId result hget hnot

variable {contactId : String}

variable {call : Call} {p : Process} {e : Effect Tables}

/-- A revocation that is not marked has made its updates after the writes that may open its
contact. -/
theorem reopens_ne {id : Nat}
    (hget : s.calls.get? id = some p) (hrevoked : p.hasRevoked contactId = true)
    (hnot : id ∉ s.revocationsOf (reopens call) ++ s.reopened) :
    reopens call ≠ some contactId ∧ id ∉ s.reopened := by
  rw [List.mem_append, not_or] at hnot
  refine ⟨?_, hnot.2⟩
  intro heq
  rw [heq] at hnot
  refine hnot.1 (List.mem_map.mpr ⟨(id, p), ?_, rfl⟩)
  exact List.mem_filter.mpr ⟨Dict.mem_entries_iff.mpr hget, hrevoked⟩

theorem hasRevoked_committing (contactId : String) :
    (⟨.revokePeerLink contactId, .committing⟩ : Process).hasRevoked contactId = true := by
  simp [Process.hasRevoked]

theorem hasRevoked_returned (contactId : String) (result : Result) :
    (⟨.revokePeerLink contactId, .returned result⟩ : Process).hasRevoked contactId = true := by
  simp [Process.hasRevoked]

theorem closed_of_endangered {id : Nat}
    (h : s.endangered (id, ⟨.revokePeerLink contactId, .committing⟩) = false)
    (hnot : id ∉ s.reopened) : Closed contactId s.connection.durable := by
  by_contra hopen
  have htrue : s.endangered (id, ⟨.revokePeerLink contactId, .committing⟩) = true :=
    Bool.and_eq_true_iff.mpr ⟨decide_eq_true hnot, decide_eq_true hopen⟩
  rw [h] at htrue
  contradiction

/-- A revocation takes its next statement. -/
theorem next_revoking {t : Tables} {call' : Call}
    (h : Revoking contactId call) (hnext : call.next hashToken t = some (e, call')) :
    Revoking contactId call' ∧
      (call' = .committing → ∃ t', e = .write t' ∧ Closed contactId t') ∧
      (∀ result, call' = .returned result → e = .commit ∧ call = .committing) := by
  cases call with
  | writing next rest =>
    obtain ⟨now, ⟨rfl, rfl⟩ | ⟨rfl, rfl⟩⟩ := h
    · cases hnext
      refine ⟨⟨now, Or.inr ⟨rfl, rfl⟩⟩, ?_, ?_⟩
      · intro hcall
        contradiction
      · intro result hcall
        contradiction
    · cases hnext
      refine ⟨trivial, ?_, ?_⟩
      · intro _
        exact ⟨_, rfl, closed_revokeContact rfl⟩
      · intro result hcall
        contradiction
  | committing =>
    cases hnext
    refine ⟨trivial, ?_, ?_⟩
    · intro hcall
      contradiction
    · intro result _
      exact ⟨rfl, rfl⟩
  | returned result => contradiction
  | _ => exact h.elim

/-- A call takes its next statement. -/
theorem Sealed.go (h : s.Sealed) {id : Nat}
    (hget : s.calls.get? id = some p) (hguard : s.Unraced (.go id))
    (hnext : p.call.next hashToken s.connection.current = some (e, call)) :
    ({ connection := s.connection.take e
       calls := s.calls.set id ⟨p.operation, call⟩
       reopened := s.revocationsOf (reopens p.call) ++ s.reopened } : State).Sealed := by
  have hown : ∀ contactId call', (⟨p.operation, call⟩ : Process) =
      ⟨.revokePeerLink contactId, call'⟩ →
      call = call' ∧ s.calls.get? id = some ⟨.revokePeerLink contactId, p.call⟩ := by
    intro contactId call' heq
    obtain ⟨hoperation, hcall⟩ := Process.mk.inj heq
    rw [← hoperation]
    exact ⟨hcall, hget⟩
  constructor
  · intro other contactId call' hget'
    rcases Dict.get?_set_cases hget' with ⟨_, heq⟩ | ⟨_, hbefore⟩
    · obtain ⟨rfl, hprocess⟩ := hown contactId call' heq
      exact (next_revoking (h.revoking id contactId p.call hprocess) hnext).1
    · exact h.revoking other contactId call' hbefore
  · intro other contactId hget' hnot
    rcases Dict.get?_set_cases hget' with ⟨_, heq⟩ | ⟨_, hbefore⟩
    · obtain ⟨rfl, hprocess⟩ := hown contactId _ heq
      obtain ⟨t', rfl, hclosed⟩ :=
        (next_revoking (h.revoking id contactId p.call hprocess) hnext).2.1 rfl
      exact hclosed
    · obtain ⟨hne, hunmarked⟩ := reopens_ne hbefore (hasRevoked_committing contactId) hnot
      have hclosed := h.committing other contactId hbefore hunmarked
      apply Session.current_take hclosed
      · rintro t' rfl
        exact hclosed.next hne hnext
      · rintro rfl
        obtain ⟨row, hrow, _⟩ := rollback_cases hnext
        have hrolls : s.rollsBack id = true := by
          obtain ⟨operation, call'⟩ := p
          cases hrow
          unfold rollsBack
          rw [hget]
        exact closed_of_endangered
          (hguard hrolls _ (Dict.mem_entries_iff.mpr hbefore)) hunmarked
  · intro other contactId result hget' hnot
    rcases Dict.get?_set_cases hget' with ⟨rfl, heq⟩ | ⟨_, hbefore⟩
    · obtain ⟨rfl, hprocess⟩ := hown contactId _ heq
      obtain ⟨rfl, hcall⟩ :=
        (next_revoking (h.revoking id contactId p.call hprocess) hnext).2.2 result rfl
      rw [hcall] at hprocess
      obtain ⟨_, hunmarked⟩ := reopens_ne hprocess (hasRevoked_committing contactId) hnot
      have hclosed := h.committing id contactId hprocess hunmarked
      exact ⟨hclosed, hclosed⟩
    · obtain ⟨hne, hunmarked⟩ := reopens_ne hbefore (hasRevoked_returned contactId result) hnot
      have hclosed := h.returned other contactId result hbefore hunmarked
      apply hclosed.take
      rintro t' rfl
      exact hclosed.current.next hne hnext

/-- A statement keeps closed what a revocation has closed, if it meets the guard. -/
theorem step_sealed (h : s.Sealed) {e : Event} (hguard : s.Unraced e)
    (hstep : s.step hashToken e = some s') : s'.Sealed := by
  cases e with
  | call id operation now =>
    simp only [step] at hstep
    split at hstep
    · contradiction
    cases hstep
    exact h.begin
  | go id =>
    simp only [step] at hstep
    split at hstep
    · contradiction
    rename_i p hget
    split at hstep
    · contradiction
    rename_i effect call hnext
    cases hstep
    exact h.go hget hguard hnext

/-- Where no rollback takes the updates of a revocation with it, a revocation that has returned is
effective until a method that may open the contact again writes. -/
theorem effective_of_guarded_run {t : Tables} {events : List Event}
    (hguard : Guarded (step hashToken) Unraced (start t) events)
    (hrun : run (step hashToken) (start t) events = some s) : s.Effective hashToken :=
  effective_of_sealed (invariant_of_guarded_run
    (fun _ _ _ h hguard hstep => step_sealed h hguard hstep) (sealed_start t) hguard hrun)

/-! ## A replay and a revocation -/

/-- One active contact, with a token and a nonce that was received before. -/
def oneContact : Tables :=
  { contacts := ⟨[("hub:mallory",
      { hubUsername := "mallory"
        displayName := "Mallory"
        ed25519Pub := "ed"
        x25519Pub := "x"
        status := .active
        localCrmId := none
        createdAt := 0
        revokedAt := none })], List.nodup_singleton _⟩
    links := ⟨[("hub:mallory",
      { inboundTokenHash := "t1"
        outboundToken := "t2"
        endpoints := []
        establishedAt := 0
        lastSeenAt := none
        revokedAt := none })], List.nodup_singleton _⟩
    nonces := ⟨[(⟨"hub:mallory", "chat", "n1"⟩, 0)], List.nodup_singleton _⟩ }

/-- The nonce is sent again, up to the statement that finds it there. -/
def replayed : List Event :=
  [.call 0 (.recordNonce (.text "n1") "hub:mallory" (.text "chat")) 10, .go 0, .go 0, .go 0]

/-- The rollback comes before the revocation. -/
def replayThenRevoke : List Event :=
  replayed ++ [.go 0, .call 1 (.revokePeerLink "hub:mallory") 11, .go 1, .go 1, .go 1]

/-- The rollback comes between the updates of the revocation and its commit. -/
def revokeInBetween : List Event :=
  replayed ++ [.call 1 (.revokePeerLink "hub:mallory") 11, .go 1, .go 1, .go 0, .go 1]

theorem guarded_replayThenRevoke :
    Guarded (step id) Unraced (start oneContact) replayThenRevoke := by
  decide +kernel

theorem effective_replayThenRevoke :
    ∃ s, run (step id) (start oneContact) replayThenRevoke = some s ∧
      s.calls.get? 1 = some ⟨.revokePeerLink "hub:mallory", .returned .done⟩ ∧
      s.reopened = [] ∧ s.Effective id := by
  have hend : (run (step id) (start oneContact) replayThenRevoke).map
      (fun s => (s.calls.get? 1, s.reopened)) =
        some (some ⟨.revokePeerLink "hub:mallory", .returned .done⟩, []) := by
    decide +kernel
  obtain ⟨s, hrun, hs⟩ := Option.map_eq_some_iff.mp hend
  obtain ⟨hcall, hreopened⟩ := Prod.mk.inj hs
  exact ⟨s, hrun, hcall, hreopened, effective_of_guarded_run guarded_replayThenRevoke hrun⟩

/-- The revocation has returned, and the token still leads to the contact. -/
theorem not_effective_revokeInBetween :
    ∃ s, run (step id) (start oneContact) revokeInBetween = some s ∧
      s.calls.get? 1 = some ⟨.revokePeerLink "hub:mallory", .returned .done⟩ ∧
      s.reopened = [] ∧ ¬ s.Effective id := by
  have hend : (run (step id) (start oneContact) revokeInBetween).map
      (fun s => (s.calls.get? 1, s.reopened,
        (s.connection.current.findContactByInboundToken id "t1").map PeerRow.contactId)) =
        some (some ⟨.revokePeerLink "hub:mallory", .returned .done⟩, [], some "hub:mallory") := by
    decide +kernel
  obtain ⟨s, hrun, hs⟩ := Option.map_eq_some_iff.mp hend
  obtain ⟨hcall, hrest⟩ := Prod.mk.inj hs
  obtain ⟨hreopened, hfound⟩ := Prod.mk.inj hrest
  obtain ⟨row, hrow, hid⟩ := Option.map_eq_some_iff.mp hfound
  refine ⟨s, hrun, hcall, hreopened, ?_⟩
  intro h
  refine (h 1 "hub:mallory" .done hcall ?_).found "t1" row hrow hid
  rw [hreopened]
  exact List.not_mem_nil

end State

end Revocation
end TinyAgentOS.Contacts
