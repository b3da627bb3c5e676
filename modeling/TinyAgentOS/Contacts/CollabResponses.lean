import TinyAgentOS.Contacts.PeerRoutes
import TinyAgentOS.Projects.Invites

/-!
# Answers to collaboration invites

A contact answers an invite by an envelope.  To accept, the invite is read and compared with the
contact and the project, and then the member is added; to decline, the invite is marked expired
as it is.  Whatever happens to the invite between the statements is not seen.

Main results:

- `CollabState.Sound.step`: a contact that is past the checks answers an invite of its own.
- `CollabState.ownAnswer_iff`: which statements of an answer leave the invites of others alone,
  and add no member but on a pending invite.
- `CollabState.everyOwnAnswer_iff`: the runs that consist of such statements.
- `CollabState.not_everyOwnAnswer`: an invite declined by a contact it is not for.
-/

namespace TinyAgentOS.Contacts

open Collections
open Json (Value)
open Projects (Clock Invite InviteEvent InviteId InviteState InviteStatus)
open Transition

/-! ## Calls -/

/-- A row of `project_members`, as far as it is not its key. -/
structure CollabMember where
  memberKind : String
  role : String

/-- Why an answer is not dispatched. -/
inductive ResponseError where
  | missingId
  | notFound
  | notPending (status : InviteStatus)
  | projectMismatch
  | contactMismatch
  | database

/-- What the handler returns, or that an exception is left to the server. -/
inductive ResponseReply where
  | otherKind
  | dispatched
  | refused (error : ResponseError)
  | raised

/-- Where the handling of an answer stands: the statement it awaits. -/
inductive ResponseCall where
  /-- `get` reads the invite. -/
  | reading (contactId : String) (inviteId : Binding) (projectId : Value)
  /-- `get` has found the invite pending and past its time. -/
  | lapsing (contactId : String) (inviteId : InviteId) (projectId : Value)
  /-- `get` reads the invite again. -/
  | rereading (contactId : String) (inviteId : InviteId) (projectId : Value)
  | adding (contactId : String) (inviteId : InviteId) (projectId : String)
  | logging (contactId : String) (inviteId : InviteId) (projectId : String)
  | marking (contactId : String) (inviteId : InviteId) (projectId : String)
  | declining (contactId : String) (inviteId : Binding)
  | done (reply : ResponseReply)

/-- The statements of the answers, those of other calls on the invites, and removals. -/
inductive CollabEvent where
  | invites (e : InviteEvent)
  | memberRemoved (projectId memberId : String)
  | responded (id : Nat) (contactId : String) (envelope : Envelope)
  | inviteRead (id : Nat) (now : Clock)
  | lapsed (id : Nat)
  | inviteReread (id : Nat)
  | memberAdded (id : Nat)
  | activityLogged (id : Nat)
  | accepted (id : Nat)
  | declined (id : Nat)
  /-- The statement raises. -/
  | failed (id : Nat)

structure CollabState where
  store : InviteState
  members : Dict (String × String) CollabMember
  calls : Dict Nat ResponseCall

/-- The fields of a body that is an object. -/
def bodyFields : Value → Option (List (String × Value))
  | .obj fields => some fields
  | _ => none

/-- `_handle_collab_response` up to its first statement. -/
def Host.handleCollabResponse (host : Host) (contactId : String) (accept : Bool)
    (fields : List (String × Value)) : ResponseCall :=
  let inviteId := (fields.lookup "invite_id").getD (.str "")
  let projectId := (fields.lookup "project_id").getD (.str "")
  let accepted := ((fields.lookup "accepted").map host.truthy).getD accept
  if !host.truthy inviteId || !host.truthy projectId then .done (.refused .missingId)
  else if accepted then .reading contactId (host.bind inviteId) projectId
  else .declining contactId (host.bind inviteId)

/-- The dispatch of `peer_inbox`, as far as answers go. -/
def Host.dispatch (host : Host) (contactId : String) (envelope : Envelope) : ResponseCall :=
  let accept := isText "collab_invite_accept" (envelope.get "kind")
  if accept || isText "collab_invite_decline" (envelope.get "kind") then
    match bodyFields ((Dict.get? envelope "body").getD (.obj [])) with
    | none => .done .raised
    | some fields => host.handleCollabResponse contactId accept fields
  else .done .otherKind

/-- The checks of the invite that was read. -/
def checkInvite (row : Option Invite) (contactId : String) (projectId : Value) :
    Except ResponseError String :=
  match row with
  | none => .error .notFound
  | some invite =>
    if invite.status ≠ .pending then .error (.notPending invite.status)
    else
      match projectId, invite.projectId with
      | .str p, some q =>
        if p ≠ q then .error .projectMismatch
        else if invite.contactId ≠ some contactId then .error .contactMismatch
        else .ok q
      | _, _ => .error .projectMismatch

/-- The handling after the checks. -/
def afterCheck (row : Option Invite) (contactId : String) (inviteId : InviteId)
    (projectId : Value) : ResponseCall :=
  match checkInvite row contactId projectId with
  | .error error => .done (.refused error)
  | .ok project => .adding contactId inviteId project

namespace CollabState

/-- Tables, and no answer yet. -/
def start (store : InviteState) (members : Dict (String × String) CollabMember) : CollabState :=
  ⟨store, members, Dict.empty⟩

def goOn (s : CollabState) (id : Nat) (call : ResponseCall) : CollabState :=
  { s with calls := s.calls.set id call }

/-- `ON CONFLICT DO NOTHING`. -/
def addMember (s : CollabState) (projectId memberId : String) : CollabState :=
  if (s.members.get? (projectId, memberId)).isSome then s
  else { s with members := s.members.set (projectId, memberId) ⟨"human", "member"⟩ }

/-- A call whose statement raises: the updates of the invite are best effort. -/
def afterFailure : ResponseCall → ResponseReply
  | .adding _ _ _ => .refused .database
  | .logging _ _ _ => .refused .database
  | .marking _ _ _ => .dispatched
  | .declining _ _ => .dispatched
  | _ => .raised

/-- One statement. -/
def step (host : Host) (sha256 : String → String) (s : CollabState) :
    CollabEvent → Option CollabState
  | .invites e => (s.store.step sha256 e).map fun store => { s with store := store }
  | .memberRemoved projectId memberId =>
    some { s with members := s.members.pop (projectId, memberId) }
  | .responded id contactId envelope =>
    if (s.calls.get? id).isSome then none
    else some (s.goOn id (host.dispatch contactId envelope))
  | .inviteRead id now =>
    match s.calls.get? id with
    | some (.reading contactId (.text inviteId) projectId) =>
      let row := s.store.invites.get? inviteId
      if row.any (fun invite => invite.status = .pending && invite.expiresTs < now) then
        some (s.goOn id (.lapsing contactId inviteId projectId))
      else some (s.goOn id (afterCheck row contactId inviteId projectId))
    | some (.reading _ .null _) => some (s.goOn id (.done (.refused .notFound)))
    | some (.reading _ .unsupported _) => some (s.goOn id (.done .raised))
    | _ => none
  | .lapsed id =>
    match s.calls.get? id with
    | some (.lapsing contactId inviteId projectId) =>
      some
        { s.goOn id (.rereading contactId inviteId projectId) with
          store := s.store.update inviteId InviteState.anyStatus fun v =>
            { v with status := .expired } }
    | _ => none
  | .inviteReread id =>
    match s.calls.get? id with
    | some (.rereading contactId inviteId projectId) =>
      some (s.goOn id
        (afterCheck (s.store.invites.get? inviteId) contactId inviteId projectId))
    | _ => none
  | .memberAdded id =>
    match s.calls.get? id with
    | some (.adding contactId inviteId projectId) =>
      some ((s.addMember projectId contactId).goOn id (.logging contactId inviteId projectId))
    | _ => none
  | .activityLogged id =>
    match s.calls.get? id with
    | some (.logging contactId inviteId projectId) =>
      some (s.goOn id (.marking contactId inviteId projectId))
    | _ => none
  | .accepted id =>
    match s.calls.get? id with
    | some (.marking contactId inviteId _) =>
      (s.store.step sha256 (.markAccepted inviteId contactId)).map fun store =>
        { s.goOn id (.done .dispatched) with store := store }
    | _ => none
  | .declined id =>
    match s.calls.get? id with
    | some (.declining _ (.text inviteId)) =>
      (s.store.step sha256 (.markExpired inviteId)).map fun store =>
        { s.goOn id (.done .dispatched) with store := store }
    | some (.declining _ _) => some (s.goOn id (.done .dispatched))
    | _ => none
  | .failed id =>
    match s.calls.get? id with
    | some (.done _) => none
    | some call => some (s.goOn id (.done (afterFailure call)))
    | none => none

end CollabState

/-- The answer that a statement belongs to. -/
def CollabEvent.callId : CollabEvent → Option Nat
  | .invites _ => none
  | .memberRemoved _ _ => none
  | .responded id _ _ => some id
  | .inviteRead id _ => some id
  | .lapsed id => some id
  | .inviteReread id => some id
  | .memberAdded id => some id
  | .activityLogged id => some id
  | .accepted id => some id
  | .declined id => some id
  | .failed id => some id

/-- The contact whose answer is handled. -/
def ResponseCall.contactId : ResponseCall → Option String
  | .reading contactId _ _ => some contactId
  | .lapsing contactId _ _ => some contactId
  | .rereading contactId _ _ => some contactId
  | .adding contactId _ _ => some contactId
  | .logging contactId _ _ => some contactId
  | .marking contactId _ _ => some contactId
  | .declining contactId _ => some contactId
  | .done _ => none

/-- The contact, the invite and the project of an answer that is past the checks. -/
def ResponseCall.checked : ResponseCall → Option (String × InviteId × String)
  | .adding contactId inviteId projectId => some (contactId, inviteId, projectId)
  | .logging contactId inviteId projectId => some (contactId, inviteId, projectId)
  | .marking contactId inviteId projectId => some (contactId, inviteId, projectId)
  | _ => none

namespace CollabState

/-- A statement of an answer changes no invite that is for another contact, and adds nobody but
the contact, to the project of its own invite, while that is pending. -/
structure OwnEffect (s s' : CollabState) (call : ResponseCall) (contactId : String) : Prop where
  status : ∀ x v, s.store.invites.get? x = some v → v.contactId ≠ some contactId →
    s'.store.status x = some v.status
  members : ∀ key, s.members.get? key = none → (s'.members.get? key).isSome →
    ∃ inviteId v, call = .adding contactId inviteId key.1 ∧ key.2 = contactId ∧
      s.store.invites.get? inviteId = some v ∧ v.contactId = some contactId ∧
        v.projectId = some key.1 ∧ v.status = .pending

/-- What a statement does for an answer is that answer's right. -/
def OwnAnswer (s : CollabState) (e : CollabEvent) (s' : CollabState) : Prop :=
  ∀ id call contactId, e.callId = some id → s.calls.get? id = some call →
    call.contactId = some contactId → s.OwnEffect s' call contactId

/-- An invite that is declined, or found past its time, is the contact's own or stays as it is,
and an invite on which a member is added is still pending. -/
def KeepsToOwn (s : CollabState) : CollabEvent → Prop
  | .lapsed id => ∀ contactId x projectId,
      s.calls.get? id = some (.lapsing contactId x projectId) →
        ∀ v, s.store.invites.get? x = some v → v.contactId = some contactId ∨ v.status = .expired
  | .memberAdded id => ∀ contactId x projectId,
      s.calls.get? id = some (.adding contactId x projectId) →
        (s.members.get? (projectId, contactId)).isSome ∨ s.store.status x = some .pending
  | .declined id => ∀ contactId x, s.calls.get? id = some (.declining contactId (.text x)) →
      ∀ v, s.store.invites.get? x = some v → v.contactId = some contactId ∨ v.status ≠ .pending
  | _ => True

/-- An answer that is past the checks is of an invite of its contact to its project. -/
def Sound (s : CollabState) : Prop :=
  ∀ id call contactId x projectId, s.calls.get? id = some call →
    call.checked = some (contactId, x, projectId) →
      ∃ v, s.store.invites.get? x = some v ∧ v.contactId = some contactId ∧
        v.projectId = some projectId

/-! ## The rows of invites -/

/-- An invite stays with its contact and its project. -/
def SameOwner (t t' : InviteState) : Prop :=
  ∀ x v, t.invites.get? x = some v →
    ∃ v', t'.invites.get? x = some v' ∧ v'.contactId = v.contactId ∧ v'.projectId = v.projectId

theorem sameOwner_of_eq {t t' : InviteState} (h : t'.invites = t.invites) : SameOwner t t' := by
  intro x v hget
  exact ⟨v, by rw [h, hget], rfl, rfl⟩

variable {f : Invite → Invite}

theorem sameOwner_update (t : InviteState) (inviteId : InviteId) (expected : List InviteStatus)
    (hf : ∀ v, (f v).contactId = v.contactId ∧ (f v).projectId = v.projectId) :
    SameOwner t (t.update inviteId expected f) := by
  intro x v hget
  have hget' : (t.update inviteId expected f).invites.get? x =
      if inviteId = x then (t.invites.get? x).map fun v => if v.status ∈ expected then f v else v
      else t.invites.get? x := Dict.get?_modify _ _ _ _
  rw [hget', hget, Option.map_some]
  by_cases hx : inviteId = x
  · rw [if_pos hx]
    by_cases hst : v.status ∈ expected
    · rw [if_pos hst]
      exact ⟨f v, rfl, hf v⟩
    · rw [if_neg hst]
      exact ⟨v, rfl, rfl, rfl⟩
  · rw [if_neg hx]
    exact ⟨v, rfl, rfl, rfl⟩

theorem sameOwner_redeem (t : InviteState) (inviteId : InviteId) (expected : List InviteStatus)
    (hf : ∀ v, (f v).contactId = v.contactId ∧ (f v).projectId = v.projectId) :
    SameOwner t (t.redeem inviteId expected f) := by
  unfold InviteState.redeem
  split
  · exact sameOwner_update t inviteId expected hf
  · exact sameOwner_of_eq rfl

/-- No statement on the invites gives one to another contact or project. -/
theorem sameOwner_step {sha256 : String → String} {t t' : InviteState} {e : InviteEvent}
    (hstep : t.step sha256 e = some t') : SameOwner t t' := by
  cases e with
  | mintInserted id inviteId =>
    simp only [InviteState.step] at hstep
    split at hstep
    · split at hstep
      · rename_i hfree
        cases hstep
        intro x v hget
        have hx : inviteId ≠ x := by
          rintro rfl
          rw [hget] at hfree
          contradiction
        exact ⟨v, by rw [Dict.get?_set_of_ne _ _ hx]; exact hget, rfl, rfl⟩
      · split at hstep <;> (cases hstep; exact sameOwner_of_eq rfl)
    · contradiction
  | revokeCalled inviteId | markExpired inviteId =>
    cases hstep
    exact sameOwner_update t inviteId _ fun v => ⟨rfl, rfl⟩
  | markAccepted inviteId acceptedBy =>
    cases hstep
    exact sameOwner_redeem t inviteId _ fun v => ⟨rfl, rfl⟩
  | lapsed | counted | rolledBack =>
    simp only [InviteState.step] at hstep
    split at hstep
    · cases hstep
      exact sameOwner_update t _ _ fun v => ⟨rfl, rfl⟩
    · contradiction
  | claimTried id =>
    simp only [InviteState.step] at hstep
    split at hstep
    · split at hstep
      · cases hstep
        exact sameOwner_update t _ _ fun v => ⟨rfl, rfl⟩
      · cases hstep
        exact sameOwner_of_eq rfl
    · contradiction
  | markedRedeemed id redeemedBy requestId =>
    simp only [InviteState.step] at hstep
    split at hstep
    · cases hstep
      exact sameOwner_redeem t _ _ fun v => ⟨rfl, rfl⟩
    · contradiction
  | mintCalled | getCalled | redeemCalled =>
    simp only [InviteState.step] at hstep
    split at hstep
    · contradiction
    · split at hstep <;> (cases hstep; exact sameOwner_of_eq rfl)

/-! ## Answers past the checks -/

section Steps

variable {host : Host} {sha256 : String → String} {s s' : CollabState} {e : CollabEvent}

variable {contactId : String} {x : InviteId} {call : ResponseCall}

variable {row : Option Invite} {projectId : Value} {expected : List InviteStatus}

theorem checkInvite_eq_ok {project : String}
    (h : checkInvite row contactId projectId = .ok project) :
    ∃ v, row = some v ∧ v.contactId = some contactId ∧ v.projectId = some project ∧
      v.status = .pending := by
  unfold checkInvite at h
  split at h
  · contradiction
  rename_i invite
  split at h
  · contradiction
  rename_i hstatus
  split at h
  · rename_i p q hproject
    split at h
    · contradiction
    split at h
    · contradiction
    rename_i hcontact
    cases h
    exact ⟨invite, rfl, not_not.mp hcontact, hproject, not_not.mp hstatus⟩
  · contradiction

theorem checked_afterCheck {c x p : String} {inviteId : InviteId}
    (h : (afterCheck row contactId inviteId projectId).checked = some (c, x, p)) :
    x = inviteId ∧ ∃ v, row = some v ∧ v.contactId = some c ∧ v.projectId = some p := by
  unfold afterCheck at h
  split at h
  · contradiction
  rename_i project hcheck
  cases h
  obtain ⟨v, hrow, hcontact, hproject, _⟩ := checkInvite_eq_ok hcheck
  exact ⟨rfl, v, hrow, hcontact, hproject⟩

theorem checked_dispatch (contactId : String) (envelope : Envelope) :
    (host.dispatch contactId envelope).checked = none := by
  unfold Host.dispatch
  simp only
  split
  · split
    · rfl
    · unfold Host.handleCollabResponse
      simp only
      split
      · rfl
      · split <;> rfl
  · rfl

theorem sound_start (store : InviteState) (members : Dict (String × String) CollabMember) :
    Sound (start store members) := by
  intro id call contactId x projectId hcall
  contradiction

/-- The tables move on, and one call at most goes on, past the checks only with an invite of its
own. -/
theorem Sound.next (h : s.Sound) (hstore : SameOwner s.store s'.store)
    (hcalls : ∀ id call, s'.calls.get? id = some call →
      s.calls.get? id = some call ∨
        ∀ contactId x projectId, call.checked = some (contactId, x, projectId) →
          ∃ v, s.store.invites.get? x = some v ∧ v.contactId = some contactId ∧
            v.projectId = some projectId) : s'.Sound := by
  intro id call contactId x projectId hcall hchecked
  have hbefore : ∃ v, s.store.invites.get? x = some v ∧ v.contactId = some contactId ∧
      v.projectId = some projectId := by
    rcases hcalls id call hcall with hold | hnew
    · exact h id call contactId x projectId hold hchecked
    · exact hnew contactId x projectId hchecked
  obtain ⟨v, hget, hcontact, hproject⟩ := hbefore
  obtain ⟨v', hget', hcontact', hproject'⟩ := hstore x v hget
  exact ⟨v', hget', hcontact'.trans hcontact, hproject'.trans hproject⟩

/-- A call goes on, and the tables may move on. -/
theorem Sound.goOn (h : s.Sound) {id : Nat}
    (hstore : SameOwner s.store s'.store) (hset : s'.calls = s.calls.set id call)
    (hcall : ∀ contactId x projectId, call.checked = some (contactId, x, projectId) →
      ∃ v, s.store.invites.get? x = some v ∧ v.contactId = some contactId ∧
        v.projectId = some projectId) : s'.Sound := by
  apply h.next hstore
  intro i c hc
  rw [hset] at hc
  rcases Dict.get?_set_cases hc with ⟨_, rfl⟩ | ⟨_, hold⟩
  · exact Or.inr hcall
  · exact Or.inl hold

/-- A call goes on that is not past its checks, or is over. -/
theorem Sound.goOn_unchecked (h : s.Sound) {id : Nat} (hstore : SameOwner s.store s'.store)
    (hset : s'.calls = s.calls.set id call) (hcall : call.checked = none) : s'.Sound := by
  refine h.goOn hstore hset ?_
  intro c x p hchecked
  rw [hcall] at hchecked
  contradiction

theorem Sound.step (h : s.Sound) (hstep : s.step host sha256 e = some s') : s'.Sound := by
  cases e with
  | invites e =>
    obtain ⟨store, hstore, rfl⟩ := Option.map_eq_some_iff.mp hstep
    exact h.next (sameOwner_step hstore) fun id call hcall => Or.inl hcall
  | memberRemoved projectId memberId =>
    cases hstep
    exact h.next (sameOwner_of_eq rfl) fun id call hcall => Or.inl hcall
  | responded id contactId envelope =>
    simp only [step] at hstep
    split at hstep
    · contradiction
    cases hstep
    refine h.goOn (sameOwner_of_eq rfl) rfl ?_
    intro c x p hchecked
    rw [checked_dispatch] at hchecked
    contradiction
  | inviteRead id now =>
    simp only [step] at hstep
    split at hstep
    · split at hstep
      · cases hstep
        exact h.goOn_unchecked (sameOwner_of_eq rfl) rfl rfl
      · cases hstep
        refine h.goOn (sameOwner_of_eq rfl) rfl ?_
        intro c x p hchecked
        obtain ⟨rfl, v, hrow, hown⟩ := checked_afterCheck hchecked
        exact ⟨v, hrow, hown⟩
    · cases hstep
      exact h.goOn_unchecked (sameOwner_of_eq rfl) rfl rfl
    · cases hstep
      exact h.goOn_unchecked (sameOwner_of_eq rfl) rfl rfl
    · contradiction
  | lapsed id =>
    simp only [step] at hstep
    split at hstep
    · cases hstep
      exact h.goOn_unchecked (sameOwner_update _ _ _ fun v => ⟨rfl, rfl⟩) rfl rfl
    · contradiction
  | inviteReread id =>
    simp only [step] at hstep
    split at hstep
    · cases hstep
      refine h.goOn (sameOwner_of_eq rfl) rfl ?_
      intro c x p hchecked
      obtain ⟨rfl, v, hrow, hown⟩ := checked_afterCheck hchecked
      exact ⟨v, hrow, hown⟩
    · contradiction
  | memberAdded id =>
    simp only [step] at hstep
    split at hstep
    · rename_i contactId inviteId projectId hcall
      cases hstep
      have hsame : (s.addMember projectId contactId).store = s.store ∧
          (s.addMember projectId contactId).calls = s.calls := by
        unfold addMember
        split <;> exact ⟨rfl, rfl⟩
      refine h.goOn (sameOwner_of_eq (congrArg InviteState.invites hsame.1))
        (congrArg (fun calls => Dict.set calls id _) hsame.2) ?_
      intro c x p hchecked
      exact h id _ c x p hcall hchecked
    · contradiction
  | activityLogged id =>
    simp only [step] at hstep
    split at hstep
    · rename_i contactId inviteId projectId hcall
      cases hstep
      refine h.goOn (sameOwner_of_eq rfl) rfl ?_
      intro c x p hchecked
      exact h id _ c x p hcall hchecked
    · contradiction
  | accepted id =>
    simp only [step] at hstep
    split at hstep
    · obtain ⟨store, hstore, rfl⟩ := Option.map_eq_some_iff.mp hstep
      exact h.goOn_unchecked (sameOwner_step hstore) rfl rfl
    · contradiction
  | declined id =>
    simp only [step] at hstep
    split at hstep
    · obtain ⟨store, hstore, rfl⟩ := Option.map_eq_some_iff.mp hstep
      exact h.goOn_unchecked (sameOwner_step hstore) rfl rfl
    · cases hstep
      exact h.goOn_unchecked (sameOwner_of_eq rfl) rfl rfl
    · contradiction
  | failed id =>
    simp only [step] at hstep
    split at hstep
    · contradiction
    · cases hstep
      exact h.goOn_unchecked (sameOwner_of_eq rfl) rfl rfl
    · contradiction

/-! ## Whose invites an answer changes -/

/-- Statements that leave both tables keep to any answer's own. -/
theorem ownEffect_of_eq (hstore : s'.store = s.store) (hmembers : s'.members = s.members) :
    s.OwnEffect s' call contactId := by
  constructor
  · intro x v hget hother
    unfold InviteState.status
    rw [hstore, hget]
    rfl
  · intro key hnone hsome
    rw [hmembers, hnone] at hsome
    contradiction

/-- Where the members stay, an effect is on the invites alone. -/
theorem ownEffect_iff_of_members (hmembers : s'.members = s.members) :
    s.OwnEffect s' call contactId ↔
      ∀ x v, s.store.invites.get? x = some v → v.contactId ≠ some contactId →
        s'.store.status x = some v.status := by
  constructor
  · intro h
    exact h.status
  · intro h
    refine ⟨h, ?_⟩
    intro key hnone hsome
    rw [hmembers, hnone] at hsome
    contradiction

/-- An update to one status changes others' invites unless its invite is the contact's own, or
it does not apply to it. -/
theorem update_own_iff {t : InviteState}
    {f : Invite → Invite} {target : InviteStatus} (hf : ∀ v, (f v).status = target) :
    (∀ y v, t.invites.get? y = some v → v.contactId ≠ some contactId →
        (t.update x expected f).status y = some v.status) ↔
      ∀ v, t.invites.get? x = some v →
        v.contactId = some contactId ∨ v.status ∉ expected ∨ v.status = target := by
  constructor
  · intro h v hget
    by_cases hcontact : v.contactId = some contactId
    · exact Or.inl hcontact
    · right
      have hafter := h x v hget hcontact
      rw [InviteState.status_update, if_pos rfl, hget, Option.map_some] at hafter
      by_cases hmem : v.status ∈ expected
      · rw [if_pos hmem, hf] at hafter
        exact Or.inr (Option.some.inj hafter).symm
      · exact Or.inl hmem
  · intro h y v hget hcontact
    rw [InviteState.status_update]
    by_cases hy : y = x
    · subst hy
      rw [if_pos rfl, hget, Option.map_some]
      rcases h v hget with hown | hout | hsame
      · exact absurd hown hcontact
      · rw [if_neg hout]
      · rw [hf, hsame, ite_self]
    · rw [if_neg hy]
      unfold InviteState.status
      rw [hget]
      rfl

/-- An invite is marked expired: that is the contact's right on its own, and where it changes
nothing. -/
theorem ownEffect_expire_iff {id : Nat} {call' : ResponseCall} : s.OwnEffect { s.goOn id call' with
          store := s.store.update x expected fun v => { v with status := .expired } }
        call contactId ↔
      ∀ v, s.store.invites.get? x = some v →
        v.contactId = some contactId ∨ v.status ∉ expected ∨ v.status = .expired := by
  refine (ownEffect_iff_of_members (by rfl)).trans ?_
  show (∀ y v, s.store.invites.get? y = some v → v.contactId ≠ some contactId →
    (s.store.update x expected _).status y = some v.status) ↔ _
  exact update_own_iff (fun v => by rfl)

/-- Every status is one of the five. -/
theorem mem_anyStatus (status : InviteStatus) : status ∈ InviteState.anyStatus := by
  cases status <;> decide

/-- A member is added on the contact's own invite; what is left is that it is pending. -/
theorem ownEffect_addMember_iff (id : Nat) (call : ResponseCall) {projectId : String} {v : Invite}
    (hget : s.store.invites.get? x = some v)
    (hcontact : v.contactId = some contactId) (hproject : v.projectId = some projectId) :
    s.OwnEffect ((s.addMember projectId contactId).goOn id call)
        (.adding contactId x projectId) contactId ↔
      (s.members.get? (projectId, contactId)).isSome ∨ s.store.status x = some .pending := by
  by_cases hmember : (s.members.get? (projectId, contactId)).isSome
  · refine iff_of_true ?_ (Or.inl hmember)
    unfold addMember
    rw [if_pos hmember]
    exact ownEffect_of_eq rfl rfl
  · unfold addMember
    rw [if_neg hmember]
    have hnone : s.members.get? (projectId, contactId) = none :=
      Option.not_isSome_iff_eq_none.mp hmember
    constructor
    · intro h
      right
      have hadded := h.members (projectId, contactId) hnone (by
        show ((s.members.set (projectId, contactId) _).get? (projectId, contactId)).isSome
        rw [Dict.get?_set_self]
        rfl)
      obtain ⟨y, w, hcall, _, hget', _, _, hpending⟩ := hadded
      cases hcall
      unfold InviteState.status
      rw [hget', Option.map_some, hpending]
    · rintro (hthere | hpending)
      · exact absurd hthere hmember
      · refine ⟨?_, ?_⟩
        · intro y w hw _
          show s.store.status y = some w.status
          unfold InviteState.status
          rw [hw]
          rfl
        · intro key hkey hsome
          have hkey' : key = (projectId, contactId) := by
            by_contra hne
            have hsame : ((s.members.set (projectId, contactId) ⟨"human", "member"⟩).get? key) =
                s.members.get? key := Dict.get?_set_of_ne _ _ (Ne.symm hne)
            rw [show ((_ : CollabState).members.get? key).isSome =
              (((s.members.set (projectId, contactId) ⟨"human", "member"⟩).get? key)).isSome
              from rfl, hsame, hkey] at hsome
            contradiction
          subst hkey'
          refine ⟨x, v, rfl, rfl, hget, hcontact, hproject, ?_⟩
          unfold InviteState.status at hpending
          rw [hget, Option.map_some] at hpending
          exact Option.some.inj hpending

/-- A statement that leaves both tables is any answer's right. -/
theorem ownAnswer_of_eq (hstore : s'.store = s.store) (hmembers : s'.members = s.members) :
    s.OwnAnswer e s' :=
  fun _ _ _ _ _ _ => ownEffect_of_eq hstore hmembers

/-- A statement belongs to the one answer that awaits it. -/
theorem ownAnswer_iff_ownEffect {id : Nat} (hid : e.callId = some id)
    (hcall : s.calls.get? id = some call) (hcontact : call.contactId = some contactId) :
    s.OwnAnswer e s' ↔ s.OwnEffect s' call contactId := by
  constructor
  · intro hown
    exact hown id call contactId hid hcall hcontact
  · intro heffect i call' c hi hcall' hc
    cases hid.symm.trans hi
    cases hcall.symm.trans hcall'
    cases hcontact.symm.trans hc
    exact heffect

/-- An invite that is past its time is marked. -/
theorem ownAnswer_lapsed_iff {id : Nat} (hstep : s.step host sha256 (.lapsed id) = some s') :
    s.OwnAnswer (.lapsed id) s' ↔ s.KeepsToOwn (.lapsed id) := by
  simp only [step] at hstep
  split at hstep
  · rename_i contactId x projectId hcall
    cases hstep
    rw [ownAnswer_iff_ownEffect rfl hcall rfl, ownEffect_expire_iff]
    constructor
    · intro h c y p hcall' v hget
      cases hcall.symm.trans hcall'
      rcases h v hget with hc | hout | hsame
      · exact Or.inl hc
      · exact absurd (mem_anyStatus _) hout
      · exact Or.inr hsame
    · intro hkeep v hget
      exact (hkeep contactId x projectId hcall v hget).imp_right Or.inr
  · contradiction

/-- A member is added. -/
theorem ownAnswer_memberAdded_iff {id : Nat} (h : s.Sound)
    (hstep : s.step host sha256 (.memberAdded id) = some s') :
    s.OwnAnswer (.memberAdded id) s' ↔ s.KeepsToOwn (.memberAdded id) := by
  simp only [step] at hstep
  split at hstep
  · rename_i contactId x projectId hcall
    cases hstep
    obtain ⟨v, hget, hcontact, hproject⟩ := h id _ contactId x projectId hcall rfl
    rw [ownAnswer_iff_ownEffect rfl hcall rfl, ownEffect_addMember_iff id _ hget hcontact hproject]
    constructor
    · intro hmay c y p hcall'
      cases hcall.symm.trans hcall'
      exact hmay
    · intro hkeep
      exact hkeep contactId x projectId hcall
  · contradiction

/-- An acceptance is written to the contact's own invite. -/
theorem ownAnswer_accepted {id : Nat} (h : s.Sound)
    (hstep : s.step host sha256 (.accepted id) = some s') : s.OwnAnswer (.accepted id) s' := by
  simp only [step] at hstep
  split at hstep
  · rename_i contactId x projectId hcall
    obtain ⟨store, hstore, rfl⟩ := Option.map_eq_some_iff.mp hstep
    obtain ⟨v, hget, hcontact, _⟩ := h id _ contactId x projectId hcall rfl
    rw [ownAnswer_iff_ownEffect rfl hcall rfl]
    refine (ownEffect_iff_of_members (by rfl)).mpr ?_
    intro y w hw hother
    cases hstore
    have hy : y ≠ x := by
      rintro rfl
      rw [hget] at hw
      cases hw
      exact hother hcontact
    show (InviteState.redeem _ _ _ _).status y = _
    unfold InviteState.redeem
    split
    · show (InviteState.update _ _ _ _).status y = _
      rw [InviteState.status_update, if_neg hy]
      unfold InviteState.status
      rw [hw]
      rfl
    · unfold InviteState.status
      rw [hw]
      rfl
  · contradiction

/-- An invite is declined. -/
theorem ownAnswer_declined_iff {id : Nat} (hstep : s.step host sha256 (.declined id) = some s') :
    s.OwnAnswer (.declined id) s' ↔ s.KeepsToOwn (.declined id) := by
  simp only [step] at hstep
  split at hstep
  · rename_i contactId x hcall
    obtain ⟨store, hstore, rfl⟩ := Option.map_eq_some_iff.mp hstep
    cases hstore
    rw [ownAnswer_iff_ownEffect rfl hcall rfl]
    refine ownEffect_expire_iff.trans ?_
    constructor
    · intro heffect c y hcall' v hget
      cases hcall.symm.trans hcall'
      rcases heffect v hget with hc | hout | hsame
      · exact Or.inl hc
      · exact Or.inr fun hst => hout (List.mem_singleton.mpr hst)
      · right
        rw [hsame]
        decide
    · intro hkeep v hget
      rcases hkeep contactId x hcall v hget with hown | hst
      · exact Or.inl hown
      · exact Or.inr (Or.inl fun hmem => hst (List.mem_singleton.mp hmem))
  · rename_i contactId binding hbinding hcall
    cases hstep
    refine iff_of_true (ownAnswer_of_eq rfl rfl) ?_
    intro c x hcall'
    cases hcall.symm.trans hcall'
    exact (hbinding x rfl).elim
  · contradiction

/-- What a statement does is its answer's right exactly when it keeps to the contact's own. -/
theorem ownAnswer_iff (h : s.Sound) (hstep : s.step host sha256 e = some s') :
    s.OwnAnswer e s' ↔ s.KeepsToOwn e := by
  cases e with
  | invites e | memberRemoved projectId memberId =>
    refine iff_of_true ?_ trivial
    intro id call contactId hid
    contradiction
  | responded id contactId envelope =>
    simp only [step] at hstep
    split at hstep
    · contradiction
    cases hstep
    exact iff_of_true (ownAnswer_of_eq rfl rfl) trivial
  | inviteRead id now =>
    simp only [step] at hstep
    refine iff_of_true ?_ trivial
    split at hstep
    · split at hstep <;> (cases hstep; exact ownAnswer_of_eq rfl rfl)
    · cases hstep
      exact ownAnswer_of_eq rfl rfl
    · cases hstep
      exact ownAnswer_of_eq rfl rfl
    · contradiction
  | lapsed id => exact ownAnswer_lapsed_iff hstep
  | inviteReread id | activityLogged id =>
    simp only [step] at hstep
    refine iff_of_true ?_ trivial
    split at hstep
    · cases hstep
      exact ownAnswer_of_eq rfl rfl
    · contradiction
  | memberAdded id => exact ownAnswer_memberAdded_iff h hstep
  | accepted id => exact iff_of_true (ownAnswer_accepted h hstep) trivial
  | declined id => exact ownAnswer_declined_iff hstep
  | failed id =>
    simp only [step] at hstep
    refine iff_of_true ?_ trivial
    split at hstep
    · contradiction
    · cases hstep
      exact ownAnswer_of_eq rfl rfl
    · contradiction

/-- A statement that no answer awaits keeps to anyone's own. -/
theorem keepsToOwn_of_idle (hstep : s.step host sha256 e = none) : s.KeepsToOwn e := by
  cases e with
  | lapsed | memberAdded =>
    intro contactId x projectId hcall
    simp only [step, hcall] at hstep
    contradiction
  | declined id =>
    intro contactId x hcall
    simp only [step, hcall] at hstep
    contradiction
  | _ => trivial

/-- From any tables, in any interleaving: contacts answer only their own invites exactly when each
statement keeps to the contact's own. -/
theorem everyOwnAnswer_iff (host : Host) (sha256 : String → String) (store : InviteState)
    (members : Dict (String × String) CollabMember) (es : List CollabEvent) :
    EveryStep (step host sha256) OwnAnswer (start store members) es ↔
      Guarded (step host sha256) KeepsToOwn (start store members) es :=
  everyStep_iff_guarded (I := Sound) (fun _ _ => keepsToOwn_of_idle)
    (fun _ _ _ h _ hstep => h.step hstep) (fun _ _ _ => ownAnswer_iff)
    (sound_start store members) es

end Steps

/-! ## An invite declined by another -/

section Example

/-- A server whose codings play no part. -/
private def plainHost : Host where
  hashToken := id
  floatValue := fun _ => none
  floatColumn := fun _ => ""
  compactSize := fun _ => 0
  verifySignature := fun _ _ _ => true

/-- The invite to one project that waits for the contact "ada". -/
private def adaInvite : Invite where
  projectId := some "prj-1"
  pinHash := ""
  scopes := []
  approvalMode := "auto"
  checkIntervalSecs := 1800
  createdBy := "jay"
  createdTs := 0
  expiresTs := 1000
  redeemAttempts := 0
  status := .pending
  redeemedBy := none
  redeemedRequestId := none
  displayName := none
  kind := .collab
  pinRequired := false
  contactId := some "ada"

private def adaInvited : InviteState where
  invites := Dict.empty.set "inv-1" adaInvite
  calls := Dict.empty
  redemptions := []
  wrongPins := []

/-- A contact declines the invite that it names. -/
private def decline : Envelope :=
  (Dict.empty.set "kind" (.str "collab_invite_decline")).set "body"
    (.obj [("invite_id", .str "inv-1"), ("project_id", .str "prj-1")])

/-- "eve" declines the invite of "ada". -/
theorem not_everyOwnAnswer :
    ¬ EveryStep (step plainHost id) OwnAnswer (start adaInvited Dict.empty)
      [.responded 0 "eve" decline, .declined 0] := by
  intro hevery
  have hcall : ((start adaInvited Dict.empty).goOn 0
      (plainHost.dispatch "eve" decline)).calls.get? 0 =
      some (.declining "eve" (.text "inv-1")) := by
    rfl
  have hown := hevery [.responded 0 "eve" decline] (.declined 0) [] _ _ rfl rfl rfl
  have hstatus := (hown 0 _ "eve" rfl hcall rfl).status "inv-1" adaInvite rfl (by decide)
  exact absurd hstatus (by decide)

end Example

end CollabState

end TinyAgentOS.Contacts
