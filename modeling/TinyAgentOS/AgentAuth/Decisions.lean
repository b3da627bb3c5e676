import TinyAgentOS.AgentAuth.Approvals
import TinyAgentOS.Registry.AgentRegistry

/-!
# Decisions on an access request

Approvals and denials of one request run beside each other.  An approval registers an agent,
activates it and writes its grants before it decides the request; a denial decides it at once.
Approvals hold a lock that the first of them to end drops from the table of locks.  The registry
is one connection: a statement is seen by all at once, and undone by the rollback of any.

Main results:

- `Books.unique_activate`: the handle keeps all but one agent of the request from being active.
- `decidedOnce_of_orderly`: in an orderly run one agent is minted at most, and nothing is left of
  a request that is refused.
-/

namespace TinyAgentOS.AgentAuth

open Collections Transition
open Registry (Status assertValidTransition isReserved)

/-! ## Books -/

/-- A row of the registry. -/
structure AgentRow where
  handle : String
  status : Status

def AgentRow.isActive (row : AgentRow) : Bool :=
  row.status = .active

structure GrantRow where
  canonicalId : String
  scope : String
  projectId : Option String

/-- The request, the registry as its connection sees it and as it was committed, and what came of
the request: the agents registered for it, those whose activation was committed, the grants. -/
structure Books where
  record : AuthRecord
  agents : Dict String AgentRow
  committed : Dict String AgentRow
  registered : List String
  minted : List String
  grants : List GrantRow

/-- The handle of the agents of a request. -/
def AuthRecord.handle (record : AuthRecord) : String :=
  String.ofList (handleOf record).chars

namespace Books

def isActive (agents : Dict String AgentRow) (canonicalId : String) : Bool :=
  (agents.get? canonicalId).any AgentRow.isActive

/-- `ux_agent_active_handle` has another row for the handle. -/
def handleTaken (b : Books) (canonicalId : String) (row : AgentRow) : Bool :=
  row.handle ≠ "" && b.agents.entries.any fun e =>
    e.1 ≠ canonicalId && e.2.isActive && decide (e.2.handle = row.handle)

/-- `get_by_handle`, of the active agents. -/
def activeOwner (b : Books) : Option String :=
  (b.agents.entries.find? fun e => e.2.isActive && decide (e.2.handle = b.record.handle)).map
    Prod.fst

def register (b : Books) (canonicalId : String) : Books :=
  { b with
    agents := b.agents.set canonicalId ⟨b.record.handle, .pending⟩
    registered := canonicalId :: b.registered }

def activate (b : Books) (canonicalId : String) (row : AgentRow) : Books :=
  { b with agents := b.agents.set canonicalId { row with status := .active } }

def delete (b : Books) (canonicalId : String) : Books :=
  { b with agents := b.agents.pop canonicalId }

/-- All statements before it are committed, whoever made them. -/
def commit (b : Books) : Books :=
  { b with
    committed := b.agents
    minted := b.registered.filter (isActive b.agents) ++ b.minted }

def rollback (b : Books) : Books :=
  { b with agents := b.committed }

def grant (b : Books) (row : GrantRow) : Books :=
  { b with grants := row :: b.grants }

/-- `set_decision` of a request that is pending. -/
def settle (b : Books) (status : RequestStatus) : Books :=
  { b with record := { b.record with status := status } }

/-- No agent of the request is active, and it has no grant. -/
def Clean (b : Books) : Prop :=
  (∀ canonicalId ∈ b.registered, isActive b.agents canonicalId = false) ∧ b.grants = []

instance (b : Books) : Decidable b.Clean :=
  inferInstanceAs (Decidable (_ ∧ _))

/-- One agent is minted at most, and nothing is left of a refused request. -/
def Kept (b : Books) : Prop :=
  (∀ canonicalId ∈ b.minted, ∀ other ∈ b.minted, canonicalId = other) ∧
    (b.record.status = .refused → b.Clean)

/-- What holds of the books in an orderly run. -/
structure Sound (b : Books) : Prop where
  /-- The agents of the request have its handle. -/
  handles : ∀ canonicalId ∈ b.registered, ∀ row, b.agents.get? canonicalId = some row →
    row.handle = b.record.handle
  committedHandles : ∀ canonicalId ∈ b.registered, ∀ row,
    b.committed.get? canonicalId = some row → row.handle = b.record.handle
  /-- A row that is gone before its deletion is committed is one of them. -/
  gone : ∀ canonicalId row, b.committed.get? canonicalId = some row →
    b.agents.get? canonicalId = none → canonicalId ∈ b.registered
  /-- One of them is active at most. -/
  unique : ∀ canonicalId ∈ b.registered, ∀ other ∈ b.registered,
    isActive b.agents canonicalId = true → isActive b.agents other = true → canonicalId = other
  /-- An activation that was committed stays. -/
  stays : ∀ canonicalId, isActive b.committed canonicalId = true →
    isActive b.agents canonicalId = true
  minted : ∀ canonicalId ∈ b.minted,
    canonicalId ∈ b.registered ∧ isActive b.committed canonicalId = true
  clean : b.record.status = .refused → b.Clean

variable {b : Books} {agents : Dict String AgentRow} {row : AgentRow} {canonicalId other : String}

theorem kept_of_sound (h : b.Sound) : b.Kept := by
  refine ⟨?_, h.clean⟩
  intro canonicalId hmem other hother
  obtain ⟨hregistered, hactive⟩ := h.minted canonicalId hmem
  obtain ⟨hregistered', hactive'⟩ := h.minted other hother
  exact h.unique canonicalId hregistered other hregistered' (h.stays canonicalId hactive)
    (h.stays other hactive')

/-- The books stay clean where nothing becomes active and nothing is granted. -/
theorem Clean.of_active {b' : Books} (h : b.Clean) (hgrants : b'.grants = b.grants)
    (hactive : ∀ canonicalId ∈ b'.registered, isActive b'.agents canonicalId = true →
      canonicalId ∈ b.registered ∧ isActive b.agents canonicalId = true) : b'.Clean := by
  refine ⟨?_, hgrants.trans h.2⟩
  intro canonicalId hmem
  by_contra hnow
  rw [Bool.not_eq_false] at hnow
  obtain ⟨hregistered, hbefore⟩ := hactive canonicalId hmem hnow
  exact Bool.false_ne_true ((h.1 canonicalId hregistered).symm.trans hbefore)

/-- An active agent is the one that is stored, or was active. -/
theorem isActive_set (h : isActive (agents.set canonicalId row) other = true) :
    canonicalId = other ∧ row.isActive = true ∨
      canonicalId ≠ other ∧ isActive agents other = true := by
  by_cases hother : canonicalId = other
  · subst hother
    left
    refine ⟨rfl, ?_⟩
    simpa [isActive] using h
  · right
    rw [isActive, Dict.get?_set_of_ne _ _ hother] at h
    exact ⟨hother, h⟩

/-- Storing an agent leaves the others alone. -/
theorem isActive_set_of_ne (row : AgentRow) (hother : canonicalId ≠ other) :
    isActive (agents.set canonicalId row) other = isActive agents other := by
  rw [isActive, isActive, Dict.get?_set_of_ne _ _ hother]

/-- A new agent is pending under an id that was free. -/
theorem sound_register (h : b.Sound)
    (hfree : b.agents.get? canonicalId = none) : (b.register canonicalId).Sound := by
  have hinactive : isActive b.agents canonicalId = false := by simp [isActive, hfree]
  have hnew : ∀ other, isActive (b.register canonicalId).agents other = true →
      canonicalId ≠ other ∧ isActive b.agents other = true := by
    intro other hactive
    exact (isActive_set hactive).resolve_left fun hself => Bool.false_ne_true hself.2
  have hold : ∀ other ∈ (b.register canonicalId).registered, canonicalId ≠ other →
      other ∈ b.registered :=
    fun other hmem hne => (List.mem_cons.mp hmem).resolve_left (Ne.symm hne)
  have hcommitted : ∀ other, isActive b.committed other = true → canonicalId ≠ other := by
    rintro other hactive rfl
    have hactive' := h.stays canonicalId hactive
    rw [hinactive] at hactive'
    contradiction
  constructor
  · intro other hmem row hget
    rcases Dict.get?_set_cases hget with ⟨_, rfl⟩ | ⟨hne, hget⟩
    · rfl
    · exact h.handles other (hold other hmem hne) row hget
  · intro other hmem row hget
    rcases List.mem_cons.mp hmem with rfl | hmem
    · exact h.committedHandles other (h.gone other row hget hfree) row hget
    · exact h.committedHandles other hmem row hget
  · intro other row hget hnone
    by_cases hne : canonicalId = other
    · exact List.mem_cons.mpr (Or.inl hne.symm)
    · rw [register, Dict.get?_set_of_ne _ _ hne] at hnone
      exact List.mem_cons_of_mem _ (h.gone other row hget hnone)
  · intro id hid other hother hactive hactive'
    obtain ⟨hne, hactive⟩ := hnew id hactive
    obtain ⟨hne', hactive'⟩ := hnew other hactive'
    exact h.unique id (hold id hid hne) other (hold other hother hne') hactive hactive'
  · intro other hactive
    rw [register, isActive_set_of_ne _ (hcommitted other hactive)]
    exact h.stays other hactive
  · intro other hmem
    obtain ⟨hregistered, hactive⟩ := h.minted other hmem
    exact ⟨List.mem_cons_of_mem _ hregistered, hactive⟩
  · intro hrefused
    refine (h.clean hrefused).of_active rfl ?_
    intro other hmem hactive
    obtain ⟨hne, hactive⟩ := hnew other hactive
    exact ⟨hold other hmem hne, hactive⟩

/-- The handle keeps all but one agent of the request from being active. -/
theorem unique_activate (h : b.Sound)
    (hself : canonicalId ∈ b.registered) (hget : b.agents.get? canonicalId = some row)
    (htaken : b.handleTaken canonicalId row = false) (hother : other ∈ b.registered)
    (hactive : isActive b.agents other = true) : canonicalId = other := by
  by_contra hne
  obtain ⟨row', hget', hactive'⟩ : ∃ row', b.agents.get? other = some row' ∧
      row'.isActive = true := by
    simpa [isActive, Option.any_eq_true] using hactive
  have hhandle := h.handles canonicalId hself row hget
  have hhandle' := h.handles other hother row' hget'
  have hnonempty : row.handle ≠ "" := by
    rw [hhandle]
    intro hempty
    have hnil : (handleOf b.record).chars = [] := by simpa [AuthRecord.handle] using hempty
    exact (handleOf b.record).ne_nil hnil
  have hentry : (other, row') ∈ b.agents.entries := Dict.mem_entries_iff.mpr hget'
  have hviolated : b.handleTaken canonicalId row = true := by
    simp only [handleTaken, Bool.and_eq_true, decide_eq_true_eq, List.any_eq_true]
    exact ⟨hnonempty, (other, row'), hentry, ⟨Ne.symm hne, hactive'⟩, hhandle'.trans hhandle.symm⟩
  exact Bool.false_ne_true (htaken.symm.trans hviolated)

/-- An agent is activated. -/
theorem sound_activate (h : b.Sound)
    (hself : canonicalId ∈ b.registered) (hget : b.agents.get? canonicalId = some row)
    (htaken : b.handleTaken canonicalId row = false) (hopen : b.record.status ≠ .refused) :
    (b.activate canonicalId row).Sound := by
  have hnew : ∀ other ∈ b.registered,
      isActive (b.activate canonicalId row).agents other = true → canonicalId = other := by
    intro other hmem hactive
    rcases isActive_set hactive with ⟨heq, _⟩ | ⟨_, hactive⟩
    · exact heq
    · exact unique_activate h hself hget htaken hmem hactive
  refine ⟨?_, h.committedHandles, ?_, ?_, ?_, h.minted, fun hrefused => absurd hrefused hopen⟩
  · intro other hmem row' hget'
    rcases Dict.get?_set_cases hget' with ⟨rfl, rfl⟩ | ⟨_, hget'⟩
    · exact h.handles canonicalId hself row hget
    · exact h.handles other hmem row' hget'
  · intro other row' hget' hnone
    by_cases hne : canonicalId = other
    · exact hne ▸ hself
    · rw [activate, Dict.get?_set_of_ne _ _ hne] at hnone
      exact h.gone other row' hget' hnone
  · intro id hid other hother hactive hactive'
    exact (hnew id hid hactive).symm.trans (hnew other hother hactive')
  · intro other hactive
    by_cases hne : canonicalId = other
    · subst hne
      simp [activate, isActive, AgentRow.isActive]
    · rw [activate, isActive_set_of_ne _ hne]
      exact h.stays other hactive

/-- An agent that is left was there. -/
theorem isActive_pop (h : isActive (agents.pop canonicalId) other = true) :
    canonicalId ≠ other ∧ isActive agents other = true := by
  by_cases hne : canonicalId = other
  · subst hne
    simp [isActive] at h
  · rw [isActive, Dict.get?_pop_of_ne _ hne] at h
    exact ⟨hne, h⟩

/-- A row that is not active is deleted. -/
theorem sound_delete (h : b.Sound)
    (hself : canonicalId ∈ b.registered) (hinactive : isActive b.agents canonicalId = false) :
    (b.delete canonicalId).Sound := by
  refine ⟨?_, h.committedHandles, ?_, ?_, ?_, h.minted, ?_⟩
  · intro other hmem row hget
    exact h.handles other hmem row (Dict.get?_pop_cases hget).2
  · intro other row hget hnone
    by_cases hne : canonicalId = other
    · exact hne ▸ hself
    · rw [delete, Dict.get?_pop_of_ne _ hne] at hnone
      exact h.gone other row hget hnone
  · intro id hid other hother hactive hactive'
    exact h.unique id hid other hother (isActive_pop hactive).2 (isActive_pop hactive').2
  · intro other hactive
    have hold := h.stays other hactive
    have hne : canonicalId ≠ other := by
      rintro rfl
      rw [hinactive] at hold
      contradiction
    rw [delete, isActive, Dict.get?_pop_of_ne _ hne]
    exact hold
  · intro hrefused
    refine (h.clean hrefused).of_active rfl ?_
    intro other hmem hactive
    exact ⟨hmem, (isActive_pop hactive).2⟩

theorem sound_commit (h : b.Sound) : b.commit.Sound := by
  refine ⟨h.handles, h.handles, ?_, h.unique, fun _ hactive => hactive, ?_, h.clean⟩
  · intro canonicalId row hget hnone
    have hboth : some row = none := hget.symm.trans hnone
    contradiction
  · intro canonicalId hmem
    rcases List.mem_append.mp hmem with hmem | hmem
    · exact List.mem_filter.mp hmem
    · obtain ⟨hregistered, hactive⟩ := h.minted canonicalId hmem
      exact ⟨hregistered, h.stays canonicalId hactive⟩

theorem sound_rollback (h : b.Sound) : b.rollback.Sound := by
  refine ⟨h.committedHandles, h.committedHandles, ?_, ?_, fun _ hactive => hactive, h.minted, ?_⟩
  · intro canonicalId row hget hnone
    have hboth : some row = none := hget.symm.trans hnone
    contradiction
  · intro id hid other hother hactive hactive'
    exact h.unique id hid other hother (h.stays id hactive) (h.stays other hactive')
  · intro hrefused
    refine (h.clean hrefused).of_active rfl ?_
    intro other hmem hactive
    exact ⟨hmem, h.stays other hactive⟩

/-- A grant keeps the books sound. -/
theorem sound_grant (h : b.Sound) (hopen : b.record.status ≠ .refused)
    (row : GrantRow) : (b.grant row).Sound :=
  ⟨h.handles, h.committedHandles, h.gone, h.unique, h.stays, h.minted,
    fun hrefused => absurd hrefused hopen⟩

/-- A request is settled. -/
theorem sound_settle (h : b.Sound) {status : RequestStatus}
    (hclean : status = .refused → b.Clean) : (b.settle status).Sound :=
  ⟨h.handles, h.committedHandles, h.gone, h.unique, h.stays, h.minted, hclean⟩

end Books

/-! ## Calls -/

inductive DecisionOutcome where
  | decided
  | refused (error : ApprovalError)
  /-- The call is cancelled, or a store raises. -/
  | failed

/-- Where an approval stands: the statement it awaits. -/
inductive ApprovePhase where
  | locking
  | loading
  /-- `get_by_handle`. -/
  | resolving
  | inserting
  | insertCommitting (canonicalId : String)
  /-- `set_status` reads the row. -/
  | statusReading (canonicalId : String)
  | activating (canonicalId : String) (before : Status)
  | activationCommitting (canonicalId : String) (changed : Bool)
  /-- The handler of an integrity error. -/
  | rollingBack (canonicalId : Option String)
  | deleting (canonicalId : String)
  | deletionCommitting
  | granting (canonicalId : String) (projectId : Option String) (scopes : List String)
  | permitting (canonicalId : String) (projectId : Option String) (scope : String)
      (scopes : List String)
  | deciding
  /-- The lock is dropped from the table and released. -/
  | releasing (outcome : DecisionOutcome)

/-- The agent that the approval has registered. -/
def ApprovePhase.registered? : ApprovePhase → Option String
  | .insertCommitting canonicalId => some canonicalId
  | .statusReading canonicalId => some canonicalId
  | .activating canonicalId _ => some canonicalId
  | .activationCommitting canonicalId _ => some canonicalId
  | .rollingBack canonicalId => canonicalId
  | .deleting canonicalId => some canonicalId
  | _ => none

inductive DecisionCall where
  | approving (body : ApproveBody) (lock : Nat) (phase : ApprovePhase)
  | denyLoading
  | denying
  | done (outcome : DecisionOutcome)

/-- The agent that the call has registered. -/
def DecisionCall.registered? : DecisionCall → Option String
  | .approving _ _ phase => phase.registered?
  | _ => none

/-- The statements of the calls; `id` is the call. -/
inductive DecisionEvent where
  | approveCalled (id : Nat) (body : ApproveBody)
  | locked (id : Nat)
  | loaded (id : Nat)
  | resolved (id : Nat)
  | inserted (id : Nat) (canonicalId : String)
  | insertCommitted (id : Nat)
  | statusRead (id : Nat)
  | activated (id : Nat)
  | activationCommitted (id : Nat)
  | rolledBack (id : Nat)
  /-- The rollback raises, which is passed over. -/
  | rollbackFailed (id : Nat)
  | deleted (id : Nat)
  | deletionCommitted (id : Nat)
  | deletionFailed (id : Nat)
  | granted (id : Nat)
  | permitted (id : Nat)
  /-- The memberships are synchronised, which fails silently. -/
  | membersSynced (id : Nat)
  | accepted (id : Nat)
  | failed (id : Nat)
  | released (id : Nat)
  | denyCalled (id : Nat)
  | denyLoaded (id : Nat)
  | refused (id : Nat)

/-- The books, the calls and the locks; the table of locks has one entry for the request. -/
structure DecisionState where
  books : Books
  calls : Dict Nat DecisionCall
  permissions : List (String × String)
  lockEntry : Option Nat
  nextLock : Nat
  held : List Nat

namespace DecisionState

/-- A request before any decision, in a registry that has other agents. -/
def init (record : AuthRecord) (agents : Dict String AgentRow) : DecisionState where
  books := ⟨record, agents, agents, [], [], []⟩
  calls := Dict.empty
  permissions := []
  lockEntry := none
  nextLock := 0
  held := []

def goOn (s : DecisionState) (id : Nat) (call : DecisionCall) : DecisionState :=
  { s with calls := s.calls.set id call }

/-- The approval of an agent whose handle is free, or of one that joins a project. -/
def resolve (b : Books) (body : ApproveBody) : ApprovePhase :=
  match mintFor b.record body b.activeOwner with
  | .error error => .releasing (.refused error)
  | .ok (.reuse canonicalId projectId) =>
    .granting canonicalId (some projectId) body.grantedScopes
  | .ok .fresh =>
    let name := displayNameOf b.record
    if isReserved (Registry.slugify name) name then .releasing .failed else .inserting

/-- After the rollback: the agent is deleted if it was registered. -/
def cleanUp (b : Books) (canonicalId : Option String) : ApprovePhase :=
  match canonicalId with
  | none => .releasing (.refused (.handleTaken b.record.handle))
  | some canonicalId => .deleting canonicalId

/-- One statement. -/
def step (s : DecisionState) : DecisionEvent → Option DecisionState
  | .approveCalled id body =>
    if (s.calls.get? id).isSome then none
    else
      match s.lockEntry with
      | some lock => some (s.goOn id (.approving body lock .locking))
      | none =>
        some
          { s.goOn id (.approving body s.nextLock .locking) with
            lockEntry := some s.nextLock
            nextLock := s.nextLock + 1 }
  | .locked id =>
    match s.calls.get? id with
    | some (.approving body lock .locking) =>
      if lock ∈ s.held then none
      else some { s.goOn id (.approving body lock .loading) with held := lock :: s.held }
    | _ => none
  | .loaded id =>
    match s.calls.get? id with
    | some (.approving body lock .loading) =>
      match checkApproval s.books.record body with
      | .error error => some (s.goOn id (.approving body lock (.releasing (.refused error))))
      | .ok _ => some (s.goOn id (.approving body lock .resolving))
    | _ => none
  | .resolved id =>
    match s.calls.get? id with
    | some (.approving body lock .resolving) =>
      some (s.goOn id (.approving body lock (resolve s.books body)))
    | _ => none
  | .inserted id canonicalId =>
    match s.calls.get? id with
    | some (.approving body lock .inserting) =>
      if (s.books.agents.get? canonicalId).isSome then
        some (s.goOn id (.approving body lock (.rollingBack none)))
      else
        some
          { s.goOn id (.approving body lock (.insertCommitting canonicalId)) with
            books := s.books.register canonicalId }
    | _ => none
  | .insertCommitted id =>
    match s.calls.get? id with
    | some (.approving body lock (.insertCommitting canonicalId)) =>
      some
        { s.goOn id (.approving body lock (.statusReading canonicalId)) with
          books := s.books.commit }
    | _ => none
  | .statusRead id =>
    match s.calls.get? id with
    | some (.approving body lock (.statusReading canonicalId)) =>
      match s.books.agents.get? canonicalId with
      | none => some (s.goOn id (.approving body lock (.releasing .failed)))
      | some row =>
        match assertValidTransition row.status "active" with
        | .error _ => some (s.goOn id (.approving body lock (.releasing .failed)))
        | .ok _ =>
          some (s.goOn id (.approving body lock (.activating canonicalId row.status)))
    | _ => none
  | .activated id =>
    match s.calls.get? id with
    | some (.approving body lock (.activating canonicalId before)) =>
      match (s.books.agents.get? canonicalId).filter fun row => row.status = before with
      | none =>
        some (s.goOn id (.approving body lock (.activationCommitting canonicalId false)))
      | some row =>
        if s.books.handleTaken canonicalId row then
          some (s.goOn id (.approving body lock (.rollingBack (some canonicalId))))
        else
          some
            { s.goOn id (.approving body lock (.activationCommitting canonicalId true)) with
              books := s.books.activate canonicalId row }
    | _ => none
  | .activationCommitted id =>
    match s.calls.get? id with
    | some (.approving body lock (.activationCommitting canonicalId changed)) =>
      some
        { s.goOn id (.approving body lock
            (if changed then
              .granting canonicalId (bindingProject s.books.record body) body.grantedScopes
            else .releasing .failed)) with
          books := s.books.commit }
    | _ => none
  | .rolledBack id =>
    match s.calls.get? id with
    | some (.approving body lock (.rollingBack canonicalId)) =>
      some
        { s.goOn id (.approving body lock (cleanUp s.books canonicalId)) with
          books := s.books.rollback }
    | _ => none
  | .rollbackFailed id =>
    match s.calls.get? id with
    | some (.approving body lock (.rollingBack canonicalId)) =>
      some (s.goOn id (.approving body lock (cleanUp s.books canonicalId)))
    | _ => none
  | .deleted id =>
    match s.calls.get? id with
    | some (.approving body lock (.deleting canonicalId)) =>
      some
        { s.goOn id (.approving body lock .deletionCommitting) with
          books := s.books.delete canonicalId }
    | _ => none
  | .deletionCommitted id =>
    match s.calls.get? id with
    | some (.approving body lock .deletionCommitting) =>
      some
        { s.goOn id (.approving body lock
            (.releasing (.refused (.handleTaken s.books.record.handle)))) with
          books := s.books.commit }
    | _ => none
  | .deletionFailed id =>
    match s.calls.get? id with
    | some (.approving body lock (.deleting _)) =>
      some (s.goOn id (.approving body lock
        (.releasing (.refused (.handleTaken s.books.record.handle)))))
    | some (.approving body lock .deletionCommitting) =>
      some (s.goOn id (.approving body lock
        (.releasing (.refused (.handleTaken s.books.record.handle)))))
    | _ => none
  | .granted id =>
    match s.calls.get? id with
    | some (.approving body lock (.granting canonicalId projectId (scope :: scopes))) =>
      some
        { s.goOn id (.approving body lock (.permitting canonicalId projectId scope scopes)) with
          books := s.books.grant ⟨canonicalId, scope, projectId⟩ }
    | _ => none
  | .permitted id =>
    match s.calls.get? id with
    | some (.approving body lock (.permitting canonicalId projectId scope scopes)) =>
      some
        { s.goOn id (.approving body lock (.granting canonicalId projectId scopes)) with
          permissions := (canonicalId, scope) :: s.permissions }
    | _ => none
  | .membersSynced id =>
    match s.calls.get? id with
    | some (.approving body lock (.granting _ _ [])) =>
      some (s.goOn id (.approving body lock .deciding))
    | _ => none
  | .accepted id =>
    match s.calls.get? id with
    | some (.approving body lock .deciding) =>
      if s.books.record.status = .pending then
        some
          { s.goOn id (.approving body lock (.releasing .decided)) with
            books := s.books.settle .accepted }
      else
        some (s.goOn id (.approving body lock (.releasing (.refused .decidedConcurrently))))
    | _ => none
  | .failed id =>
    match s.calls.get? id with
    | some (.approving _ _ .locking) => some (s.goOn id (.done .failed))
    | some (.approving body lock _) =>
      some (s.goOn id (.approving body lock (.releasing .failed)))
    | _ => none
  | .released id =>
    match s.calls.get? id with
    | some (.approving _ lock (.releasing outcome)) =>
      some
        { s.goOn id (.done outcome) with
          lockEntry := none
          held := s.held.erase lock }
    | _ => none
  | .denyCalled id =>
    if (s.calls.get? id).isSome then none else some (s.goOn id .denyLoading)
  | .denyLoaded id =>
    match s.calls.get? id with
    | some .denyLoading =>
      if s.books.record.status = .pending then some (s.goOn id .denying)
      else some (s.goOn id (.done (.refused (.alreadyDecided s.books.record.status))))
    | _ => none
  | .refused id =>
    match s.calls.get? id with
    | some .denying =>
      if s.books.record.status = .pending then
        some { s.goOn id (.done .decided) with books := s.books.settle .refused }
      else some (s.goOn id (.done (.refused .decidedConcurrently)))
    | _ => none

/-- What a statement does to the books. -/
inductive Writes (s : DecisionState) : DecisionEvent → Books → Prop where
  | none {e : DecisionEvent} : Writes s e s.books
  | register {id : Nat} {canonicalId : String} (hfree : s.books.agents.get? canonicalId = none) :
      Writes s (.inserted id canonicalId) (s.books.register canonicalId)
  | commit {e : DecisionEvent} : Writes s e s.books.commit
  | activate {id : Nat} {body : ApproveBody} {lock : Nat} {canonicalId : String}
      {before : Status} {row : AgentRow}
      (hcall : s.calls.get? id = some (.approving body lock (.activating canonicalId before)))
      (hget : s.books.agents.get? canonicalId = some row)
      (htaken : s.books.handleTaken canonicalId row = false) :
      Writes s (.activated id) (s.books.activate canonicalId row)
  | rollback {e : DecisionEvent} : Writes s e s.books.rollback
  | delete {id : Nat} {body : ApproveBody} {lock : Nat} {canonicalId : String}
      (hcall : s.calls.get? id = some (.approving body lock (.deleting canonicalId))) :
      Writes s (.deleted id) (s.books.delete canonicalId)
  | grant {id : Nat} {row : GrantRow} : Writes s (.granted id) (s.books.grant row)
  | accept {id : Nat} : Writes s (.accepted id) (s.books.settle .accepted)
  | refuse {id : Nat} (hpending : s.books.record.status = .pending) :
      Writes s (.refused id) (s.books.settle .refused)

variable {s s' : DecisionState} {e : DecisionEvent}

theorem writes_of_step (hstep : s.step e = some s') : s.Writes e s'.books := by
  cases e with
  | inserted id canonicalId =>
    simp only [step] at hstep
    split at hstep
    · split at hstep
      · cases hstep
        exact .none
      · rename_i hfree
        cases hstep
        exact .register (by simpa using hfree)
    · contradiction
  | activated id =>
    simp only [step] at hstep
    split at hstep
    · rename_i hcall
      split at hstep
      · cases hstep
        exact .none
      · rename_i row hrow
        split at hstep
        · cases hstep
          exact .none
        · rename_i htaken
          cases hstep
          obtain ⟨hget, _⟩ := Option.filter_eq_some_iff.mp hrow
          exact .activate hcall hget (by simpa using htaken)
    · contradiction
  | refused id =>
    simp only [step] at hstep
    split at hstep
    · split at hstep
      · rename_i hpending
        cases hstep
        exact .refuse hpending
      · cases hstep
        exact .none
    · contradiction
  | _ =>
    simp only [step] at hstep
    repeat' split at hstep
    all_goals first
      | contradiction
      | (cases hstep; first
          | exact .none | exact .commit | exact .rollback | exact .grant | exact .accept
          | exact .delete ‹_›)

/-! ## Registered agents -/

/-- A call that resolves has registered nobody. -/
theorem registered_resolve (b : Books) (body : ApproveBody) :
    (resolve b body).registered? = none := by
  unfold resolve
  split
  · rfl
  · rfl
  · simp only
    split <;> rfl

/-- A call that cleans up has registered its agent. -/
theorem registered_cleanUp (b : Books) (canonicalId : Option String) :
    (cleanUp b canonicalId).registered? = canonicalId := by
  cases canonicalId <;> rfl

/-- A call that goes on keeps its agent, unless it registers one. -/
theorem calls_of_step (hstep : s.step e = some s') :
    ∃ id call, s'.calls = s.calls.set id call ∧ ∀ canonicalId,
      call.registered? = some canonicalId →
        canonicalId ∈ s'.books.registered ∨
          (s.calls.get? id).bind DecisionCall.registered? = some canonicalId := by
  cases e with
  | resolved id =>
    simp only [step] at hstep
    split at hstep
    · cases hstep
      refine ⟨_, _, rfl, ?_⟩
      intro canonicalId hregistered
      exact absurd (hregistered.symm.trans (registered_resolve _ _)) (Option.some_ne_none _)
    · contradiction
  | inserted id new =>
    simp only [step] at hstep
    split at hstep
    · split at hstep
      · cases hstep
        exact ⟨_, _, rfl, nofun⟩
      · cases hstep
        refine ⟨_, _, rfl, ?_⟩
        intro canonicalId hregistered
        cases hregistered
        exact Or.inl List.mem_cons_self
    · contradiction
  | rolledBack | rollbackFailed =>
    simp only [step] at hstep
    split at hstep
    · rename_i hcall
      cases hstep
      refine ⟨_, _, rfl, ?_⟩
      intro canonicalId hregistered
      right
      rw [hcall]
      exact (registered_cleanUp _ _).symm.trans hregistered
    · contradiction
  | activationCommitted id =>
    simp only [step] at hstep
    split at hstep
    · cases hstep
      refine ⟨_, _, rfl, ?_⟩
      intro canonicalId hregistered
      split at hregistered <;> contradiction
    · contradiction
  | _ =>
    simp only [step] at hstep
    repeat' split at hstep
    all_goals first
      | contradiction
      | (cases hstep
         refine ⟨_, _, rfl, ?_⟩
         intro canonicalId hregistered
         first
           | (right; rw [‹s.calls.get? _ = some _›]; exact hregistered)
           | exact nomatch hregistered)

/-- Who is registered stays so. -/
theorem registered_subset {b : Books} (h : s.Writes e b) : s.books.registered ⊆ b.registered := by
  cases h with
  | register => exact List.subset_cons_self _ _
  | _ => exact List.Subset.refl _

/-- The agents of the calls are agents of the request. -/
def CallsRegistered (s : DecisionState) : Prop :=
  ∀ id call canonicalId, s.calls.get? id = some call → call.registered? = some canonicalId →
    canonicalId ∈ s.books.registered

/-- Calls know of registered agents only. -/
theorem callsRegistered_step (h : s.CallsRegistered)
    (hstep : s.step e = some s') : s'.CallsRegistered := by
  obtain ⟨id, call, hcalls, hown⟩ := calls_of_step hstep
  have hgrow := registered_subset (writes_of_step hstep)
  intro other call' canonicalId hget hregistered
  rw [hcalls] at hget
  rcases Dict.get?_set_cases hget with ⟨_, rfl⟩ | ⟨_, hget⟩
  · rcases hown canonicalId hregistered with hmem | hbefore
    · exact hmem
    · obtain ⟨before, hget, hbefore⟩ := Option.bind_eq_some_iff.mp hbefore
      exact hgrow (h id before canonicalId hget hbefore)
  · exact hgrow (h other call' canonicalId hget hregistered)

/-! ## Orderly runs -/

/-- Nothing is activated or granted once the request is refused, a denial decides only while
nothing is, and no active agent is deleted. -/
def Orderly (s : DecisionState) : DecisionEvent → Prop
  | .activated _ => s.books.record.status ≠ .refused
  | .granted _ => s.books.record.status ≠ .refused
  | .refused _ => s.books.record.status = .pending → s.books.Clean
  | .deleted id =>
    ∀ canonicalId ∈ (s.calls.get? id).bind DecisionCall.registered?,
      Books.isActive s.books.agents canonicalId = false
  | _ => True

instance (s : DecisionState) : ∀ e, Decidable (s.Orderly e)
  | .activated _ => inferInstanceAs (Decidable (_ ≠ _))
  | .granted _ => inferInstanceAs (Decidable (_ ≠ _))
  | .refused _ => inferInstanceAs (Decidable (_ → _))
  | .deleted id => inferInstanceAs (Decidable (∀ canonicalId ∈
      (s.calls.get? id).bind DecisionCall.registered?, _ = false))
  | .approveCalled _ _ | .locked _ | .loaded _ | .resolved _ | .inserted _ _
  | .insertCommitted _ | .statusRead _ | .activationCommitted _ | .rolledBack _
  | .rollbackFailed _ | .deletionCommitted _ | .deletionFailed _ | .permitted _
  | .membersSynced _ | .accepted _ | .failed _ | .released _ | .denyCalled _
  | .denyLoaded _ => isTrue trivial

/-- Orderly writes keep the books sound. -/
theorem sound_of_writes {b : Books}
    (h : s.books.Sound) (hcalls : s.CallsRegistered) (horderly : s.Orderly e)
    (hwrites : s.Writes e b) : b.Sound := by
  cases hwrites with
  | none => exact h
  | register hfree => exact Books.sound_register h hfree
  | commit => exact Books.sound_commit h
  | activate hcall hget htaken =>
    exact Books.sound_activate h (hcalls _ _ _ hcall rfl) hget htaken horderly
  | rollback => exact Books.sound_rollback h
  | delete hcall =>
    have hinactive := horderly _ (Option.mem_def.mpr (Option.bind_eq_some_iff.mpr
      ⟨_, hcall, rfl⟩))
    exact Books.sound_delete h (hcalls _ _ _ hcall rfl) hinactive
  | grant => exact Books.sound_grant h horderly _
  | accept => exact Books.sound_settle h nofun
  | refuse hpending => exact Books.sound_settle h fun _ => horderly hpending

/-- Books without an agent are sound. -/
theorem sound_init (record : AuthRecord) (agents : Dict String AgentRow) :
    (init record agents).books.Sound where
  handles := nofun
  committedHandles := nofun
  gone canonicalId row hget hnone := by
    have hboth : some row = none := hget.symm.trans hnone
    contradiction
  unique := nofun
  stays := fun _ hactive => hactive
  minted := nofun
  clean := fun _ => ⟨nofun, rfl⟩

/-- One agent is minted at most by the calls of a run, and nothing is left of the request if it
is refused. -/
def DecidedOnce (record : AuthRecord) (agents : Dict String AgentRow)
    (es : List DecisionEvent) : Prop :=
  ∀ s, run step (init record agents) es = some s → s.books.Kept

/-- In an orderly run one agent is minted at most, and nothing is left of a request that is
refused. -/
theorem decidedOnce_of_orderly (record : AuthRecord) (agents : Dict String AgentRow)
    (es : List DecisionEvent) (hguard : Guarded step Orderly (init record agents) es) :
    DecidedOnce record agents es := by
  intro s hrun
  have hkeep : ∀ (t : DecisionState) e t', t.books.Sound ∧ t.CallsRegistered → t.Orderly e →
      t.step e = some t' → t'.books.Sound ∧ t'.CallsRegistered := by
    rintro t e t' ⟨hsound, hcalls⟩ horderly hstep
    exact ⟨sound_of_writes hsound hcalls horderly (writes_of_step hstep),
      callsRegistered_step hcalls hstep⟩
  have hinit : (init record agents).CallsRegistered := by
    intro id call canonicalId hget
    exact nomatch hget
  exact Books.kept_of_sound
    (invariant_of_guarded_run hkeep ⟨sound_init record agents, hinit⟩ hguard hrun).1

/-- A request for two scopes. -/
def scoutRequest : AuthRecord :=
  ⟨"scout", "hermes", ["memory_read", "a2a_send"], none, .pending⟩

/-- The first of two approvals decides. -/
def approvedTwice : List DecisionEvent :=
  [.approveCalled 0 ⟨["memory_read"], none, false⟩, .approveCalled 1 ⟨["a2a_send"], none, false⟩,
    .locked 0, .loaded 0, .resolved 0, .inserted 0 "scout-1", .insertCommitted 0, .statusRead 0,
    .activated 0, .activationCommitted 0, .granted 0, .permitted 0, .membersSynced 0,
    .accepted 0, .released 0, .locked 1, .loaded 1, .released 1]

theorem decidedOnce_approvedTwice : DecidedOnce scoutRequest Dict.empty approvedTwice :=
  decidedOnce_of_orderly scoutRequest Dict.empty approvedTwice (by decide)

/-- A denial decides while an approval writes its grants. -/
def deniedMidway : List DecisionEvent :=
  [.approveCalled 0 ⟨["memory_read"], none, false⟩, .locked 0, .loaded 0, .resolved 0,
    .inserted 0 "scout-1", .insertCommitted 0, .statusRead 0, .activated 0,
    .activationCommitted 0, .granted 0, .permitted 0, .denyCalled 1, .denyLoaded 1, .refused 1,
    .membersSynced 0, .accepted 0, .released 0]

/-- The request is refused at the end, and its agent is active. -/
theorem not_decidedOnce : ¬ DecidedOnce scoutRequest Dict.empty deniedMidway := by
  intro h
  have hend : (run step (init scoutRequest Dict.empty) deniedMidway).map (fun s =>
      (s.books.record.status, s.books.registered, Books.isActive s.books.agents "scout-1")) =
      some (.refused, ["scout-1"], true) := by
    decide
  obtain ⟨s, hrun, hs⟩ := Option.map_eq_some_iff.mp hend
  rw [Prod.mk.injEq, Prod.mk.injEq] at hs
  obtain ⟨hrefused, hregistered, hactive⟩ := hs
  have hclean := ((h s hrun).2 hrefused).1 "scout-1" (by rw [hregistered]; decide)
  exact Bool.false_ne_true (hclean.symm.trans hactive)

end DecisionState

end TinyAgentOS.AgentAuth
