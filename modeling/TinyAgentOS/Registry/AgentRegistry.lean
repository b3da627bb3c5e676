import TinyAgentOS.Library.Dict
import TinyAgentOS.Library.Transition
import TinyAgentOS.Registry.CanonicalId

/-!
# The agent registry

A table of agents by canonical id, in the order of their registration.  The calls read in
one statement and write in a later one, and interleave.  A change of the reporting line
holds a lock from its first read to its write.

Main results:

- `RegistryState.effect_of_step`: a statement leaves the table alone, writes over one row, or
  inserts one.
-/

namespace TinyAgentOS.Registry

open Collections

/-- `VALID_STATUSES`. -/
inductive Status where
  | pending
  | active
  | suspended
  | revoked
  | rejected
deriving DecidableEq

/-- The status of a text in `VALID_STATUSES`. -/
def Status.ofString : String → Option Status
  | "pending" => some .pending
  | "active" => some .active
  | "suspended" => some .suspended
  | "revoked" => some .revoked
  | "rejected" => some .rejected
  | _ => none

/-- `_VALID_TRANSITIONS`. -/
def validTransitions : List (Status × Status) :=
  [(.pending, .active), (.pending, .rejected), (.active, .suspended), (.suspended, .active),
    (.active, .revoked), (.suspended, .revoked), (.pending, .revoked), (.rejected, .revoked),
    (.rejected, .pending), (.rejected, .active)]

/-- What a call raises. -/
inductive RegistryError where
  | reservedPrefix (rawName : String)
  | notFound (canonicalId : String)
  | unknownStatus (after : String)
  | invalidTransition (before after : Status)
  | conflict (canonicalId : String) (before : Status)
  /-- A unique index is violated. -/
  | integrity

/-- `_assert_valid_transition`. -/
def assertValidTransition (before : Status) (after : String) : Except RegistryError Status :=
  match Status.ofString after with
  | none => .error (.unknownStatus after)
  | some after =>
    if (before, after) ∈ validTransitions then .ok after
    else .error (.invalidTransition before after)

/-- A row of `agent_registry`. -/
structure Agent where
  displayName : String
  framework : String
  userId : String
  origin : String
  handle : String
  role : Option String
  title : Option String
  reportsTo : Option String
  capabilities : List String
  createdTs : Datetime
  revokedAt : Option Datetime
  status : Status
  installId : String

/-- The arguments of `register`. -/
structure RegisterArgs where
  framework : String
  displayName : String := ""
  userId : String := ""
  origin : String := "taos-deployed"
  handle : String := ""
  role : Option String := none
  title : Option String := none
  reportsTo : Option String := none
  capabilities : Option (List String) := none
  allowReserved : Bool := false
  installId : String := ""

/-- The name that the slug is made of. -/
def RegisterArgs.sourceName (args : RegisterArgs) : String :=
  if args.displayName = "" then args.framework else args.displayName

/-- The row that `register` inserts. -/
def RegisterArgs.agent (args : RegisterArgs) (now : Datetime) : Agent where
  displayName := args.displayName
  framework := args.framework
  userId := args.userId
  origin := args.origin
  handle := args.handle
  role := args.role
  title := args.title
  reportsTo := args.reportsTo
  capabilities := args.capabilities.getD []
  createdTs := now
  revokedAt := none
  status := if args.origin = "external-selfjoin" then .pending else .active
  installId := args.installId

/-- The arguments of `update`. -/
structure AgentPatch where
  displayName : Option String := none
  handle : Option String := none
  role : Option String := none
  title : Option String := none
  capabilities : Option (List String) := none
deriving DecidableEq

/-- The `UPDATE` of `update`. -/
def AgentPatch.setIn (patch : AgentPatch) (row : Agent) : Agent :=
  { row with
    displayName := patch.displayName.getD row.displayName
    handle := patch.handle.getD row.handle
    role := patch.role.or row.role
    title := patch.title.or row.title
    capabilities := patch.capabilities.getD row.capabilities }

/-- The `UPDATE` of `set_status`. -/
def Agent.movedTo (row : Agent) (after : Status) (now : Datetime) : Agent :=
  { row with
    status := after
    revokedAt := if after = .revoked then row.revokedAt.or (some now) else row.revokedAt }

/-- The `UPDATE` of `revoke`. -/
def Agent.revokedBy (row : Agent) (now : Datetime) : Agent :=
  { row with revokedAt := some now, status := .revoked }

/-! ## Calls -/

/-- What a call returns. -/
inductive RegistryReply where
  | found (canonicalId : String)
  | absent
  | raised (error : RegistryError)

/-- Where a call stands: the statement it awaits. -/
inductive RegistryCall where
  /-- `register` looks whether an id is taken. -/
  | probing (args : RegisterArgs) (slug : Slug) (now : Datetime) (tries : Nat)
  /-- `register` has found the id free. -/
  | inserting (args : RegisterArgs) (slug : Slug) (now : Datetime) (tries : Nat)
  /-- `set_status` has found the transition valid. -/
  | settingStatus (canonicalId : String) (before after : Status) (now : Datetime)
  /-- `revoke` has found the agent not revoked. -/
  | revoking (canonicalId : String) (now : Datetime)
  /-- `update` has found the agent. -/
  | updating (canonicalId : String) (patch : AgentPatch)
  | done (reply : RegistryReply)

/-- The statements of the calls. -/
inductive RegistryEvent where
  | registerCalled (id : Nat) (args : RegisterArgs) (now : Datetime)
  | probed (id : Nat)
  | inserted (id : Nat)
  | statusRead (id : Nat) (canonicalId newStatus : String) (now : Datetime)
  | statusWritten (id : Nat)
  | revokeRead (id : Nat) (canonicalId : String) (now : Datetime)
  | revokeWritten (id : Nat)
  | updateRead (id : Nat) (canonicalId : String) (patch : AgentPatch)
  | updateWritten (id : Nat)
  /-- A whole call of `set_reporting`. -/
  | reportingSet (canonicalId : String) (reportsTo : Option String)

/-- The table and the calls, with the slug that each canonical id was minted from. -/
structure RegistryState where
  agents : Dict String Agent
  calls : Dict Nat RegistryCall
  slugs : Dict String Slug

namespace RegistryState

/-- An empty table. -/
def init : RegistryState := ⟨Dict.empty, Dict.empty, Dict.empty⟩

/-- The call awaits another statement, or has ended. -/
def goOn (s : RegistryState) (id : Nat) (call : RegistryCall) : RegistryState :=
  { s with calls := s.calls.set id call }

/-- `ux_agent_active_handle` has another row for the handle of an active agent. -/
def handleTaken (s : RegistryState) (canonicalId : String) (row : Agent) : Bool :=
  decide (row.status = .active) && row.handle != "" &&
    s.agents.entries.any fun e =>
      e.1 != canonicalId && decide (e.2.status = .active) && e.2.handle == row.handle

/-- A row is written, unless an index is violated. -/
def write (s : RegistryState) (id : Nat) (canonicalId : String) (row : Agent) : RegistryState :=
  if s.handleTaken canonicalId row then s.goOn id (.done (.raised .integrity))
  else
    { s.goOn id (.done (.found canonicalId)) with agents := s.agents.set canonicalId row }

/-! ## Reporting lines -/

/-- The manager in an agent's row. -/
def managerOf (s : RegistryState) (canonicalId : String) : Option String :=
  (s.agents.get? canonicalId).bind Agent.reportsTo

/-- `_MAX_REPORTS_TO_WALK`. -/
def maxReportsToWalk : Nat := 50

/-- The loop of `set_reporting`, with the turns left. -/
def reachesWithin (s : RegistryState) (canonicalId : String) :
    Nat → List String → Option String → Bool
  | 0, _, _ => false
  | _ + 1, _, none => false
  | n + 1, seen, some current =>
    if current = canonicalId then true
    else if current ∈ seen then false
    else s.reachesWithin canonicalId n (current :: seen) (s.managerOf current)

/-- The checks of `set_reporting` on the manager that raise. -/
def refusesManager (s : RegistryState) (canonicalId : String) : Option String → Bool
  | none => false
  | some manager =>
    decide (manager = canonicalId) || (s.agents.get? manager).isNone ||
      s.reachesWithin canonicalId maxReportsToWalk [] (some manager)

/-- `set_reporting`: the table after the call, the same where it raises. -/
def setReporting (s : RegistryState) (canonicalId : String) (reportsTo : Option String) :
    RegistryState :=
  match s.agents.get? canonicalId with
  | none => s
  | some row =>
    if s.refusesManager canonicalId reportsTo then s
    else { s with agents := s.agents.set canonicalId { row with reportsTo := reportsTo } }

/-! ## Statements -/

/-- `register` up to its first read. -/
def registerCall (args : RegisterArgs) (now : Datetime) : RegistryCall :=
  let slug := slugify args.sourceName
  if !args.allowReserved && isReserved slug args.sourceName then
    .done (.raised (.reservedPrefix args.sourceName))
  else .probing args slug now 0

/-- `set_status` up to its write. -/
def statusCall (row : Option Agent) (canonicalId newStatus : String) (now : Datetime) :
    RegistryCall :=
  match row with
  | none => .done (.raised (.notFound canonicalId))
  | some row =>
    match assertValidTransition row.status newStatus with
    | .error error => .done (.raised error)
    | .ok after => .settingStatus canonicalId row.status after now

/-- `revoke` up to its write. -/
def revokeCall (row : Option Agent) (canonicalId : String) (now : Datetime) : RegistryCall :=
  match row with
  | none => .done .absent
  | some row =>
    if row.revokedAt.isSome then .done (.found canonicalId) else .revoking canonicalId now

/-- `update` up to its write. -/
def updateCall (row : Option Agent) (canonicalId : String) (patch : AgentPatch) :
    RegistryCall :=
  match row with
  | none => .done .absent
  | some _ => if patch = {} then .done (.found canonicalId) else .updating canonicalId patch

/-- One statement. -/
def step (s : RegistryState) : RegistryEvent → Option RegistryState
  | .registerCalled id args now =>
    if (s.calls.get? id).isSome then none else some (s.goOn id (registerCall args now))
  | .probed id =>
    match s.calls.get? id with
    | some (.probing args slug now tries) =>
      if (s.agents.get? (candidate slug now tries)).isSome then
        some (s.goOn id (.probing args slug now (tries + 1)))
      else some (s.goOn id (.inserting args slug now tries))
    | _ => none
  | .inserted id =>
    match s.calls.get? id with
    | some (.inserting args slug now tries) =>
      let canonicalId := candidate slug now tries
      if (s.agents.get? canonicalId).isSome ||
          s.handleTaken canonicalId (args.agent now) then
        some (s.goOn id (.done (.raised .integrity)))
      else
        some
          { s.goOn id (.done (.found canonicalId)) with
            agents := s.agents.set canonicalId (args.agent now)
            slugs := s.slugs.set canonicalId slug }
    | _ => none
  | .statusRead id canonicalId newStatus now =>
    if (s.calls.get? id).isSome then none
    else some (s.goOn id (statusCall (s.agents.get? canonicalId) canonicalId newStatus now))
  | .statusWritten id =>
    match s.calls.get? id with
    | some (.settingStatus canonicalId before after now) =>
      match (s.agents.get? canonicalId).filter fun row => row.status = before with
      | none => some (s.goOn id (.done (.raised (.conflict canonicalId before))))
      | some row => some (s.write id canonicalId (row.movedTo after now))
    | _ => none
  | .revokeRead id canonicalId now =>
    if (s.calls.get? id).isSome then none
    else some (s.goOn id (revokeCall (s.agents.get? canonicalId) canonicalId now))
  | .revokeWritten id =>
    match s.calls.get? id with
    | some (.revoking canonicalId now) =>
      match (s.agents.get? canonicalId).filter fun row => row.revokedAt = none with
      | none => some (s.goOn id (.done (.found canonicalId)))
      | some row => some (s.write id canonicalId (row.revokedBy now))
    | _ => none
  | .updateRead id canonicalId patch =>
    if (s.calls.get? id).isSome then none
    else some (s.goOn id (updateCall (s.agents.get? canonicalId) canonicalId patch))
  | .updateWritten id =>
    match s.calls.get? id with
    | some (.updating canonicalId patch) =>
      match s.agents.get? canonicalId with
      | none => some (s.goOn id (.done .absent))
      | some row => some (s.write id canonicalId (patch.setIn row))
    | _ => none
  | .reportingSet canonicalId reportsTo => some (s.setReporting canonicalId reportsTo)

/-! ## What a statement writes -/

/-- The row that a statement writes over another. -/
inductive Rewrite (s : RegistryState) (canonicalId : String) (row : Agent) :
    RegistryEvent → Agent → Prop where
  | status {id : Nat} {after : Status} {now : Datetime}
      (hcall : s.calls.get? id = some (.settingStatus canonicalId row.status after now)) :
      Rewrite s canonicalId row (.statusWritten id) (row.movedTo after now)
  | revoke {id : Nat} {now : Datetime} (hnull : row.revokedAt = none) :
      Rewrite s canonicalId row (.revokeWritten id) (row.revokedBy now)
  | update {id : Nat} {patch : AgentPatch} :
      Rewrite s canonicalId row (.updateWritten id) (patch.setIn row)
  | reporting {reportsTo : Option String}
      (haccepted : s.refusesManager canonicalId reportsTo = false) :
      Rewrite s canonicalId row (.reportingSet canonicalId reportsTo)
        { row with reportsTo := reportsTo }

/-- What a statement does to the table. -/
inductive Effect (s : RegistryState) : RegistryEvent → RegistryState → Prop where
  | none {e : RegistryEvent} {s' : RegistryState} (hagents : s'.agents = s.agents)
      (hslugs : s'.slugs = s.slugs) : Effect s e s'
  | rewrite {e : RegistryEvent} {s' : RegistryState} {canonicalId : String} {row row' : Agent}
      (hget : s.agents.get? canonicalId = some row) (hrow : Rewrite s canonicalId row e row')
      (hagents : s'.agents = s.agents.set canonicalId row') (hslugs : s'.slugs = s.slugs) :
      Effect s e s'
  | insert {id : Nat} {s' : RegistryState} {args : RegisterArgs} {slug : Slug} {now : Datetime}
      {tries : Nat} (hcall : s.calls.get? id = some (.inserting args slug now tries))
      (hfree : s.agents.get? (candidate slug now tries) = none)
      (hagents : s'.agents = s.agents.set (candidate slug now tries) (args.agent now))
      (hslugs : s'.slugs = s.slugs.set (candidate slug now tries) slug) :
      Effect s (.inserted id) s'

/-- A written row is a rewrite of it. -/
theorem effect_write {s : RegistryState} {e : RegistryEvent} {canonicalId : String}
    {row row' : Agent} (id : Nat) (hget : s.agents.get? canonicalId = some row)
    (hrow : Rewrite s canonicalId row e row') : Effect s e (s.write id canonicalId row') := by
  unfold write
  split
  · exact .none rfl rfl
  · exact .rewrite hget hrow rfl rfl

/-- What setting a manager does. -/
theorem effect_setReporting (s : RegistryState) (canonicalId : String) (reportsTo : Option String) :
    Effect s (.reportingSet canonicalId reportsTo) (s.setReporting canonicalId reportsTo) := by
  unfold setReporting
  cases hget : s.agents.get? canonicalId with
  | none => exact .none rfl rfl
  | some row =>
    dsimp only
    split
    · exact .none rfl rfl
    · rename_i haccepted
      exact .rewrite hget (.reporting (Bool.not_eq_true _ ▸ haccepted)) rfl rfl

/-- A statement leaves the table alone, writes over one row, or inserts one. -/
theorem effect_of_step {s s' : RegistryState} {e : RegistryEvent} (hstep : s.step e = some s') :
    Effect s e s' := by
  cases e with
  | inserted id =>
    simp only [step] at hstep
    split at hstep
    · rename_i args slug now tries hcall
      split at hstep
      · cases hstep
        exact .none rfl rfl
      · rename_i hfree
        cases hstep
        rw [Bool.not_eq_true, Bool.or_eq_false_iff, Option.isSome_eq_false_iff,
          Option.isNone_iff_eq_none] at hfree
        exact .insert hcall hfree.1 rfl rfl
    · contradiction
  | statusWritten id =>
    simp only [step] at hstep
    split at hstep
    · rename_i canonicalId before after now hcall
      split at hstep
      · cases hstep
        exact .none rfl rfl
      · rename_i row hrow
        cases hstep
        obtain ⟨hget, hbefore⟩ := Option.filter_eq_some_iff.mp hrow
        obtain rfl : row.status = before := of_decide_eq_true hbefore
        exact effect_write id hget (.status hcall)
    · contradiction
  | revokeWritten id =>
    simp only [step] at hstep
    split at hstep
    · split at hstep
      · cases hstep
        exact .none rfl rfl
      · rename_i row hrow
        cases hstep
        obtain ⟨hget, hnull⟩ := Option.filter_eq_some_iff.mp hrow
        exact effect_write id hget (.revoke (of_decide_eq_true hnull))
    · contradiction
  | updateWritten id =>
    simp only [step] at hstep
    split at hstep
    · split at hstep
      · cases hstep
        exact .none rfl rfl
      · rename_i row hget
        cases hstep
        exact effect_write id hget .update
    · contradiction
  | reportingSet canonicalId reportsTo =>
    cases hstep
    exact effect_setReporting s canonicalId reportsTo
  | probed id =>
    simp only [step] at hstep
    split at hstep
    · split at hstep <;> (cases hstep; exact .none rfl rfl)
    · contradiction
  | registerCalled id args now | statusRead id canonicalId newStatus now
  | revokeRead id canonicalId now | updateRead id canonicalId patch =>
    simp only [step] at hstep
    split at hstep
    · contradiction
    cases hstep
    exact .none rfl rfl

end RegistryState

end TinyAgentOS.Registry
