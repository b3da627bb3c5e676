import TinyAgentOS.Library.Json
import TinyAgentOS.Projects.BeadsBridge

/-!
# The inbox of decisions

Agents and users file decisions through the API, and the gates of the governance layer file theirs
beside it.  A human's answer is recorded once, and then the appliers read the record's metadata:
what it says it is, it is taken for.

Main results:

- `executionGrant_of_mem` and `delegation_of_mem`: what the appliers can do, read off the metadata
  and the answer.
-/

namespace TinyAgentOS.Inbox

open Collections
open Json (Value Constant Number)
open Projects (strip)

/-! ## Values of Python -/

/-- A float is zero if its digits are. -/
def isZero : Number → Bool
  | .int n => n = 0
  | .float x => x.whole = 0 && x.frac.all fun c => c = '.' || c = '0'

/-- `bool(value)`. -/
def truthy : Value → Bool
  | .const .null => false
  | .const .false => false
  | .const _ => true
  | .num x => !isZero x
  | .str text => text ≠ ""
  | .arr items => !items.isEmpty
  | .obj fields => !fields.isEmpty

/-- `value == text`, of a key that may be missing. -/
def isText (text : String) : Option Value → Bool
  | some (.str s) => s = text
  | _ => false

/-- The text that a column of texts holds for a value, if the value can be bound. -/
def storedText (numberText : Number → Option String) : Value → Option String
  | .str text => some text
  | .num x => numberText x
  | .const .true => some "1"
  | .const .infinity => some "Inf"
  | .const .negInfinity => some "-Inf"
  | _ => none

/-- The metadata of a decision. -/
abbrev Metadata := Dict String Value

/-- `meta.get(key)`. -/
def field (metadata : Metadata) (key : String) : Value :=
  (metadata.get? key).getD (.const .null)

/-! ## Records -/

inductive DecisionStatus where
  | pending
  | answered
  | superseded
deriving DecidableEq

/-- A row of `decisions`; of the options, the values. -/
structure Decision where
  fromAgent : String
  question : String
  type : String
  options : List String
  priority : String
  projectId : Option String
  userId : String
  parentDecisionId : Option String
  metadata : Metadata
  status : DecisionStatus

/-- What is handed over by a delegation. -/
structure Delegation where
  fromAgent : Value
  toAgent : Value
  taskId : Value
  taskTitle : Value
  projectId : Option String
  note : Value

/-- What an agent asks to delegate. -/
structure DelegateRequest where
  fromAgent : String
  toAgent : String
  taskId : Option String
  taskTitle : Option String
  projectId : Option String
  note : String

/-- Who filed a decision. -/
inductive Creator where
  | agent (canonicalId : String)
  | user (userId : String)
  | executionGate (agentName actionClass : String)
  | delegationGate (request : DelegateRequest)

/-- A decision and who filed it, which the table does not say. -/
structure Filed where
  creator : Creator
  record : Decision

/-- A user or one of its devices; a device is never an admin. -/
structure CurrentUser where
  userId : String
  isAdmin : Bool
  named : userId ≠ ""

/-- What an applier does. -/
inductive Effect where
  | appGrants (userId : String) (appId capabilities answer : Value)
  | executionGrant (agentName actionClass : String) (expiresAt : Int)
  | delegation (d : Delegation)
  | devicePairing (userId : String) (pairRequestId : Value) (approved : Bool)

/-- An answer that a human gave, and what followed. -/
structure Answered where
  decisionId : String
  user : CurrentUser
  value : Value
  effects : List Effect

/-- The decisions, and the answers of humans. -/
structure State where
  decisions : Dict String Filed
  answers : List Answered

def State.empty : State := ⟨Dict.empty, []⟩

structure Refusal where
  status : Nat
  detail : String
deriving DecidableEq

inductive PolicyEffect where
  | allow
  | deny
  | requireApproval
deriving DecidableEq

/-- The stores beside the inbox, at the time of a request. -/
structure Env where
  projectOwner : String → Option String
  admins : List String
  checkScope : String → Option String → Except Refusal Unit
  policies : Option (String → String → PolicyEffect)
  appGrants : Bool
  devicePairRequests : Bool
  numberText : Number → Option String
  now : Int
  grantSaved : Bool
  delegationCompleted : Bool

/-! ## Filing -/

def decisionTypes : List String := ["single_select", "multi_select", "approve_deny", "free_text"]

def priorities : List String := ["normal", "blocking"]

/-- A list of texts as `repr` writes a tuple. -/
def tupleText (texts : List String) : String :=
  "(" ++ ", ".intercalate (texts.map fun text => "'" ++ text ++ "'") ++ ")"

/-- The body of a creation, as its validators leave it. -/
structure DecisionIn where
  fromAgent : String
  question : String
  type : String
  options : List String
  priority : String
  projectId : Option String
  parentDecisionId : Option String
  metadata : Metadata

inductive Caller where
  | agent (canonicalId : String)
  | user (user : CurrentUser)

/-- `_DecisionActor`. -/
structure Actor where
  creator : Creator
  fromAgent : Option String
  deciderUserId : String
  isAdmin : Bool

def isSelect (type : String) : Bool :=
  type = "single_select" || type = "multi_select"

/-- `_resolve_decision_actor`. -/
def resolveDecisionActor (env : Env) (caller : Caller) (projectId : Option String) :
    Except Refusal Actor :=
  match caller with
  | .user user => .ok ⟨.user user.userId, none, user.userId, user.isAdmin⟩
  | .agent cid =>
    match env.checkScope cid projectId, projectId with
    | .error refusal, _ => .error refusal
    | .ok _, some project =>
      match env.projectOwner project with
      | none => .error ⟨400, "project_id not found"⟩
      | some "" => .error ⟨409, "project has no owner to decide"⟩
      | some owner => .ok ⟨.agent cid, some cid, owner, false⟩
    | .ok _, none =>
      match env.admins with
      | [] => .error ⟨409, "no admin to receive an OS-level decision"⟩
      | admin :: _ => .ok ⟨.agent cid, some cid, admin, false⟩

/-- What stands as the asking agent: its identity, or what a human says. -/
def askedBy (actor : Actor) (body : DecisionIn) : String :=
  match actor.fromAgent with
  | none => body.fromAgent
  | some cid => if cid = "" then body.fromAgent else cid

/-- The decision may replace the parent. -/
def mayReplace (actor : Actor) (fromAgent : String) (parent : Decision) : Bool :=
  match actor.creator with
  | .user _ => actor.isAdmin || parent.userId = actor.deciderUserId
  | _ => parent.fromAgent = fromAgent

/-- The parent to be superseded, if one is named. -/
def parentOf (s : State) (actor : Actor) (body : DecisionIn) : Except Refusal (Option String) :=
  match body.parentDecisionId with
  | none => .ok none
  | some "" => .ok none
  | some parentId =>
    match s.decisions.get? parentId with
    | none => .error ⟨400, "parent_decision_id not found"⟩
    | some parent =>
      if mayReplace actor (askedBy actor body) parent.record then .ok (some parentId)
      else .error ⟨400, "parent_decision_id not found"⟩

namespace State

/-- `DecisionStore.create`, under an id that is drawn. -/
def file (s : State) (id : String) (filed : Filed) : Except Refusal State :=
  if (s.decisions.get? id).isSome then .error ⟨500, "UNIQUE constraint failed: decisions.id"⟩
  else .ok { s with decisions := s.decisions.set id filed }

/-- The status of a decision is written. -/
def setStatus (s : State) (id : String) (status : DecisionStatus) : State :=
  { s with decisions :=
      s.decisions.modify id fun filed => { filed with record := { filed.record with status } } }

/-- `supersede`. -/
def supersede (s : State) : Option String → State
  | none => s
  | some id => s.setStatus id .superseded

/-- `create_decision`. -/
def createDecision (s : State) (env : Env) (caller : Caller) (body : DecisionIn) (id : String) :
    Except Refusal State :=
  if body.type ∉ decisionTypes then
    .error ⟨400, "type must be one of " ++ tupleText decisionTypes⟩
  else if body.priority ∉ priorities then
    .error ⟨400, "priority must be one of " ++ tupleText priorities⟩
  else if isSelect body.type && body.options.isEmpty then
    .error ⟨400, "select types require options"⟩
  else do
    let actor ← resolveDecisionActor env caller body.projectId
    let parentId ← parentOf s actor body
    let s ← s.file id ⟨actor.creator,
      { fromAgent := askedBy actor body
        question := body.question
        type := body.type
        options := body.options
        priority := body.priority
        projectId := body.projectId
        userId := actor.deciderUserId
        parentDecisionId := body.parentDecisionId
        metadata := body.metadata
        status := .pending }⟩
    return s.supersede parentId

end State

/-! ## Gates -/

/-- `TOOL_ACTION_CLASSES`. -/
def classify (skillId : String) : Option String :=
  if skillId = "code_exec" then some "code-exec"
  else if skillId = "http_request" then some "external-network"
  else if skillId = "delegate" then some "delegate"
  else none

/-- `ACTION_CLASS`. -/
def delegateClass : String := "delegate"

/-- A text, or `None`. -/
def optionValue : Option String → Value
  | none => .const .null
  | some text => .str text

def executionMetadata (agentName actionClass skillId : String) : Metadata :=
  (((Dict.empty.set "kind" (.str "execution_gate")).set "agent_name" (.str agentName)).set
    "action_class" (.str actionClass)).set "tool" (.str skillId)

def delegationMetadata (r : DelegateRequest) : Metadata :=
  (((((Dict.empty.set "kind" (.str "delegation_gate")).set "from_agent" (.str r.fromAgent)).set
    "to_agent" (.str r.toAgent)).set "task_id" (optionValue r.taskId)).set
    "task_title" (optionValue r.taskTitle)).set "note" (.str r.note)

/-- The record of a gate: it waits for an admin. -/
def gateRecord (fromAgent question : String) (projectId : Option String) (metadata : Metadata) :
    Decision :=
  { fromAgent, question, projectId, metadata
    type := "approve_deny"
    options := []
    priority := "blocking"
    userId := ""
    parentDecisionId := none
    status := .pending }

/-- The title or the id of what is delegated. -/
def delegationTarget (r : DelegateRequest) (existingTitle : Option String) : String :=
  match existingTitle.filter (· ≠ ""), r.taskTitle.filter (· ≠ "") with
  | some title, _ => "\"" ++ title ++ "\""
  | none, some title => "\"" ++ title ++ "\""
  | none, none => r.taskId.getD ""

inductive GateResponse where
  | passes
  | forbidden (actionClass : String)
  | pendingApproval (decisionId actionClass : String)
  | unavailable

namespace State

/-- `has_live_grant`. -/
def hasLiveGrant (s : State) (agentName actionClass : String) (now : Int) : Bool :=
  s.answers.any fun answered => answered.effects.any fun
    | .executionGrant agent action expiresAt =>
      agent = agentName && action = actionClass && now < expiresAt
    | _ => false

/-- `_check_execution_policy`; a decision that cannot be filed is logged. -/
def checkExecutionPolicy (s : State) (env : Env) (adminSession : Bool)
    (skillId agentName id : String) : State × GateResponse :=
  match adminSession, classify skillId, env.policies with
  | false, some actionClass, some effectiveEffect =>
    match effectiveEffect agentName actionClass with
    | .allow => (s, .passes)
    | .deny => (s, .forbidden actionClass)
    | .requireApproval =>
      if s.hasLiveGrant agentName actionClass env.now then (s, .passes)
      else
        match s.file id ⟨.executionGate agentName actionClass,
            gateRecord agentName
              ("Agent " ++ agentName ++ " wants to run " ++ skillId ++ " (" ++ actionClass ++
                ")")
              none (executionMetadata agentName actionClass skillId)⟩ with
        | .ok s => (s, .pendingApproval id actionClass)
        | .error _ => (s, .pendingApproval "" actionClass)
  | _, _, _ => (s, .passes)

/-- `_check_delegation_policy`. -/
def checkDelegationPolicy (s : State) (env : Env) (adminSession : Bool) (r : DelegateRequest)
    (existingTitle : Option String) (id : String) : State × GateResponse :=
  match adminSession, env.policies with
  | false, some effectiveEffect =>
    match effectiveEffect r.fromAgent delegateClass with
    | .allow => (s, .passes)
    | .deny => (s, .forbidden delegateClass)
    | .requireApproval =>
      if s.hasLiveGrant r.fromAgent delegateClass env.now then (s, .passes)
      else
        match s.file id ⟨.delegationGate r,
            gateRecord r.fromAgent
              (strip ("Agent " ++ r.fromAgent ++ " wants to delegate " ++
                delegationTarget r existingTitle ++ " to " ++ r.toAgent))
              r.projectId (delegationMetadata r)⟩ with
        | .ok s => (s, .pendingApproval id delegateClass)
        | .error _ => (s, .unavailable)
  | _, _ => (s, .passes)

end State

/-! ## Appliers -/

/-- The agent and the action that the metadata of an execution gate names. -/
def executionNames (metadata : Metadata) : Option (Value × Value) :=
  if isText "execution_gate" (metadata.get? "kind") && truthy (field metadata "agent_name") &&
      truthy (field metadata "action_class") then
    some (field metadata "agent_name", field metadata "action_class")
  else none

/-- The delegation that the metadata of a delegation gate names. -/
def delegationNames (metadata : Metadata) (projectId : Option String) : Option Delegation :=
  if isText "delegation_gate" (metadata.get? "kind") && truthy (field metadata "from_agent") &&
      truthy (field metadata "to_agent") then
    some
      { fromAgent := field metadata "from_agent"
        toAgent := field metadata "to_agent"
        taskId := field metadata "task_id"
        taskTitle := field metadata "task_title"
        projectId := projectId
        note := if truthy (field metadata "note") then field metadata "note" else .str "" }
  else none

/-- `value == "approve"`. -/
def isApproval (value : Value) : Bool :=
  isText "approve" (some value)

/-- `GRANT_TTL_S`. -/
def grantTtl : Int := 15 * 60

/-- `add_grant`, which fails on a value that is no text. -/
def addGrant (env : Env) (agentName actionClass : Value) : List Effect :=
  match storedText env.numberText agentName, storedText env.numberText actionClass with
  | some agent, some action =>
    if env.grantSaved then [.executionGrant agent action (env.now + grantTtl)] else []
  | _, _ => []

/-- `_apply_app_grant`; the rows of the ledger are not modelled. -/
def applyAppGrant (env : Env) (d : Decision) (value : Value) : List Effect :=
  if isText "app_grant" (d.metadata.get? "kind") && env.appGrants &&
      truthy (field d.metadata "app_id") then
    [.appGrants d.userId (field d.metadata "app_id") (field d.metadata "capabilities") value]
  else []

/-- `_apply_execution_grant`. -/
def applyExecutionGrant (env : Env) (d : Decision) (value : Value) : List Effect :=
  match env.policies, executionNames d.metadata with
  | some _, some (agentName, actionClass) =>
    if isApproval value then addGrant env agentName actionClass else []
  | _, _ => []

/-- `_apply_delegation_grant`. -/
def applyDelegationGrant (env : Env) (d : Decision) (value : Value) : List Effect :=
  match env.policies, delegationNames d.metadata d.projectId with
  | some _, some delegation =>
    if isApproval value && env.delegationCompleted then
      .delegation delegation :: addGrant env delegation.fromAgent (.str delegateClass)
    else []
  | _, _ => []

/-- `_apply_device_pairing_grant`; the pair request is not modelled. -/
def applyDevicePairingGrant (env : Env) (d : Decision) (value : Value) : List Effect :=
  if isText "device_pairing" (d.metadata.get? "kind") && env.devicePairRequests &&
      truthy (field d.metadata "pair_request_id") then
    [.devicePairing (if d.userId = "" then "user" else d.userId)
      (field d.metadata "pair_request_id") (isApproval value)]
  else []

/-- What follows an answer. -/
def effects (env : Env) (d : Decision) (value : Value) : List Effect :=
  applyAppGrant env d value ++ applyExecutionGrant env d value ++
    applyDelegationGrant env d value ++ applyDevicePairingGrant env d value

/-! ## Answers -/

structure AnswerIn where
  value : Value
  otherValue : Option String
  source : String

/-- Lists and objects are in no set. -/
def hashable : Value → Bool
  | .arr _ => false
  | .obj _ => false
  | _ => true

def isOption (options : List String) : Value → Bool
  | .str text => options.contains text
  | _ => false

/-- The first value that is not among the options, by whether it can be looked up at all. -/
def firstOutside (options : List String) (values : List Value) : Option Value :=
  values.find? fun value => !isOption options value

def notSubset : Refusal := ⟨400, "answer must be a subset of the options"⟩

def invalidShape : Refusal := ⟨400, "invalid answer value shape"⟩

/-- The value of an answer with a free text. -/
def otherAnswer (d : Decision) (value : Value) (other : String) : Except Refusal Value :=
  if d.type = "single_select" then
    match value with
    | .str text =>
      if strip text = "" then .ok (.str (strip other))
      else .error ⟨400, "cannot combine value with other_value"⟩
    | _ => .ok (.str (strip other))
  else
    match value with
    | .arr values =>
      match if d.options.isEmpty then none else firstOutside d.options values with
      | none => .ok (.arr (values ++ [.str (strip other)]))
      | some outside =>
        .error (if hashable outside then notSubset else ⟨500, "unhashable type"⟩)
    | _ => .error invalidShape

/-- The value of an answer among the options. -/
def optionAnswer (d : Decision) (value : Value) : Except Refusal Value :=
  if d.options.isEmpty then .ok value
  else if d.type = "single_select" then
    if isOption d.options value then .ok value
    else .error (if hashable value then ⟨400, "answer is not one of the options"⟩ else invalidShape)
  else
    match value with
    | .arr values =>
      match firstOutside d.options values with
      | none => .ok value
      | some outside => .error (if hashable outside then notSubset else invalidShape)
    | _ => .error notSubset

/-- The value that is stored. -/
def storedValue (d : Decision) (body : AnswerIn) : Except Refusal Value :=
  if isSelect d.type then
    match body.otherValue with
    | some other => otherAnswer d body.value other
    | none => optionAnswer d body.value
  else .ok body.value

def notFound : Refusal := ⟨404, "not found"⟩

def notPending : Refusal := ⟨409, "already answered or not pending"⟩

/-- The decision is addressed to the user, or the user is an admin. -/
def mayAnswer (user : CurrentUser) (d : Decision) : Bool :=
  user.isAdmin || d.userId = user.userId

/-- `PROJECT_SCOPE_MISMATCH_DETAIL`, which is not told from a missing decision. -/
def scopeRefusal (refusal : Refusal) : Refusal :=
  if refusal = ⟨403, "token not scoped to this project"⟩ then notFound else refusal

/-- The kinds that the asking agent cannot answer. -/
def isGateKind (metadata : Metadata) : Bool :=
  ["execution_gate", "delegation_gate", "app_grant"].any fun kind =>
    isText kind (metadata.get? "kind")

namespace State

/-- `answer_decision`. -/
def answerDecision (s : State) (env : Env) (user : CurrentUser) (id : String) (body : AnswerIn) :
    Except Refusal State :=
  match (s.decisions.get? id).filter fun filed => mayAnswer user filed.record with
  | none => .error notFound
  | some filed => do
      let value ← storedValue filed.record body
      if body.source = "mirrored_from_chat" then
        .error ⟨400, "source must not be mirrored_from_chat on this endpoint"⟩
      else if filed.record.status = .pending then
        return { s.setStatus id .answered with
          answers := s.answers ++ [⟨id, user, value, effects env filed.record value⟩] }
      else .error notPending

/-- `answer_decision_as_agent`, which runs no applier. -/
def answerDecisionAsAgent (s : State) (env : Env) (canonicalId id : String) (body : AnswerIn) :
    Except Refusal State :=
  match (s.decisions.get? id).filter fun filed => filed.record.status = .pending with
  | none => .error notFound
  | some filed =>
    match env.checkScope canonicalId filed.record.projectId with
    | .error refusal => .error (scopeRefusal refusal)
    | .ok _ =>
      if filed.record.fromAgent ≠ canonicalId then .error notFound
      else if isGateKind filed.record.metadata then
        .error ⟨409, "gate decisions cannot be answered by the asking agent"⟩
      else do
        let _ ← storedValue filed.record body
        return s.setStatus id .answered

end State

/-! ## What the appliers can do -/

section Appliers

variable {env : Env} {d : Decision} {value : Value} {agentName actionClass : String}
  {expiresAt : Int}

theorem executionGrant_of_mem_addGrant {agent action : Value}
    (h : Effect.executionGrant agentName actionClass expiresAt ∈ addGrant env agent action) :
    storedText env.numberText agent = some agentName ∧
      storedText env.numberText action = some actionClass := by
  unfold addGrant at h
  split at h
  · rename_i a c ha hc
    split at h
    · cases List.mem_singleton.mp h
      exact ⟨ha, hc⟩
    · contradiction
  · contradiction

theorem delegation_notMem_addGrant {agent action : Value} (x : Delegation) :
    Effect.delegation x ∉ addGrant env agent action := by
  intro h
  unfold addGrant at h
  split at h
  · split at h
    · cases List.mem_singleton.mp h
    · contradiction
  · contradiction

/-- What can follow an answer: the applier of each effect, and what it read. -/
theorem mem_effects_cases {effect : Effect} (h : effect ∈ effects env d value) :
    (∃ userId appId capabilities, effect = .appGrants userId appId capabilities value) ∨
      (isApproval value = true ∧ ∃ agent action, executionNames d.metadata = some (agent, action) ∧
        effect ∈ addGrant env agent action) ∨
      (isApproval value = true ∧ ∃ x, delegationNames d.metadata d.projectId = some x ∧
        (effect = .delegation x ∨ effect ∈ addGrant env x.fromAgent (.str delegateClass))) ∨
      ∃ userId requestId approved, effect = .devicePairing userId requestId approved := by
  simp only [effects, List.mem_append] at h
  rcases h with ((happ | hexec) | hdeleg) | hdevice
  · unfold applyAppGrant at happ
    split at happ
    · exact Or.inl ⟨_, _, _, List.mem_singleton.mp happ⟩
    · contradiction
  · unfold applyExecutionGrant at hexec
    split at hexec
    · rename_i agent action _ hnames
      split at hexec
      · rename_i happroval
        exact Or.inr (Or.inl ⟨happroval, agent, action, hnames, hexec⟩)
      · contradiction
    · contradiction
  · unfold applyDelegationGrant at hdeleg
    split at hdeleg
    · rename_i x _ hnames
      split at hdeleg
      · rename_i happroval
        rw [Bool.and_eq_true] at happroval
        exact Or.inr (Or.inr (Or.inl ⟨happroval.1, x, hnames, List.mem_cons.mp hdeleg⟩))
      · contradiction
    · contradiction
  · unfold applyDevicePairingGrant at hdevice
    split at hdevice
    · exact Or.inr (Or.inr (Or.inr ⟨_, _, _, List.mem_singleton.mp hdevice⟩))
    · contradiction

/-- A grant is for what the metadata of an execution gate names, or for delegating. -/
theorem executionGrant_of_mem
    (h : Effect.executionGrant agentName actionClass expiresAt ∈ effects env d value) :
    isApproval value = true ∧
      ((∃ agent action, executionNames d.metadata = some (agent, action) ∧
          storedText env.numberText agent = some agentName ∧
          storedText env.numberText action = some actionClass) ∨
        ∃ x, delegationNames d.metadata d.projectId = some x ∧
          storedText env.numberText x.fromAgent = some agentName ∧
          actionClass = delegateClass) := by
  rcases mem_effects_cases h with ⟨_, _, _, heq⟩ | ⟨happroval, agent, action, hnames, hgrant⟩ |
    ⟨happroval, x, hnames, heq | hgrant⟩ | ⟨_, _, _, heq⟩
  · contradiction
  · exact ⟨happroval, Or.inl ⟨agent, action, hnames, executionGrant_of_mem_addGrant hgrant⟩⟩
  · contradiction
  · obtain ⟨hagent, haction⟩ := executionGrant_of_mem_addGrant hgrant
    exact ⟨happroval, Or.inr ⟨x, hnames, hagent, (Option.some.inj haction).symm⟩⟩
  · contradiction

/-- A delegation is the one that the metadata of a delegation gate names. -/
theorem delegation_of_mem {x : Delegation} (h : Effect.delegation x ∈ effects env d value) :
    isApproval value = true ∧ delegationNames d.metadata d.projectId = some x := by
  rcases mem_effects_cases h with ⟨_, _, _, heq⟩ | ⟨happroval, agent, action, hnames, hgrant⟩ |
    ⟨happroval, y, hnames, heq | hgrant⟩ | ⟨_, _, _, heq⟩
  · contradiction
  · exact absurd hgrant (delegation_notMem_addGrant x)
  · cases heq
    exact ⟨happroval, hnames⟩
  · exact absurd hgrant (delegation_notMem_addGrant x)
  · contradiction

end Appliers

end TinyAgentOS.Inbox
