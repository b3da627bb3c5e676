import TinyAgentOS.Registry.CanonicalId

/-!
# Approvals of access requests

An external agent asks for access, and for more scopes once it is registered.  What an approval
writes follows from the request, the decision of the operator and what the stores answer: a
token, the grants, the permissions of the agent and its memberships.

Main results:

- `lawful_scopeEffects`: the approval of a scope request keeps to the project of the operator.
- `operatorBinds_iff`: the approvals that bind what they write to no project but the one of the
  operator.
-/

namespace TinyAgentOS.AgentAuth

open Registry (Slug slugify isSpace strip)

/-! ## Scopes -/

/-- `VALID_SCOPES`. -/
def validScopes : List String :=
  ["memory_read", "memory_write", "a2a_send", "a2a_receive", "files_read", "files_write",
    "tools_execute", "registry_feeds_read", "project_tasks", "project_tasks_create",
    "project_tasks_update", "canvas_read", "canvas_write", "decisions_read", "decisions_write",
    "project_doc_review", "project_notes", "observatory_control", "project_lists"]

def canvasScopes : List String :=
  ["canvas_read", "canvas_write"]

def filesScopes : List String :=
  ["files_read", "files_write"]

/-- Meaningless without a project. -/
def projectScopes : List String :=
  ["project_tasks", "project_tasks_create", "project_tasks_update", "project_lists",
    "project_notes"] ++ canvasScopes ++ filesScopes

def sortedSet (scopes : List String) : List String :=
  scopes.dedup.insertionSort (· ≤ ·)

/-- `(granted - requested) | (granted - VALID_SCOPES)`. -/
def notGrantable (requested granted : List String) : List String :=
  sortedSet (granted.filter fun scope => scope ∉ requested ∨ scope ∉ validScopes)

/-- The granted scopes that need a project. -/
def needingProject (granted : List String) : List String :=
  sortedSet (granted.filter fun scope => scope ∈ projectScopes)

/-- What is granted was asked for. -/
theorem subset_of_notGrantable {requested granted : List String}
    (h : notGrantable requested granted = []) : granted ⊆ requested := by
  intro scope hmem
  by_contra hnot
  have hinvalid : scope ∈ notGrantable requested granted := by
    simp [notGrantable, sortedSet, hmem, hnot]
  rw [h] at hinvalid
  exact List.not_mem_nil hinvalid

/-! ## Requests -/

inductive RequestStatus where
  | pending
  | accepted
  | refused
deriving DecidableEq

/-- A row of `auth_requests`; the project is the one that the agent names. -/
structure AuthRecord where
  identityClaim : String
  framework : String
  requestedScopes : List String
  projectId : Option String
  status : RequestStatus

/-- The decision of the operator. -/
structure ApproveBody where
  grantedScopes : List String
  projectId : Option String
  deferBinding : Bool

/-- Why an approval is turned down. -/
inductive ApprovalError where
  | notFound
  | alreadyDecided (status : RequestStatus)
  | deferWithProject
  | noScopes
  | notGrantable (scopes : List String)
  | projectRequired (scopes : List String)
  | handleInUse (handle canonicalId : String)
  /-- The unique index on the handles of active agents is violated. -/
  | handleTaken (handle : String)
  | decidedConcurrently

def ApprovalError.status : ApprovalError → Nat
  | .notFound => 404
  | .deferWithProject => 400
  | .noScopes => 400
  | .notGrantable _ => 400
  | .projectRequired _ => 400
  | _ => 409

/-- `project_id and project_id.strip()`. -/
def isPresent (projectId : Option String) : Bool :=
  projectId.any fun id => strip isSpace id.toList ≠ []

/-- The checks of `_do_approve` and `approve_request_record`. -/
def checkApproval (record : AuthRecord) (body : ApproveBody) : Except ApprovalError Unit :=
  if record.status ≠ .pending then .error (.alreadyDecided record.status)
  else if body.deferBinding && isPresent body.projectId then .error .deferWithProject
  else if notGrantable record.requestedScopes body.grantedScopes ≠ [] then
    .error (.notGrantable (notGrantable record.requestedScopes body.grantedScopes))
  else if needingProject body.grantedScopes ≠ [] && !body.deferBinding &&
      !isPresent body.projectId then
    .error (.projectRequired (needingProject body.grantedScopes))
  else .ok ()

variable {record : AuthRecord} {body : ApproveBody}

/-- An approval grants requested scopes. -/
theorem subset_of_checkApproval (h : checkApproval record body = .ok ()) :
    body.grantedScopes ⊆ record.requestedScopes := by
  simp only [checkApproval] at h
  split at h
  · contradiction
  split at h
  · contradiction
  split at h
  · contradiction
  rename_i hgrantable
  exact subset_of_notGrantable (not_not.mp hgrantable)

/-- `effective_project`: the operator's project, or else the agent's. -/
def effectiveProject (record : AuthRecord) (body : ApproveBody) : Option String :=
  body.projectId.or record.projectId

def bindingProject (record : AuthRecord) (body : ApproveBody) : Option String :=
  if body.deferBinding then none else effectiveProject record body

/-- The claim without the sigil of the bus. -/
def cleanClaim (claim : String) : List Char :=
  let text := strip isSpace claim.toList
  strip isSpace (if text.head? = some '@' then text.drop 1 else text)

def handleOf (record : AuthRecord) : Slug :=
  slugify (String.ofList (cleanClaim record.identityClaim))

def displayNameOf (record : AuthRecord) : String :=
  let claim := cleanClaim record.identityClaim
  if claim = [] then record.framework else String.ofList claim

/-- The identity that an approval is for. -/
inductive Mint where
  | fresh
  /-- The active agent of the handle joins the project. -/
  | reuse (canonicalId projectId : String)

/-- The agent that holds the handle already joins a project, or stands in the way. -/
def mintFor (record : AuthRecord) (body : ApproveBody) (existing : Option String) :
    Except ApprovalError Mint :=
  match existing with
  | none => .ok .fresh
  | some canonicalId =>
    let inUse := ApprovalError.handleInUse (String.ofList (handleOf record).chars) canonicalId
    if body.deferBinding then .error inUse
    else
      match body.projectId with
      | none => .error inUse
      | some projectId =>
        if projectId ≠ "" ∧ needingProject body.grantedScopes ≠ [] then
          .ok (.reuse canonicalId projectId)
        else .error inUse

/-- A token is minted afresh, or reused within the project. -/
theorem mintFor_eq_ok {existing : Option String}
    {mint : Mint} (h : mintFor record body existing = .ok mint) :
    (existing = none ∧ mint = .fresh) ∨
      ∃ canonicalId projectId, existing = some canonicalId ∧
        body.projectId = some projectId ∧ mint = .reuse canonicalId projectId := by
  cases existing with
  | none => exact Or.inl ⟨rfl, (Except.ok.inj h).symm⟩
  | some canonicalId =>
    simp only [mintFor] at h
    split at h
    · contradiction
    split at h
    · contradiction
    rename_i projectId hbody
    split at h
    · exact Or.inr ⟨canonicalId, projectId, rfl, hbody, (Except.ok.inj h).symm⟩
    · contradiction

/-! ## What is written -/

inductive Effect where
  | token (canonicalId : String) (projectId : Option String)
  | grant (canonicalId scope : String) (projectId : Option String)
  /-- `set_permission` of the instance. -/
  | permission (canonicalId scope : String)
  | member (projectId canonicalId : String)
  | memberCanvas (projectId canonicalId : String) (canRead canWrite : Bool)
  /-- `ensure_a2a_channel`. -/
  | channel (projectId : String)
deriving DecidableEq

def Effect.projectId : Effect → Option String
  | .token _ projectId => projectId
  | .grant _ _ projectId => projectId
  | .permission _ _ => none
  | .member projectId _ => some projectId
  | .memberCanvas projectId _ _ _ => some projectId
  | .channel projectId => some projectId

def Effect.scope : Effect → Option String
  | .grant _ scope _ => some scope
  | .permission _ scope => some scope
  | _ => none

/-- The claim of a token is left out where it is empty. -/
def tokenEffect (canonicalId : String) (projectId : Option String) : Effect :=
  .token canonicalId (if projectId = some "" then none else projectId)

def grantEffects (canonicalId : String) (scopes : List String) (projectId : Option String) :
    List Effect :=
  scopes.flatMap fun scope => [.grant canonicalId scope projectId, .permission canonicalId scope]

/-- The membership that tasks and the canvas need. -/
def memberEffects (canonicalId : String) (scopes : List String) (projectId : String) :
    List Effect :=
  let canvas := scopes.any fun scope => scope ∈ canvasScopes
  if "project_tasks" ∈ scopes ∨ canvas = true then
    [.member projectId canonicalId] ++
      (if canvas then
        [.memberCanvas projectId canonicalId (decide ("canvas_read" ∈ scopes))
          (decide ("canvas_write" ∈ scopes))]
      else []) ++
      if "project_tasks" ∈ scopes then [.channel projectId] else []
  else []

/-- `add_agent_to_project`. -/
def addAgentToProject (canonicalId projectId : String) (scopes : List String) : List Effect :=
  grantEffects canonicalId scopes (some projectId) ++
    if needingProject scopes ≠ [] then memberEffects canonicalId scopes projectId else []

/-- A store that raises breaks the writing off. -/
def upTo (brokenOff : Option Nat) (effects : List Effect) : List Effect :=
  match brokenOff with
  | none => effects
  | some n => effects.take n

/-- What the stores answer an approval: the active agent of the handle, the id of the
registration if it succeeds, and where the writing breaks off. -/
structure ApprovalEnv where
  existing : Option String
  registered : Option String
  brokenOff : Option Nat

/-- The writes of an approval of an access request. -/
def approvalEffects (record : AuthRecord) (body : ApproveBody) (env : ApprovalEnv) :
    List Effect :=
  match checkApproval record body, mintFor record body env.existing with
  | .ok _, .ok (.reuse canonicalId projectId) =>
    upTo env.brokenOff
      (tokenEffect canonicalId (some projectId) ::
        addAgentToProject canonicalId projectId body.grantedScopes)
  | .ok _, .ok .fresh =>
    match env.registered with
    | none => []
    | some canonicalId =>
      let binding := bindingProject record body
      upTo env.brokenOff
        (tokenEffect canonicalId binding ::
          grantEffects canonicalId body.grantedScopes binding ++
            match binding with
            | none => []
            | some projectId =>
              if projectId ≠ "" ∧ needingProject body.grantedScopes ≠ [] then
                memberEffects canonicalId body.grantedScopes projectId
              else [])
  | _, _ => []

/-! ## Scope requests -/

/-- A row of `agent_scope_requests`. -/
structure ScopeRequest where
  canonicalId : String
  requestedScopes : List String
  projectId : Option String
  status : RequestStatus

structure ApproveScopeBody where
  grantedScopes : List String
  projectId : Option String

/-- The agent is active and the caller its owner or an administrator; where the writing breaks
off. -/
structure ScopeEnv where
  mayDecide : Bool
  brokenOff : Option Nat

/-- `validated_project`. -/
def validatedProject (body : ApproveScopeBody) : Option String :=
  if isPresent body.projectId then body.projectId else none

/-- The checks of `approve_scope_request`. -/
def checkScopeApproval (canonicalId : String) (request : ScopeRequest)
    (body : ApproveScopeBody) : Except ApprovalError Unit :=
  if request.canonicalId ≠ canonicalId then .error .notFound
  else if request.status ≠ .pending then .error (.alreadyDecided request.status)
  else if body.grantedScopes = [] then .error .noScopes
  else if notGrantable request.requestedScopes body.grantedScopes ≠ [] then
    .error (.notGrantable (notGrantable request.requestedScopes body.grantedScopes))
  else if needingProject body.grantedScopes ≠ [] ∧ validatedProject body = none then
    .error (.projectRequired (needingProject body.grantedScopes))
  else .ok ()

/-- The writes of an approval of a scope request. -/
def scopeEffects (canonicalId : String) (request : ScopeRequest) (body : ApproveScopeBody)
    (env : ScopeEnv) : List Effect :=
  if env.mayDecide then
    match checkScopeApproval canonicalId request body with
    | .error _ => []
    | .ok _ =>
      let inProject := body.grantedScopes.filter fun scope => scope ∈ projectScopes
      let others := body.grantedScopes.filter fun scope => scope ∉ projectScopes
      upTo env.brokenOff
        (grantEffects canonicalId others (validatedProject body) ++
          match validatedProject body with
          | none => []
          | some projectId =>
            if inProject = [] then [] else addAgentToProject canonicalId projectId inProject)
  else []

/-! ## Bindings -/

/-- What is written carries no project but the operator's, and no scope that was not asked for. -/
def Effect.Lawful (requested : List String) (supplied : Option String) (e : Effect) : Prop :=
  (e.projectId.getD "" = "" ∨ e.projectId = supplied) ∧
    ∀ scope, e.scope = some scope → scope ∈ requested

theorem mem_of_mem_upTo {brokenOff : Option Nat} {effects : List Effect} {e : Effect}
    (h : e ∈ upTo brokenOff effects) : e ∈ effects := by
  unfold upTo at h
  split at h
  · exact h
  · exact List.mem_of_mem_take h

section Lawful

variable {requested scopes : List String} {supplied : Option String} {canonicalId : String}

variable {projectId : Option String}

/-- The token is for the project that was supplied. -/
theorem lawful_tokenEffect (hproject : projectId.getD "" = "" ∨ projectId = supplied) :
    (tokenEffect canonicalId projectId).Lawful requested supplied := by
  refine ⟨?_, nofun⟩
  by_cases hempty : projectId = some ""
  · exact Or.inl (by simp [tokenEffect, Effect.projectId, hempty])
  · simpa [tokenEffect, Effect.projectId, hempty] using hproject

/-- The grants are of requested scopes. -/
theorem lawful_grantEffects (hscopes : scopes ⊆ requested)
    (hproject : projectId.getD "" = "" ∨ projectId = supplied) :
    ∀ e ∈ grantEffects canonicalId scopes projectId, e.Lawful requested supplied := by
  intro e he
  obtain ⟨scope, hscope, hmem⟩ := List.mem_flatMap.mp he
  have hrequested : ∀ other, some scope = some other → other ∈ requested := by
    intro other heq
    cases heq
    exact hscopes hscope
  rcases List.mem_cons.mp hmem with rfl | hmem
  · exact ⟨hproject, hrequested⟩
  · rw [List.mem_singleton.mp hmem]
    exact ⟨Or.inl rfl, hrequested⟩

/-- The member joins the project that was supplied. -/
theorem lawful_memberEffects {projectId : String} (hproject : some projectId = supplied) :
    ∀ e ∈ memberEffects canonicalId scopes projectId, e.Lawful requested supplied := by
  intro e he
  have hkind : e.projectId = some projectId ∧ e.scope = none := by
    unfold memberEffects at he
    simp only at he
    split at he
    · rw [List.mem_append, List.mem_append, List.mem_singleton] at he
      rcases he with (rfl | he) | he
      · exact ⟨rfl, rfl⟩
      · split at he
        · rw [List.mem_singleton.mp he]
          exact ⟨rfl, rfl⟩
        · exact absurd he List.not_mem_nil
      · split at he
        · rw [List.mem_singleton.mp he]
          exact ⟨rfl, rfl⟩
        · exact absurd he List.not_mem_nil
    · exact absurd he List.not_mem_nil
  refine ⟨Or.inr (hkind.1.trans hproject), ?_⟩
  intro scope hscope
  rw [hkind.2] at hscope
  contradiction

/-- An agent joins a project with requested scopes. -/
theorem lawful_addAgentToProject {projectId : String} (hscopes : scopes ⊆ requested)
    (hproject : some projectId = supplied) :
    ∀ e ∈ addAgentToProject canonicalId projectId scopes, e.Lawful requested supplied := by
  intro e he
  rcases List.mem_append.mp he with he | he
  · exact lawful_grantEffects hscopes (Or.inr hproject) e he
  · split at he
    · exact lawful_memberEffects hproject e he
    · exact absurd he List.not_mem_nil

end Lawful

/-- A scope approval grants requested scopes. -/
theorem subset_of_checkScopeApproval {canonicalId : String} {request : ScopeRequest}
    {body : ApproveScopeBody} (h : checkScopeApproval canonicalId request body = .ok ()) :
    body.grantedScopes ⊆ request.requestedScopes := by
  simp only [checkScopeApproval] at h
  split at h
  · contradiction
  split at h
  · contradiction
  split at h
  · contradiction
  split at h
  · contradiction
  rename_i hgrantable
  exact subset_of_notGrantable (not_not.mp hgrantable)

/-- The approval of a scope request keeps to the project of the operator. -/
theorem lawful_scopeEffects (canonicalId : String) (request : ScopeRequest)
    (body : ApproveScopeBody) (env : ScopeEnv) :
    ∀ e ∈ scopeEffects canonicalId request body env,
      e.Lawful request.requestedScopes body.projectId := by
  intro e he
  unfold scopeEffects at he
  split at he
  · split at he
    · exact absurd he List.not_mem_nil
    · rename_i hcheck
      have hscopes := subset_of_checkScopeApproval hcheck
      have hfilter : ∀ keep : String → Bool,
          body.grantedScopes.filter keep ⊆ request.requestedScopes :=
        fun keep => List.Subset.trans (List.filter_subset_self _) hscopes
      have hproject : (validatedProject body).getD "" = "" ∨
          validatedProject body = body.projectId := by
        unfold validatedProject
        split
        · exact Or.inr rfl
        · exact Or.inl rfl
      rcases List.mem_append.mp (mem_of_mem_upTo he) with he | he
      · exact lawful_grantEffects (hfilter _) hproject e he
      · split at he
        · exact absurd he List.not_mem_nil
        · rename_i projectId hvalidated
          split at he
          · exact absurd he List.not_mem_nil
          apply lawful_addAgentToProject (hfilter _) _ e he
          unfold validatedProject at hvalidated
          split at hvalidated
          · exact hvalidated.symm
          · contradiction
  · exact absurd he List.not_mem_nil

/-- The approval passes its checks, finds the handle free and registers the agent, and is not
broken off at once. -/
def Mints (record : AuthRecord) (body : ApproveBody) (env : ApprovalEnv) : Prop :=
  checkApproval record body = .ok () ∧ env.existing = none ∧ env.registered ≠ none ∧
    env.brokenOff ≠ some 0

/-- The project that the agent names is not fallen back on. -/
def OperatorChooses (record : AuthRecord) (body : ApproveBody) (env : ApprovalEnv) : Prop :=
  Mints record body env →
    body.deferBinding = true ∨ body.projectId ≠ none ∨ record.projectId.getD "" = ""

/-- A project that is bound is the operator's where the agent's is not fallen back on. -/
theorem bindingProject_of_chosen
    (h : body.deferBinding = true ∨ body.projectId ≠ none ∨ record.projectId.getD "" = "") :
    (bindingProject record body).getD "" = "" ∨
      bindingProject record body = body.projectId := by
  unfold bindingProject effectiveProject
  split
  · exact Or.inl rfl
  · rename_i hdefer
    cases hbody : body.projectId with
    | some id => exact Or.inr rfl
    | none =>
      rcases h with hyes | hsome | hnone
      · exact absurd hyes hdefer
      · exact absurd hbody hsome
      · exact Or.inl hnone

variable {env : ApprovalEnv}

/-- What an approval does is within the request. -/
theorem lawful_approvalEffects (h : OperatorChooses record body env) :
    ∀ e ∈ approvalEffects record body env, e.Lawful record.requestedScopes body.projectId := by
  intro e he
  unfold approvalEffects at he
  split at he
  · rename_i canonicalId projectId hcheck hmint
    have hscopes := subset_of_checkApproval hcheck
    have hproject : some projectId = body.projectId := by
      rcases mintFor_eq_ok hmint with ⟨_, hfresh⟩ | ⟨_, _, _, hbody, hreuse⟩
      · cases hfresh
      · cases hreuse
        exact hbody.symm
    rcases List.mem_cons.mp (mem_of_mem_upTo he) with rfl | he
    · exact lawful_tokenEffect (Or.inr hproject)
    · exact lawful_addAgentToProject hscopes hproject e he
  · rename_i hcheck hmint
    split at he
    · exact absurd he List.not_mem_nil
    rename_i canonicalId hregistered
    have hscopes := subset_of_checkApproval hcheck
    have hexisting : env.existing = none := by
      rcases mintFor_eq_ok hmint with ⟨hnone, _⟩ | ⟨_, _, _, _, hreuse⟩
      · exact hnone
      · cases hreuse
    have hbroken : env.brokenOff ≠ some 0 := by
      intro hzero
      rw [hzero] at he
      exact absurd he List.not_mem_nil
    have hchosen := h ⟨hcheck, hexisting, by simp [hregistered], hbroken⟩
    have hbinding := bindingProject_of_chosen hchosen
    rcases List.mem_append.mp (mem_of_mem_upTo he) with he | he
    · rcases List.mem_cons.mp he with rfl | he
      · exact lawful_tokenEffect hbinding
      · exact lawful_grantEffects hscopes hbinding e he
    · split at he
      · exact absurd he List.not_mem_nil
      · rename_i projectId hsome
        split at he
        · rename_i hnonempty
          rw [hsome] at hbinding
          exact lawful_memberEffects (hbinding.resolve_left hnonempty.1) e he
        · exact absurd he List.not_mem_nil
  · exact absurd he List.not_mem_nil

/-- Where the project of the agent is fallen back on, the token carries it. -/
theorem exists_unlawful (h : ¬ OperatorChooses record body env) :
    ∃ e ∈ approvalEffects record body env,
      ¬ e.Lawful record.requestedScopes body.projectId := by
  unfold OperatorChooses at h
  push Not at h
  obtain ⟨⟨hcheck, hexisting, hregistered, hbroken⟩, hdefer, hbody, hproject⟩ := h
  obtain ⟨canonicalId, hcanonical⟩ := Option.ne_none_iff_exists'.mp hregistered
  obtain ⟨projectId, hrecord⟩ : ∃ projectId, record.projectId = some projectId := by
    cases hrecord : record.projectId with
    | none => simp [hrecord] at hproject
    | some projectId => exact ⟨projectId, rfl⟩
  have hbinding : bindingProject record body = some projectId := by
    simp [bindingProject, effectiveProject, hdefer, hbody, hrecord]
  have hnonempty : projectId ≠ "" := by simpa [hrecord] using hproject
  refine ⟨.token canonicalId (some projectId), ?_, ?_⟩
  · have hfirst : ∀ rest : List Effect,
        .token canonicalId (some projectId) ∈
          upTo env.brokenOff (.token canonicalId (some projectId) :: rest) := by
      intro rest
      cases hoff : env.brokenOff with
      | none => exact List.mem_cons_self
      | some n =>
        cases n with
        | zero => exact absurd hoff hbroken
        | succ n => exact List.mem_cons_self
    have htoken : tokenEffect canonicalId (some projectId) =
        .token canonicalId (some projectId) := by
      simp [tokenEffect, hnonempty]
    simp only [approvalEffects, hcheck, mintFor, hexisting, hcanonical, hbinding, htoken,
      List.cons_append]
    exact hfirst _
  · rintro ⟨hlawful, _⟩
    rcases hlawful with hempty | hsupplied
    · exact hnonempty hempty
    · rw [hbody] at hsupplied
      contradiction

/-- An approval of either kind, with what it is given. -/
inductive Approval where
  | access (record : AuthRecord) (body : ApproveBody) (env : ApprovalEnv)
  | scopes (canonicalId : String) (request : ScopeRequest) (body : ApproveScopeBody)
      (env : ScopeEnv)

/-- What an approval writes keeps to the project of the operator and the scopes asked for. -/
def Approval.OperatorBinds : Approval → Prop
  | .access record body env =>
    ∀ e ∈ approvalEffects record body env, e.Lawful record.requestedScopes body.projectId
  | .scopes canonicalId request body env =>
    ∀ e ∈ scopeEffects canonicalId request body env,
      e.Lawful request.requestedScopes body.projectId

/-- The project that the agent names is not fallen back on by an approval of its access. -/
def Approval.OperatorChooses : Approval → Prop
  | .access record body env => AgentAuth.OperatorChooses record body env
  | .scopes _ _ _ _ => True

/-- An approval binds what it writes to the project of the operator alone exactly when it does
not fall back on the project that the agent names. -/
theorem operatorBinds_iff (a : Approval) : a.OperatorBinds ↔ a.OperatorChooses := by
  cases a with
  | access record body env =>
    constructor
    · intro hbinds
      by_contra hnot
      obtain ⟨e, he, hunlawful⟩ := exists_unlawful hnot
      exact hunlawful (hbinds e he)
    · exact lawful_approvalEffects
  | scopes canonicalId request body env =>
    exact iff_of_true (lawful_scopeEffects canonicalId request body env) trivial

/-- An agent names a project, and the operator approves with no project in mind. -/
def selfNamed : Approval :=
  .access ⟨"scout", "hermes", ["decisions_write"], some "prj-victim", .pending⟩
    ⟨["decisions_write"], none, false⟩ ⟨none, some "scout-1", none⟩

/-- The token and the grant are bound to the project that the agent named. -/
theorem not_operatorBinds : ¬ selfNamed.OperatorBinds := by
  intro h
  have htoken := h (.token "scout-1" (some "prj-victim")) (by decide)
  rcases htoken.1 with hempty | hsupplied
  · exact absurd hempty (by decide)
  · contradiction

end TinyAgentOS.AgentAuth
