import TinyAgentOS.AgentAuth.Decisions
import TinyAgentOS.Library.Attempt
import TinyAgentOS.Projects.Invites
import TinyAgentOS.Registry.Handles

/-!
# Redeeming an invite

The call that shows the PIN claims the invite and asks for access in the name of an agent.  It
approves the request itself, or leaves it to the operator, and marks the invite redeemed.  Every
statement of the stores can raise; some errors are passed over, and some release the invite.

Main results:

- `RedeemCall.approve_of_stops`: an approval that ends before its agent is active leaves nothing
  behind.
- `RedeemCall.approve_of_not_stops` and `RedeemCall.deliver_of_not_breaksOff`: what it writes
  otherwise.
-/

namespace TinyAgentOS.Projects

open AgentAuth (AgentRow ApprovalError ApproveBody AuthRecord Effect bindingProject checkApproval
  displayNameOf grantEffects isPresent memberEffects mintFor needingProject tokenEffect)
open AgentAuth.Books (isActive)
open Collections Raising
open Registry (dedupeHandle deriveHandle deriveOsHandle isReserved slugify)

/-! ## Stores -/

/-- The slug of a row of `projects`. -/
structure ProjectRow where
  slug : String

/-- The statements that can raise. -/
inductive RedeemStep where
  | expire
  | countAttempt
  | claim
  | fetchClaimed
  | getProject
  | lookupHandle
  | createRequest
  | lookupOwner
  | register
  | activate
  | delete
  | write (e : Effect)
  | decide
  | rollback
  | refuse
  | markRedeemed
  | bundle

/-- Why a call is turned down. -/
inductive RedeemError where
  | tooMany
  | invite (error : InviteError)
  | projectNotFound
  | approval (error : ApprovalError)
  | reservedName (rawName : String)
  | store (step : RedeemStep)

/-- The invite, the request of the call, the registry with the agents that the call registered,
and what it wrote for them. -/
structure RedeemStores where
  invite : Invite
  request : Option AuthRecord
  agents : Dict String AgentRow
  registered : List String
  written : List Effect

/-- The call, and what it is answered: no project has a blank id, and `register` draws ids
until one is free. -/
structure RedeemCall where
  sha256 : String → String
  pin : String
  harness : String
  label : Option String
  withinRate : Bool
  now : Clock
  requestId : String
  projects : Dict String ProjectRow
  projects_present : ∀ id row, projects.get? id = some row → isPresent (some id) = true
  drawId : Dict String AgentRow → String
  drawId_free : ∀ agents : Dict String AgentRow, agents.get? (drawId agents) = none
  fails : RedeemStep → Bool

structure RedeemReply where
  handle : String
  scopes : List String

/-- A computation on the stores. -/
abbrev Redeeming : Type → Type :=
  Attempt RedeemStores RedeemError

namespace RedeemStores

/-- `UPDATE project_invites`. -/
def updateInvite (s : RedeemStores) (f : Invite → Invite) : RedeemStores :=
  { s with invite := f s.invite }

/-- `UPDATE project_invites … WHERE status = 'claimed'`. -/
def updateClaimed (s : RedeemStores) (f : Invite → Invite) : RedeemStores :=
  s.updateInvite fun invite => if invite.status = .claimed then f invite else invite

def setRequest (s : RedeemStores) (status : AgentAuth.RequestStatus) : RedeemStores :=
  { s with request := s.request.map fun record => { record with status := status } }

end RedeemStores

/-! ## The registry -/

/-- The handles of the active agents. -/
def activeHandles (agents : Dict String AgentRow) : List String :=
  (agents.values.filter AgentRow.isActive).map AgentRow.handle

/-- `get_by_handle`, of the active agents. -/
def ownerOf (agents : Dict String AgentRow) (handle : String) : Option String :=
  (agents.entries.find? fun e => e.2.isActive && e.2.handle = handle).map Prod.fst

/-- `ux_agent_active_handle` has another row for the handle. -/
def handleTaken (agents : Dict String AgentRow) (canonicalId handle : String) : Bool :=
  handle ≠ "" && agents.entries.any fun e =>
    e.1 ≠ canonicalId && e.2.isActive && e.2.handle = handle

/-- The name that an agent is registered under. -/
def sourceNameOf (record : AuthRecord) (displayName : Option String) : String :=
  let name := Registry.strip Registry.isSpace (displayName.getD "").toList
  let args : Registry.RegisterArgs :=
    { framework := record.framework
      displayName := if name = [] then displayNameOf record else String.ofList name }
  args.sourceName

/-! ## Statements -/

namespace RedeemCall

/-- A statement of a store. -/
def execute (call : RedeemCall) (step : RedeemStep) (f : RedeemStores → RedeemStores) :
    Redeeming Unit :=
  statement (call.fails step) (.store step) f

/-- `redeem` of the store of invites. -/
def claimInvite (call : RedeemCall) : Redeeming Unit := do
  let invite ← read RedeemStores.invite
  match verdict call.sha256 (some invite) call.pin call.now with
  | .refuse error => raise (.invite error)
  | .expire => do
      call.execute .expire fun s => s.updateInvite fun invite => { invite with status := .expired }
      raise (.invite .expired)
  | .wrongPin attempts => do
      call.execute .countAttempt fun s => s.updateInvite fun invite =>
        { invite with redeemAttempts := invite.redeemAttempts + 1 }
      if maxAttempts ≤ attempts + 1 then
        call.execute .expire fun s => s.updateInvite fun invite =>
          { invite with status := .expired }
      raise (.invite .pin)
  | .rightPin => do
      call.execute .claim fun s => s.updateInvite fun invite =>
        if invite.status = .pending then { invite with status := .claimed } else invite
      if invite.status = .pending then call.execute .fetchClaimed id
      else raise (.invite .alreadyRedeemed)

/-- `_dedupe_handle`. -/
def freeHandle (call : RedeemCall) (base : List Char) : Redeeming String := do
  call.execute .lookupHandle id
  let agents ← read RedeemStores.agents
  pure (String.ofList (dedupeHandle (activeHandles agents) base))

/-- `create` of the store of requests. -/
def createRequest (call : RedeemCall) (record : AuthRecord) : Redeeming AuthRecord := do
  call.execute .createRequest fun s => { s with request := some record }
  pure record

/-- The agent is registered and activated; one whose handle is taken meanwhile is deleted. -/
def registerAgent (call : RedeemCall) (handle sourceName : String) : Redeeming String :=
  if isReserved (slugify sourceName) sourceName then raise (.reservedName sourceName)
  else do
    let canonicalId ← read fun s => call.drawId s.agents
    call.execute .register fun s =>
      { s with
        agents := s.agents.set canonicalId ⟨handle, .pending⟩
        registered := canonicalId :: s.registered }
    let agents ← read RedeemStores.agents
    if handleTaken agents canonicalId handle then do
      bestEffort (call.execute .delete fun s => { s with agents := s.agents.pop canonicalId })
      raise (.approval (.handleTaken handle))
    else do
      call.execute .activate fun s =>
        { s with agents := s.agents.set canonicalId ⟨handle, .active⟩ }
      pure canonicalId

def writeAll (call : RedeemCall) (effects : List Effect) : Redeeming Unit :=
  forEach (fun e => call.execute (.write e) fun s => { s with written := s.written ++ [e] }) effects

/-- The membership of an agent that is bound to a project. -/
def membership (canonicalId : String) (scopes : List String) : Option String → List Effect
  | none => []
  | some projectId =>
    if projectId ≠ "" ∧ needingProject scopes ≠ [] then
      memberEffects canonicalId scopes projectId
    else []

/-- The token and the grants, the membership as far as it goes, and the decision. -/
def deliver (call : RedeemCall) (canonicalId : String) (scopes : List String)
    (binding : Option String) : Redeeming Unit := do
  call.writeAll (tokenEffect canonicalId binding :: grantEffects canonicalId scopes binding)
  bestEffort (call.writeAll (membership canonicalId scopes binding))
  call.execute .decide fun s => s.setRequest .accepted

/-- `approve_request_record`, of all that was asked for. -/
def approveRequestRecord (call : RedeemCall) (record : AuthRecord) (projectId : Option String)
    (displayName : Option String) : Redeeming Unit := do
  let body : ApproveBody := ⟨record.requestedScopes, projectId, false⟩
  ensure ((checkApproval record body).mapError .approval)
  call.execute .lookupOwner id
  let agents ← read RedeemStores.agents
  match mintFor record body (ownerOf agents record.handle) with
  | .error error => raise (.approval error)
  | .ok (.reuse canonicalId projectId) =>
    call.deliver canonicalId record.requestedScopes (some projectId)
  | .ok .fresh => do
      let canonicalId ← call.registerAgent record.handle (sourceNameOf record displayName)
      call.deliver canonicalId record.requestedScopes (bindingProject record body)

/-- `rollback_to_pending`. -/
def rollbackToPending (call : RedeemCall) : Redeeming Unit :=
  call.execute .rollback fun s => s.updateClaimed fun invite => { invite with status := .pending }

/-- An approval that fails releases the invite and refuses the request. -/
def approveOrRelease (call : RedeemCall) (record : AuthRecord) (projectId : Option String)
    (displayName : Option String) : Redeeming Unit :=
  rescue (call.approveRequestRecord record projectId displayName) fun error => do
    call.rollbackToPending
    bestEffort (call.execute .refuse fun s => s.setRequest .refused)
    raise error

/-- The invite is marked redeemed, if the statement does not raise, and the bundle is made. -/
def finish (call : RedeemCall) (reply : RedeemReply) : Redeeming RedeemReply := do
  bestEffort (call.execute .markRedeemed fun s => s.updateClaimed fun invite =>
    { invite with
      redeemedBy := some reply.handle
      redeemedRequestId := some call.requestId
      status := .redeemed })
  call.execute .bundle id
  pure reply

/-- The scopes of the invite, with the one that makes a member. -/
def projectScopesOf (invite : Invite) : List String :=
  if "project_tasks" ∈ invite.scopes then invite.scopes else "project_tasks" :: invite.scopes

/-- `redeem_invite`, of an invite to a project. -/
def redeemInProject (call : RedeemCall) (invite : Invite) (projectId : String) :
    Redeeming RedeemReply := do
  call.execute .getProject id
  match call.projects.get? projectId with
  | none => raise .projectNotFound
  | some project => do
      let scopes := projectScopesOf invite
      let slug := if project.slug = "" then projectId else project.slug
      let handle ← call.freeHandle (deriveHandle slug call.harness call.label)
      let record ← rescue
        (call.createRequest ⟨handle, call.harness, scopes, some projectId, .pending⟩)
        fun error => do
          call.rollbackToPending
          raise error
      if invite.approvalMode = "auto" then call.approveOrRelease record (some projectId) none
      call.finish ⟨handle, scopes⟩

/-- `_redeem_os_level`. -/
def redeemOsLevel (call : RedeemCall) (invite : Invite) : Redeeming RedeemReply := do
  let handle ← call.freeHandle (deriveOsHandle invite.displayName call.harness call.label)
  let record ← call.createRequest ⟨handle, call.harness, invite.scopes, none, .pending⟩
  if invite.approvalMode = "auto" then call.approveOrRelease record none invite.displayName
  call.finish ⟨handle, invite.scopes⟩

/-- `redeem_invite`. -/
def redeemInvite (call : RedeemCall) : Redeeming RedeemReply :=
  if call.withinRate then do
    call.claimInvite
    let invite ← read RedeemStores.invite
    match invite.projectId with
    | none => call.redeemOsLevel invite
    | some projectId => call.redeemInProject invite projectId
  else raise .tooMany

end RedeemCall

/-! ## Free handles -/

variable {agents : Dict String AgentRow} {handle : String}

/-- Nobody owns a free handle. -/
theorem ownerOf_of_free (h : handle ∉ activeHandles agents) : ownerOf agents handle = none := by
  rw [ownerOf, Option.map_eq_none_iff, List.find?_eq_none]
  intro e he hfound
  simp only [Bool.and_eq_true, decide_eq_true_eq] at hfound
  refine h (List.mem_map.mpr ⟨e.2, List.mem_filter.mpr ⟨?_, hfound.1⟩, hfound.2⟩)
  exact List.mem_map_of_mem he

/-- A free handle is not taken by its new owner. -/
theorem handleTaken_of_free (h : handle ∉ activeHandles agents) (canonicalId : String) :
    handleTaken (agents.set canonicalId ⟨handle, .pending⟩) canonicalId handle = false := by
  by_contra htaken
  simp only [handleTaken, Bool.not_eq_false, Bool.and_eq_true, decide_eq_true_eq,
    List.any_eq_true] at htaken
  obtain ⟨_, e, he, ⟨hne, hactive⟩, hhandle⟩ := htaken
  have hget := Dict.mem_entries_iff.mp he
  rw [Dict.get?_set_of_ne _ _ (Ne.symm hne)] at hget
  refine h (List.mem_map.mpr ⟨e.2, List.mem_filter.mpr ⟨?_, hactive⟩, hhandle⟩)
  exact Dict.mem_values_iff.mpr ⟨e.1, hget⟩

/-- A handle of words between dashes is what the registry makes of it. -/
theorem handle_of_tidy {record : AuthRecord} {text : List Char} (h : Registry.Tidy text)
    (hclaim : record.identityClaim = String.ofList text) : record.handle = String.ofList text := by
  have hstrip : Registry.strip Registry.isSpace text = text :=
    h.strip_eq Registry.isSpace_of_isSlugChar
  have hhead : ¬ text.head? = some '@' := by
    obtain ⟨⟨c, rest, rfl, hc⟩, _⟩ := h.ends
    intro hat
    rw [List.head?_cons, Option.some_inj] at hat
    rw [hat] at hc
    exact absurd hc (by decide)
  have hclean : AgentAuth.cleanClaim record.identityClaim = text := by
    simp only [AgentAuth.cleanClaim, hclaim, String.toList_ofList, hstrip, if_neg hhead]
  rw [AuthRecord.handle, AgentAuth.handleOf, hclean, Registry.chars_slugify_of_tidy h]

/-! ## Approvals -/

namespace RedeemStores

/-- The agents of the call that are active. -/
def created (s : RedeemStores) : List String :=
  s.registered.filter fun canonicalId => isActive s.agents canonicalId

/-- The invite and the registry are as they were. -/
def SameAgents (s t : RedeemStores) : Prop :=
  t.invite = s.invite ∧ t.agents = s.agents ∧ t.registered = s.registered

theorem SameAgents.created {s t : RedeemStores} (h : s.SameAgents t) : t.created = s.created := by
  rw [RedeemStores.created, h.2.1, h.2.2, RedeemStores.created]

end RedeemStores

namespace RedeemCall

variable {call : RedeemCall} {s : RedeemStores}

/-- The approval ends before the agent is active. -/
def Stops (call : RedeemCall) (record : AuthRecord) (projectId displayName : Option String) :
    Prop :=
  checkApproval record ⟨record.requestedScopes, projectId, false⟩ ≠ .ok () ∨
    call.fails .lookupOwner = true ∨
    isReserved (slugify (sourceNameOf record displayName)) (sourceNameOf record displayName) =
      true ∨
    call.fails .register = true ∨ call.fails .activate = true

/-- What is written for an agent that is active, but for its membership. -/
def ownEffects (canonicalId : String) (scopes : List String) (binding : Option String) :
    List Effect :=
  tokenEffect canonicalId binding :: grantEffects canonicalId scopes binding

/-- The approval ends after that. -/
def BreaksOff (call : RedeemCall) (canonicalId : String) (scopes : List String)
    (binding : Option String) : Prop :=
  (∃ e ∈ ownEffects canonicalId scopes binding, call.fails (.write e) = true) ∨
    call.fails .decide = true

variable {step : RedeemStep} {binding : Option String} {scopes : List String}
  {canonicalId handle sourceName : String}

/-- A step that fails leaves the stores alone. -/
theorem execute_of_fails (h : call.fails step = true)
    (f : RedeemStores → RedeemStores) : call.execute step f s = (.error (.store step), s) :=
  statement_of_fails h _ _ _

/-- A step that does not fail is done. -/
theorem execute_of_not_fails (h : ¬ call.fails step = true)
    (f : RedeemStores → RedeemStores) : call.execute step f s = (.ok (), f s) :=
  statement_of_not_fails h _ _ _

theorem writeAll_apply (call : RedeemCall) (effects : List Effect) (s : RedeemStores) :
    call.writeAll effects s =
      (match effects.find? fun e => call.fails (.write e) with
        | none => .ok ()
        | some e => .error (.store (.write e)),
        { s with
          written := s.written ++ effects.takeWhile fun e => !call.fails (.write e) }) := by
  have hfold : ∀ (es : List Effect) (s : RedeemStores),
      es.foldl (fun s e => { s with written := s.written ++ [e] }) s =
        { s with written := s.written ++ es } := by
    intro es
    induction es with
    | nil => simp
    | cons e es ih => simp [ih]
  have hrun := forEach_statement (fun e => call.fails (.write e))
    (fun e => RedeemError.store (.write e))
    (fun e (s : RedeemStores) => { s with written := s.written ++ [e] }) effects s
  rw [hfold] at hrun
  refine Eq.trans hrun ?_
  cases effects.find? fun e => call.fails (.write e) <;> rfl

/-- The effects leave the agents alone. -/
theorem sameAgents_writeAll (call : RedeemCall) (effects : List Effect) (s : RedeemStores) :
    s.SameAgents (call.writeAll effects s).2 := by
  rw [writeAll_apply]
  exact ⟨rfl, rfl, rfl⟩

/-- An approval that breaks off raises. -/
theorem deliver_of_breaksOff (h : call.BreaksOff canonicalId scopes binding) :
    ∃ error t, call.deliver canonicalId scopes binding s = (.error error, t) ∧
      s.SameAgents t := by
  rw [deliver]
  cases hfind : (ownEffects canonicalId scopes binding).find? fun e => call.fails (.write e) with
  | some e =>
    have hown : call.writeAll (ownEffects canonicalId scopes binding) s =
        (.error (.store (.write e)),
          (call.writeAll (ownEffects canonicalId scopes binding) s).2) := by
      rw [writeAll_apply, hfind]
    exact ⟨_, _, bind_of_error hown, sameAgents_writeAll call _ s⟩
  | none =>
    have hnone : ¬ ∃ e ∈ ownEffects canonicalId scopes binding,
        call.fails (.write e) = true := by
      rintro ⟨e, he, hfails⟩
      exact List.find?_eq_none.mp hfind e he hfails
    have hdecide := h.resolve_left hnone
    have hown : call.writeAll (ownEffects canonicalId scopes binding) s =
        (.ok (), (call.writeAll (ownEffects canonicalId scopes binding) s).2) := by
      rw [writeAll_apply, hfind]
    rw [← ownEffects, bind_of_ok hown, bind_of_ok (bestEffort_apply _ _),
      execute_of_fails hdecide]
    refine ⟨_, _, rfl, ?_⟩
    rw [writeAll_apply, writeAll_apply]
    exact ⟨rfl, rfl, rfl⟩

/-- An approval that does not, writes all but perhaps some of the membership. -/
theorem deliver_of_not_breaksOff (h : ¬ call.BreaksOff canonicalId scopes binding) :
    ∃ t, call.deliver canonicalId scopes binding s = (.ok (), t) ∧ s.SameAgents t ∧
      t.written = s.written ++ ownEffects canonicalId scopes binding ++
        (membership canonicalId scopes binding).takeWhile fun e => !call.fails (.write e) := by
  have hall : ∀ e ∈ ownEffects canonicalId scopes binding, ¬ call.fails (.write e) = true :=
    fun e he hfails => h (Or.inl ⟨e, he, hfails⟩)
  have hown : call.writeAll (ownEffects canonicalId scopes binding) s =
      (.ok (), { s with written := s.written ++ ownEffects canonicalId scopes binding }) := by
    rw [writeAll_apply, List.find?_eq_none.mpr hall, List.takeWhile_eq_self_iff.mpr]
    intro e he
    simpa using hall e he
  rw [deliver, ← ownEffects, bind_of_ok hown, bind_of_ok (bestEffort_apply _ _),
    execute_of_not_fails fun hdecide => h (Or.inr hdecide)]
  refine ⟨_, rfl, ?_, ?_⟩
  · rw [writeAll_apply]
    exact ⟨rfl, rfl, rfl⟩
  · rw [writeAll_apply]
    rfl

/-- The row of a new agent. -/
def registerRow (call : RedeemCall) (s : RedeemStores) (handle : String)
    (status : Registry.Status) : RedeemStores :=
  { s with
    agents := s.agents.set (call.drawId s.agents) ⟨handle, status⟩
    registered := call.drawId s.agents :: s.registered }

theorem created_registerRow_pending (handle : String) (h : s.registered = []) :
    (call.registerRow s handle .pending).created = [] := by
  simp [registerRow, RedeemStores.created, h, isActive, AgentRow.isActive]

/-- An agent that is not registered to the end is not active. -/
theorem registerAgent_of_stops (hfree : handle ∉ activeHandles s.agents)
    (hregistered : s.registered = [])
    (h : isReserved (slugify sourceName) sourceName = true ∨ call.fails .register = true ∨
      call.fails .activate = true) :
    ∃ error t, call.registerAgent handle sourceName s = (.error error, t) ∧
      t.invite = s.invite ∧ t.created = [] ∧ t.written = s.written := by
  have hnone : s.created = [] := by rw [RedeemStores.created, hregistered, List.filter_nil]
  rw [registerAgent]
  by_cases hreserved : isReserved (slugify sourceName) sourceName = true
  · rw [if_pos hreserved]
    exact ⟨_, _, rfl, rfl, hnone, rfl⟩
  · rw [if_neg hreserved, read_bind]
    by_cases hregister : call.fails .register = true
    · exact ⟨_, _, bind_of_error (execute_of_fails hregister _), rfl, hnone, rfl⟩
    · have hactivate := (h.resolve_left hreserved).resolve_left hregister
      rw [bind_of_ok (execute_of_not_fails hregister _), read_bind,
        if_neg (by simp [handleTaken_of_free hfree])]
      exact ⟨_, _, bind_of_error (execute_of_fails hactivate _), rfl,
        created_registerRow_pending handle hregistered, rfl⟩

/-- A registration that nothing stops. -/
theorem registerAgent_of_not_stops (hfree : handle ∉ activeHandles s.agents)
    (hreserved : ¬ isReserved (slugify sourceName) sourceName = true)
    (hregister : ¬ call.fails .register = true) (hactivate : ¬ call.fails .activate = true) :
    ∃ t, call.registerAgent handle sourceName s = (.ok (call.drawId s.agents), t) ∧
      t.invite = s.invite ∧ t.written = s.written ∧
      t.registered = call.drawId s.agents :: s.registered ∧
      t.agents.get? (call.drawId s.agents) = some ⟨handle, .active⟩ := by
  rw [registerAgent, if_neg hreserved, read_bind, bind_of_ok (execute_of_not_fails hregister _),
    read_bind, if_neg (by simp [handleTaken_of_free hfree]),
    bind_of_ok (execute_of_not_fails hactivate _)]
  exact ⟨_, rfl, rfl, rfl, rfl, Dict.get?_set_self _ _ _⟩

section Approve

variable {record : AuthRecord} {projectId displayName : Option String}

/-- An approval that stops leaves nothing behind. -/
theorem approve_of_stops (hfree : record.handle ∉ activeHandles s.agents)
    (hregistered : s.registered = []) (h : call.Stops record projectId displayName) :
    ∃ error t, call.approveRequestRecord record projectId displayName s = (.error error, t) ∧
      t.invite = s.invite ∧ t.created = [] ∧ t.written = s.written := by
  have hnone : s.created = [] := by rw [RedeemStores.created, hregistered, List.filter_nil]
  rw [approveRequestRecord]
  cases hcheck : checkApproval record ⟨record.requestedScopes, projectId, false⟩ with
  | error error => exact ⟨.approval error, s, bind_of_error rfl, rfl, hnone, rfl⟩
  | ok _ =>
    have hensure : (ensure ((Except.ok ()).mapError .approval) : Redeeming Unit) s =
        (.ok (), s) := rfl
    rw [bind_of_ok hensure]
    have hrest := h.resolve_left fun hne => hne hcheck
    by_cases howner : call.fails .lookupOwner = true
    · exact ⟨_, _, bind_of_error (execute_of_fails howner _), rfl, hnone, rfl⟩
    · rw [bind_of_ok (execute_of_not_fails howner _), read_bind, id_eq, ownerOf_of_free hfree]
      dsimp only [mintFor]
      obtain ⟨error, t, hrun, hinvite, hcreated, hwritten⟩ :=
        registerAgent_of_stops hfree hregistered (hrest.resolve_left howner)
      rw [bind_of_error hrun]
      exact ⟨error, t, rfl, hinvite, hcreated, hwritten⟩

/-- An approval that does not, delivers to a new agent. -/
theorem approve_of_not_stops (hfree : record.handle ∉ activeHandles s.agents)
    (hregistered : s.registered = []) (h : ¬ call.Stops record projectId displayName) :
    ∃ t, call.approveRequestRecord record projectId displayName s =
        call.deliver (call.drawId s.agents) record.requestedScopes
          (projectId.or record.projectId) t ∧
      t.invite = s.invite ∧ t.created = [call.drawId s.agents] ∧ t.written = s.written := by
  simp only [Stops, not_or, not_not] at h
  obtain ⟨hcheck, howner, hreserved, hregister, hactivate⟩ := h
  obtain ⟨t, hrun, hinvite, hwritten, hnew, hget⟩ :=
    registerAgent_of_not_stops hfree hreserved hregister hactivate
  refine ⟨t, ?_, hinvite, ?_, hwritten⟩
  · have hensure : (ensure ((Except.ok ()).mapError .approval) : Redeeming Unit) s =
        (.ok (), s) := rfl
    rw [approveRequestRecord, hcheck, bind_of_ok hensure,
      bind_of_ok (execute_of_not_fails howner _), read_bind, id_eq, ownerOf_of_free hfree]
    dsimp only [mintFor]
    rw [bind_of_ok hrun]
    rfl
  · simp [RedeemStores.created, hnew, hregistered, isActive, hget, AgentRow.isActive]

end Approve

end RedeemCall

end TinyAgentOS.Projects
