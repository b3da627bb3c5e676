import TinyAgentOS.AgentAuth.Delivery
import TinyAgentOS.Projects.RedemptionSaga

/-!
# Minted invites

The routes that mint an invite check that its scopes are known, and the route for no project
leaves out those that it takes to need one.  The approval has a set of its own of the scopes that
need a project, and the registry refuses names that neither route looks at.

Main results:

- `minted_of_mint`: what an invite is minted with.
- `RedeemCall.stops_iff`: where no store raises, the checks and the name decide.
- `RedeemCall.grants_iff`: the minted invites whose redemption grants their scopes.
-/

namespace TinyAgentOS.Projects

open AgentAuth (AuthRecord Effect canvasScopes checkApproval grantEffects needingProject
  notGrantable projectScopes sortedSet validScopes)
open Collections Raising
open Registry (isReserved slugify)

/-! ## Routes -/

/-- `_PROJECT_SCOPED`. -/
def projectScoped : List String :=
  ["project_tasks", "project_tasks_create", "project_tasks_update", "canvas_read", "canvas_write"]

structure MintInviteIn where
  scopes : List String
  approvalMode : String
  checkIntervalSecs : Int
  ttlSecs : Option Int
  approvalMode_valid : approvalMode = "auto" ∨ approvalMode = "manual"
  checkIntervalSecs_le : 60 ≤ checkIntervalSecs
  ttlSecs_le : ∀ ttl ∈ ttlSecs, 60 ≤ ttl ∧ ttl ≤ 86400

structure MintOsInviteIn where
  scopes : List String
  approvalMode : String
  checkIntervalSecs : Int
  displayName : Option String
  approvalMode_valid : approvalMode = "auto" ∨ approvalMode = "manual"
  checkIntervalSecs_le : 60 ≤ checkIntervalSecs
  displayName_le : ∀ name ∈ displayName, name.length ≤ 64

inductive MintRequest where
  | project (projectId : String) (body : MintInviteIn)
  | osLevel (body : MintOsInviteIn)

/-- Why a mint is turned down. -/
inductive MintError where
  | projectNotFound
  | forbidden
  | displayName (message : String)
  | unknownScopes (unknown : List String)
  | store (error : InviteError)

/-- The invite, and the scopes that it is minted without. -/
structure MintReply where
  record : Invite
  dropped : List String

/-- The caller, and what a mint is answered. -/
structure MintCall where
  sha256 : String → String
  userId : String
  isAdmin : Bool
  isOwnerOrAdmin : Bool
  projects : Dict String ProjectRow
  pendingCount : Nat
  pin : String
  now : Clock

/-- `_clean_display_name`. -/
def cleanDisplayName : Option String → Except MintError (Option String)
  | none => .ok none
  | some v =>
    let text := Registry.strip Registry.isSpace v.toList
    if text = [] then .ok none
    else if text.any fun c => c.toNat < 0x20 then
      .error (.displayName "display_name must not contain control characters")
    else .ok (some (String.ofList text))

/-- `set(scopes) - VALID_SCOPES`. -/
def unknownScopes (scopes : List String) : List String :=
  sortedSet (scopes.filter fun scope => scope ∉ validScopes)

namespace MintCall

/-- `mint_invite`. -/
def mintInvite (mint : MintCall) (projectId : String) (body : MintInviteIn) :
    Except MintError MintReply :=
  match mint.projects.get? projectId with
  | none => .error .projectNotFound
  | some _ =>
    if !mint.isOwnerOrAdmin then .error .forbidden
    else if unknownScopes body.scopes ≠ [] then
      .error (.unknownScopes (unknownScopes body.scopes))
    else
      match mintRow mint.sha256
          { projectId := some projectId
            scopes := body.scopes
            approvalMode := body.approvalMode
            checkIntervalSecs := body.checkIntervalSecs
            createdBy := mint.userId
            ttlSecs := body.ttlSecs } mint.pendingCount mint.pin mint.now with
      | .error error => .error (.store error)
      | .ok record => .ok ⟨record, []⟩

/-- `mint_os_invite`. -/
def mintOsInvite (mint : MintCall) (body : MintOsInviteIn) : Except MintError MintReply :=
  match cleanDisplayName body.displayName with
  | .error error => .error error
  | .ok displayName =>
    if !mint.isAdmin then .error .forbidden
    else if unknownScopes body.scopes ≠ [] then
      .error (.unknownScopes (unknownScopes body.scopes))
    else
      match mintRow mint.sha256
          { projectId := none
            scopes := body.scopes.filter fun scope => scope ∉ projectScoped
            approvalMode := body.approvalMode
            checkIntervalSecs := body.checkIntervalSecs
            createdBy := mint.userId
            displayName := displayName } mint.pendingCount mint.pin mint.now with
      | .error error => .error (.store error)
      | .ok record =>
        .ok ⟨record, sortedSet (body.scopes.filter fun scope => scope ∈ projectScoped)⟩

def mint (mint : MintCall) : MintRequest → Except MintError MintReply
  | .project projectId body => mint.mintInvite projectId body
  | .osLevel body => mint.mintOsInvite body

end MintCall

/-! ## Minted rows -/

/-- What the routes let through. -/
structure Minted (sha256 : String → String) (pin : String) (invite : Invite) : Prop where
  pending : invite.status = .pending
  redeemAttempts : invite.redeemAttempts = 0
  pinHash : invite.pinHash = sha256 pin
  valid : ∀ scope ∈ invite.scopes, scope ∈ validScopes
  tasks : invite.projectId ≠ none → "project_tasks" ∈ invite.scopes

variable {scopes : List String}

theorem sortedSet_eq_nil : sortedSet scopes = [] ↔ scopes = [] := by
  rw [← List.length_eq_zero_iff, sortedSet, List.length_insertionSort, List.length_eq_zero_iff,
    List.dedup_eq_nil]

/-- Scopes are valid when none is unknown. -/
theorem valid_of_unknownScopes (h : unknownScopes scopes = []) :
    ∀ scope ∈ scopes, scope ∈ validScopes := by
  have hfilter := List.filter_eq_nil_iff.mp (sortedSet_eq_nil.mp h)
  intro scope hscope
  simpa using hfilter scope hscope

/-- A row that is made is minted. -/
theorem minted_of_mintRow {sha256 : String → String} {args : MintArgs} {count : Nat}
    {pin : String} {now : Clock} {row : Invite}
    (hvalid : ∀ scope ∈ args.scopes, scope ∈ validScopes)
    (h : mintRow sha256 args count pin now = .ok row) : Minted sha256 pin row := by
  unfold mintRow at h
  split at h
  · contradiction
  split at h
  · contradiction
  split at h
  · contradiction
  cases h
  refine ⟨rfl, rfl, rfl, ?_, ?_⟩
  · intro scope hscope
    dsimp only at hscope
    split at hscope
    · exact hvalid scope (List.mem_eraseDups.mp hscope)
    · rcases List.mem_append.mp (List.mem_eraseDups.mp hscope) with hscope | htasks
      · exact hvalid scope (List.mem_eraseDups.mp hscope)
      · rw [List.mem_singleton.mp htasks]
        decide
  · intro hproject
    dsimp only at hproject ⊢
    rw [if_neg hproject, List.mem_eraseDups, List.mem_append]
    exact Or.inr List.mem_cons_self

/-- What is minted has its scopes and its pin. -/
theorem minted_of_mint {mint : MintCall} {request : MintRequest} {reply : MintReply}
    (h : mint.mint request = .ok reply) : Minted mint.sha256 mint.pin reply.record := by
  cases request with
  | project projectId body =>
    simp only [MintCall.mint, MintCall.mintInvite] at h
    split at h
    · contradiction
    split at h
    · contradiction
    split at h
    · contradiction
    rename_i hknown
    split at h
    · contradiction
    rename_i hrow
    cases h
    exact minted_of_mintRow (valid_of_unknownScopes (not_not.mp hknown)) hrow
  | osLevel body =>
    simp only [MintCall.mint, MintCall.mintOsInvite] at h
    split at h
    · contradiction
    split at h
    · contradiction
    split at h
    · contradiction
    rename_i hknown
    split at h
    · contradiction
    rename_i hrow
    cases h
    refine minted_of_mintRow (fun scope hscope => ?_) hrow
    exact valid_of_unknownScopes (not_not.mp hknown) scope (List.mem_filter.mp hscope).1

/-! ## Approvals of all that is asked for -/

/-- Valid scopes that were asked for may be granted. -/
theorem notGrantable_self (h : ∀ scope ∈ scopes, scope ∈ validScopes) :
    notGrantable scopes scopes = [] := by
  rw [notGrantable, sortedSet_eq_nil, List.filter_eq_nil_iff]
  intro scope hscope
  simp [hscope, h scope hscope]

/-- No scope needs a project when none is a project's. -/
theorem needingProject_eq_nil :
    needingProject scopes = [] ↔ ∀ scope ∈ scopes, scope ∉ projectScopes := by
  rw [needingProject, sortedSet_eq_nil, List.filter_eq_nil_iff]
  simp only [decide_eq_true_eq]

/-- Known scopes are granted with a project, or where none needs one. -/
theorem checkApproval_eq_ok_iff {record : AuthRecord} (projectId : Option String)
    (hpending : record.status = .pending)
    (hvalid : ∀ scope ∈ record.requestedScopes, scope ∈ validScopes) :
    checkApproval record ⟨record.requestedScopes, projectId, false⟩ = .ok () ↔
      AgentAuth.isPresent projectId = true ∨
        ∀ scope ∈ record.requestedScopes, scope ∉ projectScopes := by
  have hgrantable : ¬ notGrantable record.requestedScopes record.requestedScopes ≠ [] :=
    not_not.mpr (notGrantable_self hvalid)
  rw [← needingProject_eq_nil, checkApproval, if_neg (not_not.mpr hpending)]
  dsimp only
  rw [Bool.false_and, if_neg Bool.false_ne_true, if_neg hgrantable]
  by_cases hpresent : AgentAuth.isPresent projectId = true
  · simp [hpresent]
  · by_cases hneeding : needingProject record.requestedScopes = []
    · simp [hneeding]
    · simp [hpresent, hneeding]

namespace RedeemCall

variable {call : RedeemCall} {s : RedeemStores}

/-- The registry refuses the name that the agent is to be registered under. -/
def NameReserved (record : AuthRecord) (displayName : Option String) : Prop :=
  isReserved (slugify (sourceNameOf record displayName)) (sourceNameOf record displayName) = true

/-- An approval that stops fails the call. -/
theorem approve_finish_of_stops {record : AuthRecord} {projectId displayName : Option String}
    (hfree : record.handle ∉ activeHandles s.agents)
    (h : call.Claims s) (hstops : call.Stops record projectId displayName) (reply : RedeemReply) :
    ∃ error t, (do call.approveOrRelease record projectId displayName; call.finish reply :
      Redeeming RedeemReply) s = (.error error, t) := by
  obtain ⟨error, t, hrun, hinvite, _⟩ := approve_of_stops hfree h.registered hstops
  obtain ⟨error', t', hrelease, _⟩ :=
    approveOrRelease_of_error hrun (by rw [hinvite, h.claimed])
  exact ⟨error', t', bind_of_error hrelease⟩

section Sound

variable (hsound : ∀ step, call.fails step = false)
include hsound

theorem not_fails (step : RedeemStep) : ¬ call.fails step = true := by
  rw [hsound step]
  exact Bool.false_ne_true

variable {projectId displayName : Option String} {record : AuthRecord}

/-- An approval stops at its checks, or at a reserved name. -/
theorem stops_iff : call.Stops record projectId displayName ↔
      checkApproval record ⟨record.requestedScopes, projectId, false⟩ ≠ .ok () ∨
        NameReserved record displayName := by
  simp [Stops, NameReserved, hsound]

/-- No approval breaks off. -/
theorem not_breaksOff {canonicalId : String} {scopes : List String} {binding : Option String} :
    ¬ call.BreaksOff canonicalId scopes binding := by
  rintro (⟨e, _, hfails⟩ | hfails)
  · exact not_fails hsound _ hfails
  · exact not_fails hsound _ hfails

/-- The redemption finishes, and writes nothing more. -/
theorem finish_of_sound (reply : RedeemReply) :
    ∃ t, call.finish reply s = (.ok reply, t) ∧ t.written = s.written := by
  rw [finish, bind_of_ok (bestEffort_apply _ _), execute_of_not_fails (not_fails hsound _),
    bind_of_ok (execute_of_not_fails (not_fails hsound _) id)]
  exact ⟨_, rfl, rfl⟩

/-- One that does not, writes all there is to write. -/
theorem approve_finish_of_not_stops (hfree : record.handle ∉ activeHandles s.agents)
    (h : call.Claims s) (hstops : ¬ call.Stops record projectId displayName) (reply : RedeemReply) :
    ∃ t, (do call.approveOrRelease record projectId displayName; call.finish reply :
        Redeeming RedeemReply) s = (.ok reply, t) ∧
      t.written = ownEffects (call.drawId s.agents) record.requestedScopes
          (projectId.or record.projectId) ++
        membership (call.drawId s.agents) record.requestedScopes
          (projectId.or record.projectId) := by
  obtain ⟨t, hrun, _, _, hwritten⟩ := approve_of_not_stops hfree h.registered hstops
  obtain ⟨t', hdeliver, _, hwritten'⟩ := deliver_of_not_breaksOff (s := t) (not_breaksOff hsound)
  obtain ⟨t'', hfinish, hwritten''⟩ := finish_of_sound (s := t') hsound reply
  refine ⟨t'', ?_, ?_⟩
  · have happroved : call.approveOrRelease record projectId displayName s = (.ok (), t') :=
      rescue_of_ok (hrun.trans hdeliver)
    rw [bind_of_ok happroved, hfinish]
  · rw [hwritten'', hwritten', hwritten, h.written, List.nil_append,
      List.takeWhile_eq_self_iff.mpr]
    intro e _
    rw [hsound]
    rfl

end Sound

/-! ## The law -/

/-- The call succeeds, and grants the scopes of the invite to a new agent. -/
def Grants (call : RedeemCall) (s : RedeemStores) : Prop :=
  (∃ reply, (call.redeemInvite s).1 = .ok reply) ∧
    ∀ canonicalId scope projectId,
      Effect.grant canonicalId scope projectId ∈ (call.redeemInvite s).2.written ↔
        canonicalId = call.drawId s.agents ∧ scope ∈ s.invite.scopes ∧
          projectId = s.invite.projectId

/-- The grants that are written are those of the scopes. -/
theorem grant_mem_written {canonicalId id scope : String} {scopes : List String}
    {binding projectId : Option String} :
    Effect.grant id scope projectId ∈
        ownEffects canonicalId scopes binding ++ membership canonicalId scopes binding ↔
      id = canonicalId ∧ scope ∈ scopes ∧ projectId = binding := by
  have htoken : Effect.grant id scope projectId ≠ AgentAuth.tokenEffect canonicalId binding := by
    rw [AgentAuth.tokenEffect]
    exact fun h => Effect.noConfusion h
  have hmember : Effect.grant id scope projectId ∉ membership canonicalId scopes binding := by
    unfold membership
    split
    · exact List.not_mem_nil
    · split
      · exact AgentAuth.grant_notMem_memberEffects
      · exact List.not_mem_nil
  rw [List.mem_append, or_iff_left hmember, ownEffects, List.mem_cons, or_iff_right htoken,
    AgentAuth.grant_mem_grantEffects]

/-- A call for an invite that was minted, with its PIN and before it expires: nobody has acted on
the invite, its project exists, the call is let through and no store raises. -/
structure Redeems (mint : MintCall) (request : MintRequest) (call : RedeemCall)
    (s : RedeemStores) : Prop where
  minted : ∃ dropped, mint.mint request = .ok ⟨s.invite, dropped⟩
  auto : s.invite.approvalMode = "auto"
  sha256 : call.sha256 = mint.sha256
  pin : call.pin = mint.pin
  early : call.now ≤ s.invite.expiresTs
  project : ∀ projectId, s.invite.projectId = some projectId →
    ∃ project, call.projects.get? projectId = some project
  withinRate : call.withinRate = true
  sound : ∀ step, call.fails step = false
  registered : s.registered = []
  written : s.written = []

/-- The name is free to be registered, and no scope needs a project where there is none. -/
def Fits (call : RedeemCall) (s : RedeemStores) : Prop :=
  match s.invite.projectId with
  | none =>
    (∀ scope ∈ s.invite.scopes, scope ∉ projectScopes) ∧
      ¬ NameReserved (call.osRequest s) s.invite.displayName
  | some projectId =>
    ∀ project, call.projects.get? projectId = some project →
      ¬ NameReserved (call.projectRequest s projectId project) none

section Redeems

variable {mint : MintCall} {request : MintRequest}

/-- The redeemed invite was minted. -/
theorem Redeems.mintedRow (h : Redeems mint request call s) :
    Minted mint.sha256 mint.pin s.invite := by
  obtain ⟨dropped, hmint⟩ := h.minted
  exact minted_of_mint hmint

theorem Redeems.opens (h : Redeems mint request call s) : call.Opens s := by
  have hrow := h.mintedRow
  refine ⟨hrow.pending, ?_, h.registered, h.written⟩
  have hearly : ¬ s.invite.expiresTs < call.now := not_lt.mpr h.early
  have hattempts : ¬ maxAttempts ≤ s.invite.redeemAttempts := by
    rw [hrow.redeemAttempts]
    decide
  have hpin : ¬ call.sha256 call.pin ≠ s.invite.pinHash := by
    rw [h.sha256, h.pin, hrow.pinHash]
    exact not_not.mpr rfl
  simp only [verdict, hrow.pending, if_neg hearly, if_neg hattempts, if_neg hpin, reduceCtorEq,
    if_false]

/-- The call gets as far as the invite that it claimed. -/
theorem Redeems.redeemInvite_eq (h : Redeems mint request call s) :
    call.redeemInvite s =
      match s.invite.projectId with
      | none => call.redeemOsLevel (claim s).invite (claim s)
      | some projectId => call.redeemInProject (claim s).invite projectId (claim s) := by
  have hclaimed : call.claimInvite s = (.ok (), claim s) :=
    (claimInvite_of_not_fails h.opens (not_fails h.sound _)).trans
      (execute_of_not_fails (not_fails h.sound _) id)
  rw [redeemInvite, if_pos h.withinRate, bind_of_ok hclaimed, read_bind]
  change (match s.invite.projectId with
    | none => call.redeemOsLevel (claim s).invite
    | some projectId => call.redeemInProject (claim s).invite projectId) (claim s) = _
  cases s.invite.projectId with
  | none => rfl
  | some projectId => rfl

/-- The invite is claimed and the request made. -/
def requested (s : RedeemStores) (record : AuthRecord) : RedeemStores :=
  { claim s with request := some record }

/-- A request for the scopes of the invite decides the call. -/
theorem grants_iff_of_request (h : Redeems mint request call s) {record : AuthRecord}
    {projectId displayName : Option String} {reply : RedeemReply}
    (hfree : record.handle ∉ activeHandles s.agents) (hpending : record.status = .pending)
    (hscopes : record.requestedScopes = s.invite.scopes)
    (hproject : projectId.or record.projectId = s.invite.projectId) (hrun : call.redeemInvite s =
      (do call.approveOrRelease record projectId displayName; call.finish reply :
        Redeeming RedeemReply) (requested s record)) :
    call.Grants s ↔
      (AgentAuth.isPresent projectId = true ∨
          ∀ scope ∈ s.invite.scopes, scope ∉ projectScopes) ∧
        ¬ NameReserved record displayName := by
  have hvalid : ∀ scope ∈ record.requestedScopes, scope ∈ validScopes := by
    rw [hscopes]
    exact h.mintedRow.valid
  have hclaims : call.Claims (requested s record) := h.opens.claims.setRequest record
  have hfree' : record.handle ∉ activeHandles (requested s record).agents := hfree
  have hcheck := checkApproval_eq_ok_iff projectId hpending hvalid
  rw [← hscopes, ← hcheck]
  by_cases hstops : call.Stops record projectId displayName
  · obtain ⟨error, t, hstop⟩ := approve_finish_of_stops hfree' hclaims hstops reply
    refine iff_of_false ?_ ?_
    · rintro ⟨⟨reply', hok⟩, _⟩
      rw [hrun, hstop] at hok
      contradiction
    · rintro ⟨hok, hname⟩
      rcases (stops_iff h.sound).mp hstops with hbad | hbad
      · exact hbad hok
      · exact hname hbad
  · obtain ⟨t, hgo, hwritten⟩ :=
      approve_finish_of_not_stops h.sound hfree' hclaims hstops reply
    rw [stops_iff h.sound, not_or, not_not] at hstops
    refine iff_of_true ⟨⟨reply, ?_⟩, ?_⟩ hstops
    · rw [hrun, hgo]
    · intro canonicalId scope project
      rw [hrun, hgo, hwritten, grant_mem_written, hscopes, hproject]
      rfl

/-- A redemption at the OS level gets to its approval. -/
theorem redeemOsLevel_of_redeems (h : Redeems mint request call s) :
    call.redeemOsLevel (claim s).invite (claim s) =
      (do
        call.approveOrRelease (call.osRequest s) none s.invite.displayName
        call.finish ⟨(call.osRequest s).identityClaim, s.invite.scopes⟩ :
        Redeeming RedeemReply) (requested s (call.osRequest s)) := by
  have hauto : (claim s).invite.approvalMode = "auto" := h.auto
  rw [redeemOsLevel, bind_of_ok (freeHandle_of_not_fails (not_fails h.sound _) _),
    bind_of_ok (createRequest_of_not_fails (not_fails h.sound _) _), if_pos hauto]
  rfl

/-- A redemption in a project gets to its approval. -/
theorem redeemInProject_of_redeems (h : Redeems mint request call s) {projectId : String}
    {project : ProjectRow} (hproject : call.projects.get? projectId = some project) :
    call.redeemInProject (claim s).invite projectId (claim s) =
      (do
        call.approveOrRelease (call.projectRequest s projectId project) (some projectId) none
        call.finish ⟨(call.projectRequest s projectId project).identityClaim,
          projectScopesOf s.invite⟩ :
        Redeeming RedeemReply) (requested s (call.projectRequest s projectId project)) := by
  have hauto : (claim s).invite.approvalMode = "auto" := h.auto
  rw [redeemInProject, bind_of_ok (execute_of_not_fails (not_fails h.sound _) _), id_eq, hproject]
  dsimp only
  rw [bind_of_ok (freeHandle_of_not_fails (not_fails h.sound _) _),
    bind_of_ok (rescue_of_ok (createRequest_of_not_fails (not_fails h.sound _) _)), if_pos hauto]
  rfl

/-- An invite that was minted in auto mode is redeemed, for its scopes, exactly when the name of
its agent is not reserved and, without a project, no scope needs one. -/
theorem grants_iff (h : Redeems mint request call s) : call.Grants s ↔ call.Fits s := by
  have hrun := h.redeemInvite_eq
  unfold Fits
  cases hproject : s.invite.projectId with
  | none =>
    rw [hproject] at hrun
    have hiff := grants_iff_of_request h (handle_osRequest_free call s) rfl rfl
      (by rw [hproject]; rfl) (hrun.trans (redeemOsLevel_of_redeems h))
    rw [hiff]
    have habsent : ¬ AgentAuth.isPresent none = true := by decide
    rw [or_iff_right habsent]
  | some projectId =>
    rw [hproject] at hrun
    obtain ⟨project, hget⟩ := h.project projectId hproject
    have hscopes : projectScopesOf s.invite = s.invite.scopes :=
      if_pos (h.mintedRow.tasks (by rw [hproject]; exact Option.some_ne_none _))
    have hiff := grants_iff_of_request h
      (handle_projectRequest_free call s projectId project) rfl hscopes
      (by rw [hproject]; rfl) (hrun.trans (redeemInProject_of_redeems h hget))
    rw [hiff, and_iff_right (Or.inl (call.projects_present projectId project hget))]
    constructor
    · intro hname project' hget'
      rw [hget] at hget'
      cases hget'
      exact hname
    · exact fun hall => hall project hget

end Redeems

/-! ## Scopes of files -/

/-- An invite for no project that is to read files. -/
def filesMint : MintCall where
  sha256 := id
  userId := "admin-1"
  isAdmin := true
  isOwnerOrAdmin := true
  projects := Dict.empty
  pendingCount := 0
  pin := "1234"
  now := 0

def filesRequest : MintRequest :=
  .osLevel
    { scopes := ["files_read"]
      approvalMode := "auto"
      checkIntervalSecs := 1800
      displayName := none
      approvalMode_valid := Or.inl rfl
      checkIntervalSecs_le := by decide
      displayName_le := by
        intro name hname
        contradiction }

def filesStores : RedeemStores :=
  { goneStores with
    invite :=
      { goneStores.invite with
        projectId := none
        scopes := ["files_read"]
        createdBy := "admin-1" } }

theorem redeems_files : Redeems filesMint filesRequest goneCall filesStores where
  minted := ⟨[], rfl⟩
  auto := rfl
  sha256 := rfl
  pin := rfl
  early := by decide
  project := by
    intro projectId hproject
    contradiction
  withinRate := rfl
  sound := fun _ => rfl
  registered := rfl
  written := rfl

/-- What the grants of the example come to. -/
theorem grants_iff_files : Redeems filesMint filesRequest goneCall filesStores ∧
    (goneCall.Grants filesStores ↔ goneCall.Fits filesStores) :=
  ⟨redeems_files, grants_iff redeems_files⟩

/-- The mint lets the scope through, and the approval asks for a project. -/
theorem not_grants :
    ¬ ∀ (mint : MintCall) (request : MintRequest) (call : RedeemCall) (s : RedeemStores),
      Redeems mint request call s → call.Grants s := by
  intro h
  obtain ⟨⟨reply, hok⟩, _⟩ := h filesMint filesRequest goneCall filesStores redeems_files
  have hrefused : (goneCall.redeemInvite filesStores).1 =
      .error (.approval (.projectRequired ["files_read"])) := rfl
  rw [hrefused] at hok
  contradiction

end RedeemCall

end TinyAgentOS.Projects
