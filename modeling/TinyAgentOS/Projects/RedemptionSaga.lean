import TinyAgentOS.Projects.Redemption

/-!
# All or nothing

A redemption is to leave the invite redeemed and one agent active, or the invite pending and
nothing behind.  The handlers of the call release the invite after an error of the request or of
the approval, and none of them takes back an agent that is active by then.

Main results:

- `RedeemCall.allOrNothing_approve_iff`: what an approval leaves behind.
- `RedeemCall.allOrNothing_iff`: the redemptions that are all or nothing.
-/

namespace TinyAgentOS.Projects
namespace RedeemCall

open AgentAuth (AuthRecord)
open Raising
open Registry (dedupeHandle deriveHandle deriveOsHandle)

variable {call : RedeemCall} {s t : RedeemStores}

/-! ## The law -/

/-- The invite is redeemed and one agent of the call is active, or the invite can be redeemed and
the call has left nothing. -/
def AllOrNothing (call : RedeemCall) (t : RedeemStores) : Prop :=
  (t.invite.status = .redeemed ∧ ∃ canonicalId, t.created = [canonicalId]) ∨
    t.invite.status = .pending ∧
      verdict call.sha256 (some t.invite) call.pin call.now = .rightPin ∧
      t.created = [] ∧ t.written = []

/-- The invite is valid and the PIN its own, and nothing is registered or written yet. -/
structure Opens (call : RedeemCall) (s : RedeemStores) : Prop where
  pending : s.invite.status = .pending
  rightPin : verdict call.sha256 (some s.invite) call.pin call.now = .rightPin
  registered : s.registered = []
  written : s.written = []

/-- The call has claimed the invite, and done no more. -/
structure Claims (call : RedeemCall) (s : RedeemStores) : Prop where
  claimed : s.invite.status = .claimed
  rightPin : verdict call.sha256 (some { s.invite with status := .pending }) call.pin call.now =
    .rightPin
  registered : s.registered = []
  written : s.written = []

/-- An invite that stays claimed is neither redeemed nor free. -/
theorem not_allOrNothing_of_claimed (h : t.invite.status = .claimed) : ¬ call.AllOrNothing t := by
  rintro (⟨hredeemed, _⟩ | ⟨hpending, _⟩)
  · rw [h] at hredeemed
    contradiction
  · rw [h] at hpending
    contradiction

/-- An agent is active, and the invite is not redeemed. -/
theorem not_allOrNothing_of_created {canonicalId : String} (h : t.invite.status ≠ .redeemed)
    (hcreated : t.created = [canonicalId]) : ¬ call.AllOrNothing t := by
  rintro (⟨hredeemed, _⟩ | ⟨_, _, hnone, _⟩)
  · exact h hredeemed
  · rw [hnone] at hcreated
    contradiction

/-- A call that has just claimed has created nothing. -/
theorem Claims.created (h : call.Claims s) : s.created = [] := by
  rw [RedeemStores.created, h.registered, List.filter_nil]

/-- What is released can be redeemed. -/
theorem Claims.allOrNothing_of_released (h : call.Claims s)
    (hinvite : t.invite = { s.invite with status := .pending }) (hcreated : t.created = [])
    (hwritten : t.written = []) : call.AllOrNothing t := by
  refine Or.inr ⟨by rw [hinvite], ?_, hcreated, hwritten⟩
  rw [hinvite]
  exact h.rightPin

/-! ## Handlers -/

/-- The invite after `rollback_to_pending`. -/
def released (call : RedeemCall) (invite : Invite) : Invite :=
  if call.fails .rollback = true then invite else { invite with status := .pending }

/-- A rollback frees the invite. -/
theorem rollbackToPending_apply (call : RedeemCall) (hclaimed : s.invite.status = .claimed) :
    ∃ result, call.rollbackToPending s =
      (result, { s with invite := call.released s.invite }) := by
  by_cases hrollback : call.fails .rollback = true
  · refine ⟨.error (.store .rollback), ?_⟩
    rw [rollbackToPending, execute_of_fails hrollback, released, if_pos hrollback]
  · refine ⟨.ok (), ?_⟩
    rw [rollbackToPending, execute_of_not_fails hrollback, released, if_neg hrollback,
      RedeemStores.updateClaimed, RedeemStores.updateInvite, if_pos hclaimed]

/-- A released invite is pending, unless its release fails. -/
theorem Claims.allOrNothing_released_iff (h : call.Claims s)
    (hinvite : t.invite = call.released s.invite) (hcreated : t.created = [])
    (hwritten : t.written = []) : call.AllOrNothing t ↔ ¬ call.fails .rollback = true := by
  by_cases hrollback : call.fails .rollback = true
  · rw [released, if_pos hrollback] at hinvite
    refine iff_of_false (not_allOrNothing_of_claimed ?_) fun hnot => hnot hrollback
    rw [hinvite, h.claimed]
  · rw [released, if_neg hrollback] at hinvite
    exact iff_of_true (h.allOrNothing_of_released hinvite hcreated hwritten) hrollback

section Approve

variable {record : AuthRecord} {projectId displayName : Option String}

/-- An approval that raises is turned down, and so is the call. -/
theorem approveOrRelease_of_error {error : RedeemError}
    (hrun : call.approveRequestRecord record projectId displayName s = (.error error, t))
    (hclaimed : t.invite.status = .claimed) :
    ∃ error' t', call.approveOrRelease record projectId displayName s = (.error error', t') ∧
      t'.invite = call.released t.invite ∧ t'.created = t.created ∧ t'.written = t.written := by
  obtain ⟨result, hrollback⟩ := rollbackToPending_apply call hclaimed
  rw [approveOrRelease, rescue_of_error hrun]
  cases result with
  | error error' =>
    rw [bind_of_error hrollback]
    exact ⟨error', _, rfl, rfl, rfl, rfl⟩
  | ok _ =>
    rw [bind_of_ok hrollback, bind_of_ok (bestEffort_apply _ _)]
    by_cases hrefuse : call.fails .refuse = true
    · rw [execute_of_fails hrefuse]
      exact ⟨error, _, rfl, rfl, rfl, rfl⟩
    · rw [execute_of_not_fails hrefuse]
      exact ⟨error, _, rfl, rfl, rfl, rfl⟩

end Approve

/-- The last statements leave the agents as they are. -/
theorem finish_apply (call : RedeemCall) (reply : RedeemReply)
    (hclaimed : s.invite.status = .claimed) :
    (call.finish reply s).2.created = s.created ∧ (call.finish reply s).2.written = s.written ∧
      (call.finish reply s).2.invite.status =
        if call.fails .markRedeemed = true then .claimed else .redeemed := by
  have hbundle : ∀ u : RedeemStores,
      ((do call.execute .bundle id; pure reply : Redeeming RedeemReply) u).2 = u := by
    intro u
    by_cases hfails : call.fails .bundle = true
    · rw [bind_of_error (execute_of_fails hfails id)]
    · rw [bind_of_ok (execute_of_not_fails hfails id)]
      rfl
  rw [finish, bind_of_ok (bestEffort_apply _ _), hbundle]
  by_cases hmark : call.fails .markRedeemed = true
  · rw [execute_of_fails hmark, if_pos hmark]
    exact ⟨rfl, rfl, hclaimed⟩
  · rw [execute_of_not_fails hmark, if_neg hmark]
    refine ⟨rfl, rfl, ?_⟩
    rw [RedeemStores.updateClaimed, RedeemStores.updateInvite, if_pos hclaimed]

/-! ## Requests -/

section Settle

variable {record : AuthRecord} {projectId displayName : Option String} {mode : String}
  {reply : RedeemReply}

/-- An approval that stops is followed by a release, and one that goes on does not break off and is
followed by the mark. -/
def Settles (call : RedeemCall) (s : RedeemStores) (record : AuthRecord)
    (projectId displayName : Option String) : Prop :=
  (call.Stops record projectId displayName → ¬ call.fails .rollback = true) ∧
    (¬ call.Stops record projectId displayName →
      ¬ call.BreaksOff (call.drawId s.agents) record.requestedScopes
          (projectId.or record.projectId) ∧
        ¬ call.fails .markRedeemed = true)

/-- An approval leaves all or nothing. -/
theorem allOrNothing_approve_iff (h : call.Claims s)
    (hfree : record.handle ∉ activeHandles s.agents) :
    call.AllOrNothing
        ((do call.approveOrRelease record projectId displayName; call.finish reply :
          Redeeming RedeemReply) s).2 ↔
      call.Settles s record projectId displayName := by
  by_cases hstops : call.Stops record projectId displayName
  · obtain ⟨error, t, hrun, hinvite, hcreated, hwritten⟩ :=
      approve_of_stops hfree h.registered hstops
    obtain ⟨error', t', hrelease, hinvite', hcreated', hwritten'⟩ :=
      approveOrRelease_of_error hrun (by rw [hinvite, h.claimed])
    rw [bind_of_error hrelease]
    rw [hinvite] at hinvite'
    rw [h.allOrNothing_released_iff hinvite' (hcreated'.trans hcreated)
      (hwritten'.trans (hwritten.trans h.written))]
    exact ⟨fun hnot => ⟨fun _ => hnot, fun hgo => absurd hstops hgo⟩, fun hall => hall.1 hstops⟩
  · obtain ⟨t, hrun, hinvite, hcreated, _⟩ := approve_of_not_stops hfree h.registered hstops
    have hclaimed : t.invite.status = .claimed := by rw [hinvite, h.claimed]
    have hsettles : call.Settles s record projectId displayName ↔
        ¬ call.BreaksOff (call.drawId s.agents) record.requestedScopes
            (projectId.or record.projectId) ∧
          ¬ call.fails .markRedeemed = true :=
      ⟨fun hall => hall.2 hstops, fun hall => ⟨fun hgo => absurd hgo hstops, fun _ => hall⟩⟩
    rw [hsettles]
    by_cases hbreaks : call.BreaksOff (call.drawId s.agents) record.requestedScopes
        (projectId.or record.projectId)
    · obtain ⟨error, t', hdeliver, hsame⟩ := deliver_of_breaksOff (s := t) hbreaks
      obtain ⟨error', t'', hrelease, hinvite', hcreated', _⟩ :=
        approveOrRelease_of_error (hrun.trans hdeliver) (by rw [hsame.1, hclaimed])
      rw [bind_of_error hrelease]
      refine iff_of_false (not_allOrNothing_of_created ?_
        (hcreated'.trans (hsame.created.trans hcreated))) fun hall => hall.1 hbreaks
      rw [hinvite', hsame.1, released]
      split
      · rw [hclaimed]
        decide
      · exact fun hne => InviteStatus.noConfusion hne
    · obtain ⟨t', hdeliver, hsame, _⟩ := deliver_of_not_breaksOff (s := t) hbreaks
      have happroved : call.approveOrRelease record projectId displayName s = (.ok (), t') :=
        rescue_of_ok (hrun.trans hdeliver)
      obtain ⟨hlast, _, hstatus⟩ := finish_apply call reply (s := t') (by rw [hsame.1, hclaimed])
      rw [bind_of_ok happroved]
      by_cases hmark : call.fails .markRedeemed = true
      · rw [if_pos hmark] at hstatus
        exact iff_of_false (not_allOrNothing_of_claimed hstatus) fun hall => hall.2 hmark
      · rw [if_neg hmark] at hstatus
        refine iff_of_true (Or.inl ⟨hstatus, call.drawId s.agents, ?_⟩) ⟨hbreaks, hmark⟩
        rw [hlast, hsame.created, hcreated]

/-- A request that is left to the operator does not. -/
theorem not_allOrNothing_finish (h : call.Claims s) :
    ¬ call.AllOrNothing (call.finish reply s).2 := by
  obtain ⟨hlast, _, hstatus⟩ := finish_apply call reply h.claimed
  rintro (⟨_, canonicalId, hcreated⟩ | ⟨hpending, _⟩)
  · rw [hlast, h.created] at hcreated
    contradiction
  · rw [hstatus] at hpending
    split at hpending <;> contradiction

/-- When an approval is whole or leaves nothing. -/
theorem allOrNothing_settle_iff (h : call.Claims s)
    (hfree : record.handle ∉ activeHandles s.agents) :
    call.AllOrNothing
        ((do
          if mode = "auto" then call.approveOrRelease record projectId displayName
          call.finish reply : Redeeming RedeemReply) s).2 ↔
      mode = "auto" ∧ call.Settles s record projectId displayName := by
  by_cases hauto : mode = "auto"
  · rw [if_pos hauto, allOrNothing_approve_iff h hfree, and_iff_right hauto]
  · rw [if_neg hauto]
    exact iff_of_false (not_allOrNothing_finish h) fun hall => hauto hall.1

end Settle

/-- The request of a call for a project. -/
def projectRequest (call : RedeemCall) (s : RedeemStores) (projectId : String)
    (project : ProjectRow) : AuthRecord :=
  let slug := if project.slug = "" then projectId else project.slug
  let handle := dedupeHandle (activeHandles s.agents) (deriveHandle slug call.harness call.label)
  ⟨String.ofList handle, call.harness, projectScopesOf s.invite, some projectId, .pending⟩

/-- The request of a call for no project. -/
def osRequest (call : RedeemCall) (s : RedeemStores) : AuthRecord :=
  let handle := dedupeHandle (activeHandles s.agents)
    (deriveOsHandle s.invite.displayName call.harness call.label)
  ⟨String.ofList handle, call.harness, s.invite.scopes, none, .pending⟩

/-- The handle of a project request is free. -/
theorem handle_projectRequest_free (call : RedeemCall) (s : RedeemStores) (projectId : String)
    (project : ProjectRow) :
    (call.projectRequest s projectId project).handle ∉ activeHandles s.agents := by
  have htidy := Registry.tidy_dedupeHandle
    (Registry.tidy_deriveHandle (if project.slug = "" then projectId else project.slug)
      call.harness call.label) (activeHandles s.agents)
  rw [handle_of_tidy htidy rfl]
  exact Registry.dedupeHandle_notMem _ _

/-- The handle of an OS request is free. -/
theorem handle_osRequest_free (call : RedeemCall) (s : RedeemStores) :
    (call.osRequest s).handle ∉ activeHandles s.agents := by
  have htidy := Registry.tidy_dedupeHandle
    (Registry.tidy_deriveOsHandle s.invite.displayName call.harness call.label)
    (activeHandles s.agents)
  rw [handle_of_tidy htidy rfl]
  exact Registry.dedupeHandle_notMem _ _

theorem createRequest_of_not_fails (h : ¬ call.fails .createRequest = true) (record : AuthRecord) :
    call.createRequest record s = (.ok record, { s with request := some record }) := by
  rw [createRequest, bind_of_ok (execute_of_not_fails h _)]
  rfl

theorem createRequest_of_fails (h : call.fails .createRequest = true) (record : AuthRecord) :
    call.createRequest record s = (.error (.store .createRequest), s) := by
  rw [createRequest, bind_of_error (execute_of_fails h _)]

/-- A request that cannot be made releases the invite. -/
theorem createOrRelease_of_fails (hclaimed : s.invite.status = .claimed)
    (h : call.fails .createRequest = true) (record : AuthRecord) :
    ∃ error, (rescue (call.createRequest record) fun error => do
        call.rollbackToPending
        raise error) s =
      (.error error, { s with invite := call.released s.invite }) := by
  obtain ⟨result, hrollback⟩ := rollbackToPending_apply call hclaimed
  rw [rescue_of_error (createRequest_of_fails h record)]
  cases result with
  | error error => exact ⟨error, bind_of_error hrollback⟩
  | ok _ => exact ⟨.store .createRequest, bind_of_ok hrollback⟩

theorem freeHandle_of_not_fails (h : ¬ call.fails .lookupHandle = true) (base : List Char) :
    call.freeHandle base s =
      (.ok (String.ofList (dedupeHandle (activeHandles s.agents) base)), s) := by
  rw [freeHandle, bind_of_ok (execute_of_not_fails h _), read_bind]
  rfl

theorem freeHandle_of_fails (h : call.fails .lookupHandle = true) (base : List Char) :
    call.freeHandle base s = (.error (.store .lookupHandle), s) := by
  rw [freeHandle, bind_of_error (execute_of_fails h _)]

/-- The claim with a request. -/
theorem Claims.setRequest (h : call.Claims s) (record : AuthRecord) :
    call.Claims { s with request := some record } :=
  ⟨h.claimed, h.rightPin, h.registered, h.written⟩

/-! ## Calls -/

/-- An error before the approval is not handled. -/
def SparedOsLevel (call : RedeemCall) (s : RedeemStores) : Prop :=
  ¬ call.fails .lookupHandle = true ∧ ¬ call.fails .createRequest = true ∧
    s.invite.approvalMode = "auto" ∧
    call.Settles s (call.osRequest s) none s.invite.displayName

/-- An error before the request is not handled, and one of the request releases the invite. -/
def SparedInProject (call : RedeemCall) (s : RedeemStores) (projectId : String) : Prop :=
  ¬ call.fails .getProject = true ∧ ¬ call.fails .lookupHandle = true ∧
    ∃ project, call.projects.get? projectId = some project ∧
      (call.fails .createRequest = true → ¬ call.fails .rollback = true) ∧
      (¬ call.fails .createRequest = true → s.invite.approvalMode = "auto" ∧
        call.Settles s (call.projectRequest s projectId project) (some projectId) none)

/-- When a redemption at OS level is whole. -/
theorem allOrNothing_redeemOsLevel_iff (h : call.Claims s) :
    call.AllOrNothing (call.redeemOsLevel s.invite s).2 ↔ call.SparedOsLevel s := by
  rw [redeemOsLevel]
  by_cases hlookup : call.fails .lookupHandle = true
  · rw [bind_of_error (freeHandle_of_fails hlookup _)]
    exact iff_of_false (not_allOrNothing_of_claimed h.claimed) fun hall => hall.1 hlookup
  · rw [bind_of_ok (freeHandle_of_not_fails hlookup _)]
    by_cases hcreate : call.fails .createRequest = true
    · rw [bind_of_error (createRequest_of_fails hcreate _)]
      exact iff_of_false (not_allOrNothing_of_claimed h.claimed) fun hall => hall.2.1 hcreate
    · rw [bind_of_ok (createRequest_of_not_fails hcreate _), SparedOsLevel, and_iff_right hlookup,
        and_iff_right hcreate]
      exact allOrNothing_settle_iff (h.setRequest (call.osRequest s))
        (handle_osRequest_free call s)

/-- When a redemption in a project is whole. -/
theorem allOrNothing_redeemInProject_iff (h : call.Claims s) (projectId : String) :
    call.AllOrNothing (call.redeemInProject s.invite projectId s).2 ↔
      call.SparedInProject s projectId := by
  have hclaimed : ¬ call.AllOrNothing s := not_allOrNothing_of_claimed h.claimed
  rw [redeemInProject]
  by_cases hget : call.fails .getProject = true
  · rw [bind_of_error (execute_of_fails hget _)]
    exact iff_of_false hclaimed fun hall => hall.1 hget
  · rw [bind_of_ok (execute_of_not_fails hget _), id_eq]
    cases hproject : call.projects.get? projectId with
    | none =>
      refine iff_of_false hclaimed ?_
      rintro ⟨_, _, project, hsome, _⟩
      rw [hproject] at hsome
      contradiction
    | some project =>
      dsimp only
      by_cases hlookup : call.fails .lookupHandle = true
      · rw [bind_of_error (freeHandle_of_fails hlookup _)]
        exact iff_of_false hclaimed fun hall => hall.2.1 hlookup
      · have hspared : call.SparedInProject s projectId ↔
            (call.fails .createRequest = true → ¬ call.fails .rollback = true) ∧
              (¬ call.fails .createRequest = true → s.invite.approvalMode = "auto" ∧
                call.Settles s (call.projectRequest s projectId project) (some projectId)
                  none) := by
          rw [SparedInProject, and_iff_right hget, and_iff_right hlookup, hproject]
          simp only [Option.some_inj, exists_eq_left']
        rw [bind_of_ok (freeHandle_of_not_fails hlookup _), hspared]
        by_cases hcreate : call.fails .createRequest = true
        · obtain ⟨error, hrelease⟩ := createOrRelease_of_fails h.claimed hcreate
            (call.projectRequest s projectId project)
          rw [projectRequest] at hrelease
          rw [bind_of_error hrelease]
          refine (h.allOrNothing_released_iff
            (t := { s with invite := call.released s.invite }) rfl h.created h.written).trans ?_
          exact ⟨fun hnot => ⟨fun _ => hnot, fun hgo => absurd hcreate hgo⟩,
            fun hall => hall.1 hcreate⟩
        · rw [bind_of_ok (rescue_of_ok (createRequest_of_not_fails hcreate _))]
          refine Iff.trans (allOrNothing_settle_iff
            (h.setRequest (call.projectRequest s projectId project))
            (handle_projectRequest_free call s projectId project)) ?_
          exact ⟨fun hall => ⟨fun hfails => absurd hfails hcreate, fun _ => hall⟩,
            fun hall => hall.2 hcreate⟩

/-- The invite is claimed. -/
def claim (s : RedeemStores) : RedeemStores :=
  s.updateInvite fun invite => { invite with status := .claimed }

/-- A call that opens an invite claims it. -/
theorem Opens.claims (h : call.Opens s) : call.Claims (claim s) := by
  have hinvite : { s.invite with status := .pending } = s.invite := by rw [← h.pending]
  refine ⟨rfl, ?_, h.registered, h.written⟩
  change verdict call.sha256 (some { s.invite with status := .pending }) call.pin call.now = _
  rw [hinvite]
  exact h.rightPin

theorem Opens.allOrNothing (h : call.Opens s) : call.AllOrNothing s :=
  Or.inr ⟨h.pending, h.rightPin, by rw [RedeemStores.created, h.registered, List.filter_nil],
    h.written⟩

/-- The right PIN claims the invite. -/
theorem claimInvite_of_not_fails (h : call.Opens s) (hclaim : ¬ call.fails .claim = true) :
    call.claimInvite s = call.execute .fetchClaimed id (claim s) := by
  rw [claimInvite, read_bind, h.rightPin]
  dsimp only
  rw [bind_of_ok (execute_of_not_fails hclaim _), if_pos h.pending, claim,
    RedeemStores.updateInvite, RedeemStores.updateInvite, if_pos h.pending]

theorem claimInvite_of_fails (h : call.Opens s) (hclaim : call.fails .claim = true) :
    call.claimInvite s = (.error (.store .claim), s) := by
  rw [claimInvite, read_bind, h.rightPin]
  exact bind_of_error (execute_of_fails hclaim _)

/-- No error goes unhandled once the invite is claimed, and none comes once an agent is active. -/
def Spared (call : RedeemCall) (s : RedeemStores) : Prop :=
  call.withinRate = true → ¬ call.fails .claim = true →
    ¬ call.fails .fetchClaimed = true ∧
      match s.invite.projectId with
      | none => call.SparedOsLevel s
      | some projectId => call.SparedInProject s projectId

/-- A call with the right PIN leaves all or nothing exactly when it is spared such errors. -/
theorem allOrNothing_iff (h : call.Opens s) :
    call.AllOrNothing (call.redeemInvite s).2 ↔ call.Spared s := by
  rw [redeemInvite]
  by_cases hrate : call.withinRate = true
  · rw [if_pos hrate]
    by_cases hclaim : call.fails .claim = true
    · rw [bind_of_error (claimInvite_of_fails h hclaim)]
      exact iff_of_true h.allOrNothing fun _ hnot => absurd hclaim hnot
    · have hspared : call.Spared s ↔ ¬ call.fails .fetchClaimed = true ∧
          match s.invite.projectId with
          | none => call.SparedOsLevel s
          | some projectId => call.SparedInProject s projectId :=
        ⟨fun hall => hall hrate hclaim, fun hall _ _ => hall⟩
      rw [hspared]
      by_cases hfetch : call.fails .fetchClaimed = true
      · rw [bind_of_error ((claimInvite_of_not_fails h hclaim).trans (execute_of_fails hfetch _))]
        exact iff_of_false (not_allOrNothing_of_claimed rfl) fun hall => hall.1 hfetch
      · rw [bind_of_ok ((claimInvite_of_not_fails h hclaim).trans
          (execute_of_not_fails hfetch _)), id_eq, read_bind, and_iff_right hfetch]
        cases hproject : s.invite.projectId with
        | none =>
          have hproject' : (claim s).invite.projectId = none := hproject
          rw [hproject']
          exact allOrNothing_redeemOsLevel_iff h.claims
        | some projectId =>
          have hproject' : (claim s).invite.projectId = some projectId := hproject
          rw [hproject']
          exact allOrNothing_redeemInProject_iff h.claims projectId
  · rw [if_neg hrate]
    exact iff_of_true h.allOrNothing fun hwithin => absurd hwithin hrate

/-! ## A project that is gone -/

/-- An id that is longer than every other. -/
def freshId (agents : Collections.Dict String AgentAuth.AgentRow) : String :=
  String.ofList (List.replicate ((agents.keys.map String.length).sum + 1) 'a')

theorem freshId_free (agents : Collections.Dict String AgentAuth.AgentRow) :
    agents.get? (freshId agents) = none := by
  rw [Collections.Dict.get?_eq_none_iff]
  intro hmem
  have hle := List.le_sum_of_mem (List.mem_map_of_mem (f := String.length) hmem)
  simp [freshId] at hle

/-- The project of the invite is gone. -/
def goneCall : RedeemCall where
  sha256 := id
  pin := "1234"
  harness := "hermes"
  label := none
  withinRate := true
  now := 0
  requestId := "req-1"
  projects := Collections.Dict.empty
  projects_present := by
    intro id row hget
    rw [Collections.Dict.get?_empty] at hget
    contradiction
  drawId := freshId
  drawId_free := freshId_free
  fails := fun _ => false

def goneStores : RedeemStores where
  invite :=
    { projectId := some "prj-1"
      pinHash := "1234"
      scopes := ["project_tasks"]
      approvalMode := "auto"
      checkIntervalSecs := 1800
      createdBy := "owner"
      createdTs := 0
      expiresTs := expirySecs
      redeemAttempts := 0
      status := .pending
      redeemedBy := none
      redeemedRequestId := none
      displayName := none
      kind := .agent
      pinRequired := true
      contactId := none }
  request := none
  agents := Collections.Dict.empty
  registered := []
  written := []

theorem opens_gone : goneCall.Opens goneStores :=
  ⟨rfl, by decide, rfl, rfl⟩

theorem allOrNothing_iff_gone : goneCall.Opens goneStores ∧
    (goneCall.AllOrNothing (goneCall.redeemInvite goneStores).2 ↔ goneCall.Spared goneStores) :=
  ⟨opens_gone, allOrNothing_iff opens_gone⟩

/-- The invite stays claimed, and can be redeemed no more. -/
theorem not_allOrNothing :
    ¬ ∀ (call : RedeemCall) (s : RedeemStores), call.Opens s →
      (s.invite.approvalMode = "auto" ∨ s.invite.projectId = none) →
      call.AllOrNothing (call.redeemInvite s).2 := by
  intro h
  have hclaimed : (goneCall.redeemInvite goneStores).2.invite.status = .claimed := by decide
  exact not_allOrNothing_of_claimed hclaimed (h goneCall goneStores opens_gone (Or.inl rfl))

end RedeemCall
end TinyAgentOS.Projects
