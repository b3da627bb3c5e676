import TinyAgentOS.Inbox.Decisions
import TinyAgentOS.Library.Transition

/-!
# What the gates let through

Decisions are filed and answered in any order.  The appliers take a decision for a gate's if its
metadata says so, and anyone who may file a decision may say so; apart from that, a grant comes from
a gate's own decision that an admin approved.

Main results:

- `step_sound`: a request keeps the books in order if it files no gate's metadata.
- `genuine_of_guarded_run`: without such metadata, no grant is forged.
-/

namespace TinyAgentOS.Inbox

open Collections
open Json (Value)
open Transition

/-! ## Runs -/

inductive Request where
  | create (caller : Caller) (body : DecisionIn) (id : String)
  | checkExecution (adminSession : Bool) (skillId agentName id : String)
  | checkDelegation (adminSession : Bool) (r : DelegateRequest) (existingTitle : Option String)
      (id : String)
  | answer (user : CurrentUser) (id : String) (body : AnswerIn)
  | answerAsAgent (canonicalId id : String) (body : AnswerIn)

/-- A request, and what it finds beside the inbox. -/
structure Event where
  env : Env
  request : Request

namespace State

/-- A request that is refused leaves the inbox alone. -/
def orSame (s : State) : Except Refusal State → State
  | .ok s' => s'
  | .error _ => s

def serve (s : State) (env : Env) : Request → State
  | .create caller body id => s.orSame (s.createDecision env caller body id)
  | .checkExecution adminSession skillId agentName id =>
    (s.checkExecutionPolicy env adminSession skillId agentName id).1
  | .checkDelegation adminSession r existingTitle id =>
    (s.checkDelegationPolicy env adminSession r existingTitle id).1
  | .answer user id body => s.orSame (s.answerDecision env user id body)
  | .answerAsAgent canonicalId id body => s.orSame (s.answerDecisionAsAgent env canonicalId id body)

def step (s : State) (e : Event) : Option State :=
  some (s.serve e.env e.request)

/-! ## Genuine grants -/

/-- There is an execution grant. -/
def HasGrant (s : State) (agentName actionClass : String) : Prop :=
  ∃ answered ∈ s.answers, ∃ expiresAt,
    Effect.executionGrant agentName actionClass expiresAt ∈ answered.effects

/-- An admin approved the decision. -/
def ApprovedByAdmin (s : State) (id : String) : Prop :=
  ∃ answered ∈ s.answers, answered.decisionId = id ∧ answered.user.isAdmin = true ∧
    isApproval answered.value = true

end State

/-- The agent and the action class that a gate filed a decision for. -/
def Creator.gateFor : Creator → Option (String × String)
  | .executionGate agentName actionClass => some (agentName, actionClass)
  | .delegationGate r => some (r.fromAgent, delegateClass)
  | _ => none

/-- What is handed over as an agent asked. -/
def DelegateRequest.delegation (r : DelegateRequest) : Delegation :=
  { fromAgent := .str r.fromAgent
    toAgent := .str r.toAgent
    taskId := optionValue r.taskId
    taskTitle := optionValue r.taskTitle
    projectId := r.projectId
    note := .str r.note }

namespace State

/-- What the gates let through was asked of them and approved, each decision at most once. -/
structure Genuine (s : State) : Prop where
  grants : ∀ agentName actionClass, s.HasGrant agentName actionClass →
    ∃ id filed, s.decisions.get? id = some filed ∧
      filed.creator.gateFor = some (agentName, actionClass) ∧ s.ApprovedByAdmin id
  delegations : ∀ answered ∈ s.answers, ∀ x, Effect.delegation x ∈ answered.effects →
    ∃ filed r, s.decisions.get? answered.decisionId = some filed ∧
      filed.creator = .delegationGate r ∧ x = r.delegation ∧ s.ApprovedByAdmin answered.decisionId
  once : (s.answers.map Answered.decisionId).Nodup

end State

/-- The metadata is that of one of the two gates. -/
def namesGate (metadata : Metadata) : Bool :=
  (executionNames metadata).isSome || (delegationNames metadata none).isSome

/-- No decision is filed through the API that is taken for a gate's. -/
def NoGateMetadata (_ : State) (e : Event) : Prop :=
  match e.request with
  | .create _ body _ => namesGate body.metadata = false
  | _ => True

/-! ## Decisions of gates -/

/-- What is taken for a gate's decision is one, and waits for an admin. -/
structure Filed.Fits (filed : Filed) : Prop where
  execution : ∀ agent action, executionNames filed.record.metadata = some (agent, action) →
    ∃ agentName actionClass, filed.creator = .executionGate agentName actionClass ∧
      agent = .str agentName ∧ action = .str actionClass ∧ filed.record.userId = ""
  delegation : ∀ x, delegationNames filed.record.metadata filed.record.projectId = some x →
    ∃ r, filed.creator = .delegationGate r ∧ x = r.delegation ∧ filed.record.userId = ""

/-- An effect is that of a gate's decision which an admin approved. -/
def Justified (filed : Filed) (answered : Answered) : Effect → Prop
  | .executionGrant agentName actionClass _ =>
    filed.creator.gateFor = some (agentName, actionClass) ∧ answered.user.isAdmin = true ∧
      isApproval answered.value = true
  | .delegation x =>
    (∃ r, filed.creator = .delegationGate r ∧ x = r.delegation) ∧
      answered.user.isAdmin = true ∧ isApproval answered.value = true
  | _ => True

variable {metadata : Metadata}

theorem delegationNames_eq_none {projectId : Option String}
    (h : delegationNames metadata none = none) : delegationNames metadata projectId = none := by
  unfold delegationNames at h ⊢
  split at h
  · contradiction
  rename_i hkind
  rw [if_neg hkind]

/-- A decision that names no gate fits. -/
theorem fits_of_namesGate {filed : Filed} (h : namesGate filed.record.metadata = false) :
    filed.Fits := by
  simp only [namesGate, Bool.or_eq_false_iff, Option.isSome_eq_false_iff,
    Option.isNone_iff_eq_none] at h
  constructor
  · intro agent action hnames
    rw [h.1] at hnames
    contradiction
  · intro x hnames
    rw [delegationNames_eq_none h.2] at hnames
    contradiction

theorem kind_executionMetadata (agentName actionClass skillId : String) :
    (executionMetadata agentName actionClass skillId).get? "kind" =
      some (.str "execution_gate") := by
  simp [executionMetadata, Dict.get?_set]

theorem kind_delegationMetadata (r : DelegateRequest) :
    (delegationMetadata r).get? "kind" = some (.str "delegation_gate") := by
  simp [delegationMetadata, Dict.get?_set]

variable {kind : String}

/-- Another kind is no execution gate's. -/
theorem executionNames_of_kind
    (hkind : metadata.get? "kind" = some (.str kind)) (hne : kind ≠ "execution_gate") :
    executionNames metadata = none := by
  unfold executionNames
  rw [hkind, if_neg]
  simp [isText, hne]

/-- Another kind is no delegation gate's. -/
theorem delegationNames_of_kind (projectId : Option String)
    (hkind : metadata.get? "kind" = some (.str kind)) (hne : kind ≠ "delegation_gate") :
    delegationNames metadata projectId = none := by
  unfold delegationNames
  rw [hkind, if_neg]
  simp [isText, hne]

/-- The decision of an execution gate is taken for what it is. -/
theorem fits_executionGate (agentName actionClass skillId question : String) :
    Filed.Fits ⟨.executionGate agentName actionClass,
      gateRecord agentName question none (executionMetadata agentName actionClass skillId)⟩ := by
  have hkind := kind_executionMetadata agentName actionClass skillId
  constructor
  · intro agent action hnames
    have hagent : field (executionMetadata agentName actionClass skillId) "agent_name" =
        .str agentName := by
      simp [field, executionMetadata, Dict.get?_set]
    have haction : field (executionMetadata agentName actionClass skillId) "action_class" =
        .str actionClass := by
      simp [field, executionMetadata, Dict.get?_set]
    unfold executionNames gateRecord at hnames
    rw [hagent, haction] at hnames
    split at hnames
    · obtain ⟨rfl, rfl⟩ := Prod.mk.inj (Option.some.inj hnames)
      exact ⟨agentName, actionClass, rfl, rfl, rfl, rfl⟩
    · contradiction
  · intro x hnames
    have hnone := delegationNames_of_kind none hkind (by decide)
    exact absurd (hnames.symm.trans hnone) (Option.some_ne_none x)

/-- So is that of a delegation gate. -/
theorem fits_delegationGate (r : DelegateRequest) (question : String) :
    Filed.Fits ⟨.delegationGate r,
      gateRecord r.fromAgent question r.projectId (delegationMetadata r)⟩ := by
  have hkind := kind_delegationMetadata r
  constructor
  · intro agent action hnames
    have hnone := executionNames_of_kind hkind (by decide)
    exact absurd (hnames.symm.trans hnone) (Option.some_ne_none _)
  · intro x hnames
    have hfields : (field (delegationMetadata r) "from_agent" = .str r.fromAgent ∧
        field (delegationMetadata r) "to_agent" = .str r.toAgent) ∧
        (field (delegationMetadata r) "task_id" = optionValue r.taskId ∧
          field (delegationMetadata r) "task_title" = optionValue r.taskTitle) ∧
          field (delegationMetadata r) "note" = .str r.note := by
      simp [field, delegationMetadata, Dict.get?_set]
    obtain ⟨⟨hfrom, hto⟩, ⟨htask, htitle⟩, hnote⟩ := hfields
    have hnote' : (if truthy (.str r.note) then (.str r.note : Value) else .str "") =
        .str r.note := by
      by_cases hempty : r.note = ""
      · rw [hempty]
        rfl
      · exact if_pos (decide_eq_true hempty)
    unfold delegationNames gateRecord at hnames
    rw [hfrom, hto, htask, htitle, hnote, hnote'] at hnames
    split at hnames
    · exact ⟨r, rfl, (Option.some.inj hnames).symm, rfl⟩
    · contradiction

/-- Only an admin may answer a decision that is addressed to nobody. -/
theorem isAdmin_of_mayAnswer {user : CurrentUser} {d : Decision} (huser : d.userId = "")
    (h : mayAnswer user d = true) : user.isAdmin = true := by
  unfold mayAnswer at h
  rw [Bool.or_eq_true, decide_eq_true_eq, huser] at h
  exact h.resolve_right fun hid => user.named hid.symm

/-- What follows an answer is justified if the decision fits. -/
theorem justified_of_mem {env : Env} {filed : Filed} {user : CurrentUser} {value : Value}
    {e : Effect} (id : String) (hfits : filed.Fits) (hmay : mayAnswer user filed.record = true)
    (he : e ∈ effects env filed.record value) :
    Justified filed ⟨id, user, value, effects env filed.record value⟩ e := by
  cases e with
  | executionGrant agentName actionClass expiresAt =>
    obtain ⟨happroval, ⟨agent, action, hnames, hagent, haction⟩ | ⟨x, hnames, hagent, rfl⟩⟩ :=
      executionGrant_of_mem he
    · obtain ⟨agentName', actionClass', hcreator, rfl, rfl, huser⟩ :=
        hfits.execution agent action hnames
      obtain rfl := Option.some.inj hagent
      obtain rfl := Option.some.inj haction
      exact ⟨by rw [hcreator, Creator.gateFor], isAdmin_of_mayAnswer huser hmay, happroval⟩
    · obtain ⟨r, hcreator, rfl, huser⟩ := hfits.delegation x hnames
      obtain rfl := Option.some.inj hagent
      exact ⟨by rw [hcreator, Creator.gateFor], isAdmin_of_mayAnswer huser hmay, happroval⟩
  | delegation x =>
    obtain ⟨happroval, hnames⟩ := delegation_of_mem he
    obtain ⟨r, hcreator, hx, huser⟩ := hfits.delegation x hnames
    exact ⟨⟨r, hcreator, hx⟩, isAdmin_of_mayAnswer huser hmay, happroval⟩
  | appGrants | devicePairing => trivial

/-! ## Books in order -/

/-- The decisions fit, and every answer is that of a decision which waits no more. -/
structure State.Sound (s : State) : Prop where
  fits : ∀ id filed, s.decisions.get? id = some filed → filed.Fits
  answered : ∀ answered ∈ s.answers, ∃ filed, s.decisions.get? answered.decisionId = some filed ∧
    filed.record.status ≠ .pending ∧ ∀ e ∈ answered.effects, Justified filed answered e
  once : (s.answers.map Answered.decisionId).Nodup

section Steps

variable {s s' : State} {env : Env} {id : String}

theorem sound_empty : State.empty.Sound := by
  constructor
  · intro id filed hget
    contradiction
  · intro answered hmem
    contradiction
  · exact List.nodup_nil

variable {filed : Filed} {body : AnswerIn} {user : CurrentUser}

/-- A decision is filed under an id that no decision has. -/
theorem file_eq_ok (h : s.file id filed = .ok s') :
    s.decisions.get? id = none ∧ s' = { s with decisions := s.decisions.set id filed } := by
  unfold State.file at h
  split at h
  · contradiction
  rename_i hfree
  exact ⟨Option.not_isSome_iff_eq_none.mp hfree, (Except.ok.inj h).symm⟩

/-- A fitting decision is filed. -/
theorem sound_file (hs : s.Sound) (hfits : filed.Fits)
    (h : s.file id filed = .ok s') : s'.Sound := by
  obtain ⟨hfree, rfl⟩ := file_eq_ok h
  constructor
  · intro id' filed' hget
    rcases Dict.get?_set_cases hget with ⟨_, rfl⟩ | ⟨_, hget⟩
    · exact hfits
    · exact hs.fits id' filed' hget
  · intro answered hmem
    obtain ⟨filed', hget, hrest⟩ := hs.answered answered hmem
    refine ⟨filed', ?_, hrest⟩
    have hne : id ≠ answered.decisionId := by
      rintro rfl
      rw [hfree] at hget
      contradiction
    change (s.decisions.set id filed).get? answered.decisionId = some filed'
    rw [Dict.get?_set_of_ne _ _ hne]
    exact hget
  · exact hs.once

/-- A decision that waits no more keeps what justifies its effects. -/
theorem sound_setStatus {status : DecisionStatus} (hs : s.Sound) (hstatus : status ≠ .pending) :
    (s.setStatus id status).Sound := by
  constructor
  · intro id' filed hget
    rcases Dict.get?_modify_cases hget with ⟨_, filed', hold, rfl⟩ | ⟨_, hold⟩
    · exact ⟨(hs.fits id' filed' hold).execution, (hs.fits id' filed' hold).delegation⟩
    · exact hs.fits id' filed hold
  · intro answered hmem
    obtain ⟨filed, hget, hwaits, hjustified⟩ := hs.answered answered hmem
    unfold State.setStatus
    by_cases hid : id = answered.decisionId
    · refine ⟨{ filed with record := { filed.record with status } }, ?_, hstatus, ?_⟩
      · rw [Dict.get?_modify, if_pos hid, hget]
        rfl
      · intro e he
        have hold := hjustified e he
        cases e <;> exact hold
    · refine ⟨filed, ?_, hwaits, hjustified⟩
      rw [Dict.get?_modify, if_neg hid]
      exact hget
  · exact hs.once

/-- A decision that names no gate is created. -/
theorem sound_createDecision {caller : Caller} {body : DecisionIn} (hs : s.Sound)
    (hnames : namesGate body.metadata = false)
    (h : s.createDecision env caller body id = .ok s') : s'.Sound := by
  unfold State.createDecision at h
  split at h
  · contradiction
  split at h
  · contradiction
  split at h
  · contradiction
  cases hactor : resolveDecisionActor env caller body.projectId with
  | error refusal =>
    rw [hactor] at h
    contradiction
  | ok actor =>
    cases hparent : parentOf s actor body with
    | error refusal =>
      simp only [hactor, hparent, bind, Except.bind] at h
      contradiction
    | ok parentId =>
      simp only [hactor, hparent, bind, Except.bind] at h
      split at h
      · contradiction
      rename_i s'' hfile
      have hsound : s''.Sound := sound_file hs (fits_of_namesGate hnames) hfile
      cases h
      cases parentId with
      | none => exact hsound
      | some parentId => exact sound_setStatus hsound (by decide)

variable {agentName : String} {adminSession : Bool}

/-- The execution gate files its own decision. -/
theorem sound_checkExecutionPolicy {skillId : String}
    (hs : s.Sound) : (s.checkExecutionPolicy env adminSession skillId agentName id).1.Sound := by
  unfold State.checkExecutionPolicy
  split
  · split
    · exact hs
    · exact hs
    · split
      · exact hs
      · split
        · rename_i s' hfile
          exact sound_file hs (fits_executionGate _ _ _ _) hfile
        · exact hs
  · exact hs

/-- The delegation gate files its own decision. -/
theorem sound_checkDelegationPolicy {r : DelegateRequest}
    {existingTitle : Option String} (hs : s.Sound) :
    (s.checkDelegationPolicy env adminSession r existingTitle id).1.Sound := by
  unfold State.checkDelegationPolicy
  split
  · split
    · exact hs
    · exact hs
    · split
      · exact hs
      · split
        · rename_i s' hfile
          exact sound_file hs (fits_delegationGate r _) hfile
        · exact hs
  · exact hs

/-- What a recorded answer is: of a decision that waited, by someone who may answer it. -/
theorem answerDecision_eq_ok (h : s.answerDecision env user id body = .ok s') :
    ∃ filed value, s.decisions.get? id = some filed ∧ mayAnswer user filed.record = true ∧
      filed.record.status = .pending ∧ storedValue filed.record body = .ok value ∧
      s' = { s.setStatus id .answered with
        answers := s.answers ++ [⟨id, user, value, effects env filed.record value⟩] } := by
  unfold State.answerDecision at h
  split at h
  · contradiction
  rename_i filed hfound
  obtain ⟨hget, hmay⟩ := Option.filter_eq_some_iff.mp hfound
  cases hvalue : storedValue filed.record body with
  | error refusal =>
    rw [hvalue] at h
    contradiction
  | ok value =>
    simp only [hvalue, bind, Except.bind] at h
    split at h
    · contradiction
    split at h
    · rename_i hpending
      exact ⟨filed, value, hget, hmay, hpending, hvalue, (Except.ok.inj h).symm⟩
    · contradiction

/-- A user answers a decision. -/
theorem sound_answerDecision (hs : s.Sound)
    (h : s.answerDecision env user id body = .ok s') : s'.Sound := by
  obtain ⟨filed, value, hget, hmay, hpending, _, rfl⟩ := answerDecision_eq_ok h
  have hset : (s.setStatus id .answered).Sound := sound_setStatus hs (by decide)
  refine ⟨hset.fits, ?_, ?_⟩
  · intro answered hmem
    rcases List.mem_append.mp hmem with hold | hnew
    · exact hset.answered answered hold
    · rw [List.mem_singleton.mp hnew]
      refine ⟨{ filed with record := { filed.record with status := .answered } }, ?_,
        DecisionStatus.noConfusion, ?_⟩
      · change (s.decisions.modify id _).get? id = _
        rw [Dict.get?_modify, if_pos rfl, hget]
        rfl
      · intro e he
        have hjustified := justified_of_mem id (hs.fits id filed hget) hmay he
        cases e <;> exact hjustified
  · rw [List.map_append, List.map_singleton, List.nodup_append_comm, List.singleton_append,
      List.nodup_cons]
    refine ⟨?_, hs.once⟩
    -- An answered decision waits no more.
    rw [List.mem_map]
    rintro ⟨answered, hmem, rfl⟩
    obtain ⟨filed', hget', hwaits, _⟩ := hs.answered answered hmem
    rw [hget] at hget'
    cases hget'
    exact hwaits hpending

/-- An agent answers a decision. -/
theorem sound_answerDecisionAsAgent {canonicalId : String} (hs : s.Sound)
    (h : s.answerDecisionAsAgent env canonicalId id body = .ok s') : s'.Sound := by
  unfold State.answerDecisionAsAgent at h
  split at h
  · contradiction
  split at h
  · contradiction
  split at h
  · contradiction
  split at h
  · contradiction
  rename_i filed _ _ _ _ _ _
  cases hvalue : storedValue filed.record body with
  | error refusal =>
    rw [hvalue] at h
    contradiction
  | ok value =>
    rw [hvalue] at h
    cases h
    exact sound_setStatus hs (by decide)

theorem sound_orSame {result : Except Refusal State} (hs : s.Sound)
    (h : ∀ s', result = .ok s' → s'.Sound) : (s.orSame result).Sound := by
  cases result with
  | ok s' => exact h s' rfl
  | error refusal => exact hs

/-- A request keeps the books in order, unless it files the metadata of a gate. -/
theorem step_sound {e : Event} (hs : s.Sound) (hguard : NoGateMetadata s e)
    (h : s.step e = some s') : s'.Sound := by
  obtain rfl := Option.some.inj h
  obtain ⟨env, request⟩ := e
  cases request with
  | create caller body id => exact sound_orSame hs fun _ => sound_createDecision hs hguard
  | checkExecution adminSession skillId agentName id => exact sound_checkExecutionPolicy hs
  | checkDelegation adminSession r existingTitle id => exact sound_checkDelegationPolicy hs
  | answer user id body => exact sound_orSame hs fun _ => sound_answerDecision hs
  | answerAsAgent canonicalId id body =>
    exact sound_orSame hs fun _ => sound_answerDecisionAsAgent hs

/-- An admin's approval is on record. -/
theorem approvedByAdmin_of_mem {answered : Answered} (hmem : answered ∈ s.answers)
    (hadmin : answered.user.isAdmin = true) (happroval : isApproval answered.value = true) :
    s.ApprovedByAdmin answered.decisionId :=
  ⟨answered, hmem, rfl, hadmin, happroval⟩

/-- In a sound state the grants are genuine. -/
theorem genuine_of_sound (hs : s.Sound) : s.Genuine := by
  constructor
  · rintro agentName actionClass ⟨answered, hmem, expiresAt, he⟩
    obtain ⟨filed, hget, _, hjustified⟩ := hs.answered answered hmem
    obtain ⟨hgate, hadmin, happroval⟩ := hjustified _ he
    exact ⟨answered.decisionId, filed, hget, hgate, approvedByAdmin_of_mem hmem hadmin happroval⟩
  · intro answered hmem x he
    obtain ⟨filed, hget, _, hjustified⟩ := hs.answered answered hmem
    obtain ⟨⟨r, hcreator, hx⟩, hadmin, happroval⟩ := hjustified _ he
    exact ⟨filed, r, hget, hcreator, hx, approvedByAdmin_of_mem hmem hadmin happroval⟩
  · exact hs.once

/-- Where the metadata of the gates is filed by the gates alone, no grant is forged. -/
theorem genuine_of_guarded_run {events : List Event}
    (hguard : Guarded State.step NoGateMetadata State.empty events)
    (hrun : run State.step State.empty events = some s) : s.Genuine :=
  genuine_of_sound (invariant_of_guarded_run
    (fun _ _ _ hs hguard hstep => step_sound hs hguard hstep) sound_empty hguard hrun)

/-- What a gate sees as a grant is one. -/
theorem hasGrant_of_hasLiveGrant {actionClass : String} {now : Int}
    (h : s.hasLiveGrant agentName actionClass now = true) : s.HasGrant agentName actionClass := by
  unfold State.hasLiveGrant at h
  obtain ⟨answered, hmem, hany⟩ := List.any_eq_true.mp h
  obtain ⟨e, he, hlive⟩ := List.any_eq_true.mp hany
  cases e with
  | executionGrant agent action expiresAt =>
    simp only [Bool.and_eq_true, decide_eq_true_eq] at hlive
    obtain ⟨⟨rfl, rfl⟩, _⟩ := hlive
    exact ⟨answered, hmem, expiresAt, he⟩
  | _ => contradiction

/-- Whoever filed it: a pending decision with the metadata of a gate becomes a grant when someone
who may answer it approves. -/
theorem hasGrant_of_approval {value agent action : Value} {actionClass : String}
    (hget : s.decisions.get? id = some filed) (hmay : mayAnswer user filed.record = true)
    (hpending : filed.record.status = .pending) (hsource : body.source ≠ "mirrored_from_chat")
    (hvalue : storedValue filed.record body = .ok value) (happroval : isApproval value = true)
    (hpolicies : env.policies.isSome = true) (hsaved : env.grantSaved = true)
    (hnames : executionNames filed.record.metadata = some (agent, action) ∨
      env.delegationCompleted = true ∧ action = .str delegateClass ∧
        ∃ x, delegationNames filed.record.metadata filed.record.projectId = some x ∧
          agent = x.fromAgent)
    (hagent : storedText env.numberText agent = some agentName)
    (haction : storedText env.numberText action = some actionClass) :
    ∃ s', s.answerDecision env user id body = .ok s' ∧ s'.HasGrant agentName actionClass := by
  obtain ⟨policies, hpolicies⟩ := Option.isSome_iff_exists.mp hpolicies
  have hadd : addGrant env agent action =
      [.executionGrant agentName actionClass (env.now + grantTtl)] := by
    simp [addGrant, hagent, haction, hsaved]
  have heffect : Effect.executionGrant agentName actionClass (env.now + grantTtl) ∈
      effects env filed.record value := by
    simp only [effects, List.mem_append]
    rcases hnames with hnames | ⟨hcompleted, rfl, x, hnames, rfl⟩
    · refine Or.inl (Or.inl (Or.inr ?_))
      simp [applyExecutionGrant, hpolicies, hnames, happroval, hadd]
    · refine Or.inl (Or.inr ?_)
      simp [applyDelegationGrant, hpolicies, hnames, happroval, hcompleted, hadd]
  refine ⟨{ s.setStatus id .answered with
    answers := s.answers ++ [⟨id, user, value, effects env filed.record value⟩] }, ?_, ?_⟩
  · rw [State.answerDecision, Option.filter_eq_some_iff.mpr ⟨hget, hmay⟩]
    simp [hvalue, hsource, hpending, bind, Except.bind, pure, Except.pure]
  · exact ⟨_, List.mem_append_right _ List.mem_cons_self, _, heffect⟩

end Steps

/-! ## A user's own approval -/

def plainEnv : Env :=
  { projectOwner := fun _ => none
    admins := ["root"]
    checkScope := fun _ _ => .ok ()
    policies := some fun _ _ => .requireApproval
    appGrants := false
    devicePairRequests := false
    numberText := fun _ => none
    now := 0
    grantSaved := true
    delegationCompleted := true }

def approve : AnswerIn := ⟨.str "approve", none, "in_app"⟩

/-- An agent asks to run code, and the admin approves. -/
def askedRun : List Event :=
  [⟨plainEnv, .checkExecution false "code_exec" "agent-a" "dec-1"⟩,
    ⟨plainEnv, .answer ⟨"root", true, by decide⟩ "dec-1" approve⟩]

/-- The grant of a run in which the gate asked is genuine. -/
theorem genuine_askedRun :
    ∃ s, run State.step State.empty askedRun = some s ∧ s.HasGrant "agent-a" "code-exec" ∧
      s.Genuine := by
  have hguard : Guarded State.step NoGateMetadata State.empty askedRun :=
    ⟨trivial, trivial, trivial⟩
  refine ⟨_, rfl, ?_, genuine_of_guarded_run hguard rfl⟩
  exact hasGrant_of_hasLiveGrant (by decide : State.hasLiveGrant _ _ _ 0 = true)

def forgedBody : DecisionIn :=
  { fromAgent := "agent-a"
    question := "Lunch?"
    type := "approve_deny"
    options := []
    priority := "normal"
    projectId := none
    parentDecisionId := none
    metadata := executionMetadata "agent-a" "code-exec" "code_exec" }

/-- A user who is no admin files a gate's metadata and approves it. -/
def forgedRun : List Event :=
  [⟨plainEnv, .create (.user ⟨"bob", false, by decide⟩) forgedBody "dec-1"⟩,
    ⟨plainEnv, .answer ⟨"bob", false, by decide⟩ "dec-1" approve⟩]

theorem not_genuine_forgedRun :
    ∃ s, run State.step State.empty forgedRun = some s ∧ s.HasGrant "agent-a" "code-exec" ∧
      ¬ s.Genuine := by
  have hgrant : ∀ s, run State.step State.empty forgedRun = some s →
      s.HasGrant "agent-a" "code-exec" := by
    rintro s ⟨⟩
    exact hasGrant_of_hasLiveGrant (by decide : State.hasLiveGrant _ _ _ 0 = true)
  refine ⟨_, rfl, hgrant _ rfl, ?_⟩
  intro h
  obtain ⟨id, filed, hget, hgate, _⟩ := h.grants _ _ (hgrant _ rfl)
  -- The only decision is the user's.
  have hentry := List.mem_singleton.mp (Dict.mem_entries_iff.mpr hget)
  cases hentry
  contradiction

end TinyAgentOS.Inbox
