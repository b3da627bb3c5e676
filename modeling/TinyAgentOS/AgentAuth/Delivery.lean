import TinyAgentOS.AgentAuth.Decisions

/-!
# What an approval hands over

The token of an accepted request names an identity, and what it opens is asked of the grants of
that identity.  The identity is new, or it is the active agent that has the handle already.

Main results:

- `Stores.passes_iff`: what a token opens.
- `handsOverNoMore_iff`: the approvals that hand over no more than they grant.
-/

namespace TinyAgentOS.AgentAuth

open Collections
open Registry (Status)

/-! ## Grants -/

/-- A row of `agent_grants`. -/
structure StoredGrant where
  canonicalId : String
  scope : String
  projectId : Option String
  expiresAt : Option String

/-- `UNIQUE (canonical_id, scope, project_id)`, where a missing project is one too. -/
def StoredGrant.SameKey (g row : StoredGrant) : Prop :=
  g.canonicalId = row.canonicalId ∧ g.scope = row.scope ∧ g.projectId = row.projectId

instance (g row : StoredGrant) : Decidable (g.SameKey row) :=
  inferInstanceAs (Decidable (_ ∧ _ ∧ _))

/-- `add_grant`. -/
def addGrant (grants : List StoredGrant) (row : StoredGrant) : List StoredGrant :=
  (grants.filter fun g => ¬ g.SameKey row) ++ [row]

/-- What is written to the table of grants. -/
def Effect.writeGrant (grants : List StoredGrant) : Effect → List StoredGrant
  | .grant canonicalId scope projectId => addGrant grants ⟨canonicalId, scope, projectId, none⟩
  | _ => grants

section Expiry

variable (fromIsoFormat : String → Option Int)

/-- `_grant_unexpired`: a text that cannot be read is an expiry that is past. -/
def grantUnexpired (expiresAt : Option String) (now : Int) : Bool :=
  match expiresAt with
  | none => true
  | some text =>
    match fromIsoFormat text with
    | none => false
    | some expiry => now < expiry

theorem grantUnexpired_of_le {expiresAt : Option String} {now later : Int} (hle : now ≤ later)
    (h : grantUnexpired fromIsoFormat expiresAt later = true) :
    grantUnexpired fromIsoFormat expiresAt now = true := by
  cases expiresAt with
  | none => rfl
  | some text =>
    cases hread : fromIsoFormat text with
    | none => simp [grantUnexpired, hread] at h
    | some expiry =>
      simp only [grantUnexpired, hread, decide_eq_true_eq] at h ⊢
      omega

end Expiry

/-! ## Stores -/

/-- The claims that a token was signed with. -/
structure Token where
  sub : String
  iat : Int
  projectId : Option String

/-- The columns of `agent_registry` that a token is checked against. -/
structure IdentityRow where
  handle : String
  status : Status
  tokenMinIat : Int

/-- The request with what was decided on it, the registry and the grants. -/
structure Stores where
  record : AuthRecord
  decision : Option (String × Token)
  agents : Dict String IdentityRow
  grants : List StoredGrant

namespace Stores

/-- `get_by_handle`, of the active agents. -/
def activeOwner (s : Stores) : Option String :=
  (s.agents.entries.find? fun e =>
    decide (e.2.status = .active) && decide (e.2.handle = s.record.handle)).map Prod.fst

/-- The identity that an approval is for, where the checks pass: the active agent of the handle, or
the one that is registered, whose id was free. -/
def identityFor (s : Stores) (body : ApproveBody) (registered : Option String) : Option String :=
  match checkApproval s.record body, mintFor s.record body s.activeOwner with
  | .ok _, .ok (.reuse canonicalId _) => some canonicalId
  | .ok _, .ok .fresh => registered.filter fun id => (s.agents.get? id).isNone
  | _, _ => none

/-- The second in which a time lies. -/
def epochSeconds (microseconds : Int) : Int :=
  microseconds / 1000000

/-- `approve_request_record`, where it returns. -/
def approve (s : Stores) (body : ApproveBody) (registered : Option String) (now : Int) :
    Option Stores :=
  (s.identityFor body registered).map fun canonicalId =>
    let binding := bindingProject s.record body
    { record := { s.record with status := .accepted }
      decision := some
        (canonicalId, ⟨canonicalId, epochSeconds now, if binding = some "" then none else binding⟩)
      agents :=
        if s.activeOwner.isSome then s.agents
        else s.agents.set canonicalId ⟨s.record.handle, .active, 0⟩
      grants := (approvalEffects s.record body ⟨s.activeOwner, registered, none⟩).foldl
        Effect.writeGrant s.grants }

/-- `get_auth_request_status`: the identity and the token of a request that was accepted. -/
def poll (s : Stores) : Option (String × Token) :=
  if s.record.status = .accepted then s.decision else none

section Checks

variable (fromIsoFormat : String → Option Int)

/-- `_verify_agent_scope`, of a token whose signature is good. -/
def verifyAgentScope (s : Stores) (bearer : Option Token) (requiredScope : String) (now : Int) :
    Except Nat (Option String) :=
  match bearer with
  | none => .ok none
  | some token =>
    if token.sub = "" then .error 401
    else
      match (s.agents.get? token.sub).filter fun row => row.status = .active with
      | none => .error 403
      | some row =>
        if token.iat < row.tokenMinIat then .error 401
        else if s.grants.any fun g => g.canonicalId = token.sub && g.scope = requiredScope &&
            grantUnexpired fromIsoFormat g.expiresAt now then
          .ok (some token.sub)
        else .error 403

/-- `check_agent_scope_for_project`. -/
def checkAgentScopeForProject (s : Stores) (bearer : Option Token)
    (requiredScope projectId : String) (now : Int) : Except Nat (Option String) :=
  match s.verifyAgentScope fromIsoFormat bearer requiredScope now with
  | .ok (some canonicalId) =>
    if s.grants.any fun g => g.canonicalId = canonicalId && g.scope = requiredScope &&
        g.projectId = some projectId && grantUnexpired fromIsoFormat g.expiresAt now then
      .ok (some canonicalId)
    else .error 403
  | answer => answer

end Checks

end Stores

/-! ## What is handed over -/

/-- The decision grants a scope for a project. -/
def GrantedFor (record : AuthRecord) (body : ApproveBody) (scope projectId : String) : Prop :=
  scope ∈ body.grantedScopes ∧ bindingProject record body = some projectId

/-- From the moment of the approval, the token that is delivered opens what the decision grants
and nothing else. -/
def HandsOverNoMore (fromIsoFormat : String → Option Int) (s : Stores) (body : ApproveBody)
    (registered : Option String) (now : Int) : Prop :=
  ∀ s' canonicalId token, s.approve body registered now = some s' →
    s'.poll = some (canonicalId, token) → ∀ scope projectId time, now ≤ time →
      s'.checkAgentScopeForProject fromIsoFormat (some token) scope projectId time =
        .ok (some canonicalId) →
      GrantedFor s.record body scope projectId

/-- A token of now is honoured: the identity has a name, and its tokens were not made void by a
later cutoff. -/
def Stores.Honours (s : Stores) (canonicalId : String) (now : Int) : Prop :=
  canonicalId ≠ "" ∧
    ((s.agents.get? canonicalId).map IdentityRow.tokenMinIat).getD 0 ≤ Stores.epochSeconds now

/-- The identity holds no grant for a project yet that lasts, but what the decision grants. -/
def HoldsNoMore (fromIsoFormat : String → Option Int) (s : Stores) (body : ApproveBody)
    (registered : Option String) (now : Int) : Prop :=
  ∀ canonicalId, s.identityFor body registered = some canonicalId → s.Honours canonicalId now →
    ∀ g ∈ s.grants, g.canonicalId = canonicalId →
      grantUnexpired fromIsoFormat g.expiresAt now = true → ∀ projectId,
        g.projectId = some projectId → GrantedFor s.record body g.scope projectId

/-! ## The grants of an approval -/

variable {g : StoredGrant} {grants : List StoredGrant} {effects : List Effect}
  {scopes : List String} {projectId : Option String}

theorem mem_addGrant {row : StoredGrant} :
    g ∈ addGrant grants row ↔ (g ∈ grants ∧ ¬ g.SameKey row) ∨ g = row := by
  simp [addGrant]

/-- A grant after the writes was written, or was there and not written over. -/
theorem mem_writeGrants_cases (h : g ∈ effects.foldl Effect.writeGrant grants) :
    g ∈ grants ∨ Effect.grant g.canonicalId g.scope g.projectId ∈ effects := by
  induction effects generalizing grants with
  | nil => exact Or.inl h
  | cons e effects ih =>
    rcases ih h with hwritten | hlater
    · cases e with
      | grant canonicalId scope projectId =>
        rcases mem_addGrant.mp hwritten with ⟨hold, _⟩ | rfl
        · exact Or.inl hold
        · exact Or.inr List.mem_cons_self
      | token | permission | member | memberCanvas | channel => exact Or.inl hwritten
    · exact Or.inr (List.mem_cons_of_mem e hlater)

/-- A grant that is not written over stays. -/
theorem mem_writeGrants_of_mem (hg : g ∈ grants)
    (hkept : Effect.grant g.canonicalId g.scope g.projectId ∉ effects) :
    g ∈ effects.foldl Effect.writeGrant grants := by
  induction effects generalizing grants with
  | nil => exact hg
  | cons e effects ih =>
    rw [List.mem_cons, not_or] at hkept
    refine ih ?_ hkept.2
    cases e with
    | grant canonicalId scope projectId =>
      refine mem_addGrant.mpr (Or.inl ⟨hg, ?_⟩)
      rintro ⟨rfl, rfl, rfl⟩
      exact hkept.1 rfl
    | token | permission | member | memberCanvas | channel => exact hg

theorem grant_mem_grantEffects {canonicalId id scope : String} {binding : Option String} :
    Effect.grant id scope projectId ∈ grantEffects canonicalId scopes binding ↔
      id = canonicalId ∧ scope ∈ scopes ∧ projectId = binding := by
  simp only [grantEffects, List.mem_flatMap, List.mem_cons, List.not_mem_nil, or_false,
    Effect.grant.injEq, reduceCtorEq]
  constructor
  · rintro ⟨scope', hscope, rfl, rfl, rfl⟩
    exact ⟨rfl, hscope, rfl⟩
  · rintro ⟨rfl, hscope, rfl⟩
    exact ⟨scope, hscope, rfl, rfl, rfl⟩

theorem grant_notMem_memberEffects {canonicalId id scope project : String} :
    Effect.grant id scope projectId ∉ memberEffects canonicalId scopes project := by
  unfold memberEffects
  simp only
  split
  · split <;> split <;> simp
  · exact List.not_mem_nil

namespace Stores

variable {s : Stores} {body : ApproveBody} {registered : Option String}

theorem bindingProject_of_reuse {record : AuthRecord} {existing : Option String}
    {canonicalId projectId : String}
    (h : mintFor record body existing = .ok (.reuse canonicalId projectId)) :
    bindingProject record body = some projectId := by
  cases existing with
  | none => cases h
  | some id =>
    by_cases hdefer : body.deferBinding = true
    · simp [mintFor, hdefer] at h
    · rcases mintFor_eq_ok h with ⟨hnone, _⟩ | ⟨_, _, _, hbody, hreuse⟩
      · contradiction
      · cases hreuse
        simp [bindingProject, effectiveProject, hdefer, hbody]

/-- The grants that an approval writes. -/
theorem grant_mem_approvalEffects {canonicalId : String}
    (h : s.identityFor body registered = some canonicalId) {id scope : String}
    {projectId : Option String} :
    Effect.grant id scope projectId ∈
        approvalEffects s.record body ⟨s.activeOwner, registered, none⟩ ↔
      id = canonicalId ∧ scope ∈ body.grantedScopes ∧
        projectId = bindingProject s.record body := by
  have htoken : ∀ cid binding, Effect.grant id scope projectId ≠ tokenEffect cid binding := by
    intro cid binding
    simp [tokenEffect]
  have hmember : ∀ cid project (p : Prop) [Decidable p], Effect.grant id scope projectId ∉
      if p then memberEffects cid body.grantedScopes project else [] := by
    intro cid project p _
    by_cases hp : p
    · rw [if_pos hp]
      exact grant_notMem_memberEffects
    · rw [if_neg hp]
      exact List.not_mem_nil
  unfold identityFor at h
  split at h
  · rename_i cid project hcheck hmint
    cases h
    simp only [approvalEffects, hcheck, hmint, upTo, addAgentToProject, List.mem_cons, htoken,
      false_or, List.mem_append, hmember, or_false, grant_mem_grantEffects,
      bindingProject_of_reuse hmint]
  · rename_i hcheck hmint
    obtain ⟨rfl, _⟩ := Option.filter_eq_some_iff.mp h
    simp only [approvalEffects, hcheck, hmint, upTo, List.cons_append, List.mem_cons, htoken,
      false_or, List.mem_append, grant_mem_grantEffects]
    cases bindingProject s.record body with
    | none => simp
    | some project => simp only [hmember, or_false]
  · contradiction

section Checks

variable {fromIsoFormat : String → Option Int} {token : Token} {scope canonicalId : String}
  {now : Int}

/-- The identity is active and no cutoff is later than the token. -/
def Accepts (s : Stores) (token : Token) : Prop :=
  token.sub ≠ "" ∧ ∃ row, s.agents.get? token.sub = some row ∧ row.status = .active ∧
    row.tokenMinIat ≤ token.iat

theorem any_grant_iff {keep : StoredGrant → Bool} {id : String} :
    (s.grants.any fun g => g.canonicalId = id && g.scope = scope && keep g) = true ↔
      ∃ g ∈ s.grants, g.canonicalId = id ∧ g.scope = scope ∧ keep g = true := by
  simp [List.any_eq_true, and_assoc]

theorem verifyAgentScope_eq_ok_iff :
    s.verifyAgentScope fromIsoFormat (some token) scope now = .ok (some canonicalId) ↔
      canonicalId = token.sub ∧ s.Accepts token ∧ ∃ g ∈ s.grants, g.canonicalId = token.sub ∧
        g.scope = scope ∧ grantUnexpired fromIsoFormat g.expiresAt now = true := by
  rw [← any_grant_iff]
  simp only [verifyAgentScope]
  by_cases hname : token.sub = ""
  · rw [if_pos hname]
    exact iff_of_false nofun fun h => h.2.1.1 hname
  · rw [if_neg hname]
    cases hrow : (s.agents.get? token.sub).filter fun row => row.status = .active with
    | none =>
      refine iff_of_false nofun ?_
      rintro ⟨_, ⟨_, row, hget, hactive, _⟩, _⟩
      simp [hget, hactive] at hrow
    | some row =>
      obtain ⟨hget, hactive⟩ := Option.filter_eq_some_iff.mp hrow
      rw [decide_eq_true_eq] at hactive
      have haccepts : s.Accepts token ↔ row.tokenMinIat ≤ token.iat := by
        constructor
        · rintro ⟨_, row', hget', _, hiat⟩
          cases hget.symm.trans hget'
          exact hiat
        · exact fun hiat => ⟨hname, row, hget, hactive, hiat⟩
      rw [haccepts]
      dsimp only
      by_cases hcutoff : token.iat < row.tokenMinIat
      · rw [if_pos hcutoff]
        exact iff_of_false nofun fun h => not_le.mpr hcutoff h.2.1
      · rw [if_neg hcutoff]
        by_cases hgrant : (s.grants.any fun g => g.canonicalId = token.sub && g.scope = scope &&
            grantUnexpired fromIsoFormat g.expiresAt now) = true
        · rw [if_pos hgrant]
          constructor
          · intro h
            cases h
            exact ⟨rfl, not_lt.mp hcutoff, hgrant⟩
          · rintro ⟨rfl, _⟩
            rfl
        · rw [if_neg hgrant]
          exact iff_of_false nofun fun h => hgrant h.2.2

/-- A token opens a scope of a project exactly when it is accepted and its identity holds the
grant. -/
theorem passes_iff {projectId : String} :
    s.checkAgentScopeForProject fromIsoFormat (some token) scope projectId now =
        .ok (some canonicalId) ↔
      canonicalId = token.sub ∧ s.Accepts token ∧ ∃ g ∈ s.grants, g.canonicalId = token.sub ∧
        g.scope = scope ∧ g.projectId = some projectId ∧
          grantUnexpired fromIsoFormat g.expiresAt now = true := by
  constructor
  · intro h
    unfold checkAgentScopeForProject at h
    split at h
    · rename_i id hverify
      obtain ⟨rfl, haccepts, _⟩ := verifyAgentScope_eq_ok_iff.mp hverify
      split at h
      · rename_i hgrant
        cases h
        obtain ⟨g, hg, hkeep⟩ := List.any_eq_true.mp hgrant
        simp only [Bool.and_eq_true, decide_eq_true_eq] at hkeep
        exact ⟨rfl, haccepts, g, hg, hkeep.1.1.1, hkeep.1.1.2, hkeep.1.2, hkeep.2⟩
      · contradiction
    · rename_i hnone
      exact absurd h (hnone canonicalId)
  · rintro ⟨rfl, haccepts, g, hg, hid, hscope, hproject, hlive⟩
    have hverify : s.verifyAgentScope fromIsoFormat (some token) scope now = .ok (some token.sub) :=
      verifyAgentScope_eq_ok_iff.mpr ⟨rfl, haccepts, g, hg, hid, hscope, hlive⟩
    have hgrant : (s.grants.any fun g => g.canonicalId = token.sub && g.scope = scope &&
        g.projectId = some projectId && grantUnexpired fromIsoFormat g.expiresAt now) = true :=
      List.any_eq_true.mpr ⟨g, hg, by simp [hid, hscope, hproject, hlive]⟩
    simp only [checkAgentScopeForProject, hverify, if_pos hgrant]

end Checks

/-- The active agent of the handle is one. -/
theorem active_of_activeOwner {canonicalId : String} (h : s.activeOwner = some canonicalId) :
    ∃ row, s.agents.get? canonicalId = some row ∧ row.status = .active := by
  obtain ⟨e, hfind, rfl⟩ := Option.map_eq_some_iff.mp h
  have hactive := List.find?_some hfind
  rw [Bool.and_eq_true, decide_eq_true_eq] at hactive
  exact ⟨e.2, Dict.mem_entries_iff.mp (List.mem_of_find?_eq_some hfind), hactive.1⟩

theorem identityFor_cases {canonicalId : String}
    (h : s.identityFor body registered = some canonicalId) :
    s.activeOwner = some canonicalId ∨
      s.activeOwner = none ∧ s.agents.get? canonicalId = none := by
  unfold identityFor at h
  split at h
  · rename_i cid project _ hmint
    cases h
    rcases mintFor_eq_ok hmint with ⟨_, hfresh⟩ | ⟨_, _, howner, _, hreuse⟩
    · cases hfresh
    · cases hreuse
      exact Or.inl howner
  · rename_i _ hmint
    obtain ⟨_, hfree⟩ := Option.filter_eq_some_iff.mp h
    rcases mintFor_eq_ok hmint with ⟨hnone, _⟩ | ⟨_, _, _, _, hreuse⟩
    · exact Or.inr ⟨hnone, Option.isNone_iff_eq_none.mp hfree⟩
    · cases hreuse
  · contradiction

/-- What an approval leaves: the token of the identity, accepted if tokens of now are honoured,
and the grants that it wrote over the others. -/
theorem approve_spec {s' : Stores} {canonicalId : String} {now : Int}
    (hid : s.identityFor body registered = some canonicalId)
    (h : s.approve body registered now = some s') :
    (∃ token, s'.poll = some (canonicalId, token) ∧ token.sub = canonicalId ∧
      (s'.Accepts token ↔ s.Honours canonicalId now)) ∧
      s'.grants = (approvalEffects s.record body ⟨s.activeOwner, registered, none⟩).foldl
        Effect.writeGrant s.grants := by
  rw [approve, hid, Option.map_some, Option.some.injEq] at h
  subst h
  refine ⟨⟨_, if_pos rfl, rfl, ?_⟩, rfl⟩
  rw [Accepts, Honours]
  rcases identityFor_cases hid with howner | ⟨howner, hfree⟩
  · obtain ⟨row, hget, hactive⟩ := active_of_activeOwner howner
    simp [howner, hget, hactive]
  · simp [howner, hfree]

end Stores

/-- An approval hands over no more than it grants exactly when the identity that it is for holds
no more. -/
theorem handsOverNoMore_iff (fromIsoFormat : String → Option Int) (s : Stores) (body : ApproveBody)
    (registered : Option String) (now : Int) :
    HandsOverNoMore fromIsoFormat s body registered now ↔
      HoldsNoMore fromIsoFormat s body registered now := by
  constructor
  · intro h canonicalId hid hhonours g hg hholder hlive projectId hproject
    by_contra hnot
    cases happrove : s.approve body registered now with
    | none => simp [Stores.approve, hid] at happrove
    | some s' =>
      obtain ⟨⟨token, hpoll, hsub, haccepts⟩, hgrants⟩ := Stores.approve_spec hid happrove
      have hkept : Effect.grant g.canonicalId g.scope g.projectId ∉
          approvalEffects s.record body ⟨s.activeOwner, registered, none⟩ := by
        rw [Stores.grant_mem_approvalEffects hid]
        exact fun hwritten => hnot ⟨hwritten.2.1, hwritten.2.2.symm.trans hproject⟩
      have hstays := mem_writeGrants_of_mem hg hkept
      rw [← hgrants] at hstays
      exact hnot (h s' canonicalId token happrove hpoll g.scope projectId now le_rfl
        (Stores.passes_iff.mpr ⟨hsub.symm, haccepts.mpr hhonours, g, hstays,
          hholder.trans hsub.symm, rfl, hproject, hlive⟩))
  · intro h s' canonicalId token happrove hpoll scope projectId time hle hpass
    obtain ⟨id, hid, _⟩ := Option.map_eq_some_iff.mp happrove
    obtain ⟨⟨token', hpoll', hsub, haccepts⟩, hgrants⟩ := Stores.approve_spec hid happrove
    cases hpoll.symm.trans hpoll'
    obtain ⟨_, haccepted, g, hg, hholder, rfl, hproject, hlive⟩ := Stores.passes_iff.mp hpass
    rw [hgrants] at hg
    rcases mem_writeGrants_cases hg with hold | hwritten
    · exact h canonicalId hid (haccepts.mp haccepted) g hold (hholder.trans hsub)
        (grantUnexpired_of_le fromIsoFormat hle hlive) projectId hproject
    · obtain ⟨_, hscope, hbinding⟩ := (Stores.grant_mem_approvalEffects hid).mp hwritten
      exact ⟨hscope, hbinding.symm.trans hproject⟩

/-- A request under the handle of an agent that reads the files of another project. -/
def impostor : Stores where
  record := ⟨"@Scout", "hermes", ["project_tasks"], none, .pending⟩
  decision := none
  agents := Dict.empty.set "scout-1" ⟨"scout", .active, 0⟩
  grants := [⟨"scout-1", "files_read", some "prj-b", none⟩]

/-- The token is one of the agent. -/
theorem not_handsOverNoMore : ¬ HandsOverNoMore (fun _ => none) impostor
    ⟨["project_tasks"], some "prj-a", false⟩ none 0 := by
  intro h
  have hopens : ((impostor.approve ⟨["project_tasks"], some "prj-a", false⟩ none 0).any fun s' =>
      s'.poll.any fun answer => answer.1 = "scout-1" &&
        (s'.checkAgentScopeForProject (fun _ => none) (some answer.2) "files_read" "prj-b"
          0).toOption = some (some "scout-1")) = true := by
    decide
  obtain ⟨s', happrove, hopens⟩ := (Option.any_eq_true _ _).mp hopens
  obtain ⟨⟨canonicalId, token⟩, hpoll, hopens⟩ := (Option.any_eq_true _ _).mp hopens
  simp only [Bool.and_eq_true, decide_eq_true_eq] at hopens
  obtain ⟨rfl, hcheck⟩ := hopens
  cases hanswer :
      s'.checkAgentScopeForProject (fun _ => none) (some token) "files_read" "prj-b" 0 with
  | error status =>
    rw [hanswer] at hcheck
    contradiction
  | ok answer =>
    rw [hanswer] at hcheck
    cases hcheck
    have hgranted := h s' _ token happrove hpoll "files_read" "prj-b" 0 le_rfl hanswer
    exact absurd hgranted.1 (by decide)

end TinyAgentOS.AgentAuth
