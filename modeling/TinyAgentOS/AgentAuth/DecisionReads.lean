import TinyAgentOS.AgentAuth.Rotation

/-!
# The decisions of an agent

An agent reads its decisions one at a time, each with a grant for its own project, or all at once.
The list takes one of three queries, by the projects that the grants are for; with a grant for no
project it asks for the decisions of no project.

Main results:

- `readDecision_eq_ok_iff`: the decisions that an agent can read.
- `mem_listDecisions_iff`: the decisions that it is listed.
- `agrees_iff`: when these are the same.
-/

namespace TinyAgentOS.AgentAuth
namespace Reads

open Collections Rotation

/-! ## The routes -/

/-- The columns of a decision that the two routes look at. -/
structure DecisionRow where
  fromAgent : String
  projectId : Option String
  createdAt : Int
deriving DecidableEq

/-- A row with its id. -/
abbrev StoredDecision := String × DecisionRow

/-- The order that the database lists rows in; rows of one timestamp come in any order. -/
structure ListOrder where
  newestFirst : List StoredDecision → List StoredDecision
  perm : ∀ rows, (newestFirst rows).Perm rows
  sorted : ∀ rows, (newestFirst rows).Pairwise fun d e => e.2.createdAt ≤ d.2.createdAt

/-- Rows of one timestamp as they were inserted. -/
def insertionOrder : ListOrder where
  newestFirst rows := rows.insertionSort fun d e => e.2.createdAt ≤ d.2.createdAt
  perm _ := List.perm_insertionSort _ _
  sorted rows := by
    have : Std.Total fun d e : StoredDecision => e.2.createdAt ≤ d.2.createdAt :=
      ⟨fun d e => le_total _ _⟩
    have : IsTrans StoredDecision fun d e => e.2.createdAt ≤ d.2.createdAt :=
      ⟨fun d e f hde hef => hef.trans hde⟩
    exact List.pairwise_insertionSort _ rows

/-- What a request finds. -/
structure Request where
  agents : Dict String IdentityRow
  grants : List StoredGrant
  decisions : Dict String DecisionRow
  bearer : Option Token
  now : Int

namespace Request

variable (fromIsoFormat : String → Option Int) (order : ListOrder) (r : Request)

/-- `DecisionStore.list`, with a project, with none, or with no filter on it. -/
def list (fromAgent : String) (projectId : Option (Option String)) (limit : Int) :
    List StoredDecision :=
  (order.newestFirst (r.decisions.entries.filter fun d =>
    projectId.all (fun p => d.2.projectId = p) && d.2.fromAgent = fromAgent)).take
      (max 1 (min limit 500)).toNat

/-- `allowed_projects`. -/
def allowedProjects (canonicalId : String) : List (Option String) :=
  ((r.grants.filter fun g => g.canonicalId = canonicalId && g.scope = "decisions_write" &&
    grantUnexpired fromIsoFormat g.expiresAt r.now).map StoredGrant.projectId).dedup

/-- `list_decisions_as_agent`. -/
def listDecisionsAsAgent : Except Refusal (List StoredDecision) :=
  match checkAgentScope fromIsoFormat r.agents r.grants r.bearer "decisions_write" r.now with
  | .error refusal => .error refusal
  | .ok none => .error ⟨401, "agent identity not found"⟩
  | .ok (some canonicalId) =>
    let allowed := r.allowedProjects fromIsoFormat canonicalId
    if none ∈ allowed then .ok (r.list order canonicalId (some none) 500)
    else
      match allowed with
      | [projectId] => .ok (r.list order canonicalId (some projectId) 500)
      | _ => .ok ((r.list order canonicalId none 500).filter fun d => d.2.projectId ∈ allowed)

def notFound : Refusal := ⟨404, "not found"⟩

/-- `get_decision_as_agent`. -/
def getDecisionAsAgent (decisionId : String) : Except Refusal StoredDecision :=
  match checkAgentIdentity r.agents r.bearer with
  | .error refusal => .error refusal
  | .ok none => .error notFound
  | .ok (some _) =>
    match r.decisions.get? decisionId with
    | none => .error notFound
    | some d =>
      match checkAgentScopeForProject fromIsoFormat r.agents r.grants r.bearer
        "decisions_write" d.projectId r.now with
      | .error refusal => .error (if refusal = scopeMismatch then notFound else refusal)
      | .ok none => .error notFound
      | .ok (some canonicalId) =>
        if d.fromAgent = canonicalId then .ok (decisionId, d) else .error notFound

/-- The decisions of the list; a refusal lists none. -/
def listed : List StoredDecision :=
  match r.listDecisionsAsAgent fromIsoFormat order with
  | .ok items => items
  | .error _ => []

/-- The list has the decisions that can be read, each of them once. -/
def Agrees : Prop :=
  (r.listed fromIsoFormat order).Nodup ∧
    ∀ d, d ∈ r.listed fromIsoFormat order ↔ r.getDecisionAsAgent fromIsoFormat d.1 = .ok d

/-- An agent that may list has no grant for no project, or no decision in a project that it has a
grant for. -/
def OneKind : Prop :=
  ∀ canonicalId, verifyAgentScope fromIsoFormat r.agents r.grants r.bearer "decisions_write" r.now =
      .ok (some canonicalId) →
    none ∈ r.allowedProjects fromIsoFormat canonicalId →
    ∀ d ∈ r.decisions.entries, d.2.fromAgent = canonicalId →
      ∀ p, d.2.projectId = some p → some p ∉ r.allowedProjects fromIsoFormat canonicalId

variable {fromIsoFormat order r}

variable {canonicalId : String} {d : StoredDecision}

theorem mem_allowedProjects {projectId : Option String} :
    projectId ∈ r.allowedProjects fromIsoFormat canonicalId ↔
      (r.grants.any fun g => g.canonicalId = canonicalId && g.scope = "decisions_write" &&
        g.projectId = projectId && grantUnexpired fromIsoFormat g.expiresAt r.now) = true := by
  simp only [allowedProjects, List.mem_dedup, List.mem_map, List.mem_filter, List.any_eq_true,
    Bool.and_eq_true, decide_eq_true_eq]
  constructor
  · rintro ⟨g, ⟨hg, ⟨hagent, hscope⟩, hlive⟩, rfl⟩
    exact ⟨g, hg, ⟨⟨hagent, hscope⟩, rfl⟩, hlive⟩
  · rintro ⟨g, hg, ⟨⟨hagent, hscope⟩, rfl⟩, hlive⟩
    exact ⟨g, ⟨hg, ⟨hagent, hscope⟩, hlive⟩, rfl⟩

/-- The scope check looks at the identity of the token first. -/
theorem token_of_verified
    (h : verifyAgentScope fromIsoFormat r.agents r.grants r.bearer "decisions_write" r.now =
      .ok (some canonicalId)) : (∃ token ∈ r.bearer, token.sub = canonicalId) ∧
      checkAgentIdentity r.agents r.bearer = .ok (some canonicalId) := by
  unfold verifyAgentScope at h
  unfold checkAgentIdentity
  split at h
  · cases h
  rename_i token hbearer
  simp only [hbearer]
  split at h
  · cases h
  rename_i hsub
  split at h
  · cases h
  rename_i row hrow
  split at h
  · cases h
  split at h
  · cases h
    exact ⟨⟨token, rfl, rfl⟩, by simp [hsub]⟩
  · cases h

theorem checkForProject_iff {projectId : Option String} :
    checkAgentScopeForProject fromIsoFormat r.agents r.grants r.bearer "decisions_write" projectId
        r.now = .ok (some canonicalId) ↔
      verifyAgentScope fromIsoFormat r.agents r.grants r.bearer "decisions_write" r.now =
          .ok (some canonicalId) ∧ projectId ∈ r.allowedProjects fromIsoFormat canonicalId := by
  unfold checkAgentScopeForProject
  cases hverify : verifyAgentScope fromIsoFormat r.agents r.grants r.bearer "decisions_write"
      r.now with
  | error refusal => simp
  | ok found =>
    cases found with
    | none => simp
    | some id =>
      simp only [← mem_allowedProjects]
      split
      · rename_i hallowed
        constructor
        · intro h
          cases h
          exact ⟨rfl, hallowed⟩
        · rintro ⟨h, -⟩
          exact h
      · rename_i hallowed
        simp only [reduceCtorEq, Except.ok.injEq, Option.some.injEq, false_iff]
        rintro ⟨rfl, h⟩
        exact hallowed h

/-- The decisions that an agent can read: its own, of projects that it has a grant for. -/
theorem readDecision_eq_ok_iff : r.getDecisionAsAgent fromIsoFormat d.1 = .ok d ↔
      ∃ canonicalId, verifyAgentScope fromIsoFormat r.agents r.grants r.bearer "decisions_write"
          r.now = .ok (some canonicalId) ∧
        d ∈ r.decisions.entries ∧ d.2.fromAgent = canonicalId ∧
        d.2.projectId ∈ r.allowedProjects fromIsoFormat canonicalId := by
  obtain ⟨decisionId, row⟩ := d
  constructor
  · intro h
    unfold getDecisionAsAgent at h
    split at h
    · cases h
    · cases h
    · split at h
      · cases h
      · rename_i found hfound
        split at h
        · cases h
        · cases h
        · rename_i canonicalId hcheck
          split at h
          · rename_i hown
            cases h
            obtain ⟨hverify, hallowed⟩ := checkForProject_iff.mp hcheck
            exact ⟨canonicalId, hverify, Dict.mem_entries_iff.mpr hfound, hown, hallowed⟩
          · cases h
  · rintro ⟨canonicalId, hverify, hmem, hown, hallowed⟩
    have hcheck := checkForProject_iff.mpr ⟨hverify, hallowed⟩
    simp only at hown hcheck
    simp [getDecisionAsAgent, (token_of_verified hverify).2, Dict.mem_entries_iff.mp hmem, hcheck,
      hown]

/-- The agent has few enough decisions for one page. -/
def Few (r : Request) : Prop :=
  ∀ token ∈ r.bearer, (r.decisions.entries.countP fun d => d.2.fromAgent = token.sub) ≤ 500

theorem mem_list {projectId : Option (Option String)}
    (hfew : (r.decisions.entries.countP fun d => d.2.fromAgent = canonicalId) ≤ 500) :
    d ∈ r.list order canonicalId projectId 500 ↔
      d ∈ r.decisions.entries ∧ (∀ p ∈ projectId, d.2.projectId = p) ∧
        d.2.fromAgent = canonicalId := by
  have hlength : (r.decisions.entries.filter fun d =>
      projectId.all (fun p => d.2.projectId = p) && d.2.fromAgent = canonicalId).length ≤ 500 := by
    rw [← List.countP_eq_length_filter]
    refine (List.countP_mono_left ?_).trans hfew
    intro d _ hd
    exact (Bool.and_eq_true _ _ ▸ hd).2
  rw [list, List.take_of_length_le (by rw [(order.perm _).length_eq]; exact hlength),
    (order.perm _).mem_iff, List.mem_filter]
  simp [Option.all_eq_true]

theorem nodup_list (canonicalId : String) (projectId : Option (Option String)) (limit : Int) :
    (r.list order canonicalId projectId limit).Nodup := by
  have hentries : r.decisions.entries.Nodup := List.Nodup.of_map _ r.decisions.nodup
  exact ((order.perm _).nodup_iff.mpr (hentries.filter _)).sublist (List.take_sublist _ _)

theorem nodup_listed : (r.listed fromIsoFormat order).Nodup := by
  unfold listed listDecisionsAsAgent
  split
  · rename_i items hitems
    split at hitems
    · cases hitems
    · cases hitems
    · simp only at hitems
      split at hitems
      · cases hitems
        exact nodup_list _ _ _
      · split at hitems
        · cases hitems
          exact nodup_list _ _ _
        · cases hitems
          exact (nodup_list _ _ _).filter _
  · exact List.nodup_nil

/-- The decisions that an agent is listed: those that it can read, but with a grant for no project
those of no project alone. -/
theorem mem_listed_iff (hfew : r.Few) : d ∈ r.listed fromIsoFormat order ↔
      ∃ canonicalId, verifyAgentScope fromIsoFormat r.agents r.grants r.bearer "decisions_write"
          r.now = .ok (some canonicalId) ∧
        d ∈ r.decisions.entries ∧ d.2.fromAgent = canonicalId ∧
        d.2.projectId ∈ r.allowedProjects fromIsoFormat canonicalId ∧
        (none ∈ r.allowedProjects fromIsoFormat canonicalId → d.2.projectId = none) := by
  unfold listed listDecisionsAsAgent checkAgentScope
  cases hverify : verifyAgentScope fromIsoFormat r.agents r.grants r.bearer "decisions_write"
      r.now with
  | error refusal => simp
  | ok found =>
    cases found with
    | none => simp
    | some canonicalId =>
      obtain ⟨token, htoken, hsub⟩ := (token_of_verified hverify).1
      have hpage := hsub ▸ hfew token htoken
      simp only [Except.ok.injEq, Option.some.injEq, exists_eq_left']
      by_cases hnone : none ∈ r.allowedProjects fromIsoFormat canonicalId
      · simp only [hnone, if_true, mem_list hpage]
        constructor
        · rintro ⟨hd, hproject, hown⟩
          have hp := hproject none rfl
          exact ⟨hd, hown, hp ▸ hnone, fun _ => hp⟩
        · rintro ⟨hd, hown, -, hglobal⟩
          refine ⟨hd, fun p hp => ?_, hown⟩
          cases hp
          exact hglobal trivial
      · simp only [hnone, if_false, false_imp_iff, and_true]
        generalize r.allowedProjects fromIsoFormat canonicalId = allowed
        rcases allowed with _ | ⟨p, _ | ⟨q, rest⟩⟩
        · simp
        · simp only [mem_list hpage, List.mem_singleton]
          simp [and_comm]
        · simp only [List.mem_filter, mem_list hpage, decide_eq_true_eq]
          simp [and_assoc]

/-- The list agrees with the single reads if and only if the grants of an agent that has one for no
project are for none of the projects of its decisions. -/
theorem agrees_iff (fromIsoFormat : String → Option Int) (order : ListOrder) (r : Request)
    (hfew : r.Few) : r.Agrees fromIsoFormat order ↔ r.OneKind fromIsoFormat := by
  constructor
  · rintro ⟨-, hagrees⟩ canonicalId hverify hnone d hd hown p hp hallowed
    have hread := readDecision_eq_ok_iff.mpr ⟨canonicalId, hverify, hd, hown, hp ▸ hallowed⟩
    obtain ⟨id, hid, -, -, -, hglobal⟩ := (mem_listed_iff hfew).mp ((hagrees d).mpr hread)
    have hsame : id = canonicalId := by simpa [hverify] using hid.symm
    have hproject := hglobal (hsame ▸ hnone)
    simp [hp] at hproject
  · intro hkind
    refine ⟨nodup_listed, fun d => ?_⟩
    rw [mem_listed_iff hfew, readDecision_eq_ok_iff]
    constructor
    · rintro ⟨canonicalId, hverify, hd, hown, hallowed, -⟩
      exact ⟨canonicalId, hverify, hd, hown, hallowed⟩
    · rintro ⟨canonicalId, hverify, hd, hown, hallowed⟩
      refine ⟨canonicalId, hverify, hd, hown, hallowed, fun hnone => ?_⟩
      cases hp : d.2.projectId with
      | none => rfl
      | some p => exact absurd (hp ▸ hallowed) (hkind canonicalId hverify hnone d hd hown p hp)

/-- An agent with a grant for a project, one for none, and a decision in the project. -/
def mixed : Request where
  agents := Dict.empty.set "agent-a" ⟨"@a", .active, 0⟩
  grants := [⟨"agent-a", "decisions_write", some "p1", none⟩,
    ⟨"agent-a", "decisions_write", none, none⟩]
  decisions := Dict.empty.set "d1" ⟨"agent-a", some "p1", 5⟩
  bearer := some ⟨"agent-a", 1, none⟩
  now := 7

theorem agrees_mixed : mixed.Agrees (fun _ => none) insertionOrder ↔
    mixed.OneKind fun _ => none := by
  refine agrees_iff _ _ _ ?_
  intro token _
  exact List.countP_le_length.trans (by decide)

/-- It can read the decision, and is not listed it. -/
theorem not_agrees : ¬ mixed.Agrees (fun _ => none) insertionOrder := by
  intro h
  have hread : mixed.getDecisionAsAgent (fun _ => none) "d1" =
      .ok ("d1", ⟨"agent-a", some "p1", 5⟩) := by
    decide
  have hlisted := (h.2 ("d1", ⟨"agent-a", some "p1", 5⟩)).mpr hread
  revert hlisted
  decide

end Request

end Reads
end TinyAgentOS.AgentAuth
