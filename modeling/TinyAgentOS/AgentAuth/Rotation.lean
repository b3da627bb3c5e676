import TinyAgentOS.AgentAuth.Delivery

/-!
# The rotation of tokens

A rotation raises the cutoff of an identity to the second in which it reads the clock, and the
scope checks refuse a token of an earlier second.  A token of the same second is honoured, and the
check of the identity alone asks for no cutoff.

Main results:

- `step_lawful`: what a request leaves of the cutoffs and of the tokens under way.
- `rotated_of_run`: in every run, which tokens the rotations kill.
-/

namespace TinyAgentOS.AgentAuth
namespace Rotation

open Collections Transition
open Registry (Status)

/-! ## Checks -/

structure Refusal where
  status : Nat
  detail : String
deriving DecidableEq

def missingSub : Refusal := ⟨401, "token missing sub claim"⟩

def notActive : Refusal := ⟨403, "agent is not active in the registry"⟩

def superseded : Refusal := ⟨401, "token superseded"⟩

def noActiveGrant (requiredScope : String) : Refusal :=
  ⟨403, "token does not hold an active '" ++ requiredScope ++ "' grant"⟩

/-- `PROJECT_SCOPE_MISMATCH_DETAIL`. -/
def scopeMismatch : Refusal := ⟨403, "token not scoped to this project"⟩

section Checks

variable (fromIsoFormat : String → Option Int) (agents : Dict String IdentityRow)
  (grants : List StoredGrant)

/-- `_verify_agent_scope`, of a token whose signature is good. -/
def verifyAgentScope (bearer : Option Token) (requiredScope : String) (now : Int) :
    Except Refusal (Option String) :=
  match bearer with
  | none => .ok none
  | some token =>
    if token.sub = "" then .error missingSub
    else
      match (agents.get? token.sub).filter fun row => row.status = .active with
      | none => .error notActive
      | some row =>
        if token.iat < row.tokenMinIat then .error superseded
        else if grants.any fun g => g.canonicalId = token.sub && g.scope = requiredScope &&
            grantUnexpired fromIsoFormat g.expiresAt now then
          .ok (some token.sub)
        else .error (noActiveGrant requiredScope)

/-- `check_agent_scope`. -/
def checkAgentScope (bearer : Option Token) (requiredScope : String) (now : Int) :
    Except Refusal (Option String) :=
  verifyAgentScope fromIsoFormat agents grants bearer requiredScope now

/-- `check_agent_identity`, which asks for no cutoff. -/
def checkAgentIdentity (bearer : Option Token) : Except Refusal (Option String) :=
  match bearer with
  | none => .ok none
  | some token =>
    if token.sub = "" then .error missingSub
    else
      match (agents.get? token.sub).filter fun row => row.status = .active with
      | none => .error notActive
      | some _ => .ok (some token.sub)

/-- `check_agent_scope_for_project`. -/
def checkAgentScopeForProject (bearer : Option Token) (requiredScope : String)
    (projectId : Option String) (now : Int) : Except Refusal (Option String) :=
  match verifyAgentScope fromIsoFormat agents grants bearer requiredScope now with
  | .ok (some canonicalId) =>
    if grants.any fun g => g.canonicalId = canonicalId && g.scope = requiredScope &&
        g.projectId = projectId && grantUnexpired fromIsoFormat g.expiresAt now then
      .ok (some canonicalId)
    else .error scopeMismatch
  | answer => answer

end Checks

/-! ## Mints and rotations -/

/-- A token that was minted: when, and how many rotations had been completed. -/
structure Issue where
  token : Token
  time : Int
  earlier : Nat

/-- The registry and the grants, with the user of each identity; the completed rotations and the
tokens are listed in order. -/
structure State where
  agents : Dict String IdentityRow
  grants : List StoredGrant
  userIds : String → String
  now : Int
  rotations : List (String × Int)
  issued : List Issue

inductive Request where
  | mint (canonicalId : String) (projectId : Option String)
  | rotate (userId : String) (isAdmin : Bool) (canonicalId : String)
  | setStatus (canonicalId : String) (status : Status)
  | grant (row : StoredGrant)

/-- A request and when it reads the clock. -/
structure Event where
  time : Int
  request : Request

/-- `mint_registry_token`: a missing project and an empty one are no claim. -/
def mintRegistryToken (canonicalId : String) (projectId : Option String) (now : Int) : Token :=
  ⟨canonicalId, Stores.epochSeconds now, if projectId = some "" then none else projectId⟩

/-- `bump_token_min_iat`. -/
def bumpTokenMinIat (agents : Dict String IdentityRow) (canonicalId : String) (ts : Int) :
    Dict String IdentityRow :=
  agents.modify canonicalId fun row => { row with tokenMinIat := max row.tokenMinIat ts }

namespace State

/-- The session may rotate the tokens of the identity. -/
def mayRotate (s : State) (userId : String) (isAdmin : Bool) (canonicalId : String) : Bool :=
  (s.agents.get? canonicalId).isSome && (isAdmin || userId = s.userIds canonicalId)

/-- `rotate_tokens`. -/
def rotateTokens (s : State) (userId : String) (isAdmin : Bool) (canonicalId : String) :
    Except Refusal State :=
  if s.mayRotate userId isAdmin canonicalId then
    .ok { s with
      agents := bumpTokenMinIat s.agents canonicalId (Stores.epochSeconds s.now)
      rotations := s.rotations ++ [(canonicalId, s.now)] }
  else .error ⟨404, "not found"⟩

def serve (s : State) : Request → State
  | .mint canonicalId projectId =>
    { s with issued := s.issued ++
        [⟨mintRegistryToken canonicalId projectId s.now, s.now, s.rotations.length⟩] }
  | .rotate userId isAdmin canonicalId =>
    match s.rotateTokens userId isAdmin canonicalId with
    | .ok s' => s'
    | .error _ => s
  | .setStatus canonicalId status =>
    { s with agents := s.agents.modify canonicalId fun row => { row with status } }
  | .grant row => { s with grants := addGrant s.grants row }

/-- The clock does not go back. -/
def step (s : State) (e : Event) : Option State :=
  if e.time < s.now then none else some ({ s with now := e.time }.serve e.request)

/-! ## What a rotation kills -/

/-- The cutoff of an identity. -/
def cutoff (s : State) (canonicalId : String) : Int :=
  ((s.agents.get? canonicalId).map IdentityRow.tokenMinIat).getD 0

/-- No identity has been rotated yet, and no token is under way. -/
structure Fresh (s : State) : Prop where
  started : 0 ≤ s.now
  uncut : ∀ canonicalId row, s.agents.get? canonicalId = some row → row.tokenMinIat = 0
  unrotated : s.rotations = []
  unissued : s.issued = []

/-- The identity was rotated after the token was minted. -/
def RotatedAt (s : State) (issue : Issue) (time : Int) : Prop :=
  (issue.token.sub, time) ∈ s.rotations.drop issue.earlier

section Verdicts

variable (fromIsoFormat : String → Option Int)

/-- Neither scope check honours the token. -/
def RefusedByScope (s : State) (token : Token) : Prop :=
  ∀ scope projectId now,
    (∃ refusal, checkAgentScope fromIsoFormat s.agents s.grants (some token) scope now =
      .error refusal) ∧
    ∃ refusal, checkAgentScopeForProject fromIsoFormat s.agents s.grants (some token) scope
      projectId now = .error refusal

/-- The check of the identity alone does not honour the token. -/
def RefusedByIdentity (s : State) (token : Token) : Prop :=
  ∃ refusal, checkAgentIdentity s.agents (some token) = .error refusal

/-- No check refuses the token for its age. -/
def NotSuperseded (s : State) (token : Token) : Prop :=
  (∀ scope projectId now,
    checkAgentScope fromIsoFormat s.agents s.grants (some token) scope now ≠ .error superseded ∧
    checkAgentScopeForProject fromIsoFormat s.agents s.grants (some token) scope projectId now ≠
      .error superseded) ∧
    checkAgentIdentity s.agents (some token) ≠ .error superseded

/-- Every check refuses the tokens of before a rotation, and none calls one of after it old. -/
structure KillsEarlier (s : State) : Prop where
  refused : ∀ issue ∈ s.issued, ∀ time, s.RotatedAt issue time →
    s.RefusedByScope fromIsoFormat issue.token ∧ s.RefusedByIdentity issue.token
  current : ∀ issue ∈ s.issued, (∀ time, ¬ s.RotatedAt issue time) →
    s.NotSuperseded fromIsoFormat issue.token

/-- The scope checks refuse the tokens of the seconds before a rotation, and no check calls one
of after the last rotation old. -/
structure Rotated (s : State) : Prop where
  refused : ∀ issue ∈ s.issued, ∀ time, s.RotatedAt issue time →
    Stores.epochSeconds issue.time < Stores.epochSeconds time →
    s.RefusedByScope fromIsoFormat issue.token
  current : ∀ issue ∈ s.issued, (∀ time, ¬ s.RotatedAt issue time) →
    s.NotSuperseded fromIsoFormat issue.token

end Verdicts

/-! ## Cutoffs -/

/-- Cutoffs are those of rotations, and tokens under way are older than what was rotated since. -/
structure Lawful (s : State) : Prop where
  past : ∀ canonicalId, s.cutoff canonicalId ≤ Stores.epochSeconds s.now
  reached : ∀ canonicalId time, (canonicalId, time) ∈ s.rotations →
    Stores.epochSeconds time ≤ s.cutoff canonicalId
  dated : ∀ issue ∈ s.issued, issue.token.iat = Stores.epochSeconds issue.time
  counted : ∀ issue ∈ s.issued, issue.earlier ≤ s.rotations.length
  current : ∀ issue ∈ s.issued, (∀ time, ¬ s.RotatedAt issue time) →
    s.cutoff issue.token.sub ≤ issue.token.iat

section Steps

variable {s s' : State}

/-- Later times are no fewer seconds. -/
theorem epochSeconds_mono {t t' : Int} (h : t ≤ t') :
    Stores.epochSeconds t ≤ Stores.epochSeconds t' := by
  unfold Stores.epochSeconds
  omega

theorem epochSeconds_nonneg {t : Int} (h : 0 ≤ t) : 0 ≤ Stores.epochSeconds t := by
  unfold Stores.epochSeconds
  omega

theorem lawful_of_fresh (h : s.Fresh) : s.Lawful := by
  have hcutoff : ∀ canonicalId, s.cutoff canonicalId = 0 := by
    intro canonicalId
    unfold cutoff
    cases hget : s.agents.get? canonicalId with
    | none => rfl
    | some row => exact h.uncut canonicalId row hget
  constructor
  · intro canonicalId
    rw [hcutoff]
    exact epochSeconds_nonneg h.started
  · intro canonicalId time hmem
    rw [h.unrotated] at hmem
    contradiction
  · intro issue hmem
    rw [h.unissued] at hmem
    contradiction
  · intro issue hmem
    rw [h.unissued] at hmem
    contradiction
  · intro issue hmem
    rw [h.unissued] at hmem
    contradiction

/-- Time passes. -/
theorem Lawful.later (h : s.Lawful) {time : Int} (hle : s.now ≤ time) :
    ({ s with now := time } : State).Lawful :=
  ⟨fun canonicalId => (h.past canonicalId).trans (epochSeconds_mono hle), h.reached, h.dated,
    h.counted, h.current⟩

/-- A token that is minted now is not older than the cutoff. -/
theorem Lawful.mint (h : s.Lawful) (canonicalId : String) (projectId : Option String) :
    (s.serve (.mint canonicalId projectId)).Lawful := by
  have hcases : ∀ issue ∈ (s.serve (.mint canonicalId projectId)).issued, issue ∈ s.issued ∨
      issue = ⟨mintRegistryToken canonicalId projectId s.now, s.now, s.rotations.length⟩ := by
    intro issue hmem
    exact (List.mem_append.mp hmem).imp_right List.mem_singleton.mp
  refine ⟨h.past, h.reached, ?_, ?_, ?_⟩
  · intro issue hmem
    rcases hcases issue hmem with hold | rfl
    · exact h.dated issue hold
    · rfl
  · intro issue hmem
    rcases hcases issue hmem with hold | rfl
    · exact h.counted issue hold
    · exact le_rfl
  · intro issue hmem hnone
    rcases hcases issue hmem with hold | rfl
    · exact h.current issue hold hnone
    · exact h.past canonicalId

/-- A bump raises one cutoff. -/
theorem cutoff_bump (canonicalId id : String) (ts : Int) (row : IdentityRow)
    (hget : s.agents.get? canonicalId = some row) :
    (((bumpTokenMinIat s.agents canonicalId ts).get? id).map IdentityRow.tokenMinIat).getD 0 =
      if canonicalId = id then max (s.cutoff id) ts else s.cutoff id := by
  unfold bumpTokenMinIat cutoff
  rw [Dict.get?_modify]
  by_cases hid : canonicalId = id
  · subst hid
    rw [if_pos rfl, if_pos rfl, hget]
    rfl
  · rw [if_neg hid, if_neg hid]

variable {isAdmin : Bool} {canonicalId userId : String} {refusal : Refusal} {token : Token}

/-- What a rotation does to the cutoffs. -/
theorem rotateTokens_eq_ok (h : s.rotateTokens userId isAdmin canonicalId = .ok s') :
    s'.now = s.now ∧ s'.issued = s.issued ∧ s'.rotations = s.rotations ++ [(canonicalId, s.now)] ∧
      ∀ id, s'.cutoff id =
        if canonicalId = id then max (s.cutoff id) (Stores.epochSeconds s.now)
        else s.cutoff id := by
  unfold rotateTokens at h
  split at h
  · rename_i hmay
    obtain ⟨row, hget⟩ := Option.isSome_iff_exists.mp (Bool.and_eq_true _ _ ▸ hmay).1
    cases h
    exact ⟨rfl, rfl, rfl, fun id => cutoff_bump canonicalId id _ row hget⟩
  · contradiction

/-- A rotation is lawful. -/
theorem Lawful.rotate (h : s.Lawful)
    (hrotate : s.rotateTokens userId isAdmin canonicalId = .ok s') : s'.Lawful := by
  obtain ⟨hnow, hissued, hrotations, hcutoff⟩ := rotateTokens_eq_ok hrotate
  constructor
  · intro id
    rw [hnow, hcutoff]
    by_cases hid : canonicalId = id
    · rw [if_pos hid]
      exact max_le (h.past id) le_rfl
    · rw [if_neg hid]
      exact h.past id
  · intro id time hmem
    rw [hrotations, List.mem_append] at hmem
    rw [hcutoff]
    rcases hmem with hold | hnew
    · have hreached := h.reached id time hold
      by_cases hid : canonicalId = id
      · rw [if_pos hid]
        exact hreached.trans (le_max_left _ _)
      · rw [if_neg hid]
        exact hreached
    · obtain ⟨rfl, rfl⟩ := Prod.mk.inj (List.mem_singleton.mp hnew)
      rw [if_pos rfl]
      exact le_max_right _ _
  · intro issue hmem
    rw [hissued] at hmem
    exact h.dated issue hmem
  · intro issue hmem
    rw [hissued] at hmem
    rw [hrotations, List.length_append]
    exact (h.counted issue hmem).trans (Nat.le_add_right _ _)
  · intro issue hmem hnone
    rw [hissued] at hmem
    have hdrop : s'.rotations.drop issue.earlier =
        s.rotations.drop issue.earlier ++ [(canonicalId, s.now)] := by
      rw [hrotations, List.drop_append_of_le_length (h.counted issue hmem)]
    have hne : canonicalId ≠ issue.token.sub := by
      rintro rfl
      refine hnone s.now ?_
      unfold RotatedAt
      rw [hdrop]
      exact List.mem_append_right _ List.mem_cons_self
    rw [hcutoff, if_neg hne]
    refine h.current issue hmem fun time hrotated => hnone time ?_
    unfold RotatedAt
    rw [hdrop]
    exact List.mem_append_left _ hrotated

/-- Requests that leave the cutoffs alone. -/
theorem Lawful.of_cutoff (h : s.Lawful) (hnow : s'.now = s.now) (hissued : s'.issued = s.issued)
    (hrotations : s'.rotations = s.rotations) (hcutoff : ∀ id, s'.cutoff id = s.cutoff id) :
    s'.Lawful := by
  constructor
  · intro id
    rw [hnow, hcutoff]
    exact h.past id
  · intro id time hmem
    rw [hrotations] at hmem
    rw [hcutoff]
    exact h.reached id time hmem
  · intro issue hmem
    rw [hissued] at hmem
    exact h.dated issue hmem
  · intro issue hmem
    rw [hissued] at hmem
    rw [hrotations]
    exact h.counted issue hmem
  · intro issue hmem hnone
    rw [hissued] at hmem
    unfold RotatedAt at hnone
    rw [hrotations] at hnone
    rw [hcutoff]
    exact h.current issue hmem hnone

theorem step_lawful {e : Event} (h : s.Lawful) (hstep : s.step e = some s') : s'.Lawful := by
  unfold step at hstep
  split at hstep
  · contradiction
  rename_i hle
  obtain rfl := Option.some.inj hstep
  have hlater := h.later (not_lt.mp hle)
  cases e.request with
  | mint canonicalId projectId => exact hlater.mint canonicalId projectId
  | rotate userId isAdmin canonicalId =>
    cases hrotate : ({ s with now := e.time } : State).rotateTokens userId isAdmin
        canonicalId with
    | ok s'' =>
      simp only [serve, hrotate]
      exact hlater.rotate hrotate
    | error refusal =>
      simp only [serve, hrotate]
      exact hlater
  | setStatus canonicalId status =>
    refine hlater.of_cutoff rfl rfl rfl ?_
    intro id
    unfold serve cutoff
    simp only
    rw [Dict.get?_modify]
    split
    · cases s.agents.get? id <;> rfl
    · rfl
  | grant row => exact hlater.of_cutoff rfl rfl rfl fun _ => rfl

/-! ## Runs -/

variable (fromIsoFormat : String → Option Int)

theorem error_ne_superseded (h : refusal ≠ superseded) :
    (.error refusal : Except Refusal (Option String)) ≠ .error superseded :=
  fun heq => h (Except.error.inj heq)

theorem ok_ne_error {answer : Option String} :
    (.ok answer : Except Refusal (Option String)) ≠ .error refusal := by
  intro h
  cases h

theorem noActiveGrant_ne (scope : String) : noActiveGrant scope ≠ superseded := by
  intro h
  have hstatus : 403 = 401 := congrArg Refusal.status h
  contradiction

/-- What the scope check asks of the age of a token. -/
theorem verifyAgentScope_cutoff (s : State) (token : Token) (scope : String) (now : Int) :
    (token.iat < s.cutoff token.sub →
      ∃ refusal, verifyAgentScope fromIsoFormat s.agents s.grants (some token) scope now =
        .error refusal) ∧
      (s.cutoff token.sub ≤ token.iat →
        verifyAgentScope fromIsoFormat s.agents s.grants (some token) scope now ≠
          .error superseded) := by
  unfold verifyAgentScope cutoff
  simp only
  by_cases hsub : token.sub = ""
  · rw [if_pos hsub]
    exact ⟨fun _ => ⟨missingSub, rfl⟩, fun _ => error_ne_superseded (by decide)⟩
  · rw [if_neg hsub]
    cases hget : s.agents.get? token.sub with
    | none => exact ⟨fun _ => ⟨notActive, rfl⟩, fun _ => error_ne_superseded (by decide)⟩
    | some row =>
      by_cases hactive : row.status = .active
      · simp only [Option.filter_some, hactive, decide_true, if_true, Option.map_some,
          Option.getD_some]
        constructor
        · intro hold
          exact ⟨superseded, if_pos hold⟩
        · intro hnew
          rw [if_neg (not_lt.mpr hnew)]
          split
          · exact ok_ne_error
          · exact error_ne_superseded (noActiveGrant_ne scope)
      · simp only [Option.filter_some, hactive, decide_false]
        exact ⟨fun _ => ⟨notActive, rfl⟩, fun _ => error_ne_superseded (by decide)⟩

/-- A token from before the cutoff is refused. -/
theorem refusedByScope_of_lt (h : token.iat < s.cutoff token.sub) :
    s.RefusedByScope fromIsoFormat token := by
  intro scope projectId now
  obtain ⟨refusal, hrefused⟩ := (s.verifyAgentScope_cutoff fromIsoFormat token scope now).1 h
  refine ⟨⟨refusal, hrefused⟩, refusal, ?_⟩
  unfold checkAgentScopeForProject
  rw [hrefused]

theorem checkAgentIdentity_ne (token : Token) :
    checkAgentIdentity s.agents (some token) ≠ .error superseded := by
  unfold checkAgentIdentity
  simp only
  split
  · exact error_ne_superseded (by decide)
  · split
    · exact error_ne_superseded (by decide)
    · exact ok_ne_error

/-- A token from the cutoff on is not superseded. -/
theorem notSuperseded_of_le (h : s.cutoff token.sub ≤ token.iat) :
    s.NotSuperseded fromIsoFormat token := by
  refine ⟨?_, checkAgentIdentity_ne token⟩
  intro scope projectId now
  have hverify := (s.verifyAgentScope_cutoff fromIsoFormat token scope now).2 h
  refine ⟨hverify, ?_⟩
  unfold checkAgentScopeForProject
  split
  · split
    · exact ok_ne_error
    · exact error_ne_superseded (by decide)
  · exact hverify

theorem rotated_of_lawful (h : s.Lawful) : s.Rotated fromIsoFormat := by
  constructor
  · intro issue hmem time hrotated hsecond
    apply refusedByScope_of_lt
    rw [h.dated issue hmem]
    exact hsecond.trans_le (h.reached _ _ (List.mem_of_mem_drop hrotated))
  · intro issue hmem hnone
    exact notSuperseded_of_le fromIsoFormat (h.current issue hmem hnone)

/-- In every run the scope checks refuse a token of a second before that of a completed rotation,
and no check calls a token of after the last one old. -/
theorem rotated_of_run {s₀ : State} {events : List Event} (hfresh : s₀.Fresh)
    (hrun : run step s₀ events = some s) : s.Rotated fromIsoFormat :=
  rotated_of_lawful fromIsoFormat
    (invariant_of_run (fun _ _ _ h hstep => step_lawful h hstep) (lawful_of_fresh hfresh) hrun)

end Steps

/-! ## Two tokens and a rotation -/

/-- An identity with a grant, not rotated yet. -/
def joined : State :=
  { agents := Dict.empty.set "agent-a" ⟨"@a", .active, 0⟩
    grants := [⟨"agent-a", "a2a_receive", none, none⟩]
    userIds := fun _ => "u1"
    now := 0
    rotations := []
    issued := [] }

/-- Tokens of two seconds, the second of them that of the rotation. -/
def minted : List Event :=
  [⟨200000, .mint "agent-a" none⟩, ⟨5100000, .mint "agent-a" none⟩,
    ⟨5600000, .rotate "u1" false "agent-a"⟩]

theorem fresh_joined : joined.Fresh := by
  refine ⟨le_rfl, ?_, rfl, rfl⟩
  intro canonicalId row hget
  have hentry := List.mem_singleton.mp (Dict.mem_entries_iff.mpr hget)
  cases hentry
  rfl

theorem rotated_minted :
    ∃ s, run step joined minted = some s ∧ s.Rotated fun _ => none :=
  ⟨_, rfl, rotated_of_run _ fresh_joined (rfl : run step joined minted = some _)⟩

/-- The token of the rotation's own second passes the scope check, and that of before the check of
the identity. -/
theorem not_killsEarlier_minted :
    ∃ s older newer, run step joined minted = some s ∧ older ∈ s.issued ∧ newer ∈ s.issued ∧
      s.RotatedAt older 5600000 ∧ s.RotatedAt newer 5600000 ∧
      checkAgentIdentity s.agents (some older.token) = .ok (some "agent-a") ∧
      checkAgentScope (fun _ => none) s.agents s.grants (some newer.token) "a2a_receive" 6000000 =
        .ok (some "agent-a") ∧
      ¬ s.KillsEarlier fun _ => none := by
  refine ⟨_, ⟨⟨"agent-a", 0, none⟩, 200000, 0⟩, ⟨⟨"agent-a", 5, none⟩, 5100000, 0⟩, rfl,
    List.mem_cons_self, List.mem_cons_of_mem _ List.mem_cons_self, List.mem_cons_self,
    List.mem_cons_self, rfl, rfl, ?_⟩
  intro h
  obtain ⟨_, refusal, hrefused⟩ := h.refused _ List.mem_cons_self 5600000 List.mem_cons_self
  cases hrefused

end State

end Rotation
end TinyAgentOS.AgentAuth
