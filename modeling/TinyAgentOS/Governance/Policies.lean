import TinyAgentOS.Library.Dict
import TinyAgentOS.Library.Transition
import TinyAgentOS.Projects.TaskStore

/-!
# Execution policies

The effect of an action class is set for one agent or globally.  A set looks its row up and
then updates or inserts it in a second statement, and a clear deletes a row by its id.  A
global row is one without an agent, and an empty agent name counts as none, though a lookup
tells the two apart.

Main results:

- `PolicyState.Books.current`: with one row for each setting, the latest is in effect.
- `PolicyState.current_step_iff`: the statements that leave one row for each.
- `PolicyState.alwaysCurrent_iff`: the runs in which the latest is in effect.
- `PolicyState.not_alwaysCurrent`: two sets at once, and a set for no agent.
-/

namespace TinyAgentOS.Governance

open Collections Transition
open Projects (Clock)

/-! ## Rows -/

inductive Scope where
  | global
  | agent
deriving DecidableEq

/-- The effects that `set_policy` accepts. -/
def effects : List String :=
  ["allow", "deny", "require_approval"]

/-- `SENSITIVE_ACTION_CLASSES`, sorted. -/
def sensitiveActionClasses : List String :=
  ["code-exec", "delegate", "deploy", "external-network", "file-write-external", "spend"]

/-- The effect of an action class without a policy. -/
def defaultEffect (actionClass : String) : String :=
  if actionClass ∈ sensitiveActionClasses then "require_approval" else "allow"

/-- A row of `execution_policies`. -/
structure PolicyRow where
  scope : Scope
  agentName : Option String
  actionClass : String
  effect : String
  updatedAt : Clock

/-- `"agent" if agent_name else "global"`. -/
def scopeOf (agentName : Option String) : Scope :=
  if agentName = none ∨ agentName = some "" then .global else .agent

/-- What a setting is for: an agent, or all of them, and an action class. -/
abbrev Target := Option String × String

def targetOf (agentName : Option String) (actionClass : String) : Target :=
  (if scopeOf agentName = .agent then agentName else none, actionClass)

def PolicyRow.target (row : PolicyRow) : Target :=
  (if row.scope = .agent then row.agentName else none, row.actionClass)

/-- The test of the lookup; `IS` tells an empty text from `NULL`. -/
def PolicyRow.isFor (row : PolicyRow) (agentName : Option String) (actionClass : String) : Bool :=
  row.scope = scopeOf agentName && row.agentName = agentName && row.actionClass = actionClass

/-- The arguments of `set_policy`, and its reading of the clock. -/
structure SetArgs where
  agentName : Option String
  actionClass : String
  effect : String
  now : Clock

def SetArgs.target (args : SetArgs) : Target :=
  targetOf args.agentName args.actionClass

/-- The row that `set_policy` inserts. -/
def SetArgs.row (args : SetArgs) : PolicyRow :=
  ⟨scopeOf args.agentName, args.agentName, args.actionClass, args.effect, args.now⟩

/-- The `SET` clauses of `set_policy`. -/
def SetArgs.stamp (args : SetArgs) (row : PolicyRow) : PolicyRow :=
  { row with effect := args.effect, updatedAt := args.now }

@[simp]
theorem SetArgs.target_row (args : SetArgs) : args.row.target = args.target :=
  rfl

@[simp]
theorem SetArgs.target_stamp (args : SetArgs) (row : PolicyRow) :
    (args.stamp row).target = row.target :=
  rfl

/-- A row that the lookup finds is one for the call's target. -/
theorem PolicyRow.target_of_isFor {row : PolicyRow} {args : SetArgs}
    (hfor : row.isFor args.agentName args.actionClass = true) : row.target = args.target := by
  simp only [PolicyRow.isFor, Bool.and_eq_true, decide_eq_true_eq] at hfor
  obtain ⟨⟨hscope, hagent⟩, haction⟩ := hfor
  simp only [PolicyRow.target, SetArgs.target, targetOf, hscope, hagent, haction]

/-! ## Statements -/

/-- Where a call of `set_policy` stands. -/
inductive PolicyCall where
  /-- The lookup has found a row. -/
  | found (policyId : Nat) (args : SetArgs)
  /-- The lookup has found none. -/
  | missing (args : SetArgs)
  /-- The row is to be read back. -/
  | written (policyId : Nat)

/-- The statements of `set_policy` and `delete_policy`. -/
inductive PolicyEvent where
  | lookedUp (id : Nat) (args : SetArgs)
  | stored (id : Nat)
  | readBack (id : Nat)
  | deleted (policyId : Nat)

/-- The table, the number of ids drawn for it, the calls, and the effects written last. -/
structure PolicyState where
  policies : Dict Nat PolicyRow
  drawn : Nat
  calls : Dict Nat PolicyCall
  latest : Dict Target String

namespace PolicyState

/-- The first row that the lookup of `set_policy` matches. -/
def lookup (s : PolicyState) (agentName : Option String) (actionClass : String) : Option Nat :=
  (s.policies.entries.find? fun p => p.2.isFor agentName actionClass).map Prod.fst

/-- The call awaits another statement. -/
def goOn (s : PolicyState) (id : Nat) (call : PolicyCall) : PolicyState :=
  { s with calls := s.calls.set id call }

/-- A row under an id that was not drawn before. -/
def insert (s : PolicyState) (row : PolicyRow) : PolicyState :=
  { s with
    policies := s.policies.set s.drawn row
    drawn := s.drawn + 1
    latest := s.latest.set row.target row.effect }

/-- A row that is there is written again. -/
def update (s : PolicyState) (policyId : Nat) (row : PolicyRow) (args : SetArgs) : PolicyState :=
  { s with
    policies := s.policies.set policyId (args.stamp row)
    latest := s.latest.set args.target args.effect }

def delete (s : PolicyState) (policyId : Nat) (row : PolicyRow) : PolicyState :=
  { s with policies := s.policies.pop policyId, latest := s.latest.pop row.target }

/-- One statement. -/
def step (s : PolicyState) : PolicyEvent → Option PolicyState
  | .lookedUp id args =>
    if args.effect ∉ effects then some s
    else if (s.calls.get? id).isSome then none
    else
      match s.lookup args.agentName args.actionClass with
      | some policyId => some (s.goOn id (.found policyId args))
      | none => some (s.goOn id (.missing args))
  | .stored id =>
    match s.calls.get? id with
    | some (.found policyId args) =>
      match s.policies.get? policyId with
      | none => some (s.goOn id (.written policyId))
      | some row => some ((s.update policyId row args).goOn id (.written policyId))
    | some (.missing args) => some ((s.insert args.row).goOn id (.written s.drawn))
    | _ => none
  | .readBack id =>
    match s.calls.get? id with
    | some (.written _) => some { s with calls := s.calls.pop id }
    | _ => none
  | .deleted policyId =>
    match s.policies.get? policyId with
    | none => some s
    | some row => some (s.delete policyId row)

/-- `_post_init` of an empty table. -/
def seed (now : Clock) : PolicyState :=
  sensitiveActionClasses.foldl
    (fun s actionClass => s.insert ⟨.global, none, actionClass, "require_approval", now⟩)
    ⟨Dict.empty, 0, Dict.empty, Dict.empty⟩

/-! ## What is in effect -/

/-- The first row for an agent. -/
def agentRow (s : PolicyState) (agentName actionClass : String) : Option PolicyRow :=
  s.policies.values.find? fun row =>
    row.scope = .agent && row.agentName = some agentName && row.actionClass = actionClass

/-- The first global row; the index lists the rows without an agent name first. -/
def globalRow (s : PolicyState) (actionClass : String) : Option PolicyRow :=
  (s.policies.values.find? fun row =>
      row.scope = .global && row.agentName = none && row.actionClass = actionClass).or
    (s.policies.values.find? fun row => row.scope = .global && row.actionClass = actionClass)

/-- `effective_effect`. -/
def effectiveEffect (s : PolicyState) (agentName actionClass : String) : String :=
  match s.agentRow agentName actionClass with
  | some row => row.effect
  | none =>
    match s.globalRow actionClass with
    | some row => row.effect
    | none => defaultEffect actionClass

/-- The effect written last for the agent, else globally, else the default. -/
def latestEffect (s : PolicyState) (agentName actionClass : String) : String :=
  ((s.latest.get? (targetOf (some agentName) actionClass)).or
    (s.latest.get? (none, actionClass))).getD (defaultEffect actionClass)

/-- No two rows are for one target. -/
def OneEach (policies : Dict Nat PolicyRow) : Prop :=
  ∀ i j row row', policies.get? i = some row → policies.get? j = some row' →
    row.target = row'.target → i = j

/-- There is one row for each target, and what was written last is in effect. -/
structure Current (s : PolicyState) : Prop where
  oneEach : OneEach s.policies
  effective : ∀ agentName actionClass,
    s.effectiveEffect agentName actionClass = s.latestEffect agentName actionClass

/-! ## One row for each target -/

/-- There is one row for each target that was set, with the effect written last. -/
structure Recorded (policies : Dict Nat PolicyRow) (latest : Dict Target String) : Prop where
  oneEach : OneEach policies
  stored : ∀ target effect, latest.get? target = some effect ↔
    ∃ i row, policies.get? i = some row ∧ row.target = target ∧ row.effect = effect

section Rows

variable {policies : Dict Nat PolicyRow} {latest : Dict Target String}

/-- A row is written where no other one is for its target. -/
theorem Recorded.set (h : Recorded policies latest) {i : Nat} {row : PolicyRow}
    (hold : ∀ old, policies.get? i = some old → old.target = row.target)
    (hfree : ∀ j r, j ≠ i → policies.get? j = some r → r.target ≠ row.target) :
    Recorded (policies.set i row) (latest.set row.target row.effect) := by
  constructor
  · intro j k r r' hr hr' htarget
    rcases Dict.get?_set_cases hr with ⟨hj, hr⟩ | ⟨hj, hr⟩
    · rcases Dict.get?_set_cases hr' with ⟨hk, _⟩ | ⟨hk, hr'⟩
      · exact hj.symm.trans hk
      · rw [← hr] at htarget
        exact absurd htarget.symm (hfree k r' (Ne.symm hk) hr')
    · rcases Dict.get?_set_cases hr' with ⟨hk, hr'⟩ | ⟨hk, hr'⟩
      · rw [← hr'] at htarget
        exact absurd htarget (hfree j r (Ne.symm hj) hr)
      · exact h.oneEach j k r r' hr hr' htarget
  · intro target effect
    by_cases htarget : row.target = target
    · rw [← htarget, Dict.get?_set_self]
      constructor
      · intro heffect
        exact ⟨i, row, Dict.get?_set_self _ _ _, rfl, Option.some.inj heffect⟩
      · rintro ⟨j, r, hr, hrtarget, heffect⟩
        rcases Dict.get?_set_cases hr with ⟨_, hr⟩ | ⟨hj, hr⟩
        · rw [hr, heffect]
        · exact absurd hrtarget (hfree j r (Ne.symm hj) hr)
    · rw [Dict.get?_set_of_ne _ _ htarget, h.stored]
      constructor
      · rintro ⟨j, r, hr, hrtarget, heffect⟩
        have hj : i ≠ j := by
          rintro rfl
          exact htarget ((hold r hr).symm.trans hrtarget)
        exact ⟨j, r, by rw [Dict.get?_set_of_ne _ _ hj, hr], hrtarget, heffect⟩
      · rintro ⟨j, r, hr, hrtarget, heffect⟩
        rcases Dict.get?_set_cases hr with ⟨_, hr⟩ | ⟨_, hr⟩
        · rw [← hr] at hrtarget
          contradiction
        · exact ⟨j, r, hr, hrtarget, heffect⟩

/-- A row is deleted. -/
theorem Recorded.pop (h : Recorded policies latest) {i : Nat} {row : PolicyRow}
    (hrow : policies.get? i = some row) : Recorded (policies.pop i) (latest.pop row.target) := by
  constructor
  · intro j k r r' hr hr' htarget
    exact h.oneEach j k r r' (Dict.get?_pop_cases hr).2 (Dict.get?_pop_cases hr').2 htarget
  · intro target effect
    by_cases htarget : row.target = target
    · rw [← htarget, Dict.get?_pop_self]
      constructor
      · intro hnone
        contradiction
      · rintro ⟨j, r, hr, hrtarget, _⟩
        obtain ⟨hj, hr⟩ := Dict.get?_pop_cases hr
        exact absurd (h.oneEach i j row r hrow hr hrtarget.symm) hj
    · rw [Dict.get?_pop_of_ne _ htarget, h.stored]
      constructor
      · rintro ⟨j, r, hr, hrtarget, heffect⟩
        have hj : i ≠ j := by
          rintro rfl
          rw [hrow] at hr
          cases hr
          exact htarget hrtarget
        exact ⟨j, r, by rw [Dict.get?_pop_of_ne _ hj, hr], hrtarget, heffect⟩
      · rintro ⟨j, r, hr, hrtarget, heffect⟩
        exact ⟨j, r, (Dict.get?_pop_cases hr).2, hrtarget, heffect⟩

end Rows

/-! ## The books -/

/-- The row that a call has found is for the call's arguments, if it is still there. -/
def CallBooks (s : PolicyState) : PolicyCall → Prop
  | .found policyId args => policyId < s.drawn ∧
      ∀ row, s.policies.get? policyId = some row →
        row.isFor args.agentName args.actionClass = true
  | _ => True

/-- What holds as long as there is one row for each target. -/
structure Books (s : PolicyState) : Prop where
  recorded : Recorded s.policies s.latest
  ownScope : ∀ i row, s.policies.get? i = some row → row.scope = scopeOf row.agentName
  drawn : ∀ i row, s.policies.get? i = some row → i < s.drawn
  calls : ∀ id call, s.calls.get? id = some call → s.CallBooks call

/-- No row is for the target. -/
def Free (s : PolicyState) (target : Target) : Prop :=
  ∀ i row, s.policies.get? i = some row → row.target ≠ target

variable {s s' : PolicyState}

variable {policyId : Nat} {actionClass agentName : String} {row : PolicyRow}

/-- A lookup finds a row that is for the agent and the class. -/
theorem lookup_eq_some {agentName : Option String}
    (hlookup : s.lookup agentName actionClass = some policyId) :
    ∃ row, s.policies.get? policyId = some row ∧ row.isFor agentName actionClass = true := by
  obtain ⟨p, hp, rfl⟩ := Option.map_eq_some_iff.mp hlookup
  exact ⟨p.2, Dict.mem_entries_iff.mp (List.mem_of_find?_eq_some hp),
    List.find?_some (p := fun p : Nat × PolicyRow => p.2.isFor agentName actionClass) hp⟩

/-- A lookup fails where no row is for them. -/
theorem lookup_eq_none_iff {agentName : Option String} : s.lookup agentName actionClass = none ↔
      ∀ i row, s.policies.get? i = some row → row.isFor agentName actionClass = false := by
  simp only [lookup, Option.map_eq_none_iff, List.find?_eq_none, Bool.not_eq_true]
  constructor
  · intro hnone i row hrow
    exact hnone (i, row) (Dict.mem_entries_iff.mpr hrow)
  · intro hnone p hp
    exact hnone p.1 p.2 (Dict.mem_entries_iff.mp hp)

/-- A call that goes on keeps the books. -/
theorem Books.goOn (h : s.Books) {id : Nat} {call : PolicyCall} (hcall : s.CallBooks call) :
    (s.goOn id call).Books := by
  refine ⟨h.recorded, h.ownScope, h.drawn, ?_⟩
  intro i c hc
  rcases Dict.get?_set_cases hc with ⟨_, hc⟩ | ⟨_, hc⟩
  · rw [← hc]
    exact hcall
  · exact h.calls i c hc

/-- A row is inserted where there is none. -/
theorem Books.insert (h : s.Books) (hscope : row.scope = scopeOf row.agentName)
    (hfree : s.Free row.target) : (s.insert row).Books := by
  constructor
  · apply h.recorded.set
    · intro old hold
      exact absurd (h.drawn _ old hold) (lt_irrefl _)
    · intro j r _ hr
      exact hfree j r hr
  · intro i r hr
    rcases Dict.get?_set_cases hr with ⟨_, hr⟩ | ⟨_, hr⟩
    · rw [← hr]
      exact hscope
    · exact h.ownScope i r hr
  · intro i r hr
    rcases Dict.get?_set_cases hr with ⟨hi, _⟩ | ⟨_, hr⟩
    · rw [← hi]
      exact Nat.lt_succ_self _
    · exact (h.drawn i r hr).trans (Nat.lt_succ_self _)
  · intro id call hcall
    have hbooks := h.calls id call hcall
    cases call with
    | missing | written => trivial
    | found policyId args =>
      refine ⟨hbooks.1.trans (Nat.lt_succ_self _), ?_⟩
      intro r hr
      rcases Dict.get?_set_cases hr with ⟨hi, _⟩ | ⟨_, hr⟩
      · exact absurd hi (Nat.ne_of_gt hbooks.1)
      · exact hbooks.2 r hr

/-- A row is written over. -/
theorem Books.update (h : s.Books) {args : SetArgs} (hrow : s.policies.get? policyId = some row)
    (hfor : row.isFor args.agentName args.actionClass = true) :
    (s.update policyId row args).Books := by
  have htarget := PolicyRow.target_of_isFor hfor
  constructor
  · have hrecorded : Recorded (s.policies.set policyId (args.stamp row))
        (s.latest.set row.target args.effect) := by
      apply h.recorded.set
      · intro old hold
        rw [hrow] at hold
        rw [← Option.some.inj hold, SetArgs.target_stamp]
      · intro j r hj hr htarget
        exact hj (h.recorded.oneEach j policyId r row hr hrow htarget)
    rw [htarget] at hrecorded
    exact hrecorded
  · intro i r hr
    rcases Dict.get?_set_cases hr with ⟨_, hr⟩ | ⟨_, hr⟩
    · rw [← hr]
      exact h.ownScope policyId row hrow
    · exact h.ownScope i r hr
  · intro i r hr
    rcases Dict.get?_set_cases hr with ⟨hi, _⟩ | ⟨_, hr⟩
    · rw [← hi]
      exact h.drawn policyId row hrow
    · exact h.drawn i r hr
  · intro id call hcall
    have hbooks := h.calls id call hcall
    cases call with
    | missing _ => trivial
    | written _ => trivial
    | found j args' =>
      refine ⟨hbooks.1, ?_⟩
      intro r hr
      rcases Dict.get?_set_cases hr with ⟨hj, hr⟩ | ⟨_, hr⟩
      · rw [← hr]
        exact hbooks.2 row (hj ▸ hrow)
      · exact hbooks.2 r hr

/-- A row is deleted. -/
theorem Books.delete (h : s.Books)
    (hrow : s.policies.get? policyId = some row) : (s.delete policyId row).Books := by
  constructor
  · exact h.recorded.pop hrow
  · intro i r hr
    exact h.ownScope i r (Dict.get?_pop_cases hr).2
  · intro i r hr
    exact h.drawn i r (Dict.get?_pop_cases hr).2
  · intro id call hcall
    have hbooks := h.calls id call hcall
    cases call with
    | missing _ => trivial
    | written _ => trivial
    | found j args =>
      exact ⟨hbooks.1, fun r hr => hbooks.2 r (Dict.get?_pop_cases hr).2⟩

/-- The rows of the start are in order. -/
theorem Books.seed (now : Clock) : (seed now).Books := by
  have hinsert : ∀ (actionClasses : List String) (s : PolicyState), s.Books →
      actionClasses.Nodup → (∀ a ∈ actionClasses, s.Free (none, a)) →
      (actionClasses.foldl (fun s a => s.insert ⟨.global, none, a, "require_approval", now⟩)
        s).Books := by
    intro actionClasses
    induction actionClasses with
    | nil =>
      intro s hbooks _ _
      exact hbooks
    | cons a actionClasses ih =>
      intro s hbooks hnodup hfree
      obtain ⟨ha, hnodup⟩ := List.nodup_cons.mp hnodup
      refine ih _ (hbooks.insert rfl (hfree a List.mem_cons_self)) hnodup ?_
      intro b hb i row hrow
      rcases Dict.get?_set_cases hrow with ⟨_, hrow⟩ | ⟨_, hrow⟩
      · rw [← hrow]
        intro htarget
        have hab : a = b := congrArg Prod.snd htarget
        rw [hab] at ha
        exact ha hb
      · exact hfree b (List.mem_cons_of_mem a hb) i row hrow
  apply hinsert
  · constructor
    · constructor
      · intro i j row row' hrow _ _
        contradiction
      · intro target effect
        constructor
        · intro hlatest
          contradiction
        · rintro ⟨i, row, hrow, _⟩
          contradiction
    · intro i row hrow
      contradiction
    · intro i row hrow
      contradiction
    · intro id call hcall
      contradiction
  · decide
  · intro a _ i row hrow
    contradiction

/-! ## The latest is in effect -/

/-- The rows of an agent. -/
theorem target_eq_agent_iff : row.target = (some agentName, actionClass) ↔
      row.scope = .agent ∧ row.agentName = some agentName ∧ row.actionClass = actionClass := by
  simp only [PolicyRow.target, Prod.mk.injEq]
  by_cases hscope : row.scope = .agent
  · simp [hscope]
  · simp [hscope]

/-- The rows for all agents. -/
theorem target_eq_global_iff (hscope : row.scope = scopeOf row.agentName) :
    row.target = (none, actionClass) ↔ row.scope = .global ∧ row.actionClass = actionClass := by
  simp only [PolicyRow.target, Prod.mk.injEq]
  by_cases hglobal : row.scope = .global
  · simp [hglobal]
  · have hagent : row.agentName ≠ none := by
      intro hnone
      rw [hnone] at hscope
      exact hglobal hscope
    have hscope' : row.scope = .agent := by
      cases hs : row.scope with
      | global => exact absurd hs hglobal
      | agent => rfl
    simp [hscope', hagent]

theorem agentRow_eq_some (hrow : s.agentRow agentName actionClass = some row) :
    ∃ i, s.policies.get? i = some row ∧ row.target = (some agentName, actionClass) := by
  obtain ⟨i, hi⟩ := Dict.mem_values_iff.mp (List.mem_of_find?_eq_some hrow)
  have htest := List.find?_some hrow
  simp only [Bool.and_eq_true, decide_eq_true_eq] at htest
  exact ⟨i, hi, target_eq_agent_iff.mpr ⟨htest.1.1, htest.1.2, htest.2⟩⟩

/-- Without an agent's row its target is free. -/
theorem agentRow_eq_none (hnone : s.agentRow agentName actionClass = none) : s.Free
    (some agentName, actionClass) := by
  intro i row hrow htarget
  have htest := List.find?_eq_none.mp hnone row (Dict.mem_values_iff.mpr ⟨i, hrow⟩)
  obtain ⟨hscope, hagent, haction⟩ := target_eq_agent_iff.mp htarget
  simp [hscope, hagent, haction] at htest

theorem globalRow_eq_some (hrow : s.globalRow actionClass = some row) :
    ∃ i, s.policies.get? i = some row ∧ row.scope = .global ∧ row.actionClass = actionClass := by
  cases Option.or_eq_some_iff.mp hrow with
  | inl hnull =>
    obtain ⟨i, hi⟩ := Dict.mem_values_iff.mp (List.mem_of_find?_eq_some hnull)
    have htest := List.find?_some hnull
    simp only [Bool.and_eq_true, decide_eq_true_eq] at htest
    exact ⟨i, hi, htest.1.1, htest.2⟩
  | inr hempty =>
    obtain ⟨i, hi⟩ := Dict.mem_values_iff.mp (List.mem_of_find?_eq_some hempty.2)
    have htest := List.find?_some hempty.2
    simp only [Bool.and_eq_true, decide_eq_true_eq] at htest
    exact ⟨i, hi, htest⟩

/-- Without a global row its target is free. -/
theorem Books.globalRow_eq_none (h : s.Books)
    (hnone : s.globalRow actionClass = none) : s.Free (none, actionClass) := by
  intro i row hrow htarget
  have hglobal := (Option.or_eq_none_iff.mp hnone).2
  have htest := List.find?_eq_none.mp hglobal row (Dict.mem_values_iff.mpr ⟨i, hrow⟩)
  obtain ⟨hscope, haction⟩ := (target_eq_global_iff (h.ownScope i row hrow)).mp htarget
  simp [hscope, haction] at htest

variable {target : Target} {e : PolicyEvent}

/-- A row has the effect that was set last. -/
theorem Books.latest_of_row (h : s.Books) {i : Nat}
    (hrow : s.policies.get? i = some row) (htarget : row.target = target) :
    s.latest.get? target = some row.effect :=
  (h.recorded.stored target row.effect).mpr ⟨i, row, hrow, htarget, rfl⟩

/-- A free target has no effect. -/
theorem Books.latest_of_free (h : s.Books) (hfree : s.Free target) :
    s.latest.get? target = none := by
  cases hlatest : s.latest.get? target with
  | none => rfl
  | some effect =>
    obtain ⟨i, row, hrow, htarget, _⟩ := (h.recorded.stored target effect).mp hlatest
    exact absurd htarget (hfree i row hrow)

/-- The effect written last globally. -/
theorem Books.effective_global (h : s.Books) (actionClass : String) :
    (match s.globalRow actionClass with
      | some row => row.effect
      | none => defaultEffect actionClass) =
    (s.latest.get? (none, actionClass)).getD (defaultEffect actionClass) := by
  cases hglobal : s.globalRow actionClass with
  | some row =>
    obtain ⟨i, hrow, hscope, haction⟩ := globalRow_eq_some hglobal
    have htarget := (target_eq_global_iff (h.ownScope i row hrow)).mpr ⟨hscope, haction⟩
    rw [h.latest_of_row hrow htarget]
    rfl
  | none =>
    rw [h.latest_of_free (h.globalRow_eq_none hglobal)]
    rfl

/-- With one row for each target, what was written last is in effect. -/
theorem Books.current (h : s.Books) : s.Current := by
  refine ⟨h.recorded.oneEach, ?_⟩
  intro agentName actionClass
  unfold effectiveEffect latestEffect
  cases hagent : s.agentRow agentName actionClass with
  | some row =>
    obtain ⟨i, hrow, htarget⟩ := agentRow_eq_some hagent
    have hown := h.ownScope i row hrow
    obtain ⟨hscope, hname, _⟩ := target_eq_agent_iff.mp htarget
    rw [hscope, hname] at hown
    have hkey : targetOf (some agentName) actionClass = (some agentName, actionClass) := by
      simp [targetOf, ← hown]
    rw [hkey, h.latest_of_row hrow htarget]
    rfl
  | none =>
    rw [h.effective_global actionClass]
    by_cases hscope : scopeOf (some agentName) = .agent
    · have hkey : targetOf (some agentName) actionClass = (some agentName, actionClass) := by
        simp [targetOf, hscope]
      rw [hkey, h.latest_of_free (agentRow_eq_none hagent), Option.none_or]
    · have hkey : targetOf (some agentName) actionClass = (none, actionClass) := by
        simp [targetOf, hscope]
      rw [hkey, Option.or_self]

/-! ## Steps -/

/-- A call that is to insert its row would still find none, and no global row of the action
class encodes its absent agent otherwise. -/
def StillMissing (s : PolicyState) : PolicyEvent → Prop
  | .stored id =>
    match s.calls.get? id with
    | some (.missing args) =>
      s.lookup args.agentName args.actionClass = none ∧
      (scopeOf args.agentName = .global → ∀ i row, s.policies.get? i = some row →
        row.scope = .global → row.actionClass = args.actionClass →
          row.agentName = args.agentName)
    | _ => True
  | _ => True

/-- Then there is no row for its target. -/
theorem Books.free_iff (h : s.Books) (args : SetArgs) :
    s.Free args.target ↔ s.lookup args.agentName args.actionClass = none ∧
      (scopeOf args.agentName = .global → ∀ i row, s.policies.get? i = some row →
        row.scope = .global → row.actionClass = args.actionClass →
          row.agentName = args.agentName) := by
  constructor
  · intro hfree
    constructor
    · rw [lookup_eq_none_iff]
      intro i row hrow
      have hnot : ¬ row.isFor args.agentName args.actionClass = true := fun hfor =>
        hfree i row hrow (PolicyRow.target_of_isFor hfor)
      simpa using hnot
    · intro hglobal i row hrow hscope haction
      have htarget : row.target = args.target := by
        simp [PolicyRow.target, SetArgs.target, targetOf, hglobal, hscope, haction]
      exact absurd htarget (hfree i row hrow)
  · rintro ⟨hlookup, hencoding⟩ i row hrow htarget
    have hown := h.ownScope i row hrow
    have hmiss := lookup_eq_none_iff.mp hlookup i row hrow
    cases hscope : scopeOf args.agentName with
    | global =>
      have hkey : args.target = (none, args.actionClass) := by
        simp [SetArgs.target, targetOf, hscope]
      rw [hkey, target_eq_global_iff hown] at htarget
      have hagent := hencoding hscope i row hrow htarget.1 htarget.2
      simp [PolicyRow.isFor, hscope, htarget.1, htarget.2, hagent] at hmiss
    | agent =>
      cases hagent : args.agentName with
      | none =>
        rw [hagent] at hscope
        contradiction
      | some agentName =>
        rw [hagent] at hscope hmiss
        have hkey : args.target = (some agentName, args.actionClass) := by
          simp [SetArgs.target, targetOf, hscope, hagent]
        rw [hkey, target_eq_agent_iff] at htarget
        simp [PolicyRow.isFor, hscope, htarget.1, htarget.2.1, htarget.2.2] at hmiss

/-- Every statement that is not late keeps the books. -/
theorem Books.step (h : s.Books) (hguard : s.StillMissing e)
    (hstep : s.step e = some s') : s'.Books := by
  cases e with
  | lookedUp id args =>
    simp only [step] at hstep
    split at hstep
    · cases hstep
      exact h
    · split at hstep
      · contradiction
      · cases hlookup : s.lookup args.agentName args.actionClass with
        | none =>
          rw [hlookup] at hstep
          cases hstep
          exact h.goOn trivial
        | some policyId =>
          rw [hlookup] at hstep
          cases hstep
          obtain ⟨row, hrow, hfor⟩ := lookup_eq_some hlookup
          apply h.goOn
          refine ⟨h.drawn policyId row hrow, ?_⟩
          intro r hr
          rw [hrow] at hr
          rw [← Option.some.inj hr, hfor]
  | stored id =>
    simp only [step] at hstep
    simp only [StillMissing] at hguard
    cases hcall : s.calls.get? id with
    | none =>
      rw [hcall] at hstep
      contradiction
    | some call =>
      rw [hcall] at hstep hguard
      have hbooks := h.calls id call hcall
      cases call with
      | found policyId args =>
        cases hrow : s.policies.get? policyId with
        | none =>
          simp only [hrow] at hstep
          cases hstep
          exact h.goOn trivial
        | some row =>
          simp only [hrow] at hstep
          cases hstep
          exact (h.update hrow (hbooks.2 row hrow)).goOn trivial
      | missing args =>
        cases hstep
        have hinsert : (s.insert args.row).Books :=
          h.insert rfl ((h.free_iff args).mpr hguard)
        exact hinsert.goOn trivial
      | written policyId => contradiction
  | readBack id =>
    simp only [step] at hstep
    split at hstep
    · cases hstep
      refine ⟨h.recorded, h.ownScope, h.drawn, ?_⟩
      intro i c hc
      exact h.calls i c (Dict.get?_pop_cases hc).2
    · contradiction
  | deleted policyId =>
    simp only [step] at hstep
    cases hrow : s.policies.get? policyId with
    | none =>
      rw [hrow] at hstep
      cases hstep
      exact h
    | some row =>
      rw [hrow] at hstep
      cases hstep
      exact h.delete hrow

/-- A second row for a target is one too many. -/
theorem Books.not_oneEach_insert (h : s.Books) (hused : ¬ s.Free row.target) :
    ¬ OneEach (s.insert row).policies := by
  intro honce
  apply hused
  intro i r hr htarget
  have hi : s.drawn ≠ i := Nat.ne_of_gt (h.drawn i r hr)
  have hr' : (s.insert row).policies.get? i = some r := by
    rw [← hr]
    exact Dict.get?_set_of_ne _ _ hi
  exact hi (honce s.drawn i row r (Dict.get?_set_self _ _ _) hr' htarget.symm)

/-- A statement leaves one row for each target, and the latest in effect, exactly when it does
not insert what has been inserted since, or stands there under the other encoding. -/
theorem current_step_iff (h : s.Books) (hstep : s.step e = some s') :
    s'.Current ↔ s.StillMissing e := by
  constructor
  · intro hcurrent
    cases e with
    | stored id =>
      simp only [step] at hstep
      simp only [StillMissing]
      cases hcall : s.calls.get? id with
      | none => trivial
      | some call =>
        rw [hcall] at hstep
        cases call with
        | found | written => trivial
        | missing args =>
          cases hstep
          refine (h.free_iff args).mp ?_
          by_contra hused
          have htwice : ¬ OneEach (s.insert args.row).policies :=
            h.not_oneEach_insert hused
          exact htwice hcurrent.oneEach
    | lookedUp | readBack | deleted => trivial
  · intro hguard
    exact (h.step hguard hstep).current

/-! ## Runs -/

/-- In every state there is one row for each target, and the latest is in effect. -/
def AlwaysCurrent (now : Clock) (es : List PolicyEvent) : Prop :=
  ∀ pre post s, es = pre ++ post → run step (seed now) pre = some s → s.Current

/-- The latest settings are in effect in exactly the runs whose inserts still find no row. -/
theorem alwaysCurrent_iff (now : Clock) (es : List PolicyEvent) :
    AlwaysCurrent now es ↔ Guarded step StillMissing (seed now) es := by
  have hevery : AlwaysCurrent now es ↔ EveryStep step (fun _ _ t => t.Current) (seed now) es :=
    states_iff_everyStep (Books.seed now).current es
  rw [hevery]
  apply everyStep_iff_guarded (I := Books)
  · intro s e hnone
    cases e with
    | stored id =>
      simp only [StillMissing]
      split
      · rename_i args hcall
        simp [step, hcall] at hnone
      · trivial
    | lookedUp | readBack | deleted => trivial
  · intro s e s' hbooks hguard hstep
    exact hbooks.step hguard hstep
  · intro s e s' hbooks hstep
    exact current_step_iff hbooks hstep
  · exact Books.seed now

/-- Two sets for one agent at once. -/
def twoSets : List PolicyEvent :=
  [.lookedUp 1 ⟨some "scout", "deploy", "allow", 5⟩,
    .lookedUp 2 ⟨some "scout", "deploy", "deny", 6⟩, .stored 1, .stored 2]

/-- A set for an empty agent name. -/
def emptyName : List PolicyEvent :=
  [.lookedUp 1 ⟨some "", "spend", "allow", 5⟩, .stored 1]

/-- What is in effect is not what was written last. -/
theorem not_alwaysCurrent_of_ne {now : Clock} {es : List PolicyEvent}
    {effect effect' : String} (hne : effect ≠ effect')
    (hrun : (run step (seed now) es).map (fun s =>
      (s.effectiveEffect agentName actionClass, s.latestEffect agentName actionClass)) =
      some (effect, effect')) : ¬ AlwaysCurrent now es := by
  intro halways
  obtain ⟨s, hs, heffects⟩ := Option.map_eq_some_iff.mp hrun
  have hcurrent := (halways es [] s (List.append_nil es).symm hs).effective agentName actionClass
  obtain ⟨heffective, hlatest⟩ := Prod.mk.inj heffects
  rw [heffective, hlatest] at hcurrent
  exact hne hcurrent

/-- The agent is allowed what was denied last, and the global setting has no effect. -/
theorem not_alwaysCurrent :
    (run step (seed 0) twoSets).map (fun s =>
      (s.effectiveEffect "scout" "deploy", s.latestEffect "scout" "deploy")) =
      some ("allow", "deny") ∧
    (run step (seed 0) emptyName).map (fun s =>
      (s.effectiveEffect "scout" "spend", s.latestEffect "scout" "spend")) =
      some ("require_approval", "allow") ∧
    ¬ AlwaysCurrent 0 twoSets ∧ ¬ AlwaysCurrent 0 emptyName := by
  have htwo : (run step (seed 0) twoSets).map (fun s =>
      (s.effectiveEffect "scout" "deploy", s.latestEffect "scout" "deploy")) =
      some ("allow", "deny") := by decide
  have hempty : (run step (seed 0) emptyName).map (fun s =>
      (s.effectiveEffect "scout" "spend", s.latestEffect "scout" "spend")) =
      some ("require_approval", "allow") := by decide
  exact ⟨htwo, hempty, not_alwaysCurrent_of_ne (by decide) htwo,
    not_alwaysCurrent_of_ne (by decide) hempty⟩

end PolicyState

end TinyAgentOS.Governance
