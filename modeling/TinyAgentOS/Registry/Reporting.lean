import TinyAgentOS.Library.Forest
import TinyAgentOS.Registry.AgentRegistry

/-!
# Reporting lines

A manager is set where a walk up the manager's own line does not come to the agent.  The
walk takes fifty steps at most.

Main results:

- `RegistryState.reachesWithin_iff`: what the walk finds.
- `RegistryState.alwaysAcyclic_iff`: the reporting lines stay acyclic in exactly the runs where no
  agent is put below itself beyond the reach of the walk.
- `RegistryState.not_alwaysAcyclic`: a line of fifty-one agents is closed.
-/

namespace TinyAgentOS.Registry

open Collections Transition
open Forest (Acyclic ancestor reaches_iff_ancestor)

namespace RegistryState

/-- No agent is given a manager whose line comes to it beyond the reach of the walk; no agent is
registered with a manager whose line comes to it. -/
def WithinReach (s : RegistryState) : RegistryEvent → Prop
  | .reportingSet canonicalId reportsTo =>
    (s.agents.get? canonicalId).isSome → ∀ manager ∈ reportsTo,
      ∀ k, maxReportsToWalk ≤ k → ancestor s.managerOf k manager ≠ some canonicalId
  | .inserted id =>
    ∀ args slug now tries, s.calls.get? id = some (.inserting args slug now tries) →
      s.agents.get? (candidate slug now tries) = none →
        s.handleTaken (candidate slug now tries) (args.agent now) = false →
          ∀ manager ∈ args.reportsTo,
            ∀ k, ancestor s.managerOf k manager ≠ some (candidate slug now tries)
  | _ => True

/-! ## The walk -/

variable {s s' : RegistryState} {e : RegistryEvent}

/-- On acyclic lines the walk finds the agent exactly when it is that many steps above, or
fewer. -/
theorem reachesWithin_iff (h : Acyclic s.managerOf) (canonicalId : String)
    (n : Nat) (seen : List String) (current : Option String)
    (hseen : ∀ x ∈ seen, ∀ k, current.bind (ancestor s.managerOf k) ≠ some x) :
    s.reachesWithin canonicalId n seen current = true ↔
      ∃ k < n, current.bind (ancestor s.managerOf k) = some canonicalId := by
  induction n generalizing seen current with
  | zero => simp [reachesWithin]
  | succ n ih =>
    cases current with
    | none => simp [reachesWithin]
    | some c =>
      have hnext : ∀ k, (s.managerOf c).bind (ancestor s.managerOf k) =
          (some c).bind (ancestor s.managerOf (k + 1)) := fun k => rfl
      by_cases hc : c = canonicalId
      · subst hc
        simp only [reachesWithin, if_true, true_iff]
        exact ⟨0, Nat.succ_pos n, rfl⟩
      · have hnot : c ∉ seen := fun hmem => hseen c hmem 0 rfl
        rw [reachesWithin, if_neg hc, if_neg hnot, ih]
        · constructor
          · rintro ⟨k, hk, hfound⟩
            exact ⟨k + 1, Nat.succ_lt_succ hk, hfound⟩
          · rintro ⟨k, hk, hfound⟩
            cases k with
            | zero => exact absurd (Option.some.inj hfound) hc
            | succ k => exact ⟨k, Nat.lt_of_succ_lt_succ hk, hfound⟩
        · intro x hx k
          rw [hnext]
          rcases List.mem_cons.mp hx with rfl | hold
          · intro hloop
            exact absurd (h.ancestor_unique hloop (k := 0) rfl) (Nat.succ_ne_zero k)
          · exact hseen x hold (k + 1)

/-! ## Statements -/

theorem managerOf_set (s s' : RegistryState) (canonicalId : String) (row : Agent)
    (hagents : s'.agents = s.agents.set canonicalId row) :
    s'.managerOf = Function.update s.managerOf canonicalId row.reportsTo := by
  funext x
  by_cases hx : canonicalId = x
  · subst hx
    simp [managerOf, hagents]
  · rw [Function.update_of_ne (Ne.symm hx), managerOf, managerOf, hagents,
      Dict.get?_set_of_ne _ _ hx]

/-- Only a change of a reporting line and an insertion move one. -/
theorem managerOf_of_effect (heffect : Effect s e s')
    (hreporting : ∀ canonicalId reportsTo, e ≠ .reportingSet canonicalId reportsTo)
    (hinserted : ∀ id, e ≠ .inserted id) : s'.managerOf = s.managerOf := by
  cases heffect with
  | none hagents _ =>
    funext x
    simp [managerOf, hagents]
  | @rewrite _ _ canonicalId row row' hget hrow hagents _ =>
    have hline : row'.reportsTo = row.reportsTo := by
      cases hrow with
      | reporting => exact absurd rfl (hreporting _ _)
      | _ => rfl
    have hbefore : s.managerOf canonicalId = row.reportsTo := by
      rw [managerOf, hget, Option.bind_some]
    rw [managerOf_set s s' canonicalId row' hagents, hline, ← hbefore, Function.update_eq_self]
  | insert => exact absurd rfl (hinserted _)

/-- What the checks on a manager let through, on acyclic lines. -/
theorem refusesManager_iff (h : Acyclic s.managerOf) (canonicalId manager : String) :
    s.refusesManager canonicalId (some manager) = true ↔
      s.agents.get? manager = none ∨
        ∃ k < maxReportsToWalk, ancestor s.managerOf k manager = some canonicalId := by
  have hwalk := reachesWithin_iff h canonicalId maxReportsToWalk [] (some manager)
    fun x hx => by contradiction
  rw [refusesManager, Bool.or_eq_true, Bool.or_eq_true, hwalk, decide_eq_true_eq,
    Option.isNone_iff_eq_none]
  constructor
  · rintro ((heq | hnone) | hfound)
    · exact Or.inr ⟨0, by decide, congrArg some heq⟩
    · exact Or.inl hnone
    · exact Or.inr hfound
  · rintro (hnone | hfound)
    · exact Or.inl (Or.inr hnone)
    · exact Or.inr hfound

theorem acyclic_reportingSet_iff (h : Acyclic s.managerOf)
    (canonicalId : String) (reportsTo : Option String) :
    Acyclic (s.setReporting canonicalId reportsTo).managerOf ↔
      s.WithinReach (.reportingSet canonicalId reportsTo) := by
  unfold setReporting
  cases hget : s.agents.get? canonicalId with
  | none => exact iff_of_true h fun hsome => by simp [hget] at hsome
  | some row =>
    dsimp only
    have hguard : s.WithinReach (.reportingSet canonicalId reportsTo) ↔
        ∀ manager ∈ reportsTo, ∀ k, maxReportsToWalk ≤ k →
          ancestor s.managerOf k manager ≠ some canonicalId := by
      simp [WithinReach, hget]
    rw [hguard]
    split
    · rename_i hrefused
      refine iff_of_true h ?_
      rintro manager rfl k hk hfound
      rcases (refusesManager_iff h canonicalId manager).mp hrefused with
        hnone | ⟨j, hj, hearly⟩
      · -- the line of an unknown manager ends at once
        cases k with
        | zero => exact absurd hk (by decide)
        | succ k => simp [ancestor, managerOf, hnone] at hfound
      · rw [h.ancestor_unique hfound hearly] at hk
        omega
    · rename_i haccepted
      rw [managerOf_set s _ canonicalId { row with reportsTo := reportsTo } rfl]
      cases reportsTo with
      | none => exact iff_of_true h.update_none fun manager hmanager => by contradiction
      | some manager =>
        rw [h.update_iff, reaches_iff_ancestor]
        have hearly : ∀ k < maxReportsToWalk,
            ancestor s.managerOf k manager ≠ some canonicalId := by
          intro k hk hfound
          exact haccepted ((refusesManager_iff h canonicalId manager).mpr
            (Or.inr ⟨k, hk, hfound⟩))
        constructor
        · rintro hnot m ⟨⟩ k _ hfound
          exact hnot ⟨k, hfound⟩
        · rintro hbeyond ⟨k, hfound⟩
          by_cases hk : k < maxReportsToWalk
          · exact hearly k hk hfound
          · exact hbeyond manager rfl k (not_lt.mp hk) hfound

theorem acyclic_inserted_iff (h : Acyclic s.managerOf) {id : Nat}
    (hstep : s.step (.inserted id) = some s') :
    Acyclic s'.managerOf ↔ s.WithinReach (.inserted id) := by
  simp only [step] at hstep
  split at hstep
  · rename_i args slug now tries hcall
    have hguard : s.WithinReach (.inserted id) ↔
        (s.agents.get? (candidate slug now tries) = none →
          s.handleTaken (candidate slug now tries) (args.agent now) = false →
            ∀ manager ∈ args.reportsTo,
              ∀ k, ancestor s.managerOf k manager ≠ some (candidate slug now tries)) := by
      constructor
      · exact fun hguard => hguard args slug now tries hcall
      · intro hguard args' slug' now' tries' hcall'
        rw [hcall] at hcall'
        cases hcall'
        exact hguard
    rw [hguard]
    split at hstep
    · rename_i htaken
      cases hstep
      refine iff_of_true h fun hfree hhandle => ?_
      simp [hfree, hhandle] at htaken
    · rename_i hfree
      cases hstep
      rw [Bool.not_eq_true, Bool.or_eq_false_iff, Option.isSome_eq_false_iff,
        Option.isNone_iff_eq_none] at hfree
      rw [managerOf_set s _ (candidate slug now tries) (args.agent now) rfl]
      have hline : (args.agent now).reportsTo = args.reportsTo := rfl
      rw [hline]
      cases args.reportsTo with
      | none => exact iff_of_true h.update_none fun _ _ manager hmanager => by contradiction
      | some manager =>
        rw [h.update_iff, reaches_iff_ancestor]
        constructor
        · rintro hnot _ _ m ⟨⟩ k hfound
          exact hnot ⟨k, hfound⟩
        · rintro hguard ⟨k, hfound⟩
          exact hguard hfree.1 hfree.2 manager rfl k hfound
  · contradiction

/-- The statements that keep the reporting lines acyclic. -/
theorem acyclic_step_iff (h : Acyclic s.managerOf)
    (hstep : s.step e = some s') : Acyclic s'.managerOf ↔ s.WithinReach e := by
  cases e with
  | reportingSet canonicalId reportsTo =>
    cases hstep
    exact acyclic_reportingSet_iff h canonicalId reportsTo
  | inserted id => exact acyclic_inserted_iff h hstep
  | _ =>
    rw [managerOf_of_effect (effect_of_step hstep) (by simp) (by simp)]
    exact iff_of_true h trivial

theorem withinReach_of_none (hstep : s.step e = none) : s.WithinReach e := by
  cases e with
  | reportingSet canonicalId reportsTo => contradiction
  | inserted id =>
    intro args slug now tries hcall
    simp only [step, hcall] at hstep
    split at hstep <;> contradiction
  | _ => trivial

/-! ## Runs -/

/-- No agent reports to itself, directly or not, in any state of the run. -/
def AlwaysAcyclic (es : List RegistryEvent) : Prop :=
  ∀ pre post s, es = pre ++ post → run step init pre = some s → Acyclic s.managerOf

theorem acyclic_init : Acyclic init.managerOf := by
  intro a hcycle
  obtain ⟨b, hup, _⟩ := Relation.TransGen.head'_iff.mp hcycle
  contradiction

/-- The lines stay acyclic in exactly the runs where the walk would find every cycle. -/
theorem alwaysAcyclic_iff (es : List RegistryEvent) :
    AlwaysAcyclic es ↔ Guarded step WithinReach init es := by
  refine (states_iff_everyStep (I := fun s : RegistryState => Acyclic s.managerOf)
    acyclic_init es).trans ?_
  apply everyStep_iff_guarded (I := fun s => Acyclic s.managerOf)
  · exact fun _ _ hstep => withinReach_of_none hstep
  · exact fun _ _ _ h hguard hstep => (acyclic_step_iff h hstep).mpr hguard
  · exact fun _ _ _ h hstep => acyclic_step_iff h hstep
  · exact acyclic_init

/-! ## A line that is closed -/

/-- An agent of its framework's name. -/
def agentArgs : RegisterArgs := { framework := "agent" }

/-- The canonical id of such an agent. -/
def nameOf (k : Nat) : String := candidate (slugify agentArgs.sourceName) (stamp k) 0

/-- An agent is registered. -/
def joins (k : Nat) : List RegistryEvent :=
  [.registerCalled k agentArgs (stamp k), .probed k, .inserted k]

/-- Agents are registered, and each is given the one before as its manager. -/
def lineUp : Nat → List RegistryEvent
  | 0 => joins 0
  | k + 1 => lineUp k ++ (joins (k + 1) ++ [.reportingSet (nameOf (k + 1)) (some (nameOf k))])

theorem nameOf_inj {j k : Nat} (hj : j < 60) (hk : k < 60) (h : nameOf j = nameOf k) : j = k := by
  have hminted : mintCanonicalId _ (stamp j) ++ [] = mintCanonicalId _ (stamp k) ++ [] :=
    String.ofList_injective h
  rw [List.append_nil, List.append_nil] at hminted
  have htime : (stamp j).timePart = (stamp k).timePart :=
    (List.cons.inj (List.append_inj' hminted (by simp)).2).2
  have hsecond : padded 2 (j % 60) = padded 2 (k % 60) := (List.append_inj' htime (by simp)).2
  have hmod := padded_inj (by omega) (by omega) hsecond
  omega

theorem run_joins {k : Nat} (hcall : s.calls.get? k = none)
    (hfree : s.agents.get? (nameOf k) = none) :
    ∃ s', run step s (joins k) = some s' ∧
      s'.agents = s.agents.set (nameOf k) (agentArgs.agent (stamp k)) ∧
      ∀ x, k ≠ x → s'.calls.get? x = s.calls.get? x := by
  let slug := slugify agentArgs.sourceName
  let probing := s.goOn k (.probing agentArgs slug (stamp k) 0)
  let inserting := probing.goOn k (.inserting agentArgs slug (stamp k) 0)
  let joined : RegistryState :=
    { inserting.goOn k (.done (.found (nameOf k))) with
      agents := s.agents.set (nameOf k) (agentArgs.agent (stamp k))
      slugs := s.slugs.set (nameOf k) slug }
  have hfree' : s.agents.get? (candidate slug (stamp k) 0) = none := hfree
  have hcalled : s.step (.registerCalled k agentArgs (stamp k)) = some probing := by
    simp only [step, hcall]
    rfl
  have hprobed : probing.step (.probed k) = some inserting := by
    simp [step, inserting, probing, goOn, hfree']
  have hinserted : inserting.step (.inserted k) = some joined := by
    have hhandle : (agentArgs.agent (stamp k)).handle = "" := rfl
    simp [step, joined, inserting, probing, goOn, hfree', handleTaken, hhandle]
    exact ⟨rfl, rfl, rfl⟩
  refine ⟨joined, ?_, rfl, ?_⟩
  · refine run_cons_eq_some.mpr ⟨probing, hcalled, ?_⟩
    refine run_cons_eq_some.mpr ⟨inserting, hprobed, ?_⟩
    exact run_cons_eq_some.mpr ⟨joined, hinserted, rfl⟩
  · intro x hx
    simp [joined, inserting, probing, goOn, Dict.get?_set_of_ne _ _ hx]

/-- The agents up to one stand in a line. -/
structure Lined (k : Nat) (s : RegistryState) : Prop where
  first : (s.agents.get? (nameOf 0)).isSome = true
  last : (s.agents.get? (nameOf k)).isSome = true
  free : ∀ j, k < j → j < 60 → s.agents.get? (nameOf j) = none
  calls : ∀ j, k < j → s.calls.get? j = none
  acyclic : Acyclic s.managerOf
  leaf : ∀ j, k < j → j < 60 → ∀ a, s.managerOf a ≠ some (nameOf j)
  height : ancestor s.managerOf k (nameOf k) = some (nameOf 0)

/-- One more agent joins the line. -/
theorem Lined.succ {k : Nat} (h : Lined k s) (hk : k + 1 < 60) :
    ∃ s', run step s (joins (k + 1) ++ [.reportingSet (nameOf (k + 1)) (some (nameOf k))]) =
      some s' ∧ Lined (k + 1) s' := by
  obtain ⟨t, hjoined, hagents, hcalls⟩ :=
    run_joins (h.calls (k + 1) (Nat.lt_succ_self k)) (h.free (k + 1) (Nat.lt_succ_self k) hk)
  have hnew : s.agents.get? (nameOf (k + 1)) = none := h.free (k + 1) (Nat.lt_succ_self k) hk
  have hne : nameOf k ≠ nameOf (k + 1) := fun heq =>
    absurd (nameOf_inj (by omega) hk heq) (by omega)
  -- the agent that joined has no manager yet, and manages nobody
  have hsame : t.managerOf = s.managerOf := by
    have hnone : s.managerOf (nameOf (k + 1)) = none := by rw [managerOf, hnew, Option.bind_none]
    have hline : (agentArgs.agent (stamp (k + 1))).reportsTo = none := rfl
    rw [managerOf_set s t _ _ hagents, hline, ← hnone, Function.update_eq_self]
  have hbelow : ¬Relation.ReflTransGen (Forest.Up s.managerOf) (nameOf k) (nameOf (k + 1)) :=
    Forest.not_reaches_of_leaf (h.leaf (k + 1) (Nat.lt_succ_self k) hk) hne
  let row := { agentArgs.agent (stamp (k + 1)) with reportsTo := some (nameOf k) }
  let s' : RegistryState := { t with agents := t.agents.set (nameOf (k + 1)) row }
  have hset : t.step (.reportingSet (nameOf (k + 1)) (some (nameOf k))) = some s' := by
    have hget : t.agents.get? (nameOf (k + 1)) = some (agentArgs.agent (stamp (k + 1))) := by
      rw [hagents, Dict.get?_set_self]
    have haccepted : t.refusesManager (nameOf (k + 1)) (some (nameOf k)) = false := by
      rw [Bool.eq_false_iff, ne_eq, refusesManager_iff (hsame ▸ h.acyclic), hsame]
      rintro (hnone | ⟨j, _, hfound⟩)
      · rw [hagents, Dict.get?_set_of_ne _ _ (Ne.symm hne)] at hnone
        have hlast := h.last
        rw [hnone] at hlast
        contradiction
      · exact hbelow (reaches_iff_ancestor.mpr ⟨j, hfound⟩)
    simp only [step, setReporting, hget, haccepted]
    rfl
  have hmanager : s'.managerOf =
      Function.update s.managerOf (nameOf (k + 1)) (some (nameOf k)) := by
    rw [managerOf_set t s' _ row rfl, hsame]
  have hagent : ∀ x, nameOf (k + 1) ≠ x → s'.agents.get? x = s.agents.get? x := by
    intro x hx
    have hget : s'.agents.get? x = t.agents.get? x := Dict.get?_set_of_ne _ _ hx
    rw [hget, hagents, Dict.get?_set_of_ne _ _ hx]
  refine ⟨s', ?_, ?_, ?_, ?_, ?_, ?_, ?_, ?_⟩
  · exact run_append_singleton hjoined hset
  · by_cases hx : nameOf (k + 1) = nameOf 0
    · exact absurd (nameOf_inj hk (by omega) hx) (by omega)
    · rw [hagent _ hx]
      exact h.first
  · have hget : s'.agents.get? (nameOf (k + 1)) = some row := Dict.get?_set_self _ _ _
    rw [hget]
    rfl
  · intro j hj hj'
    rw [hagent _ fun heq => absurd (nameOf_inj hk hj' heq) (by omega)]
    exact h.free j (by omega) hj'
  · intro j hj
    have hcall : s'.calls.get? j = t.calls.get? j := rfl
    rw [hcall, hcalls j (by omega)]
    exact h.calls j (by omega)
  · rw [hmanager]
    exact h.acyclic.update hbelow
  · intro j hj hj' a
    rw [hmanager]
    by_cases ha : a = nameOf (k + 1)
    · rw [ha, Function.update_self]
      intro heq
      exact absurd (nameOf_inj (by omega) hj' (Option.some.inj heq)) (by omega)
    · rw [Function.update_of_ne ha]
      exact h.leaf j (by omega) hj' a
  · rw [hmanager, ancestor, Function.update_self, Option.bind_some,
      Forest.ancestor_update hbelow]
    exact h.height

theorem lined_lineUp (k : Nat) (hk : k < 60) :
    ∃ s, run step init (lineUp k) = some s ∧ Lined k s := by
  induction k with
  | zero =>
    obtain ⟨s, hrun, hagents, hcalls⟩ := run_joins (s := init) (k := 0) rfl rfl
    have hget : s.agents.get? (nameOf 0) = some (agentArgs.agent (stamp 0)) := by
      rw [hagents, Dict.get?_set_self]
    have hmanager : ∀ a, s.managerOf a = none := by
      intro a
      have hline : (agentArgs.agent (stamp 0)).reportsTo = none := rfl
      rw [managerOf_set init s _ _ hagents, hline]
      by_cases ha : a = nameOf 0
      · rw [ha, Function.update_self]
      · rw [Function.update_of_ne ha]
        rfl
    refine ⟨s, hrun, ?_, ?_, ?_, ?_, ?_, ?_, rfl⟩
    · rw [hget]
      rfl
    · rw [hget]
      rfl
    · intro j hj hj'
      rw [hagents, Dict.get?_set_of_ne _ _ fun heq =>
        absurd (nameOf_inj (by omega) hj' heq) (by omega)]
      rfl
    · intro j hj
      rw [hcalls j (by omega)]
      rfl
    · intro a hcycle
      obtain ⟨b, hup, _⟩ := Relation.TransGen.head'_iff.mp hcycle
      rw [Forest.Up, hmanager] at hup
      contradiction
    · intro j _ _ a
      rw [hmanager]
      simp
  | succ k ih =>
    obtain ⟨s, hrun, hlined⟩ := ih (by omega)
    obtain ⟨s', hrun', hlined'⟩ := hlined.succ hk
    refine ⟨s', ?_, hlined'⟩
    rw [lineUp, run_append, hrun]
    exact hrun'

/-- Fifty-one agents stand in a line, and the first is given the last as its manager. -/
def closed : List RegistryEvent :=
  lineUp 50 ++ [.reportingSet (nameOf 0) (some (nameOf 50))]

/-- The walk from the last agent ends before it comes to the first. -/
theorem not_alwaysAcyclic : ¬AlwaysAcyclic closed := by
  intro hall
  obtain ⟨s, hrun, hlined⟩ := lined_lineUp 50 (by norm_num)
  have hstep : s.step (.reportingSet (nameOf 0) (some (nameOf 50))) =
      some (s.setReporting (nameOf 0) (some (nameOf 50))) := rfl
  have hafter := hall closed [] _ (by simp) (run_append_singleton hrun hstep)
  have hguard := (acyclic_step_iff hlined.acyclic hstep).mp hafter
  exact hguard hlined.first (nameOf 50) rfl 50 le_rfl hlined.height

end RegistryState

end TinyAgentOS.Registry
