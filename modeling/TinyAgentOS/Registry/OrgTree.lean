import TinyAgentOS.Registry.Reporting

/-!
# The org chart

Agents without a manager are the roots, and each node has its reports below it, to a depth of
fifty.  Whoever stands deeper, or on a line that is closed, is left out.

Main results:

- `RegistryState.mem_occurrences_iff`: who occurs, and under whom.
- `RegistryState.orgTreeComplete_iff`: the chart is complete in exactly the tables where every
  agent has a root at most fifty steps above.
- `RegistryState.not_orgTreeComplete`: the last agent of a line of fifty-two.
-/

namespace TinyAgentOS.Registry

open Collections Transition
open Forest (Rooted ancestor ancestor_add rooted_zero_iff)

/-- A node of the chart. -/
inductive OrgNode where
  | mk (canonicalId displayName : String) (role title reportsTo : Option String)
      (reports : List OrgNode)

mutual

/-- The agents of a tree, each with the one it stands under. -/
def OrgNode.occurrences (above : Option String) : OrgNode → List (String × Option String)
  | .mk canonicalId _ _ _ _ reports => (canonicalId, above) :: occurrencesIn canonicalId reports

/-- The agents below one. -/
def occurrencesIn (above : String) : List OrgNode → List (String × Option String)
  | [] => []
  | node :: nodes => node.occurrences (some above) ++ occurrencesIn above nodes

end

theorem occurrencesIn_eq (above : String) (nodes : List OrgNode) :
    occurrencesIn above nodes = nodes.flatMap (OrgNode.occurrences (some above)) := by
  induction nodes with
  | nil => rfl
  | cons node nodes ih => rw [occurrencesIn, ih, List.flatMap_cons]

namespace RegistryState

/-- The manager that an agent is listed under, if there is a row for it. -/
def superior (s : RegistryState) (row : Agent) : Option String :=
  row.reportsTo.filter fun manager => manager ≠ "" ∧ (s.agents.get? manager).isSome

/-- `children`. -/
def children (s : RegistryState) (canonicalId : String) : List (String × Agent) :=
  s.agents.entries.filter fun e => s.superior e.2 = some canonicalId

/-- `roots`. -/
def roots (s : RegistryState) : List (String × Agent) :=
  s.agents.entries.filter fun e => s.superior e.2 = none

/-- `_node`, with the levels left below it. -/
def node (s : RegistryState) : Nat → List String → String × Agent → OrgNode
  | 0, _, (canonicalId, row) =>
    .mk canonicalId row.displayName row.role row.title row.reportsTo []
  | n + 1, seen, (canonicalId, row) =>
    .mk canonicalId row.displayName row.role row.title row.reportsTo
      (((s.children canonicalId).filter fun child => child.1 ∉ canonicalId :: seen).map
        (s.node n (canonicalId :: seen)))

/-- `get_org_tree`. -/
def getOrgTree (s : RegistryState) : List OrgNode :=
  s.roots.map (s.node maxReportsToWalk [])

/-- Every agent occurs once, under its manager, and nobody else does. -/
def OrgTreeComplete (s : RegistryState) : Prop :=
  (s.getOrgTree.flatMap (OrgNode.occurrences none)).Perm
    (s.agents.entries.map fun e => (e.1, s.superior e.2))

/-- The manager that an id is listed under. -/
def superiorOf (s : RegistryState) (canonicalId : String) : Option String :=
  (s.agents.get? canonicalId).bind s.superior

variable {s s' : RegistryState}

/-! ## The nodes below one -/

variable {e : String × Agent} {canonicalId : String} {seen : List String} {d n : Nat}
  {p : String × Option String}

/-- The superior of an agent. -/
theorem superiorOf_of_mem (h : e ∈ s.agents.entries) : s.superiorOf e.1 = s.superior e.2 := by
  rw [superiorOf, Dict.mem_entries_iff.mp h, Option.bind_some]

/-- The children are those who report to the agent. -/
theorem mem_children_iff : e ∈ s.children canonicalId ↔
      e ∈ s.agents.entries ∧ s.superiorOf e.1 = some canonicalId := by
  rw [children, List.mem_filter, decide_eq_true_eq]
  exact and_congr_right fun h => by rw [superiorOf_of_mem h]

/-- The roots report to nobody. -/
theorem mem_roots_iff : e ∈ s.roots ↔ e ∈ s.agents.entries ∧ s.superiorOf e.1 = none := by
  rw [roots, List.mem_filter, decide_eq_true_eq]
  exact and_congr_right fun h => by rw [superiorOf_of_mem h]

/-- An agent with a manager has a row. -/
theorem exists_entry_of_superiorOf {manager : String}
    (h : s.superiorOf canonicalId = some manager) :
    ∃ row, (canonicalId, row) ∈ s.agents.entries := by
  obtain ⟨row, hget, _⟩ := Option.bind_eq_some_iff.mp h
  exact ⟨row, Dict.mem_entries_iff.mpr hget⟩

/-- The reports of an agent whose line ends are all below it: nobody was seen before. -/
theorem filter_children (hdepth : Rooted s.superiorOf d canonicalId)
    (hseen : ∀ x ∈ seen, ∃ j < d, Rooted s.superiorOf j x) :
    ((s.children canonicalId).filter fun child => child.1 ∉ canonicalId :: seen) =
      s.children canonicalId := by
  apply List.filter_eq_self.mpr
  intro child hchild
  have hup : ancestor s.superiorOf 1 child.1 = some canonicalId := by
    rw [ancestor, (mem_children_iff.mp hchild).2]
    rfl
  have hbelow := hdepth.below hup
  rw [decide_eq_true_eq]
  intro hmem
  rcases List.mem_cons.mp hmem with heq | hold
  · rw [heq] at hbelow
    have hsame := hbelow.unique hdepth
    omega
  · obtain ⟨j, hj, hrooted⟩ := hseen _ hold
    have hsame := hbelow.unique hrooted
    omega

/-- A node occurs, and its children below it. -/
theorem occurrences_node_succ {above : Option String} (hdepth : Rooted s.superiorOf d e.1)
    (hseen : ∀ x ∈ seen, ∃ j < d, Rooted s.superiorOf j x) :
    (s.node (n + 1) seen e).occurrences above =
      (e.1, above) :: (s.children e.1).flatMap fun child =>
        (s.node n (e.1 :: seen) child).occurrences (s.superiorOf child.1) := by
  obtain ⟨canonicalId, row⟩ := e
  rw [node, filter_children hdepth hseen, OrgNode.occurrences, occurrencesIn_eq, List.flatMap_map]
  congr 1
  apply List.flatMap_congr
  intro child hchild
  rw [(mem_children_iff.mp hchild).2]

/-- What was seen on the way to a report. -/
theorem seen_child (hdepth : Rooted s.superiorOf d canonicalId)
    (hseen : ∀ x ∈ seen, ∃ j < d, Rooted s.superiorOf j x) :
    ∀ x ∈ canonicalId :: seen, ∃ j < d + 1, Rooted s.superiorOf j x := by
  intro x hx
  rcases List.mem_cons.mp hx with rfl | hold
  · exact ⟨d, Nat.lt_succ_self d, hdepth⟩
  · obtain ⟨j, hj, hrooted⟩ := hseen x hold
    exact ⟨j, Nat.lt_succ_of_lt hj, hrooted⟩

/-- A child is one level deeper. -/
theorem rooted_child {child : String × Agent}
    (hdepth : Rooted s.superiorOf d canonicalId) (hchild : child ∈ s.children canonicalId) :
    Rooted s.superiorOf (d + 1) child.1 := by
  have hup : ancestor s.superiorOf 1 child.1 = some canonicalId := by
    rw [ancestor, (mem_children_iff.mp hchild).2]
    rfl
  rw [Nat.add_comm]
  exact hdepth.below hup

theorem eq_place_iff : p = (canonicalId, s.superiorOf canonicalId) ↔
      p.2 = s.superiorOf p.1 ∧ p.1 = canonicalId := by
  rw [Prod.ext_iff]
  constructor
  · rintro ⟨hid, hunder⟩
    exact ⟨by rw [hunder, hid], hid⟩
  · rintro ⟨hunder, hid⟩
    exact ⟨hid, by rw [hunder, hid]⟩

/-- Whoever stands above has a report on the way. -/
theorem ancestor_succ_iff {k : Nat} {manager : String} :
    ancestor s.superiorOf (k + 1) canonicalId = some manager ↔
      ∃ child ∈ s.children manager, ancestor s.superiorOf k canonicalId = some child.1 := by
  have hone : ancestor s.superiorOf 1 = s.superiorOf := by
    funext c
    rw [ancestor]
    exact Option.bind_fun_some _
  rw [ancestor_add, Option.bind_eq_some_iff, hone]
  constructor
  · rintro ⟨c, hc, hmanager⟩
    obtain ⟨row, hrow⟩ := exists_entry_of_superiorOf hmanager
    exact ⟨(c, row), mem_children_iff.mpr ⟨hrow, hmanager⟩, hc⟩
  · rintro ⟨child, hchild, hc⟩
    exact ⟨child.1, hc, (mem_children_iff.mp hchild).2⟩

/-- In the tree of an agent stands whoever is as many steps below as there are levels, or fewer,
each under its manager. -/
theorem mem_occurrences_node_iff (hdepth : Rooted s.superiorOf d e.1)
    (hseen : ∀ x ∈ seen, ∃ j < d, Rooted s.superiorOf j x) :
    p ∈ (s.node n seen e).occurrences (s.superiorOf e.1) ↔
      p.2 = s.superiorOf p.1 ∧ ∃ k ≤ n, ancestor s.superiorOf k p.1 = some e.1 := by
  induction n generalizing d seen e with
  | zero =>
    obtain ⟨canonicalId, row⟩ := e
    rw [node, OrgNode.occurrences, occurrencesIn, List.mem_singleton, eq_place_iff]
    apply and_congr_right
    intro _
    constructor
    · rintro rfl
      exact ⟨0, le_rfl, rfl⟩
    · rintro ⟨k, hk, hup⟩
      obtain rfl := Nat.le_zero.mp hk
      exact Option.some.inj hup
  | succ n ih =>
    rw [occurrences_node_succ hdepth hseen, List.mem_cons, eq_place_iff, List.mem_flatMap]
    have hbelow : ∀ child ∈ s.children e.1,
        (p ∈ (s.node n (e.1 :: seen) child).occurrences (s.superiorOf child.1) ↔
          p.2 = s.superiorOf p.1 ∧ ∃ k ≤ n, ancestor s.superiorOf k p.1 = some child.1) :=
      fun child hchild => ih (rooted_child hdepth hchild) (seen_child hdepth hseen)
    constructor
    · rintro (⟨hunder, hid⟩ | ⟨child, hchild, hin⟩)
      · exact ⟨hunder, 0, Nat.zero_le _, congrArg some hid⟩
      · obtain ⟨hunder, k, hk, hup⟩ := (hbelow child hchild).mp hin
        exact ⟨hunder, k + 1, Nat.succ_le_succ hk, ancestor_succ_iff.mpr ⟨child, hchild, hup⟩⟩
    · rintro ⟨hunder, k, hk, hup⟩
      cases k with
      | zero => exact Or.inl ⟨hunder, Option.some.inj hup⟩
      | succ k =>
        obtain ⟨child, hchild, hc⟩ := ancestor_succ_iff.mp hup
        exact Or.inr ⟨child, hchild,
          (hbelow child hchild).mpr ⟨hunder, k, Nat.le_of_succ_le_succ hk, hc⟩⟩

/-- Trees of agents that stand equally deep share nobody. -/
theorem nodup_flatMap_node {es : List (String × Agent)}
    (hes : es.Sublist s.agents.entries) (hdepth : ∀ e ∈ es, Rooted s.superiorOf d e.1)
    (hseen : ∀ x ∈ seen, ∃ j < d, Rooted s.superiorOf j x)
    (heach : ∀ e ∈ es, ((s.node n seen e).occurrences (s.superiorOf e.1)).Nodup) :
    (es.flatMap fun e => (s.node n seen e).occurrences (s.superiorOf e.1)).Nodup := by
  have hkeys : es.Pairwise fun e f => e.1 ≠ f.1 :=
    List.pairwise_map.mp ((hes.map Prod.fst).nodup s.agents.nodup)
  refine List.nodup_flatMap.mpr ⟨heach, hkeys.imp_of_mem ?_⟩
  intro e f he hf hne p hpe hpf
  obtain ⟨_, j, _, hj⟩ := (mem_occurrences_node_iff (hdepth e he) hseen).mp hpe
  obtain ⟨_, k, _, hk⟩ := (mem_occurrences_node_iff (hdepth f hf) hseen).mp hpf
  have hsame := ((hdepth e he).below hj).unique ((hdepth f hf).below hk)
  obtain rfl : j = k := by omega
  rw [hj] at hk
  exact hne (Option.some.inj hk)

/-- Nobody occurs twice below a node. -/
theorem nodup_occurrences_node (hdepth : Rooted s.superiorOf d e.1)
    (hseen : ∀ x ∈ seen, ∃ j < d, Rooted s.superiorOf j x) :
    ((s.node n seen e).occurrences (s.superiorOf e.1)).Nodup := by
  induction n generalizing d seen e with
  | zero =>
    obtain ⟨canonicalId, row⟩ := e
    exact List.nodup_singleton _
  | succ n ih =>
    have hchild : ∀ child ∈ s.children e.1, Rooted s.superiorOf (d + 1) child.1 :=
      fun child hmem => rooted_child hdepth hmem
    have hseen' := seen_child hdepth hseen
    rw [occurrences_node_succ hdepth hseen, List.nodup_cons]
    constructor
    · intro hmem
      obtain ⟨child, hin, hp⟩ := List.mem_flatMap.mp hmem
      obtain ⟨_, k, _, hk⟩ := (mem_occurrences_node_iff (hchild child hin) hseen').mp hp
      have hsame := ((hchild child hin).below hk).unique hdepth
      omega
    · exact nodup_flatMap_node List.filter_sublist hchild hseen'
        fun child hin => ih (hchild child hin) hseen'

/-! ## The whole chart -/

theorem rooted_root (h : e ∈ s.roots) : Rooted s.superiorOf 0 e.1 :=
  rooted_zero_iff.mpr (mem_roots_iff.mp h).2

/-- What occurs in the tree occurs below a root. -/
theorem occurrences_getOrgTree :
    s.getOrgTree.flatMap (OrgNode.occurrences none) =
      s.roots.flatMap fun e =>
        (s.node maxReportsToWalk [] e).occurrences (s.superiorOf e.1) := by
  rw [getOrgTree, List.flatMap_map]
  apply List.flatMap_congr
  intro e he
  rw [(mem_roots_iff.mp he).2]

/-- The chart has an agent, under its manager, if there is a root at most fifty steps above. -/
theorem mem_occurrences_iff : p ∈ s.getOrgTree.flatMap (OrgNode.occurrences none) ↔
      (s.agents.get? p.1).isSome ∧ p.2 = s.superiorOf p.1 ∧
        ∃ k ≤ maxReportsToWalk, Rooted s.superiorOf k p.1 := by
  rw [occurrences_getOrgTree, List.mem_flatMap]
  constructor
  · rintro ⟨e, he, hp⟩
    obtain ⟨hunder, k, hk, hup⟩ :=
      (mem_occurrences_node_iff (rooted_root he) (fun x hx => by contradiction)).mp hp
    obtain ⟨hrow, hroot⟩ := mem_roots_iff.mp he
    refine ⟨?_, hunder, k, hk, e.1, hup, hroot⟩
    cases k with
    | zero =>
      rw [Option.some.inj hup, Dict.mem_entries_iff.mp hrow]
      rfl
    | succ k =>
      obtain ⟨manager, hmanager, _⟩ := Option.bind_eq_some_iff.mp hup
      obtain ⟨row, hget⟩ := exists_entry_of_superiorOf hmanager
      rw [Dict.mem_entries_iff.mp hget]
      rfl
  · rintro ⟨hsome, hunder, k, hk, r, hup, hroot⟩
    have hrow : ∃ row, (r, row) ∈ s.agents.entries := by
      cases k with
      | zero =>
        obtain ⟨row, hget⟩ := Option.isSome_iff_exists.mp hsome
        rw [Option.some.inj hup] at hget
        exact ⟨row, Dict.mem_entries_iff.mpr hget⟩
      | succ k =>
        -- somebody reports to the root, so that it has a row
        obtain ⟨child, hchild, _⟩ := ancestor_succ_iff.mp hup
        have hfilter := (mem_children_iff.mp hchild).2
        obtain ⟨row, _, hsuperior⟩ := Option.bind_eq_some_iff.mp hfilter
        have hchecked := (Option.filter_eq_some_iff.mp hsuperior).2
        rw [decide_eq_true_eq] at hchecked
        obtain ⟨row, hget⟩ := Option.isSome_iff_exists.mp hchecked.2
        exact ⟨row, Dict.mem_entries_iff.mpr hget⟩
    obtain ⟨row, hrow⟩ := hrow
    have hmem : (r, row) ∈ s.roots := mem_roots_iff.mpr ⟨hrow, hroot⟩
    exact ⟨(r, row), hmem, (mem_occurrences_node_iff (rooted_root hmem)
      (fun x hx => by contradiction)).mpr ⟨hunder, k, hk, hup⟩⟩

/-- Nobody occurs twice in the tree. -/
theorem nodup_occurrences : (s.getOrgTree.flatMap (OrgNode.occurrences none)).Nodup := by
  have hseen : ∀ x ∈ ([] : List String), ∃ j < 0, Rooted s.superiorOf j x := by
    intro x hx
    contradiction
  rw [occurrences_getOrgTree]
  exact nodup_flatMap_node List.filter_sublist (fun e he => rooted_root he) hseen
    fun e he => nodup_occurrences_node (rooted_root he) hseen

/-- The chart is complete in exactly the tables where every agent has a root at most fifty steps
above. -/
theorem orgTreeComplete_iff (s : RegistryState) :
    s.OrgTreeComplete ↔
      ∀ canonicalId, (s.agents.get? canonicalId).isSome →
        ∃ k ≤ maxReportsToWalk, Rooted s.superiorOf k canonicalId := by
  have hplace : ∀ p : String × Option String,
      p ∈ s.agents.entries.map (fun e => (e.1, s.superior e.2)) ↔
        (s.agents.get? p.1).isSome ∧ p.2 = s.superiorOf p.1 := by
    intro p
    rw [List.mem_map]
    constructor
    · rintro ⟨e, he, rfl⟩
      rw [← superiorOf_of_mem he, Dict.mem_entries_iff.mp he]
      exact ⟨rfl, rfl⟩
    · rintro ⟨hsome, hunder⟩
      obtain ⟨row, hget⟩ := Option.isSome_iff_exists.mp hsome
      have hmem : (p.1, row) ∈ s.agents.entries := Dict.mem_entries_iff.mpr hget
      refine ⟨(p.1, row), hmem, ?_⟩
      rw [← superiorOf_of_mem hmem, ← hunder]
  have hnodup : (s.agents.entries.map fun e => (e.1, s.superior e.2)).Nodup := by
    apply List.Nodup.of_map Prod.fst
    rw [List.map_map]
    exact s.agents.nodup
  rw [OrgTreeComplete, List.perm_ext_iff_of_nodup nodup_occurrences hnodup]
  constructor
  · intro hsame canonicalId hsome
    have hin := (hsame (canonicalId, s.superiorOf canonicalId)).mpr ((hplace _).mpr ⟨hsome, rfl⟩)
    exact (mem_occurrences_iff.mp hin).2.2
  · intro hshallow p
    rw [mem_occurrences_iff, hplace]
    constructor
    · exact fun h => ⟨h.1, h.2.1⟩
    · exact fun h => ⟨h.1, h.2, hshallow p.1 h.1⟩

/-! ## A line of fifty-two agents -/

/-- Every manager is one of the line, and registered. -/
def ManagedInLine (s : RegistryState) : Prop :=
  ∀ canonicalId manager, s.managerOf canonicalId = some manager →
    (∃ j, manager = nameOf j) ∧ (s.agents.get? manager).isSome

theorem nameOf_ne_empty (k : Nat) : nameOf k ≠ "" := by
  intro heq
  have hchars := congrArg String.toList heq
  simp [nameOf, candidate, mintCanonicalId] at hchars

/-- A new agent reports along the line. -/
theorem ManagedInLine.joins (h : s.ManagedInLine) {k : Nat}
    (hagents : s'.agents = s.agents.set (nameOf k) (agentArgs.agent (stamp k))) :
    s'.ManagedInLine := by
  intro canonicalId manager hmanager
  rw [managerOf_set s s' _ _ hagents] at hmanager
  by_cases hid : canonicalId = nameOf k
  · rw [hid, Function.update_self] at hmanager
    contradiction
  · rw [Function.update_of_ne hid] at hmanager
    obtain ⟨hline, hsome⟩ := h canonicalId manager hmanager
    refine ⟨hline, ?_⟩
    rw [hagents, Dict.get?_set]
    split
    · rfl
    · exact hsome

theorem ManagedInLine.setReporting (h : s.ManagedInLine) (canonicalId : String) (k : Nat) :
    (s.setReporting canonicalId (some (nameOf k))).ManagedInLine := by
  unfold RegistryState.setReporting
  split
  · exact h
  · rename_i row hget
    split
    · exact h
    · rename_i haccepted
      intro x manager hmanager
      rw [managerOf_set s _ canonicalId { row with reportsTo := some (nameOf k) } rfl] at hmanager
      have hkept : ∀ y, (s.agents.get? y).isSome →
          ((s.agents.set canonicalId { row with reportsTo := some (nameOf k) }).get? y).isSome := by
        intro y hsome
        rw [Dict.get?_set]
        split
        · rfl
        · exact hsome
      by_cases hx : x = canonicalId
      · rw [hx, Function.update_self] at hmanager
        cases hmanager
        refine ⟨⟨k, rfl⟩, hkept _ ?_⟩
        simp only [refusesManager, Bool.or_eq_true, not_or] at haccepted
        exact Option.isSome_iff_ne_none.mpr fun hnone => haccepted.1.2 (by rw [hnone]; rfl)
      · rw [Function.update_of_ne hx] at hmanager
        obtain ⟨hline, hsome⟩ := h x manager hmanager
        exact ⟨hline, hkept _ hsome⟩

/-- The agents stand in a line, under managers that are registered. -/
theorem managedInLine_lineUp (k : Nat) (hk : k < 60) :
    ∃ s, run step init (lineUp k) = some s ∧ Lined k s ∧ s.ManagedInLine := by
  induction k with
  | zero =>
    obtain ⟨s, hrun, hlined⟩ := lined_lineUp 0 hk
    obtain ⟨t, hjoined, hagents, _⟩ := run_joins (s := init) (k := 0) rfl rfl
    obtain rfl : s = t := Option.some.inj (hrun.symm.trans hjoined)
    refine ⟨s, hrun, hlined, ManagedInLine.joins ?_ hagents⟩
    intro canonicalId manager hmanager
    contradiction
  | succ k ih =>
    obtain ⟨s, hrun, hlined, hmanaged⟩ := ih (by omega)
    obtain ⟨s', hrun', hlined'⟩ := hlined.succ hk
    obtain ⟨t, hjoined, hagents, _⟩ :=
      run_joins (hlined.calls (k + 1) (Nat.lt_succ_self k))
        (hlined.free (k + 1) (Nat.lt_succ_self k) hk)
    refine ⟨s', ?_, hlined', ?_⟩
    · rw [lineUp, run_append, hrun]
      exact hrun'
    · rw [run_append, hjoined, Option.bind_some] at hrun'
      cases hrun'
      exact (hmanaged.joins hagents).setReporting _ _

/-- In a line the superior is the manager. -/
theorem superiorOf_eq_managerOf (h : s.ManagedInLine) : s.superiorOf = s.managerOf := by
  funext canonicalId
  cases hget : s.agents.get? canonicalId with
  | none => rw [superiorOf, managerOf, hget, Option.bind_none, Option.bind_none]
  | some row =>
    rw [superiorOf, managerOf, hget, Option.bind_some, Option.bind_some]
    cases hmanager : row.reportsTo with
    | none => rw [superior, hmanager, Option.filter_none]
    | some manager =>
      have hline : s.managerOf canonicalId = some manager := by
        rw [managerOf, hget, Option.bind_some, hmanager]
      obtain ⟨⟨j, rfl⟩, hsome⟩ := h canonicalId manager hline
      rw [superior, hmanager]
      exact Option.filter_some_pos (decide_eq_true ⟨nameOf_ne_empty j, hsome⟩)

/-- Fifty-two agents stand in a line. -/
def deepLine : List RegistryEvent := lineUp 51

/-- The last agent of the line is not in the chart. -/
theorem not_orgTreeComplete : ∃ s, run step init deepLine = some s ∧ ¬s.OrgTreeComplete := by
  obtain ⟨s, hrun, hlined, hmanaged⟩ := managedInLine_lineUp 51 (by norm_num)
  refine ⟨s, hrun, ?_⟩
  intro hcomplete
  obtain ⟨k, hk, hrooted⟩ := (orgTreeComplete_iff s).mp hcomplete (nameOf 51) hlined.last
  rw [superiorOf_eq_managerOf hmanaged] at hrooted
  have hnone := hrooted.ancestor_eq_none (Nat.lt_succ_of_le hk)
  have hheight := hlined.height
  rw [show maxReportsToWalk.succ = 51 from rfl] at hnone
  rw [hnone] at hheight
  exact Option.some_ne_none _ hheight.symm

end RegistryState

end TinyAgentOS.Registry
