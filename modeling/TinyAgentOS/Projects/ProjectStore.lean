import TinyAgentOS.Library.Dict
import TinyAgentOS.Library.Transition
import TinyAgentOS.Projects.TaskStore

/-!
# Projects, their leads and their names

The lead of a project is a column of its row, and the members are rows of another
table.  The store keeps the two together by reading one before it writes the other.
Names are compared when a project is created, and neither when it is renamed nor when a
deleted one is brought back.  Every statement is atomic, and a call awaits each of its
own.

Main results:

- `ProjectState.namesDiffer_set_iff`: when a row may be written.
- `ProjectState.sound_step_iff`: the statements that keep leads and names in order.
- `ProjectState.alwaysSound_iff`: the runs that keep them.
- `ProjectState.not_alwaysSound`: a lead that has left, and two projects of one name.
-/

namespace TinyAgentOS.Projects

open Collections Transition

/-! ## Rows -/

/-- The statuses that `set_status` accepts. -/
inductive ProjectStatus where
  | active
  | archived
  | deleted
deriving DecidableEq

/-- The status of a name, if that is valid. -/
def ProjectStatus.ofName? : String → Option ProjectStatus
  | "active" => some .active
  | "archived" => some .archived
  | "deleted" => some .deleted
  | _ => none

/-- A row of `projects`. -/
structure Project where
  name : String
  slug : String
  description : String
  status : ProjectStatus
  createdBy : String
  userId : String
  createdAt : Clock
  updatedAt : Clock
  archivedAt : Option Clock
  deletedAt : Option Clock
  leadMemberId : Option String
  settings : String

/-- A row of `project_members`. -/
structure ProjectMember where
  memberKind : String
  role : String
  sourceAgentId : Option String
  memorySeed : String
  addedAt : Clock

/-- The exceptions of the store. -/
inductive ProjectError where
  | conflict (field taken : String)
  | keyError (message : String)
  | valueError (message : String)
  | integrity

/-- SQLite's `LOWER`, which folds ASCII letters alone. -/
def lower (text : String) : List Char :=
  text.toList.map Char.toLower

/-- A project that is not deleted. -/
def Project.Live (p : Project) : Prop :=
  p.status ≠ .deleted

/-- The arguments of `create_project`. -/
structure ProjectArgs where
  name : String
  slug : String
  createdBy : String
  description : String := ""
  settings : String := "{}"
  userId : String := ""

/-- The row that `create_project` inserts. -/
def ProjectArgs.row (args : ProjectArgs) (now : Clock) : Project :=
  { name := args.name
    slug := args.slug
    description := args.description
    status := .active
    createdBy := args.createdBy
    userId := args.userId
    createdAt := now
    updatedAt := now
    archivedAt := none
    deletedAt := none
    leadMemberId := none
    settings := args.settings }

theorem ProjectArgs.live_row (args : ProjectArgs) (now : Clock) : (args.row now).Live := by
  simp [Project.Live, ProjectArgs.row]

/-- The columns that `update_project` can change. -/
structure ProjectPatch where
  name : Option String := none
  description : Option String := none
  settings : Option String := none
deriving DecidableEq

/-- The `SET` clauses of `update_project`, if there are any. -/
def ProjectPatch.setIn (patch : ProjectPatch) (now : Clock) (p : Project) : Project :=
  if patch = {} then p
  else
    { p with
      name := patch.name.getD p.name
      description := patch.description.getD p.description
      settings := patch.settings.getD p.settings
      updatedAt := now }

/-- The `SET` clauses of `set_status`. -/
def Project.withStatus (p : Project) (status : ProjectStatus) (now : Clock) : Project :=
  { p with
    status := status
    updatedAt := now
    archivedAt := if status = .archived then some now else p.archivedAt
    deletedAt := if status = .deleted then some now else p.deletedAt }

/-- The row that `add_member` inserts, after its checks.  A human member carries no agent
fields. -/
def memberRow (memberKind role : String) (sourceAgentId : Option String) (memorySeed : String)
    (now : Clock) : Except ProjectError ProjectMember :=
  let human := memberKind = "human"
  let memorySeed := if human then "none" else memorySeed
  if memberKind ∉ ["native", "clone", "human"] then
    .error (.valueError ("invalid member_kind: " ++ memberKind))
  else if memorySeed ∉ ["none", "snapshot", "empty"] then
    .error (.valueError ("invalid memory_seed: " ++ memorySeed))
  else
    .ok
      { memberKind := memberKind
        role := role
        sourceAgentId := if human then none else sourceAgentId
        memorySeed := memorySeed
        addedAt := now }

/-! ## Calls -/

/-- Where a call of several statements stands. -/
inductive ProjectCall where
  /-- `create_project` has found no project of the name. -/
  | inserting (projectId : String) (args : ProjectArgs) (now : Clock)
  /-- `remove_member` has deleted the member. -/
  | clearingLead (projectId memberId : String)
  /-- `set_lead` has found the project. -/
  | readingMember (projectId memberId : String)
  /-- `set_lead` has found the member, or is to unset the lead. -/
  | settingLead (projectId : String) (memberId : Option String)
  | done (error : Option ProjectError)

/-- The statements of the calls.  A creation comes with the id it draws. -/
inductive ProjectStatement where
  | createCalled (id : Nat) (args : ProjectArgs) (projectId : String) (now : Clock)
  | inserted (id : Nat)
  | updateCalled (projectId : String) (patch : ProjectPatch) (now : Clock)
  | statusSet (projectId status : String) (now : Clock)
  | memberAdded (projectId memberId memberKind role : String) (sourceAgentId : Option String)
      (memorySeed : String) (now : Clock)
  | memberRemoved (id : Nat) (projectId memberId : String)
  | leadCleared (id : Nat)
  | setLeadCalled (id : Nat) (projectId : String) (memberId : Option String)
  | memberRead (id : Nat)
  | leadSet (id : Nat)

/-- The two tables and the calls. -/
structure ProjectState where
  projects : Dict String Project
  members : Dict (String × String) ProjectMember
  calls : Dict Nat ProjectCall

namespace ProjectState

/-- Empty tables. -/
def init : ProjectState := ⟨Dict.empty, Dict.empty, Dict.empty⟩

/-- The call awaits another statement, or has ended. -/
def goOn (s : ProjectState) (id : Nat) (call : ProjectCall) : ProjectState :=
  { s with calls := s.calls.set id call }

/-- `get_project_by_name` finds a row. -/
def nameTaken (s : ProjectState) (name : String) : Bool :=
  s.projects.values.any fun p => lower p.name = lower name

/-- The unique index on slugs has an entry. -/
def slugTaken (s : ProjectState) (slug : String) : Bool :=
  s.projects.values.any fun p => p.slug = slug

/-- `UPDATE projects … WHERE id = ?`. -/
def update (s : ProjectState) (projectId : String) (f : Project → Project) : ProjectState :=
  { s with projects := s.projects.modify projectId f }

/-- One statement. -/
def step (s : ProjectState) : ProjectStatement → Option ProjectState
  | .createCalled id args projectId now =>
    if (s.calls.get? id).isSome then none
    else if s.nameTaken args.name then
      some (s.goOn id (.done (some (.conflict "name" args.name))))
    else some (s.goOn id (.inserting projectId args now))
  | .inserted id =>
    match s.calls.get? id with
    | some (.inserting projectId args now) =>
      if s.slugTaken args.slug then
        some (s.goOn id (.done (some (.conflict "slug" args.slug))))
      else if (s.projects.get? projectId).isSome then
        some (s.goOn id (.done (some .integrity)))
      else
        some
          { s.goOn id (.done none) with
            projects := s.projects.set projectId (args.row now) }
    | _ => none
  | .updateCalled projectId patch now => some (s.update projectId (patch.setIn now))
  | .statusSet projectId status now =>
    match ProjectStatus.ofName? status with
    | none => some s
    | some st => some (s.update projectId fun p => p.withStatus st now)
  | .memberAdded projectId memberId memberKind role sourceAgentId memorySeed now =>
    match memberRow memberKind role sourceAgentId memorySeed now with
    | .error _ => some s
    | .ok row =>
      if (s.members.get? (projectId, memberId)).isSome then some s
      else some { s with members := s.members.set (projectId, memberId) row }
  | .memberRemoved id projectId memberId =>
    if (s.calls.get? id).isSome then none
    else
      some
        { s.goOn id (.clearingLead projectId memberId) with
          members := s.members.pop (projectId, memberId) }
  | .leadCleared id =>
    match s.calls.get? id with
    | some (.clearingLead projectId memberId) =>
      some ((s.update projectId fun p =>
          if p.leadMemberId = some memberId then { p with leadMemberId := none } else p).goOn
        id (.done none))
    | _ => none
  | .setLeadCalled id projectId memberId =>
    if (s.calls.get? id).isSome then none
    else if (s.projects.get? projectId).isNone then
      some (s.goOn id (.done (some (.keyError ("project '" ++ projectId ++ "' not found")))))
    else
      match memberId with
      | none => some (s.goOn id (.settingLead projectId none))
      | some member => some (s.goOn id (.readingMember projectId member))
  | .memberRead id =>
    match s.calls.get? id with
    | some (.readingMember projectId memberId) =>
      if (s.members.get? (projectId, memberId)).isNone then
        some (s.goOn id (.done (some (.keyError
          ("member '" ++ memberId ++ "' not in project '" ++ projectId ++ "'")))))
      else some (s.goOn id (.settingLead projectId (some memberId)))
    | _ => none
  | .leadSet id =>
    match s.calls.get? id with
    | some (.settingLead projectId memberId) =>
      some ((s.update projectId fun p => { p with leadMemberId := memberId }).goOn id
        (.done none))
    | _ => none

theorem step_statusSet_ne_none (s : ProjectState) (projectId status : String) (now : Clock) :
    s.step (.statusSet projectId status now) ≠ none := by
  simp only [step]
  split <;> exact Option.some_ne_none _

/-! ## Leads and names -/

/-- The lead of every project is a member of it. -/
def LeadsAreMembers (s : ProjectState) : Prop :=
  ∀ projectId p, s.projects.get? projectId = some p → ∀ memberId ∈ p.leadMemberId,
    (s.members.get? (projectId, memberId)).isSome

/-- No other live project has the name. -/
def NameFree (s : ProjectState) (projectId name : String) : Prop :=
  ∀ other p, s.projects.get? other = some p → p.Live → lower p.name = lower name →
    other = projectId

/-- No two live projects have one name. -/
def NamesDiffer (s : ProjectState) : Prop :=
  ∀ projectId p, s.projects.get? projectId = some p → p.Live → s.NameFree projectId p.name

/-- Leads and names are in order. -/
def Sound (s : ProjectState) : Prop :=
  s.LeadsAreMembers ∧ s.NamesDiffer

variable {s s' : ProjectState} {id : Nat}

/-- A row may be written when it is deleted or its name is free. -/
theorem namesDiffer_set_iff (h : s.NamesDiffer) (projectId : String)
    (row : Project) (calls : Dict Nat ProjectCall)
    (members : Dict (String × String) ProjectMember) :
    NamesDiffer ⟨s.projects.set projectId row, members, calls⟩ ↔
      (row.Live → s.NameFree projectId row.name) := by
  have hself : (s.projects.set projectId row).get? projectId = some row :=
    Dict.get?_set_self _ _ _
  constructor
  · intro hafter hlive other p hget hother hname
    by_contra hne
    apply hne
    refine hafter projectId row hself hlive other p ?_ hother hname
    show (s.projects.set projectId row).get? other = some p
    rw [Dict.get?_set_of_ne _ _ (Ne.symm hne), hget]
  · intro hfree x p hget hlive other q hother hlive' hname
    have hget' : (s.projects.set projectId row).get? x = some p := hget
    have hother' : (s.projects.set projectId row).get? other = some q := hother
    by_cases hx : projectId = x
    · subst hx
      rw [hself] at hget'
      cases hget'
      by_cases ho : projectId = other
      · exact ho.symm
      · rw [Dict.get?_set_of_ne _ _ ho] at hother'
        exact hfree hlive other q hother' hlive' hname
    · rw [Dict.get?_set_of_ne _ _ hx] at hget'
      by_cases ho : projectId = other
      · subst ho
        rw [hself] at hother'
        cases hother'
        exact absurd (hfree hlive' x p hget' hlive hname.symm) (Ne.symm hx)
      · rw [Dict.get?_set_of_ne _ _ ho] at hother'
        exact h x p hget' hlive other q hother' hlive' hname

theorem namesDiffer_update_iff (h : s.NamesDiffer) (projectId : String) (f : Project → Project) :
    (s.update projectId f).NamesDiffer ↔
      ∀ p ∈ s.projects.get? projectId, (f p).Live → s.NameFree projectId (f p).name := by
  unfold update
  cases hget : s.projects.get? projectId with
  | none => simpa [Dict.modify, hget] using h
  | some p =>
    simp only [Dict.modify_of_get? hget, Option.mem_def, Option.some.injEq, forall_eq']
    exact namesDiffer_set_iff h projectId (f p) s.calls s.members

/-- An update that keeps or unsets the lead. -/
theorem LeadsAreMembers.update (h : s.LeadsAreMembers) (projectId : String) {f : Project → Project}
    (hf : ∀ p, (f p).leadMemberId = p.leadMemberId ∨ (f p).leadMemberId = none) :
    (s.update projectId f).LeadsAreMembers := by
  intro x p hget memberId hlead
  rcases Dict.get?_modify_cases hget with ⟨_, q, hq, rfl⟩ | ⟨_, hold⟩
  · rcases hf q with hsame | hnone
    · rw [hsame] at hlead
      exact h x q hq memberId hlead
    · rw [hnone] at hlead
      contradiction
  · exact h x p hold memberId hlead

/-- The lead of a project may be set to a member. -/
theorem leadsAreMembers_leadSet_iff (h : s.LeadsAreMembers)
    (projectId : String) (memberId : Option String) :
    (s.update projectId fun p => { p with leadMemberId := memberId }).LeadsAreMembers ↔
      ∀ p ∈ s.projects.get? projectId, ∀ m ∈ memberId,
        (s.members.get? (projectId, m)).isSome := by
  have hread : ∀ x, (s.update projectId fun p => { p with leadMemberId := memberId }).projects.get?
      x = if projectId = x then (s.projects.get? x).map fun p => { p with leadMemberId := memberId }
        else s.projects.get? x :=
    fun x => Dict.get?_modify s.projects projectId x _
  constructor
  · intro hafter p hget m hm
    refine hafter projectId { p with leadMemberId := memberId } ?_ m hm
    rw [hread, if_pos rfl, Option.mem_def.mp hget, Option.map_some]
  · intro hmember x p hget m hm
    rw [hread] at hget
    split at hget
    · rename_i hx
      subst hx
      obtain ⟨q, hq, rfl⟩ := Option.map_eq_some_iff.mp hget
      exact hmember q hq m hm
    · exact h x p hget m hm

/-- A member may be removed who leads no project. -/
theorem leadsAreMembers_pop_iff (h : s.LeadsAreMembers)
    (projectId memberId : String) (calls : Dict Nat ProjectCall) :
    LeadsAreMembers ⟨s.projects, s.members.pop (projectId, memberId), calls⟩ ↔
      ∀ p ∈ s.projects.get? projectId, p.leadMemberId ≠ some memberId := by
  constructor
  · intro hafter p hget hlead
    have hmember := hafter projectId p hget memberId hlead
    simp at hmember
  · intro hother x p hget m hm
    show ((s.members.pop (projectId, memberId)).get? (x, m)).isSome = true
    rw [Dict.get?_pop, if_neg]
    · exact h x p hget m hm
    · rintro ⟨⟩
      exact hother p hget hm

/-! ## Statements -/

/-- The statements that write what they should: a row whose name is free among the live
projects, a lead who is a member, and no removal of the lead. -/
def Orderly (s : ProjectState) : ProjectStatement → Prop
  | .inserted id =>
    ∀ projectId args now, s.calls.get? id = some (.inserting projectId args now) →
      s.slugTaken args.slug = false → s.projects.get? projectId = none →
      s.NameFree projectId args.name
  | .updateCalled projectId patch _ =>
    ∀ p ∈ s.projects.get? projectId, p.Live → ∀ name ∈ patch.name, s.NameFree projectId name
  | .statusSet projectId status _ =>
    ∀ st ∈ ProjectStatus.ofName? status, st ≠ .deleted →
      ∀ p ∈ s.projects.get? projectId, s.NameFree projectId p.name
  | .memberRemoved id projectId memberId =>
    s.calls.get? id = none →
      ∀ p ∈ s.projects.get? projectId, p.leadMemberId ≠ some memberId
  | .leadSet id =>
    ∀ projectId memberId, s.calls.get? id = some (.settingLead projectId memberId) →
      ∀ p ∈ s.projects.get? projectId, ∀ m ∈ memberId,
        (s.members.get? (projectId, m)).isSome
  | _ => True

variable {e : ProjectStatement} {projectId : String} {now : Clock}

theorem orderly_of_none (hstep : s.step e = none) : s.Orderly e := by
  cases e with
  | inserted id =>
    intro projectId args now hcall hslug hid
    simp [step, hcall, hslug, hid] at hstep
  | memberRemoved id projectId memberId =>
    intro hnew
    simp [step, hnew] at hstep
  | leadSet id =>
    intro projectId memberId hcall
    simp [step, hcall] at hstep
  | updateCalled projectId patch now => contradiction
  | statusSet projectId status now => exact absurd hstep (s.step_statusSet_ne_none _ _ _)
  | _ => trivial

/-- A new project has no lead. -/
theorem LeadsAreMembers.insert (h : s.LeadsAreMembers) (projectId : String)
    (row : Project) (hrow : row.leadMemberId = none) (calls : Dict Nat ProjectCall) :
    LeadsAreMembers ⟨s.projects.set projectId row, s.members, calls⟩ := by
  intro x p hget m hm
  rcases Dict.get?_set_cases hget with ⟨_, rfl⟩ | ⟨_, hold⟩
  · rw [hrow] at hm
    contradiction
  · exact h x p hold m hm

theorem sound_inserted_iff (h : s.Sound)
    (hstep : s.step (.inserted id) = some s') : s'.Sound ↔ s.Orderly (.inserted id) := by
  simp only [step] at hstep
  split at hstep
  · rename_i projectId args now hcall
    have horderly : s.Orderly (.inserted id) ↔
        (s.slugTaken args.slug = false → s.projects.get? projectId = none →
          s.NameFree projectId args.name) := by
      constructor
      · exact fun hguard => hguard projectId args now hcall
      · intro hfree projectId' args' now' hcall'
        rw [hcall] at hcall'
        cases hcall'
        exact hfree
    rw [horderly]
    split at hstep
    · rename_i hslug
      cases hstep
      exact iff_of_true h fun hfalse => by simp [hslug] at hfalse
    · rename_i hslug
      split at hstep
      · rename_i hid
        cases hstep
        exact iff_of_true h fun _ hnone => by simp [hnone] at hid
      · rename_i hid
        cases hstep
        have hleads := h.1.insert projectId (args.row now) rfl
          ((s.goOn id (.done none)).calls)
        have hnames := namesDiffer_set_iff h.2 projectId (args.row now)
          ((s.goOn id (.done none)).calls) s.members
        constructor
        · intro hsound _ _
          exact hnames.mp hsound.2 (args.live_row now)
        · intro hfree
          refine ⟨hleads, hnames.mpr fun _ => ?_⟩
          exact hfree (by simpa using hslug) (by simpa using hid)
  · contradiction

theorem sound_updateCalled_iff (h : s.Sound) (projectId : String)
    (patch : ProjectPatch) (now : Clock) : (s.update projectId (patch.setIn now)).Sound ↔
      s.Orderly (.updateCalled projectId patch now) := by
  have hleads : (s.update projectId (patch.setIn now)).LeadsAreMembers := by
    apply h.1.update
    intro p
    left
    unfold ProjectPatch.setIn
    split <;> rfl
  have hlive : ∀ p, (patch.setIn now p).Live ↔ p.Live := by
    intro p
    unfold ProjectPatch.setIn
    split <;> rfl
  have hname : ∀ p, (patch.setIn now p).name = patch.name.getD p.name := by
    intro p
    unfold ProjectPatch.setIn
    split
    · rename_i hempty
      rw [hempty]
      rfl
    · rfl
  rw [Sound, and_iff_right hleads, namesDiffer_update_iff h.2]
  constructor
  · intro hfree p hget hp name hpatch
    have hfree' := hfree p hget ((hlive p).mpr hp)
    rwa [hname, Option.mem_def.mp hpatch] at hfree'
  · intro hfree p hget hp
    rw [hname]
    cases hpatch : patch.name with
    | none => exact h.2 projectId p hget ((hlive p).mp hp)
    | some name => exact hfree p hget ((hlive p).mp hp) name hpatch

theorem sound_statusSet_iff (h : s.Sound) {status : String}
    (hstep : s.step (.statusSet projectId status now) = some s') :
    s'.Sound ↔ s.Orderly (.statusSet projectId status now) := by
  simp only [step] at hstep
  split at hstep
  · rename_i hnone
    cases hstep
    refine iff_of_true h ?_
    intro st hst
    rw [hnone] at hst
    contradiction
  · rename_i st hsome
    cases hstep
    have hleads : (s.update projectId fun p => p.withStatus st now).LeadsAreMembers :=
      h.1.update projectId fun p => Or.inl rfl
    rw [Sound, and_iff_right hleads, namesDiffer_update_iff h.2]
    constructor
    · intro hfree st' hst' hne p hget
      rw [hsome] at hst'
      cases hst'
      exact hfree p hget hne
    · intro hfree p hget hlive
      exact hfree st hsome hlive p hget

theorem sound_leadSet_iff (h : s.Sound)
    (hstep : s.step (.leadSet id) = some s') : s'.Sound ↔ s.Orderly (.leadSet id) := by
  simp only [step] at hstep
  split at hstep
  · rename_i projectId memberId hcall
    cases hstep
    have hnames : (s.update projectId fun p => { p with leadMemberId := memberId }).NamesDiffer :=
      (namesDiffer_update_iff h.2 projectId _).mpr fun p hget hlive => h.2 projectId p hget hlive
    have hleads := leadsAreMembers_leadSet_iff h.1 projectId memberId
    constructor
    · intro hsound projectId' memberId' hcall'
      rw [hcall] at hcall'
      cases hcall'
      exact hleads.mp hsound.1
    · intro hguard
      exact ⟨hleads.mpr (hguard projectId memberId hcall), hnames⟩
  · contradiction

/-- A member that is added makes no lead dangle. -/
theorem Sound.memberAdded (h : s.Sound)
    {memberId memberKind role : String} {sourceAgentId : Option String}
    {memorySeed : String}
    (hstep : s.step (.memberAdded projectId memberId memberKind role sourceAgentId memorySeed now) =
      some s') : s'.Sound := by
  simp only [step] at hstep
  split at hstep
  · cases hstep
    exact h
  · rename_i row _
    split at hstep
    · cases hstep
      exact h
    · cases hstep
      refine ⟨?_, h.2⟩
      intro x p hget m hm
      have hmember := h.1 x p hget m hm
      show ((s.members.set (projectId, memberId) row).get? (x, m)).isSome = true
      rw [Dict.get?_set]
      split
      · rfl
      · exact hmember

theorem sound_memberRemoved_iff (h : s.Sound) {memberId : String}
    (hstep : s.step (.memberRemoved id projectId memberId) = some s') :
    s'.Sound ↔ s.Orderly (.memberRemoved id projectId memberId) := by
  simp only [step] at hstep
  split at hstep
  · contradiction
  rename_i hnew
  cases hstep
  have hnone : s.calls.get? id = none := by simpa using hnew
  have hleads := leadsAreMembers_pop_iff h.1 projectId memberId
    ((s.goOn id (.clearingLead projectId memberId)).calls)
  constructor
  · intro hsound _
    exact hleads.mp hsound.1
  · intro hguard
    exact ⟨hleads.mpr (hguard hnone), h.2⟩

/-- A lead that is cleared leaves the other leads and every name as they are. -/
theorem Sound.leadCleared (h : s.Sound)
    (hstep : s.step (.leadCleared id) = some s') : s'.Sound := by
  simp only [step] at hstep
  split at hstep
  · rename_i projectId memberId hcall
    cases hstep
    constructor
    · apply h.1.update projectId
      intro p
      split
      · exact Or.inr rfl
      · exact Or.inl rfl
    · apply (namesDiffer_update_iff h.2 projectId _).mpr
      intro p hget hlive
      have hsame : ∀ q : Project, (if q.leadMemberId = some memberId then
          { q with leadMemberId := none } else q).name = q.name ∧
          ((if q.leadMemberId = some memberId then
            { q with leadMemberId := none } else q).Live ↔ q.Live) := by
        intro q
        split <;> exact ⟨rfl, Iff.rfl⟩
      rw [(hsame p).1]
      exact h.2 projectId p hget ((hsame p).2.mp hlive)
  · contradiction

/-- Which statements keep leads and names in order. -/
theorem sound_step_iff (h : s.Sound) (hstep : s.step e = some s') : s'.Sound ↔ s.Orderly e := by
  cases e with
  | createCalled id args projectId now =>
    refine iff_of_true ?_ trivial
    simp only [step] at hstep
    split at hstep
    · contradiction
    · split at hstep <;> (cases hstep; exact h)
  | inserted id => exact sound_inserted_iff h hstep
  | updateCalled projectId patch now =>
    cases hstep
    exact sound_updateCalled_iff h projectId patch now
  | statusSet projectId status now => exact sound_statusSet_iff h hstep
  | memberAdded projectId memberId memberKind role sourceAgentId memorySeed now =>
    exact iff_of_true (h.memberAdded hstep) trivial
  | memberRemoved id projectId memberId => exact sound_memberRemoved_iff h hstep
  | leadCleared id => exact iff_of_true (h.leadCleared hstep) trivial
  | setLeadCalled id projectId memberId =>
    refine iff_of_true ?_ trivial
    simp only [step] at hstep
    split at hstep
    · contradiction
    split at hstep
    · cases hstep
      exact h
    · split at hstep <;> (cases hstep; exact h)
  | memberRead id =>
    refine iff_of_true ?_ trivial
    simp only [step] at hstep
    split at hstep
    · split at hstep <;> (cases hstep; exact h)
    · contradiction
  | leadSet id => exact sound_leadSet_iff h hstep

/-! ## Runs -/

/-- Leads and names are in order in every state of the run. -/
def AlwaysSound (es : List ProjectStatement) : Prop :=
  ∀ pre post s, es = pre ++ post → run step init pre = some s → s.Sound

theorem sound_init : init.Sound := by
  constructor
  · intro projectId p hget
    contradiction
  · intro projectId p hget
    contradiction

/-- Leads and names are in order in exactly the runs of orderly statements. -/
theorem alwaysSound_iff (es : List ProjectStatement) :
    AlwaysSound es ↔ Guarded step Orderly init es := by
  unfold AlwaysSound
  rw [states_iff_everyStep sound_init]
  apply everyStep_iff_guarded (I := Sound)
  · exact fun _ _ hstep => orderly_of_none hstep
  · exact fun _ _ _ h hguard hstep => (sound_step_iff h hstep).mpr hguard
  · exact fun _ _ _ h hstep => sound_step_iff h hstep
  · exact sound_init

/-- The creation of a project. -/
def creation (id : Nat) (name slug projectId : String) : ProjectStatement :=
  .createCalled id { name := name, slug := slug, createdBy := "ada" } projectId 0

/-- A member is removed, pointer and all, while another call makes it the lead. -/
def leadRemoved : List ProjectStatement :=
  [creation 0 "Demo" "demo" "prj", .inserted 0,
    .memberAdded "prj" "m" "native" "member" none "none" 1,
    .setLeadCalled 1 "prj" (some "m"), .memberRead 1, .memberRemoved 2 "prj" "m", .leadCleared 2,
    .leadSet 1]

/-- Two calls create a project of one name, each finding it free. -/
def createdTwice : List ProjectStatement :=
  [creation 0 "Demo" "demo" "prj-a", creation 1 "demo" "demo-2" "prj-b", .inserted 0, .inserted 1]

/-- The lead has left, and two live projects differ by case alone. -/
theorem not_alwaysSound : ¬AlwaysSound leadRemoved ∧ ¬AlwaysSound createdTwice := by
  constructor
  · intro hsound
    obtain ⟨hleads, _⟩ := hsound leadRemoved [] _ (by simp) rfl
    have hmember := hleads "prj" _ rfl "m" rfl
    exact absurd hmember (by decide)
  · intro hsound
    obtain ⟨_, hnames⟩ := hsound createdTwice [] _ (by simp) rfl
    have hsame := hnames "prj-a" _ rfl (ProjectArgs.live_row _ _) "prj-b" _ rfl
      (ProjectArgs.live_row _ _) (by decide)
    exact absurd hsame (by decide)

end ProjectState

end TinyAgentOS.Projects
