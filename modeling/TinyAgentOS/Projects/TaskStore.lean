import Mathlib.Data.List.Sort
import Mathlib.Tactic
import TinyAgentOS.Library.Blocking

/-!
# The project task store

Tasks and typed relationships between them.  A `blocks` relationship goes
from the dependent task to its blocker.  The `ready_tasks` view and
`get_task_context` each walk the relationships on their own; both are read
here through the same two relations, `Blocks` and `Pending`.

Main results:

- `mem_readyTasks_iff`: the view lists the open, unclaimed, unblocked tasks.
- `getTaskContext_isBlocked_iff`: the context reports blocked tasks.
- `closeTask_getTask` and `closeTask_pending`: what a close changes.
-/

namespace TinyAgentOS.Projects

open Blocking

abbrev TaskId := String

/-- The status column is free text: an update writes what it is given. -/
abbrev Status := String

/-- Readings of `time.time()`. -/
abbrev Clock := Int

/-- Statuses in which a task no longer blocks. -/
def finishedStatuses : List Status := ["closed", "cancelled"]

/-- A row of `project_tasks`. -/
structure Task where
  id : TaskId
  projectId : String
  parentTaskId : Option TaskId
  title : String
  body : String
  status : Status
  priority : Int
  labels : List String
  assigneeId : Option String
  elementId : Option String
  claimedBy : Option String
  claimedAt : Option Clock
  closedAt : Option Clock
  closedBy : Option String
  closeReason : Option String
  createdBy : String
  createdAt : Clock
  updatedAt : Clock
deriving DecidableEq

/-- The kinds `add_relationship` accepts. -/
inductive RelationshipKind where
  | blocks
  | relatesTo
  | duplicates
  | supersedes
deriving DecidableEq

/-- A row of `task_relationships`. -/
structure Relationship where
  id : String
  projectId : String
  fromTaskId : TaskId
  toTaskId : TaskId
  kind : RelationshipKind
  createdBy : String
  createdAt : Clock

/-- Which end of a relationship `list_relationships` matches. -/
inductive Direction where
  | from
  | to
deriving DecidableEq

/-- The end of a relationship a direction names. -/
def Direction.column : Direction → Relationship → TaskId
  | .from => Relationship.fromTaskId
  | .to => Relationship.toTaskId

/-- The two tables, with the primary key of the tasks. -/
structure TaskDb where
  tasks : List Task
  relationships : List Relationship
  ids_nodup : (tasks.map Task.id).Nodup

namespace TaskDb

/-- Read a task by its primary key. -/
def getTask (db : TaskDb) (taskId : TaskId) : Option Task :=
  db.tasks.find? fun t => t.id = taskId

/-- The element filter: none, the untagged tasks, or one element. -/
def elementMatches (elementId : Option String) (t : Task) : Bool :=
  match elementId with
  | none => true
  | some "none" => t.elementId.isNone
  | some e => t.elementId = some e

/-- The `WHERE` clause of `list_tasks`. -/
def listed (projectId : String) (status : Option Status) (parentTaskId : Option TaskId)
    (elementId : Option String) (t : Task) : Bool :=
  t.projectId = projectId && status.all (fun s => t.status = s) &&
    parentTaskId.all (fun p => t.parentTaskId = some p) && elementMatches elementId t

/-- Tasks of a project, oldest first. -/
def listTasks (db : TaskDb) (projectId : String) (status : Option Status)
    (parentTaskId : Option TaskId) (elementId : Option String) : List Task :=
  (db.tasks.filter (listed projectId status parentTaskId elementId)).insertionSort
    fun a b => a.createdAt ≤ b.createdAt

/-- Relationships of a task in one direction, oldest first. -/
def listRelationships (db : TaskDb) (taskId : TaskId) (direction : Direction) :
    List Relationship :=
  (db.relationships.filter fun r => direction.column r = taskId).insertionSort
    fun a b => a.createdAt ≤ b.createdAt

/-- The subquery of the view: relationships of a task that still block it. -/
def openBlockers (db : TaskDb) (t : Task) : List (Relationship × Task) :=
  (db.relationships.product db.tasks).filter fun (r, bt) =>
    bt.id = r.toTaskId ∧ r.fromTaskId = t.id ∧ r.kind = .blocks ∧ bt.status ∉ finishedStatuses

/-- The `ready_tasks` view. -/
def readyTasks (db : TaskDb) : List Task :=
  db.tasks.filter fun t =>
    t.status = "open" ∧ t.claimedBy = none ∧ db.openBlockers t = []

end TaskDb

/-! ## Task context -/

/-- What `get_task_context` shows of an ancestor or a blocker. -/
structure TaskSummary where
  id : TaskId
  title : String
  status : Status

/-- What `get_task_context` shows of the project. -/
structure ProjectSummary where
  id : String
  name : Option String
  description : Option String

/-- Relational context of a task. -/
structure TaskContext where
  project : ProjectSummary
  ancestry : List TaskSummary
  blockers : List TaskSummary
  isBlocked : Bool

/-- The summary of a row. -/
def Task.summary (t : Task) : TaskSummary := ⟨t.id, t.title, t.status⟩

namespace TaskDb

/-- Depth cap of the ancestor walk. -/
def maxAncestryDepth : Nat := 50

/-- The ancestor walk, nearest first: it ends at a missing or empty parent, at one
already seen, or at the depth cap. -/
def ancestryWalk (db : TaskDb) : Nat → List TaskId → Option TaskId → List TaskSummary
  | 0, _, _ => []
  | _ + 1, _, none => []
  | depth + 1, seen, some parentId =>
    if parentId = "" ∨ parentId ∈ seen then []
    else
      match db.getTask parentId with
      | none => []
      | some parent =>
        parent.summary :: db.ancestryWalk depth (parentId :: seen) parent.parentTaskId

/-- The blockers of a task that still exist. -/
def blockersOf (db : TaskDb) (taskId : TaskId) : List TaskSummary :=
  (db.listRelationships taskId .from).filterMap fun rel =>
    if rel.kind = .blocks then (db.getTask rel.toTaskId).map Task.summary else none

/-- `get_task_context`; `none` stands for its `task not found`.  The
project store is optional. -/
def getTaskContext (db : TaskDb) (projectStore : Option (String → Option ProjectSummary))
    (taskId : TaskId) : Option TaskContext :=
  (db.getTask taskId).map fun task =>
    { project :=
        match projectStore.bind fun store => store task.projectId with
        | some proj => proj
        | none => ⟨task.projectId, none, none⟩
      ancestry := (db.ancestryWalk maxAncestryDepth [taskId] task.parentTaskId).reverse
      blockers := db.blockersOf taskId
      isBlocked := (db.blockersOf taskId).any fun b => b.status ∉ finishedStatuses }

/-! ## Closing a task -/

/-- Rewrite the rows a condition selects; the primary key stays. -/
def updateTasks (db : TaskDb) (selects : Task → Bool) (f : Task → Task)
    (hid : ∀ t, (f t).id = t.id) : TaskDb where
  tasks := db.tasks.map fun t => if selects t then f t else t
  relationships := db.relationships
  ids_nodup := by
    have hids : (db.tasks.map fun t => if selects t then f t else t).map Task.id =
        db.tasks.map Task.id := by
      rw [List.map_map]
      apply List.map_congr_left
      intro t _
      simp only [Function.comp]
      split
      · exact hid t
      · rfl
    rw [hids]
    exact db.ids_nodup

/-- The row `close_task` writes. -/
def closedRow (closedBy : String) (reason : Option String) (now : Clock) (t : Task) : Task :=
  { t with
    status := "closed"
    closedBy := some closedBy
    closedAt := some now
    closeReason := reason
    updatedAt := now }

/-- The rows `close_task` may close; without force only the claimer may. -/
def closable (taskId : TaskId) (closedBy : String) (force : Bool) (t : Task) : Bool :=
  t.id = taskId && t.status ∉ finishedStatuses &&
    (force || t.claimedBy = none || t.claimedBy = some closedBy)

/-- `close_task`; the flag tells whether a row changed. -/
def closeTask (db : TaskDb) (taskId : TaskId) (closedBy : String) (reason : Option String)
    (force : Bool) (now : Clock) : TaskDb × Bool :=
  (db.updateTasks (closable taskId closedBy force) (closedRow closedBy reason now) fun _ => rfl,
    db.tasks.any (closable taskId closedBy force))

/-! ## The blocking relation -/

/-- A `blocks` relationship goes from the dependent task to its blocker. -/
def Blocks (db : TaskDb) (dependent blocker : TaskId) : Prop :=
  ∃ r ∈ db.relationships, r.kind = .blocks ∧ r.fromTaskId = dependent ∧ r.toTaskId = blocker

/-- The task exists and is not finished. -/
def Pending (db : TaskDb) (taskId : TaskId) : Prop :=
  ∃ t, db.getTask taskId = some t ∧ t.status ∉ finishedStatuses

variable {taskId : TaskId} {db : TaskDb} {t : Task} {closedBy : String} {force : Bool}
  {reason : Option String} {now : Clock}

/-- A read by primary key finds exactly the row with that id. -/
theorem getTask_eq_some_iff : db.getTask taskId = some t ↔ t ∈ db.tasks ∧ t.id = taskId := by
  constructor
  · intro h
    exact ⟨List.mem_of_find?_eq_some h, by simpa using List.find?_some h⟩
  · rintro ⟨hmem, rfl⟩
    unfold getTask
    cases hfind : db.tasks.find? fun t' => t'.id = t.id with
    | none =>
      rw [List.find?_eq_none] at hfind
      simpa using hfind t hmem
    | some t' =>
      have hmem' := List.mem_of_find?_eq_some hfind
      have hid : t'.id = t.id := by simpa using List.find?_some hfind
      rw [List.inj_on_of_nodup_map db.ids_nodup hmem' hmem hid]

theorem mem_listTasks_iff {projectId : String} :
    t ∈ db.listTasks projectId none none none ↔ t ∈ db.tasks ∧ t.projectId = projectId := by
  simp [listTasks, List.mem_insertionSort, listed, elementMatches]

theorem mem_listRelationships_iff {direction : Direction} {r : Relationship} :
    r ∈ db.listRelationships taskId direction ↔
      r ∈ db.relationships ∧ direction.column r = taskId := by
  simp [listRelationships, List.mem_insertionSort]

theorem openBlockers_eq_nil_iff : db.openBlockers t = [] ↔ ¬Blocked db.Blocks db.Pending t.id := by
  rw [not_blocked_iff, openBlockers, List.filter_eq_nil_iff]
  constructor
  · rintro hnil _ ⟨r, hr, hkind, hfrom, rfl⟩ ⟨bt, hget, hstatus⟩
    obtain ⟨hbt, hid⟩ := getTask_eq_some_iff.mp hget
    exact hnil (r, bt) (List.pair_mem_product.mpr ⟨hr, hbt⟩) (by simp [hid, hfrom, hkind, hstatus])
  · rintro hfree ⟨r, bt⟩ hmem hblock
    obtain ⟨hr, hbt⟩ := List.pair_mem_product.mp hmem
    simp only [decide_eq_true_eq] at hblock
    obtain ⟨hid, hfrom, hkind, hstatus⟩ := hblock
    exact hfree r.toTaskId ⟨r, hr, hkind, hfrom, rfl⟩
      ⟨bt, getTask_eq_some_iff.mpr ⟨hbt, hid⟩, hstatus⟩

/-- The view lists the open, unclaimed tasks that nothing pending blocks. -/
theorem mem_readyTasks_iff :
    t ∈ db.readyTasks ↔ t ∈ db.tasks ∧ t.status = "open" ∧ t.claimedBy = none ∧
      ¬Blocked db.Blocks db.Pending t.id := by
  simp only [readyTasks, List.mem_filter, decide_eq_true_eq, openBlockers_eq_nil_iff]

theorem mem_blockersOf_iff {b : TaskSummary} : b ∈ db.blockersOf taskId ↔
      ∃ t, db.Blocks taskId t.id ∧ db.getTask t.id = some t ∧ t.summary = b := by
  simp only [blockersOf, List.mem_filterMap, mem_listRelationships_iff, Direction.column]
  constructor
  · rintro ⟨r, ⟨hr, hfrom⟩, hsome⟩
    split at hsome
    · rename_i hkind
      obtain ⟨t, hget, hsummary⟩ := Option.map_eq_some_iff.mp hsome
      obtain ⟨_, hid⟩ := getTask_eq_some_iff.mp hget
      exact ⟨t, ⟨r, hr, hkind, hfrom, hid.symm⟩, hid ▸ hget, hsummary⟩
    · contradiction
  · rintro ⟨t, ⟨r, hr, hkind, hfrom, hto⟩, hget, hsummary⟩
    refine ⟨r, ⟨hr, hfrom⟩, ?_⟩
    rw [if_pos hkind, hto, hget, Option.map_some, hsummary]

/-- The context of a task reports it as blocked when something pending blocks it. -/
theorem getTaskContext_isBlocked_iff {projectStore : Option (String → Option ProjectSummary)}
    {context : TaskContext} (h : db.getTaskContext projectStore taskId = some context) :
    context.isBlocked = true ↔ Blocked db.Blocks db.Pending taskId := by
  obtain ⟨task, _, rfl⟩ := Option.map_eq_some_iff.mp h
  simp only [List.any_eq_true, decide_eq_true_eq]
  constructor
  · rintro ⟨b, hb, hstatus⟩
    obtain ⟨t, hblocks, hget, rfl⟩ := mem_blockersOf_iff.mp hb
    exact ⟨t.id, hblocks, t, hget, hstatus⟩
  · rintro ⟨blocker, hblocks, t, hget, hstatus⟩
    obtain ⟨_, rfl⟩ := getTask_eq_some_iff.mp hget
    exact ⟨t.summary, mem_blockersOf_iff.mpr ⟨t, hblocks, hget, rfl⟩, hstatus⟩

/-- Every task in the store has a context. -/
theorem exists_getTaskContext (projectStore : Option (String → Option ProjectSummary))
    (ht : t ∈ db.tasks) : ∃ context, db.getTaskContext projectStore t.id = some context := by
  rw [getTaskContext, getTask_eq_some_iff.mpr ⟨ht, rfl⟩]
  exact ⟨_, rfl⟩

/-! ## What a close changes -/

/-- A close that changed a row closed the task, which was pending before. -/
theorem pending_of_closeTask (h : (db.closeTask taskId closedBy reason force now).2 = true) :
    db.Pending taskId := by
  simp only [closeTask, List.any_eq_true, closable, Bool.and_eq_true, decide_eq_true_eq] at h
  obtain ⟨t, hmem, ⟨hid, hstatus⟩, _⟩ := h
  exact ⟨t, getTask_eq_some_iff.mpr ⟨hmem, hid⟩, by simpa using hstatus⟩

theorem closeTask_mem_iff {d : Task} (hd : d.id ≠ taskId) :
    d ∈ (db.closeTask taskId closedBy reason force now).1.tasks ↔ d ∈ db.tasks := by
  simp only [closeTask, updateTasks, List.mem_map]
  constructor
  · rintro ⟨t, hmem, rfl⟩
    split
    · rename_i hclosable
      rw [if_pos hclosable] at hd
      simp only [closable, Bool.and_eq_true, decide_eq_true_eq] at hclosable
      exact absurd hclosable.1.1 hd
    · exact hmem
  · intro hmem
    refine ⟨d, hmem, if_neg ?_⟩
    simp [closable, hd]

/-- Every other task reads as before. -/
theorem closeTask_getTask {d : TaskId} (hd : d ≠ taskId) :
    (db.closeTask taskId closedBy reason force now).1.getTask d = db.getTask d := by
  ext t
  simp only [getTask_eq_some_iff]
  constructor
  · rintro ⟨hmem, rfl⟩
    exact ⟨(closeTask_mem_iff hd).mp hmem, rfl⟩
  · rintro ⟨hmem, rfl⟩
    exact ⟨(closeTask_mem_iff hd).mpr hmem, rfl⟩

section

variable (h : (db.closeTask taskId closedBy reason force now).2 = true)
include h

/-- A close that changed a row left the task closed. -/
theorem closeTask_getTask_self :
    ∃ t, (db.closeTask taskId closedBy reason force now).1.getTask taskId = some t ∧
      t.status = "closed" := by
  simp only [closeTask, List.any_eq_true] at h
  obtain ⟨row, hrow, hclosable⟩ := h
  have hid : row.id = taskId := by
    simp only [closable, Bool.and_eq_true, decide_eq_true_eq] at hclosable
    exact hclosable.1.1
  refine ⟨closedRow closedBy reason now row, getTask_eq_some_iff.mpr ⟨?_, hid⟩, rfl⟩
  exact List.mem_map.mpr ⟨row, hrow, if_pos hclosable⟩

theorem status_ne_open_of_closeTask
    (hget : (db.closeTask taskId closedBy reason force now).1.getTask taskId = some t) :
    t.status ≠ "open" := by
  obtain ⟨row, hrow, hclosed⟩ := closeTask_getTask_self h
  obtain rfl : row = t := by simpa [hrow] using hget
  simp [hclosed]

/-- A close that changed a row finishes that task and no other. -/
theorem closeTask_pending :
    (db.closeTask taskId closedBy reason force now).1.Pending = finish db.Pending taskId := by
  ext b
  unfold finish
  by_cases hb : b = taskId
  · subst hb
    simp only [ne_eq, not_true_eq_false, and_false, iff_false]
    obtain ⟨row, hrow, hclosed⟩ := closeTask_getTask_self h
    rintro ⟨t, hget, hstatus⟩
    obtain rfl : row = t := by simpa [hrow] using hget
    simp [hclosed, finishedStatuses] at hstatus
  · simp only [Pending, closeTask_getTask hb, ne_eq, hb, not_false_eq_true, and_true]

end

@[simp]
theorem closeTask_blocks (db : TaskDb) (taskId : TaskId) (closedBy : String)
    (reason : Option String) (force : Bool) (now : Clock) :
    (db.closeTask taskId closedBy reason force now).1.Blocks = db.Blocks :=
  rfl

end TaskDb

end TinyAgentOS.Projects
