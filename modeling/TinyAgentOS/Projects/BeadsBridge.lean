import TinyAgentOS.Projects.TaskStore

/-!
# The Beads bridge: export and announcements

The bridge renders a project's tasks to JSONL with a `ready` flag, and
announces the tasks a close makes ready.  Both walk the `blocks`
relationships from the blocker's end, while the store puts the dependent there.

Main results:

- `exports_ready_iff` and `mem_announced_iff`: what the bridge reads off the graph.
- `exportAgrees_iff`: the graphs whose export agrees with the view.
- `announcesExactly_iff`: the closes whose announcements are exact.
-/

namespace TinyAgentOS.Projects

open Blocking

/-! ## Formats -/

/-- A dependency in the JSONL schema. -/
structure JsonlDep where
  taskId : TaskId
  kind : RelationshipKind

/-- One line of the export, before it is dumped. -/
structure JsonlTask where
  id : TaskId
  title : String
  description : String
  status : Status
  priority : String
  labels : List String
  assigneeIds : List String
  parentId : Option TaskId
  elementId : Option String
  deps : List JsonlDep
  ready : Bool
  createdAt : String
  updatedAt : String

/-- `_PRIORITY_MAP`, with `p0` for every other priority. -/
def priorityName (priority : Int) : String :=
  if priority = 0 then "p3" else if priority = 1 then "p2" else if priority = 2 then "p1" else "p0"

/-- Empty text counts as absent, as in Python's `or`. -/
def truthy (text : Option String) : Option String :=
  text.filter fun s => s ≠ ""

/-- Map a task and its outbound relationships to the JSONL schema. -/
def taskToJsonlDict (isoformat : Clock → String) (task : Task)
    (outbound : List Relationship) (ready : Bool) : JsonlTask where
  id := task.id
  title := task.title
  description := task.body
  status := task.status
  priority := priorityName task.priority
  labels := task.labels
  assigneeIds := (truthy task.assigneeId).toList
  parentId := task.parentTaskId
  elementId := task.elementId
  deps := outbound.map fun r => ⟨r.toTaskId, r.kind⟩
  ready := ready
  createdAt := isoformat task.createdAt
  updatedAt := isoformat task.updatedAt

/-- Ready: open, and every given blocker status is finished. -/
def computeReady (task : Task) (incomingBlockerStatuses : List Status) : Bool :=
  if task.status ≠ "open" then false
  else incomingBlockerStatuses.all fun s => s ∈ finishedStatuses

def formatClaimed (agent tskId title : String) : String :=
  "🤚 " ++ agent ++ " claimed " ++ tskId ++ " — \"" ++ title ++ "\""

def formatReleased (agent tskId title : String) : String :=
  "↩️ " ++ agent ++ " released " ++ tskId ++ " — \"" ++ title ++ "\""

/-- White space as `str.strip` counts it. -/
def isSpace (c : Char) : Bool :=
  let n := c.toNat
  (9 ≤ n && n ≤ 13) || (28 ≤ n && n ≤ 32) || n = 0x85 || n = 0xa0 || n = 0x1680 ||
    (0x2000 ≤ n && n ≤ 0x200a) || n = 0x2028 || n = 0x2029 || n = 0x202f || n = 0x205f ||
    n = 0x3000

/-- `str.strip`. -/
def strip (text : String) : String :=
  String.ofList ((text.toList.dropWhile isSpace).reverse.dropWhile isSpace).reverse

def formatClosed (agent tskId title : String) (note : Option String) : String :=
  let head := "✅ " ++ agent ++ " closed " ++ tskId ++ " — \"" ++ title ++ "\""
  match note with
  | none => head
  | some note => if strip note = "" then head else head ++ "\n" ++ strip note

def formatReady (tskId title : String) (labels : List String) : String :=
  let head := "⚡ " ++ tskId ++ " ready — \"" ++ title ++ "\""
  if labels = [] then head else head ++ " — " ++ ", ".intercalate labels

/-- Longest goal text in a breadcrumb. -/
def whyGoalMax : Nat := 120

/-- The breadcrumb of a task, if there is anything to show. -/
def formatWhy (project : ProjectSummary) (ancestry : List TaskSummary) : Option String :=
  let description := strip (project.description.getD "")
  if ancestry = [] ∧ description = "" then none
  else
    let name := ((truthy project.name).orElse fun _ => truthy (some project.id)).getD "project"
    let chain := " → ".intercalate (name :: ancestry.map TaskSummary.title)
    if description = "" then some ("Why: " ++ chain)
    else
      let goal := String.ofList (description.toList.take whyGoalMax)
      let goal := if whyGoalMax < description.length then goal ++ "…" else goal
      some ("Why: " ++ chain ++ " (goal: " ++ goal ++ ")")

/-! ## Export -/

namespace TaskDb

/-- Statuses of the tasks whose `blocks` relationship comes in. -/
def incomingBlockerStatuses (db : TaskDb) (taskId : TaskId) : List Status :=
  (db.listRelationships taskId .to).filterMap fun rel =>
    if rel.kind ≠ .blocks then none else (db.getTask rel.fromTaskId).map Task.status

/-- The lines of `_render_jsonl`. -/
def renderJsonl (db : TaskDb) (isoformat : Clock → String) (projectId : String) :
    List JsonlTask :=
  (db.listTasks projectId none none none).map fun t =>
    taskToJsonlDict isoformat t (db.listRelationships t.id .from)
      (computeReady t (db.incomingBlockerStatuses t.id))

/-- The task appears as ready in the export. -/
def ExportsReady (db : TaskDb) (isoformat : Clock → String) (projectId : String)
    (taskId : TaskId) : Prop :=
  ∃ line ∈ db.renderJsonl isoformat projectId, line.id = taskId ∧ line.ready = true

/-- The same relationship read from the other end. -/
def BlockedFromSource (db : TaskDb) (taskId : TaskId) : Prop :=
  Blocked (fun target source => db.Blocks source target) db.Pending taskId

variable {db : TaskDb} {t : Task}

theorem computeReady_iff : computeReady t (db.incomingBlockerStatuses t.id) = true ↔
      t.status = "open" ∧ ¬db.BlockedFromSource t.id := by
  unfold computeReady BlockedFromSource
  rw [not_blocked_iff]
  split
  · rename_i hopen
    simp [hopen]
  · rename_i hopen
    simp only [not_not.mp hopen, true_and, List.all_eq_true, decide_eq_true_eq]
    constructor
    · rintro hall _ ⟨r, hr, hkind, rfl, hto⟩ ⟨src, hget, hstatus⟩
      refine hstatus (hall src.status (List.mem_filterMap.mpr ⟨r, ?_, ?_⟩))
      · exact mem_listRelationships_iff.mpr ⟨hr, hto⟩
      · simp [hkind, hget]
    · intro hfree status hmem
      obtain ⟨r, hr, hsome⟩ := List.mem_filterMap.mp hmem
      obtain ⟨hr, hto⟩ := mem_listRelationships_iff.mp hr
      split at hsome
      · contradiction
      rename_i hkind
      obtain ⟨src, hget, rfl⟩ := Option.map_eq_some_iff.mp hsome
      by_contra hstatus
      exact hfree r.fromTaskId ⟨r, hr, not_not.mp hkind, rfl, hto⟩ ⟨src, hget, hstatus⟩

/-- The export shows the open tasks of the project without a pending source. -/
theorem exports_ready_iff {isoformat : Clock → String} (ht : t ∈ db.tasks) :
    db.ExportsReady isoformat t.projectId t.id ↔
      t.status = "open" ∧ ¬db.BlockedFromSource t.id := by
  rw [← computeReady_iff]
  constructor
  · rintro ⟨line, hline, hid, hready⟩
    obtain ⟨t', ht', rfl⟩ := List.mem_map.mp hline
    have hsame : t' = t :=
      List.inj_on_of_nodup_map db.ids_nodup (mem_listTasks_iff.mp ht').1 ht hid
    exact hsame ▸ hready
  · intro hready
    exact ⟨_, List.mem_map_of_mem (mem_listTasks_iff.mpr ⟨ht, rfl⟩), rfl, hready⟩

/-- The export, the view and the task context agree on every task of a project. -/
def ExportAgrees (db : TaskDb) (isoformat : Clock → String)
    (projectStore : Option (String → Option ProjectSummary)) (projectId : String) : Prop :=
  ∀ t ∈ db.tasks, t.projectId = projectId →
    (db.ExportsReady isoformat projectId t.id ↔ t ∈ db.readyTasks) ∧
      (t ∈ db.readyTasks ↔ t.status = "open" ∧ t.claimedBy = none ∧
        ∃ context, db.getTaskContext projectStore t.id = some context ∧
          context.isBlocked = false)

/-- The view and the task context agree on every graph. -/
theorem mem_readyTasks_iff_context (projectStore : Option (String → Option ProjectSummary))
    (ht : t ∈ db.tasks) :
    t ∈ db.readyTasks ↔ t.status = "open" ∧ t.claimedBy = none ∧
      ∃ context, db.getTaskContext projectStore t.id = some context ∧
        context.isBlocked = false := by
  obtain ⟨context, hcontext⟩ := exists_getTaskContext projectStore ht
  have hfree : context.isBlocked = false ↔ ¬Blocked db.Blocks db.Pending t.id := by
    rw [← getTaskContext_isBlocked_iff hcontext, Bool.not_eq_true]
  simp [mem_readyTasks_iff, ht, hcontext, hfree]

/-- The export agrees exactly when, for every open task, being claimed or waiting
for a pending task coincides with some pending task's relationship pointing at it. -/
theorem exportAgrees_iff (db : TaskDb) (isoformat : Clock → String)
    (projectStore : Option (String → Option ProjectSummary)) (projectId : String) :
    db.ExportAgrees isoformat projectStore projectId ↔
      ∀ t ∈ db.tasks, t.projectId = projectId → t.status = "open" →
        ((t.claimedBy ≠ none ∨ Blocked db.Blocks db.Pending t.id) ↔
          db.BlockedFromSource t.id) := by
  have htask : ∀ t ∈ db.tasks, t.projectId = projectId →
      ((db.ExportsReady isoformat projectId t.id ↔ t ∈ db.readyTasks) ↔
        (t.status = "open" → ((t.claimedBy ≠ none ∨ Blocked db.Blocks db.Pending t.id) ↔
          db.BlockedFromSource t.id))) := by
    rintro t ht rfl
    rw [exports_ready_iff ht, mem_readyTasks_iff]
    tauto
  constructor
  · intro hagrees t ht hproject
    exact (htask t ht hproject).mp (hagrees t ht hproject).1
  · intro hcond t ht hproject
    exact ⟨(htask t ht hproject).mpr (hcond t ht hproject),
      mem_readyTasks_iff_context projectStore ht⟩

/-! ### A single edge -/

/-- An open task without relationships or claimer. -/
def sampleTask (id : TaskId) : Task :=
  ⟨id, "prj", none, id, "", "open", 0, [], none, none, none, none, none, none, none, "lead", 0, 0⟩

/-- `tsk-a` waits for `tsk-b`. -/
def sampleEdge : Relationship := ⟨"rel-1", "prj", "tsk-a", "tsk-b", .blocks, "lead", 1⟩

def sampleDb : TaskDb := ⟨[sampleTask "tsk-a", sampleTask "tsk-b"], [sampleEdge], by decide⟩

/-- The export shows the waiting task as ready and its blocker as not ready. -/
theorem export_disagrees : ¬sampleDb.ExportAgrees (fun _ => "") none "prj" := by
  intro hagrees
  have hready := (hagrees (sampleTask "tsk-a") (by decide) rfl).1.mp
    ⟨_, List.mem_map_of_mem (f := _) (a := sampleTask "tsk-a") (by decide), rfl, by decide⟩
  exact absurd hready (by decide)

end TaskDb

/-! ## Announcements -/

/-- A chat channel of the project. -/
structure Channel where
  id : String
  name : String
  type : String
  settingsKind : Option String

/-- The project's A2A channel, among its channels that are not archived. -/
def findA2aChannel (channels : List Channel) : Option Channel :=
  channels.find? fun ch => ch.name = "a2a" ∧ ch.type = "group" ∧ ch.settingsKind = some "a2a"

/-- The broker events the bridge looks at. -/
inductive EventKind where
  | taskClaimed
  | taskReleased
  | taskClosed
  | other
deriving DecidableEq

/-- A broker event, with the payload fields the bridge reads. -/
structure ProjectEvent where
  kind : EventKind
  id : Option TaskId
  claimedBy : Option String
  releaserId : Option String
  closedBy : Option String

/-- A system message, and the task a ready announcement is about. -/
structure Post where
  channelId : String
  body : String
  ready : Option TaskId

/-- The tasks a list of messages announces as ready. -/
def announced (posts : List Post) : List TaskId :=
  posts.filterMap Post.ready

/-- First actor named, or `agent`. -/
def actorOf (inPayload inTask : Option String) : String :=
  ((truthy inPayload).orElse fun _ => truthy inTask).getD "agent"

namespace TaskDb

/-- The breadcrumb line appended to an announcement. -/
def whySuffix (db : TaskDb) (projectStore : Option (String → Option ProjectSummary))
    (taskId : TaskId) : String :=
  match db.getTaskContext projectStore taskId with
  | none => ""
  | some context =>
    match formatWhy context.project context.ancestry with
    | none => ""
    | some why => "\n" ++ why

/-- Does a blocker other than the closed task remain, seen from the closed task's end? -/
def stillBlocked (db : TaskDb) (dependentId closedTaskId : TaskId) : Bool :=
  (db.listRelationships dependentId .to).any fun other =>
    other.kind = .blocks && other.fromTaskId ≠ closedTaskId &&
      (db.getTask other.fromTaskId).any fun src => src.status ∉ finishedStatuses

/-- The announcement for one relationship of the closed task, if any. -/
def announceDependent (db : TaskDb) (projectStore : Option (String → Option ProjectSummary))
    (channelId : String) (closedTaskId : TaskId) (rel : Relationship) : Option Post :=
  if rel.kind ≠ .blocks then none
  else
    match db.getTask rel.toTaskId with
    | none => none
    | some dep =>
      if dep.status ≠ "open" then none
      else if db.stillBlocked rel.toTaskId closedTaskId then none
      else
        some
          ⟨channelId,
            formatReady rel.toTaskId dep.title dep.labels ++
              db.whySuffix projectStore rel.toTaskId,
            some rel.toTaskId⟩

/-- `_announce_newly_ready`. -/
def announceNewlyReady (db : TaskDb) (projectStore : Option (String → Option ProjectSummary))
    (channelId : String) (closedTaskId : TaskId) : List Post :=
  (db.listRelationships closedTaskId .from).filterMap
    (db.announceDependent projectStore channelId closedTaskId)

/-- The messages `on_event` posts. -/
def onEvent (db : TaskDb) (projectStore : Option (String → Option ProjectSummary))
    (channels : List Channel) (event : ProjectEvent) : List Post :=
  if event.kind = .other then []
  else
    match truthy event.id, findA2aChannel channels with
    | some tskId, some channel =>
      match db.getTask tskId with
      | none => []
      | some task =>
        match event.kind with
        | .taskClaimed =>
          [⟨channel.id,
            formatClaimed (actorOf event.claimedBy task.claimedBy) tskId task.title ++
              db.whySuffix projectStore tskId, none⟩]
        | .taskReleased =>
          [⟨channel.id,
            formatReleased (actorOf event.releaserId task.claimedBy) tskId task.title,
            none⟩]
        | .taskClosed =>
          ⟨channel.id,
              formatClosed (actorOf event.closedBy task.closedBy) tskId task.title
                task.closeReason, none⟩ ::
            db.announceNewlyReady projectStore channel.id tskId
        | .other => []
    | _, _ => []

variable {closedTaskId d : TaskId} {db : TaskDb}
  {projectStore : Option (String → Option ProjectSummary)}

theorem stillBlocked_iff {dependentId : TaskId} : db.stillBlocked dependentId closedTaskId = true ↔
      Blocked (fun target source => db.Blocks source target)
        (finish db.Pending closedTaskId) dependentId := by
  simp only [stillBlocked, List.any_eq_true, Bool.and_eq_true, decide_eq_true_eq,
    Option.any_eq_true]
  constructor
  · rintro ⟨r, hmem, ⟨hkind, hne⟩, src, hget, hstatus⟩
    obtain ⟨hr, hto⟩ := mem_listRelationships_iff.mp hmem
    exact ⟨r.fromTaskId, ⟨r, hr, hkind, rfl, hto⟩, ⟨src, hget, hstatus⟩, hne⟩
  · rintro ⟨_, ⟨r, hr, hkind, rfl, hto⟩, ⟨src, hget, hstatus⟩, hne⟩
    exact ⟨r, mem_listRelationships_iff.mpr ⟨hr, hto⟩, ⟨hkind, hne⟩, src, hget, hstatus⟩

variable {channelId closedBy : String} {reason : Option String} {now : Clock} {force : Bool}
  {taskId : TaskId}

/-- An announcement is made for an open target that is not still blocked. -/
theorem announceDependent_eq_some {rel : Relationship} {post : Post}
    (h : db.announceDependent projectStore channelId closedTaskId rel = some post) :
    rel.kind = .blocks ∧ ∃ dep, db.getTask rel.toTaskId = some dep ∧ dep.status = "open" ∧
      ¬db.stillBlocked rel.toTaskId closedTaskId = true ∧ post.ready = some rel.toTaskId := by
  unfold announceDependent at h
  split at h
  · contradiction
  rename_i hkind
  split at h
  · contradiction
  rename_i dep hget
  split at h
  · contradiction
  rename_i hopen
  split at h
  · contradiction
  rename_i hfree
  cases h
  exact ⟨not_not.mp hkind, dep, hget, not_not.mp hopen, hfree, rfl⟩

/-- The announcements name the open targets of the closed task's relationships to
which no other pending source points. -/
theorem mem_announced_iff :
    d ∈ announced (db.announceNewlyReady projectStore channelId closedTaskId) ↔
      db.Blocks closedTaskId d ∧ (∃ dep, db.getTask d = some dep ∧ dep.status = "open") ∧
        ¬Blocked (fun target source => db.Blocks source target)
          (finish db.Pending closedTaskId) d := by
  rw [← stillBlocked_iff]
  simp only [announced, announceNewlyReady, List.mem_filterMap, mem_listRelationships_iff]
  constructor
  · rintro ⟨post, ⟨r, ⟨hr, hfrom⟩, hpost⟩, hready⟩
    obtain ⟨hkind, dep, hget, hopen, hfree, hpostReady⟩ := announceDependent_eq_some hpost
    obtain rfl : r.toTaskId = d := by simpa [hpostReady] using hready
    exact ⟨⟨r, hr, hkind, hfrom, rfl⟩, ⟨dep, hget, hopen⟩, hfree⟩
  · rintro ⟨⟨r, hr, hkind, hfrom, rfl⟩, ⟨dep, hget, hopen⟩, hfree⟩
    have hpost : db.announceDependent projectStore channelId closedTaskId r =
        some ⟨channelId,
          formatReady r.toTaskId dep.title dep.labels ++ db.whySuffix projectStore r.toTaskId,
          some r.toTaskId⟩ := by
      simp [announceDependent, hkind, hget, hopen, hfree]
    exact ⟨_, ⟨r, ⟨hr, hfrom⟩, hpost⟩, rfl⟩

/-- The announced tasks are those that entered the view. -/
def AnnouncesExactly (before after : TaskDb) (posts : List Post) : Prop :=
  ∀ d, d ∈ announced posts ↔
    (∃ t ∈ after.readyTasks, t.id = d) ∧ ¬∃ t ∈ before.readyTasks, t.id = d

/-- A task entered the view exactly when it waited for the closed task alone. -/
theorem entered_readyTasks_iff
    (hclosed : (db.closeTask taskId closedBy reason force now).2 = true) :
    ((∃ t ∈ (db.closeTask taskId closedBy reason force now).1.readyTasks, t.id = d) ∧
        ¬∃ t ∈ db.readyTasks, t.id = d) ↔
      d ≠ taskId ∧ ∃ t ∈ db.tasks, t.id = d ∧ t.status = "open" ∧ t.claimedBy = none ∧
        db.Blocks d taskId ∧ ¬Blocked db.Blocks (finish db.Pending taskId) d := by
  have hpending := pending_of_closeTask hclosed
  simp only [mem_readyTasks_iff, closeTask_blocks, closeTask_pending hclosed]
  constructor
  · rintro ⟨⟨t, ⟨hmem, hopen, hclaimed, hfree⟩, rfl⟩, hbefore⟩
    have hne : t.id ≠ taskId := by
      intro heq
      exact status_ne_open_of_closeTask hclosed (getTask_eq_some_iff.mpr ⟨hmem, heq⟩) hopen
    have hmem' := (closeTask_mem_iff hne).mp hmem
    have hblocked : Blocked db.Blocks db.Pending t.id := by
      by_contra hfree'
      exact hbefore ⟨t, ⟨hmem', hopen, hclaimed, hfree'⟩, rfl⟩
    obtain ⟨hdep, _⟩ := (released_iff hpending).mp ⟨hfree, hblocked⟩
    exact ⟨hne, t, hmem', rfl, hopen, hclaimed, hdep, hfree⟩
  · rintro ⟨hne, t, hmem, rfl, hopen, hclaimed, hdep, hfree⟩
    refine ⟨⟨t, ⟨(closeTask_mem_iff hne).mpr hmem, hopen, hclaimed, hfree⟩, rfl⟩, ?_⟩
    rintro ⟨t', ⟨_, _, _, hfree'⟩, hid⟩
    exact (hid ▸ hfree') ⟨taskId, hdep, hpending⟩

/-- What a close announces, in terms of the graph before it. -/
theorem mem_announced_close_iff {channels : List Channel}
    (hid : taskId ≠ "") (hchannel : (findA2aChannel channels).isSome)
    (hclosed : (db.closeTask taskId closedBy reason force now).2 = true) :
    d ∈ announced ((db.closeTask taskId closedBy reason force now).1.onEvent projectStore
        channels ⟨.taskClosed, some taskId, none, none, some closedBy⟩) ↔
      d ≠ taskId ∧ ∃ t ∈ db.tasks, t.id = d ∧ t.status = "open" ∧ db.Blocks taskId d ∧
        ¬Blocked (fun target source => db.Blocks source target)
          (finish db.Pending taskId) d := by
  obtain ⟨channel, hchannel⟩ := Option.isSome_iff_exists.mp hchannel
  obtain ⟨row, hrow, _⟩ := closeTask_getTask_self hclosed
  have hposts : announced ((db.closeTask taskId closedBy reason force now).1.onEvent projectStore
      channels ⟨.taskClosed, some taskId, none, none, some closedBy⟩) =
      announced ((db.closeTask taskId closedBy reason force now).1.announceNewlyReady
        projectStore channel.id taskId) := by
    have htruthy : truthy (some taskId) = some taskId := by
      simp [truthy, Option.filter, hid]
    simp [onEvent, htruthy, hchannel, hrow, announced]
  rw [hposts, mem_announced_iff, closeTask_blocks, closeTask_pending hclosed, finish_finish]
  constructor
  · rintro ⟨hblocks, ⟨dep, hget, hopen⟩, hfree⟩
    have hne : d ≠ taskId := by
      rintro rfl
      exact status_ne_open_of_closeTask hclosed hget hopen
    rw [closeTask_getTask hne] at hget
    obtain ⟨hmem, hdep⟩ := getTask_eq_some_iff.mp hget
    exact ⟨hne, dep, hmem, hdep, hopen, hblocks, hfree⟩
  · rintro ⟨hne, t, hmem, hdep, hopen, hblocks, hfree⟩
    refine ⟨hblocks, ⟨t, ?_, hopen⟩, hfree⟩
    rw [closeTask_getTask hne]
    exact getTask_eq_some_iff.mpr ⟨hmem, hdep⟩

/-- The announcements of a close are exact exactly when, for every other open task, being
pointed at by the closed task and by no other pending one coincides with being unclaimed
and waiting for the closed task alone. -/
theorem announcesExactly_iff (db : TaskDb)
    (projectStore : Option (String → Option ProjectSummary)) (channels : List Channel)
    (taskId : TaskId) (closedBy : String) (reason : Option String) (force : Bool) (now : Clock)
    (hid : taskId ≠ "") (hchannel : (findA2aChannel channels).isSome)
    (hclosed : (db.closeTask taskId closedBy reason force now).2 = true) :
    AnnouncesExactly db (db.closeTask taskId closedBy reason force now).1
        ((db.closeTask taskId closedBy reason force now).1.onEvent projectStore channels
          ⟨.taskClosed, some taskId, none, none, some closedBy⟩) ↔
      ∀ t ∈ db.tasks, t.id ≠ taskId → t.status = "open" →
        ((db.Blocks taskId t.id ∧
            ¬Blocked (fun target source => db.Blocks source target)
              (finish db.Pending taskId) t.id) ↔
          (t.claimedBy = none ∧ db.Blocks t.id taskId ∧
            ¬Blocked db.Blocks (finish db.Pending taskId) t.id)) := by
  have hdep : ∀ t ∈ db.tasks, t.id ≠ taskId → t.status = "open" →
      ((∃ u ∈ db.tasks, u.id = t.id ∧ u.status = "open" ∧ u.claimedBy = none ∧
          db.Blocks t.id taskId ∧ ¬Blocked db.Blocks (finish db.Pending taskId) t.id) ↔
        (t.claimedBy = none ∧ db.Blocks t.id taskId ∧
          ¬Blocked db.Blocks (finish db.Pending taskId) t.id)) := by
    intro t ht hne hopen
    constructor
    · rintro ⟨u, hu, huid, _, hrest⟩
      obtain rfl : u = t := List.inj_on_of_nodup_map db.ids_nodup hu ht huid
      exact hrest
    · intro hrest
      exact ⟨t, ht, rfl, hopen, hrest⟩
  constructor
  · intro hexact t ht hne hopen
    rw [← hdep t ht hne hopen]
    have hd := hexact t.id
    rw [mem_announced_close_iff hid hchannel hclosed, entered_readyTasks_iff hclosed] at hd
    constructor
    · rintro ⟨hblocks, hfree⟩
      exact (hd.mp ⟨hne, t, ht, rfl, hopen, hblocks, hfree⟩).2
    · intro hentered
      obtain ⟨_, u, hu, huid, _, hblocks, hfree⟩ := hd.mpr ⟨hne, hentered⟩
      exact ⟨hblocks, hfree⟩
  · intro hcond d
    rw [mem_announced_close_iff hid hchannel hclosed, entered_readyTasks_iff hclosed]
    constructor
    · rintro ⟨hne, t, ht, rfl, hopen, hblocks, hfree⟩
      exact ⟨hne, (hdep t ht hne hopen).mpr ((hcond t ht hne hopen).mp ⟨hblocks, hfree⟩)⟩
    · rintro ⟨hne, t, ht, rfl, hopen, hrest⟩
      exact ⟨hne, t, ht, rfl, hopen, (hcond t ht hne hopen).mpr hrest⟩

/-- The A2A channel of a project. -/
def sampleChannel : Channel := ⟨"chn-1", "a2a", "group", some "a2a"⟩

/-- Closing the blocker announces nothing, though the waiting task enters the view. -/
theorem announcement_missed :
    (sampleDb.closeTask "tsk-b" "lead" none false 5).2 = true ∧
      ¬AnnouncesExactly sampleDb (sampleDb.closeTask "tsk-b" "lead" none false 5).1
        ((sampleDb.closeTask "tsk-b" "lead" none false 5).1.onEvent none [sampleChannel]
          ⟨.taskClosed, some "tsk-b", none, none, some "lead"⟩) := by
  refine ⟨by decide, ?_⟩
  intro hexact
  have hentered := (hexact "tsk-a").mpr (by decide)
  exact absurd hentered (by decide)

/-- The characterisation at the sample close. -/
theorem announcesExactly_iff_sample :
    AnnouncesExactly sampleDb (sampleDb.closeTask "tsk-b" "lead" none false 5).1
        ((sampleDb.closeTask "tsk-b" "lead" none false 5).1.onEvent none [sampleChannel]
          ⟨.taskClosed, some "tsk-b", none, none, some "lead"⟩) ↔
      ∀ t ∈ sampleDb.tasks, t.id ≠ "tsk-b" → t.status = "open" →
        ((sampleDb.Blocks "tsk-b" t.id ∧
            ¬Blocked (fun target source => sampleDb.Blocks source target)
              (finish sampleDb.Pending "tsk-b") t.id) ↔
          (t.claimedBy = none ∧ sampleDb.Blocks t.id "tsk-b" ∧
            ¬Blocked sampleDb.Blocks (finish sampleDb.Pending "tsk-b") t.id)) :=
  announcesExactly_iff sampleDb none [sampleChannel] "tsk-b" "lead" none false 5
    (by decide) (by decide) (by decide)

end TaskDb

end TinyAgentOS.Projects
