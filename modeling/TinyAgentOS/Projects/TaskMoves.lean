import TinyAgentOS.Library.Transition
import TinyAgentOS.Projects.TaskStore

/-!
# The life of a task

A task is created open.  The moves (claim, release, close, reopen, quarantine and
unquarantine) each run one conditional `UPDATE`; `update_task` writes
whatever columns it is given, the status among them.

Main results:

- `everyStep_disciplined_iff`: the runs in which no agent ever holds two tasks.
- `edit_doubles_claim`: an update to `claimed` gives an agent a second one.
-/

namespace TinyAgentOS.Projects

open Transition

/-! ## Creations and edits -/

/-- `new_id`: a kind and a random suffix. -/
def newId (kind suffix : String) : String := kind ++ "-" ++ suffix

/-- The arguments of `create_task`. -/
structure NewTask where
  projectId : String
  title : String
  createdBy : String
  body : String := ""
  priority : Int := 0
  labels : List String := []
  assigneeId : Option String := none
  parentTaskId : Option TaskId := none
  elementId : Option String := none
deriving DecidableEq

/-- The row `create_task` inserts. -/
def NewTask.row (new : NewTask) (id : TaskId) (now : Clock) : Task where
  id := id
  projectId := new.projectId
  parentTaskId := new.parentTaskId
  title := new.title
  body := new.body
  status := "open"
  priority := new.priority
  labels := new.labels
  assigneeId := new.assigneeId
  elementId := new.elementId
  claimedBy := none
  claimedAt := none
  closedAt := none
  closedBy := none
  closeReason := none
  createdBy := new.createdBy
  createdAt := now
  updatedAt := now

/-- The `element_id` of an update: left alone, cleared, or set. -/
inductive ElementEdit where
  | unchanged
  | clear
  | set (elementId : String)
deriving DecidableEq

/-- The element tag after an edit. -/
def ElementEdit.apply (old : Option String) : ElementEdit → Option String
  | .unchanged => old
  | .clear => none
  | .set elementId => some elementId

/-- The arguments of `update_task`; `none` leaves a column as it is. -/
structure TaskEdit where
  title : Option String := none
  body : Option String := none
  priority : Option Int := none
  labels : Option (List String) := none
  status : Option Status := none
  assigneeId : Option String := none
  parentTaskId : Option TaskId := none
  elementId : ElementEdit := .unchanged
deriving DecidableEq

/-- The row `update_task` writes; an edit back to open clears the claimer. -/
def editedRow (edit : TaskEdit) (now : Clock) (t : Task) : Task :=
  { t with
    title := edit.title.getD t.title
    body := edit.body.getD t.body
    priority := edit.priority.getD t.priority
    labels := edit.labels.getD t.labels
    status := edit.status.getD t.status
    assigneeId := edit.assigneeId.or t.assigneeId
    parentTaskId := edit.parentTaskId.or t.parentTaskId
    elementId := edit.elementId.apply t.elementId
    claimedBy := if edit.status = some "open" then none else t.claimedBy
    claimedAt := if edit.status = some "open" then none else t.claimedAt
    updatedAt := now }

theorem editedRow_id (edit : TaskEdit) (now : Clock) (t : Task) :
    (editedRow edit now t).id = t.id :=
  rfl

theorem newId_ne_empty (kind suffix : String) : newId kind suffix ≠ "" := by
  intro h
  have hlength := congrArg String.length h
  simp [newId] at hlength

namespace TaskDb

/-- The tables of a new store. -/
def empty : TaskDb := ⟨[], [], List.nodup_nil⟩

/-- `create_task`; `none` when the primary key is taken. -/
def createTask (db : TaskDb) (suffix : String) (new : NewTask) (now : Clock) : Option TaskDb :=
  if h : newId "tsk" suffix ∈ db.tasks.map Task.id then none
  else
    some
      { tasks := db.tasks ++ [new.row (newId "tsk" suffix) now]
        relationships := db.relationships
        ids_nodup := by
          rw [List.map_append]
          exact List.Nodup.append db.ids_nodup (List.nodup_singleton _)
            (List.disjoint_singleton.mpr h) }

/-- `update_task`; without a column to set it returns at once. -/
def updateTask (db : TaskDb) (taskId : TaskId) (edit : TaskEdit) (now : Clock) : TaskDb :=
  if edit = {} then db
  else db.updateTasks (fun t => t.id = taskId) (editedRow edit now) (editedRow_id edit now)

end TaskDb

/-! ## Moves -/

/-- The agent holds the task. -/
def Task.HeldBy (t : Task) (agent : String) : Prop :=
  t.status = "claimed" ∧ t.claimedBy = some agent

instance (t : Task) (agent : String) : Decidable (t.HeldBy agent) :=
  inferInstanceAs (Decidable (_ ∧ _))

/-- The row `claim_task` writes. -/
def claimedRow (claimerId : String) (now : Clock) (t : Task) : Task :=
  { t with
    claimedBy := some claimerId
    claimedAt := some now
    status := "claimed"
    updatedAt := now }

/-- A row that returns to the open pool; its claimer clears. -/
def openedRow (now : Clock) (t : Task) : Task :=
  { t with
    status := "open"
    claimedBy := none
    claimedAt := none
    updatedAt := now }

/-- The row `reopen_task` writes. -/
def reopenedRow (now : Clock) (t : Task) : Task :=
  { openedRow now t with
    closedBy := none
    closedAt := none
    closeReason := none }

/-- The row `quarantine_task` writes. -/
def quarantinedRow (now : Clock) (t : Task) : Task :=
  { t with
    status := "quarantined"
    updatedAt := now }

namespace TaskDb

/-- Rewrite the rows a condition selects, and tell whether there was one. -/
def transition (db : TaskDb) (selects : Task → Bool) (f : Task → Task)
    (hid : ∀ t, (f t).id = t.id) : TaskDb × Bool :=
  (db.updateTasks selects f hid, db.tasks.any selects)

/-- The rows `claim_task` may claim: one active claim for each agent. -/
def claimable (db : TaskDb) (taskId : TaskId) (claimerId : String) (t : Task) : Bool :=
  t.id = taskId && t.claimedBy = none && t.status = "open" &&
    !db.tasks.any fun held => held.claimedBy = some claimerId && held.status = "claimed"

/-- The rows `release_task` may release. -/
def releasable (taskId : TaskId) (releaserId : String) (t : Task) : Bool :=
  t.id = taskId && t.claimedBy = some releaserId && t.status = "claimed"

/-- The rows in one status: what `reopen_task` and `unquarantine_task` look for. -/
def inStatus (taskId : TaskId) (status : Status) (t : Task) : Bool :=
  t.id = taskId && t.status = status

/-- The rows `quarantine_task` may quarantine. -/
def quarantinable (taskId : TaskId) (t : Task) : Bool :=
  t.id = taskId && t.status ∉ ["closed", "cancelled", "quarantined"]

def claimTask (db : TaskDb) (taskId : TaskId) (claimerId : String) (now : Clock) :
    TaskDb × Bool :=
  db.transition (db.claimable taskId claimerId) (claimedRow claimerId now) fun _ => rfl

def releaseTask (db : TaskDb) (taskId : TaskId) (releaserId : String) (now : Clock) :
    TaskDb × Bool :=
  db.transition (releasable taskId releaserId) (openedRow now) fun _ => rfl

def reopenTask (db : TaskDb) (taskId : TaskId) (now : Clock) : TaskDb × Bool :=
  db.transition (inStatus taskId "closed") (reopenedRow now) fun _ => rfl

def quarantineTask (db : TaskDb) (taskId : TaskId) (now : Clock) : TaskDb × Bool :=
  db.transition (quarantinable taskId) (quarantinedRow now) fun _ => rfl

def unquarantineTask (db : TaskDb) (taskId : TaskId) (now : Clock) : TaskDb × Bool :=
  db.transition (inStatus taskId "quarantined") (openedRow now) fun _ => rfl

end TaskDb

/-- The operations that move a task from one status to another. -/
inductive TaskMove where
  | claim (taskId : TaskId) (claimerId : String)
  | release (taskId : TaskId) (releaserId : String)
  | close (taskId : TaskId) (closedBy : String) (reason : Option String) (force : Bool)
  | reopen (taskId : TaskId) (reopenedBy : String)
  | quarantine (taskId : TaskId) (actor : String)
  | unquarantine (taskId : TaskId) (actor : String)
deriving DecidableEq

namespace TaskMove

/-- The task a move is about. -/
def taskId : TaskMove → TaskId
  | claim taskId _ => taskId
  | release taskId _ => taskId
  | close taskId _ _ _ => taskId
  | reopen taskId _ => taskId
  | quarantine taskId _ => taskId
  | unquarantine taskId _ => taskId

/-- The rows a move may move. -/
def selects (m : TaskMove) (db : TaskDb) : Task → Bool :=
  match m with
  | claim taskId claimerId => db.claimable taskId claimerId
  | release taskId releaserId => TaskDb.releasable taskId releaserId
  | close taskId closedBy _ force => TaskDb.closable taskId closedBy force
  | reopen taskId _ => TaskDb.inStatus taskId "closed"
  | quarantine taskId _ => TaskDb.quarantinable taskId
  | unquarantine taskId _ => TaskDb.inStatus taskId "quarantined"

/-- What a move writes. -/
def row (m : TaskMove) (now : Clock) : Task → Task :=
  match m with
  | claim _ claimerId => claimedRow claimerId now
  | release _ _ => openedRow now
  | close _ closedBy reason _ => TaskDb.closedRow closedBy reason now
  | reopen _ _ => reopenedRow now
  | quarantine _ _ => quarantinedRow now
  | unquarantine _ _ => openedRow now

/-- The status a move leads to. -/
def toStatus : TaskMove → Status
  | claim _ _ => "claimed"
  | release _ _ => "open"
  | close _ _ _ _ => "closed"
  | reopen _ _ => "open"
  | quarantine _ _ => "quarantined"
  | unquarantine _ _ => "open"

theorem row_id (m : TaskMove) (now : Clock) (t : Task) : (m.row now t).id = t.id := by
  cases m <;> rfl

theorem row_status (m : TaskMove) (now : Clock) (t : Task) : (m.row now t).status = m.toStatus := by
  cases m <;> rfl

/-- A move looks for its task by the primary key. -/
theorem id_of_selects {m : TaskMove} {db : TaskDb} {t : Task} (h : m.selects db t = true) :
    t.id = m.taskId := by
  cases m <;>
    simp only [selects, TaskDb.claimable, TaskDb.releasable, TaskDb.closable, TaskDb.inStatus,
      TaskDb.quarantinable, Bool.and_eq_true, decide_eq_true_eq] at h
  case claim => exact h.1.1.1
  case release => exact h.1.1
  case close => exact h.1.1
  case reopen => exact h.1
  case quarantine => exact h.1
  case unquarantine => exact h.1

end TaskMove

namespace TaskDb

/-- Run a move. -/
def move (db : TaskDb) (m : TaskMove) (now : Clock) : TaskDb × Bool :=
  match m with
  | .claim taskId claimerId => db.claimTask taskId claimerId now
  | .release taskId releaserId => db.releaseTask taskId releaserId now
  | .close taskId closedBy reason force => db.closeTask taskId closedBy reason force now
  | .reopen taskId _ => db.reopenTask taskId now
  | .quarantine taskId _ => db.quarantineTask taskId now
  | .unquarantine taskId _ => db.unquarantineTask taskId now

/-- Every move is one conditional update. -/
theorem move_fst (db : TaskDb) (m : TaskMove) (now : Clock) :
    (db.move m now).1 = db.updateTasks (m.selects db) (m.row now) (m.row_id now) := by
  cases m <;> rfl

theorem move_snd (db : TaskDb) (m : TaskMove) (now : Clock) :
    (db.move m now).2 = db.tasks.any (m.selects db) := by
  cases m <;> rfl

/-! ## What an update changes -/

variable {f : Task → Task} {selects : Task → Bool} {db db' : TaskDb} {now : Clock} {new : NewTask}
  {suffix : String}

variable {hid : ∀ t, (f t).id = t.id} {u : Task} {edit : TaskEdit}

theorem mem_updateTasks : u ∈ (db.updateTasks selects f hid).tasks ↔
      ∃ t ∈ db.tasks, (if selects t = true then f t else t) = u :=
  List.mem_map

/-- A read after an update reads the rewritten row. -/
theorem getTask_updateTasks (db : TaskDb) (selects : Task → Bool) (f : Task → Task)
    (hid : ∀ t, (f t).id = t.id) (taskId : TaskId) : (db.updateTasks selects f hid).getTask taskId =
      (db.getTask taskId).map fun t => if selects t = true then f t else t := by
  unfold getTask updateTasks
  rw [List.find?_map]
  congr 1
  apply List.find?_congr
  intro t _
  simp only [Function.comp]
  split
  · rw [hid]
  · rfl

/-- A read after a creation. -/
theorem getTask_createTask (h : db.createTask suffix new now = some db') (taskId : TaskId) :
    db'.getTask taskId =
      if taskId = newId "tsk" suffix then some (new.row (newId "tsk" suffix) now)
      else db.getTask taskId := by
  unfold createTask at h
  split at h
  · contradiction
  rename_i hfresh
  cases h
  unfold getTask
  rw [List.find?_append]
  by_cases heq : taskId = newId "tsk" suffix
  · have hnone : (db.tasks.find? fun t => t.id = taskId) = none := by
      rw [List.find?_eq_none]
      intro t hmem hid
      exact hfresh (List.mem_map.mpr ⟨t, hmem, by simpa [heq] using hid⟩)
    rw [hnone, if_pos heq]
    simp [NewTask.row, heq]
  · rw [if_neg heq]
    simp [NewTask.row, Ne.symm heq]

/-- The id of a creation that succeeded was free. -/
theorem getTask_newId_of_createTask (h : db.createTask suffix new now = some db') :
    db.getTask (newId "tsk" suffix) = none := by
  rw [Option.eq_none_iff_forall_ne_some]
  intro t hget
  obtain ⟨ht, hid⟩ := getTask_eq_some_iff.mp hget
  unfold createTask at h
  rw [dif_pos (List.mem_map.mpr ⟨t, ht, hid⟩)] at h
  contradiction

theorem mem_createTask (h : db.createTask suffix new now = some db') :
    u ∈ db'.tasks ↔ u ∈ db.tasks ∨ u = new.row (newId "tsk" suffix) now := by
  unfold createTask at h
  split at h
  · contradiction
  cases h
  simp

/-- A read after an update that has something to set. -/
theorem getTask_updateTask (db : TaskDb) (taskId : TaskId) (now : Clock)
    (h : edit ≠ {}) (a : TaskId) : (db.updateTask taskId edit now).getTask a =
      if a = taskId then (db.getTask a).map (editedRow edit now) else db.getTask a := by
  unfold updateTask
  rw [if_neg h, getTask_updateTasks]
  cases hget : db.getTask a with
  | none => simp
  | some t =>
    have hid := (getTask_eq_some_iff.mp hget).2
    by_cases ha : a = taskId
    · simp [ha, hid]
    · simp [ha, hid]

/-! ## Claims -/

/-- Every open task is unclaimed. -/
def OpenUnclaimed (db : TaskDb) : Prop :=
  ∀ t ∈ db.tasks, t.status = "open" → t.claimedBy = none

/-- No agent holds two tasks. -/
def OneClaimEach (db : TaskDb) : Prop :=
  ∀ t ∈ db.tasks, ∀ u ∈ db.tasks, ∀ agent ∈ t.claimedBy, t.HeldBy agent → u.HeldBy agent →
    t.id = u.id

/-- The discipline of claims. -/
structure Disciplined (db : TaskDb) : Prop where
  openUnclaimed : db.OpenUnclaimed
  oneClaimEach : db.OneClaimEach

/-- An update of rows that leaves no open row claimed. -/
theorem OpenUnclaimed.update (h : db.OpenUnclaimed)
    (hf : ∀ t ∈ db.tasks, (f t).status = "open" → (f t).claimedBy = none) :
    (db.updateTasks selects f hid).OpenUnclaimed := by
  intro u hu hopen
  obtain ⟨t, ht, rfl⟩ := mem_updateTasks.mp hu
  by_cases hsel : selects t = true
  · rw [if_pos hsel] at hopen ⊢
    exact hf t ht hopen
  · rw [if_neg hsel] at hopen ⊢
    exact h t ht hopen

/-- An update of one task, after which a holder of it holds no other. -/
theorem OneClaimEach.update (h : db.OneClaimEach) (taskId : TaskId)
    (hone : ∀ t ∈ db.tasks, selects t = true → t.id = taskId)
    (hf : ∀ t ∈ db.tasks, selects t = true → ∀ agent, (f t).HeldBy agent →
      ∀ u ∈ db.tasks, u.HeldBy agent → u.id = taskId) :
    (db.updateTasks selects f hid).OneClaimEach := by
  intro t' ht' u' hu' agent hagent hheld hheld'
  obtain ⟨t, ht, rfl⟩ := mem_updateTasks.mp ht'
  obtain ⟨u, hu, rfl⟩ := mem_updateTasks.mp hu'
  by_cases hselt : selects t = true <;> by_cases hselu : selects u = true
  · rw [if_pos hselt, if_pos hselu, hid, hid, hone t ht hselt, hone u hu hselu]
  · rw [if_pos hselt] at hheld
    rw [if_neg hselu] at hheld'
    rw [if_pos hselt, if_neg hselu, hid, hone t ht hselt]
    exact (hf t ht hselt agent hheld u hu hheld').symm
  · rw [if_neg hselt] at hheld
    rw [if_pos hselu] at hheld'
    rw [if_neg hselt, if_pos hselu, hid, hone u hu hselu]
    exact hf u hu hselu agent hheld' t ht hheld
  · rw [if_neg hselt] at hheld hagent ⊢
    rw [if_neg hselu] at hheld' ⊢
    exact h t ht u hu agent hagent hheld hheld'

/-- A move to open clears the claimer. -/
theorem OpenUnclaimed.move (h : db.OpenUnclaimed) (m : TaskMove) (now : Clock) :
    (db.move m now).1.OpenUnclaimed := by
  rw [move_fst]
  apply h.update
  intro t _
  cases m with
  | claim taskId claimerId => simp [TaskMove.row, claimedRow]
  | release | unquarantine => simp [TaskMove.row, openedRow]
  | close taskId closedBy reason force => simp [TaskMove.row, closedRow]
  | reopen taskId reopenedBy => simp [TaskMove.row, reopenedRow, openedRow]
  | quarantine taskId actor => simp [TaskMove.row, quarantinedRow]

/-- Only a claim makes a holder, and only of an agent that holds nothing. -/
theorem OneClaimEach.move (h : db.OneClaimEach) (m : TaskMove) (now : Clock) :
    (db.move m now).1.OneClaimEach := by
  rw [move_fst]
  apply h.update m.taskId fun t _ hsel => TaskMove.id_of_selects hsel
  intro t _ hsel agent hheld u hu hheld'
  cases m with
  | claim taskId claimerId =>
    have hagent : claimerId = agent := by simpa [TaskMove.row, claimedRow] using hheld.2
    have hfree : ∀ v ∈ db.tasks, v.claimedBy = some claimerId → ¬v.status = "claimed" := by
      simpa [TaskMove.selects, claimable] using (Bool.and_eq_true_iff.mp hsel).2
    exact absurd hheld'.1 (hfree u hu (hagent ▸ hheld'.2))
  | release | unquarantine => simp [TaskMove.row, openedRow, Task.HeldBy] at hheld
  | close taskId closedBy reason force => simp [TaskMove.row, closedRow, Task.HeldBy] at hheld
  | reopen taskId reopenedBy =>
    simp [TaskMove.row, reopenedRow, openedRow, Task.HeldBy] at hheld
  | quarantine taskId actor => simp [TaskMove.row, quarantinedRow, Task.HeldBy] at hheld

theorem Disciplined.create (h : db.Disciplined)
    (hcreate : db.createTask suffix new now = some db') : db'.Disciplined := by
  constructor
  · intro t ht hopen
    rcases (mem_createTask hcreate).mp ht with hold | rfl
    · exact h.openUnclaimed t hold hopen
    · rfl
  · intro t ht u hu agent hagent hheld hheld'
    rcases (mem_createTask hcreate).mp ht with ht | rfl
    · rcases (mem_createTask hcreate).mp hu with hu | rfl
      · exact h.oneClaimEach t ht u hu agent hagent hheld hheld'
      · simp [Task.HeldBy, NewTask.row] at hheld'
    · simp [Task.HeldBy, NewTask.row] at hheld

/-! ## Updates -/

theorem OpenUnclaimed.updateTask (h : db.OpenUnclaimed) (taskId : TaskId)
    (edit : TaskEdit) (now : Clock) : (db.updateTask taskId edit now).OpenUnclaimed := by
  unfold TaskDb.updateTask
  split
  · exact h
  · apply h.update
    intro t ht hopen
    by_cases hedit : edit.status = some "open"
    · simp [editedRow, hedit]
    · cases hstatus : edit.status with
      | none =>
        have hclaimed := h t ht
        simp only [editedRow, hstatus, Option.getD_none] at hopen ⊢
        simpa using hclaimed hopen
      | some status =>
        simp only [editedRow, hstatus, Option.getD_some] at hopen
        exact absurd (hopen ▸ hstatus) hedit

/-- Setting the status to claimed makes a holder of the agent the row names. -/
theorem heldBy_editedRow {t : Task} {agent : String} : (editedRow edit now t).HeldBy agent ↔
      t.claimedBy = some agent ∧
        (edit.status = some "claimed" ∨ edit.status = none ∧ t.status = "claimed") := by
  unfold Task.HeldBy editedRow
  cases hstatus : edit.status with
  | none => simp [and_comm]
  | some status =>
    by_cases hopen : status = "open"
    · simp [hopen]
    · simp [hopen, and_comm]

/-- An update to claimed goes to a task whose claimer, if it has one, holds no other task. -/
def UnheldEdit (db : TaskDb) (taskId : TaskId) (edit : TaskEdit) : Prop :=
  edit.status = some "claimed" →
    ∀ t ∈ db.getTask taskId, ∀ agent ∈ t.claimedBy, ∀ u ∈ db.tasks, u.HeldBy agent →
      u.id = taskId

/-- An update keeps one claim for each agent exactly when it does not set a second one. -/
theorem OneClaimEach.updateTask_iff (h : db.OneClaimEach) (taskId : TaskId)
    (edit : TaskEdit) (now : Clock) :
    (db.updateTask taskId edit now).OneClaimEach ↔ db.UnheldEdit taskId edit := by
  unfold TaskDb.updateTask
  split
  · rename_i hempty
    refine iff_of_true h ?_
    simp [UnheldEdit, hempty]
  constructor
  · intro hafter hstatus t hget agent hagent u hu hheld
    obtain ⟨ht, rfl⟩ := getTask_eq_some_iff.mp hget
    by_contra hne
    have hrow : editedRow edit now t ∈
        (db.updateTasks (fun t' => t'.id = t.id) (editedRow edit now)
          (editedRow_id edit now)).tasks :=
      mem_updateTasks.mpr ⟨t, ht, if_pos (by simp)⟩
    have hother : u ∈
        (db.updateTasks (fun t' => t'.id = t.id) (editedRow edit now)
          (editedRow_id edit now)).tasks :=
      mem_updateTasks.mpr ⟨u, hu, if_neg (by simpa using hne)⟩
    have hheld' : (editedRow edit now t).HeldBy agent :=
      heldBy_editedRow.mpr ⟨hagent, Or.inl hstatus⟩
    exact hne (hafter _ hrow u hother agent hheld'.2 hheld' hheld).symm
  · intro hunheld
    apply h.update taskId fun t _ hsel => by simpa using hsel
    intro t ht hsel agent hheld u hu hheld'
    have hid : t.id = taskId := by simpa using hsel
    obtain ⟨hclaimer, hstatus | ⟨_, hclaimed⟩⟩ := heldBy_editedRow.mp hheld
    · exact hunheld hstatus t (getTask_eq_some_iff.mpr ⟨ht, hid⟩) agent hclaimer u hu hheld'
    · rw [← hid]
      exact (h t ht u hu agent hclaimer ⟨hclaimed, hclaimer⟩ hheld').symm

end TaskDb

/-! ## Runs -/

/-- The operations of the store that write tasks. -/
inductive TaskOp where
  | create (suffix : String) (new : NewTask) (now : Clock)
  | update (taskId : TaskId) (edit : TaskEdit) (now : Clock)
  | move (m : TaskMove) (now : Clock)
deriving DecidableEq

namespace TaskDb

/-- Run an operation; a creation whose id is taken raises and leaves the table as it was. -/
def exec (db : TaskDb) : TaskOp → TaskDb
  | .create suffix new now => (db.createTask suffix new now).getD db
  | .update taskId edit now => db.updateTask taskId edit now
  | .move m now => (db.move m now).1

/-- One operation of the store. -/
def step (db : TaskDb) (op : TaskOp) : Option TaskDb := some (db.exec op)

/-- No update makes an agent the holder of a second task. -/
def ClaimOrderly (db : TaskDb) : TaskOp → Prop
  | .update taskId edit _ => db.UnheldEdit taskId edit
  | _ => True

variable {db : TaskDb}

/-- An operation keeps the discipline exactly when it is orderly. -/
theorem Disciplined.exec_iff (h : db.Disciplined) (op : TaskOp) :
    (db.exec op).Disciplined ↔ db.ClaimOrderly op := by
  cases op with
  | create suffix new now =>
    refine iff_of_true ?_ trivial
    cases hcreate : db.createTask suffix new now with
    | none => simpa [TaskDb.exec, hcreate] using h
    | some db' => simpa [TaskDb.exec, hcreate] using h.create hcreate
  | update taskId edit now =>
    rw [ClaimOrderly, ← h.oneClaimEach.updateTask_iff taskId edit now]
    constructor
    · exact Disciplined.oneClaimEach
    · intro hone
      exact ⟨h.openUnclaimed.updateTask taskId edit now, hone⟩
  | move m now =>
    exact iff_of_true ⟨h.openUnclaimed.move m now, h.oneClaimEach.move m now⟩ trivial

theorem disciplined_empty : Disciplined empty := by
  constructor
  · intro t ht
    cases ht
  · intro t ht
    cases ht

/-- The claim discipline holds after every operation exactly when no update makes an agent
the holder of a second task. -/
theorem everyStep_disciplined_iff (ops : List TaskOp) :
    EveryStep step (fun _ _ db => db.Disciplined) empty ops ↔
      Guarded step ClaimOrderly empty ops := by
  apply everyStep_iff_guarded (I := Disciplined) _ _ _ disciplined_empty ops
  · intro s op hnone
    cases hnone
  · intro s op s' h hguard hstep
    cases hstep
    exact (h.exec_iff op).mpr hguard
  · intro s op s' h hstep
    cases hstep
    exact h.exec_iff op

instance (db : TaskDb) : Decidable db.OpenUnclaimed :=
  inferInstanceAs (Decidable (∀ t ∈ db.tasks, _))

instance (db : TaskDb) : Decidable db.OneClaimEach :=
  inferInstanceAs (Decidable (∀ t ∈ db.tasks, ∀ u ∈ db.tasks, ∀ agent ∈ t.claimedBy, _))

/-- An agent closes its task, claims another, and the closed one is set back to claimed. -/
def doubledClaim : List TaskOp :=
  [.create "a" ⟨"prj", "a", "lead", "", 0, [], none, none, none⟩ 1,
    .create "b" ⟨"prj", "b", "lead", "", 0, [], none, none, none⟩ 2,
    .move (.claim "tsk-a" "agent") 3, .move (.close "tsk-a" "agent" none false) 4,
    .move (.claim "tsk-b" "agent") 5]

theorem edit_doubles_claim :
    ¬EveryStep step (fun _ _ db => db.Disciplined) empty
      (doubledClaim ++ [.update "tsk-a" { status := some "claimed" } 6]) := by
  intro hevery
  have hdisciplined := hevery doubledClaim _ [] _ _ rfl rfl rfl
  exact absurd hdisciplined.oneClaimEach (by decide)

end TaskDb

end TinyAgentOS.Projects
