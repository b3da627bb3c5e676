import TinyAgentOS.Projects.TaskMoves

/-!
# The board audit log

Every creation and every move that changed a row appends an entry with the status
the task left and the one it entered.  The store works the former out on its own,
from what the operation can be called on or from the row it has just written.

Main results:

- `Board.Tracked.exec`: the last entry of a task names its status.
- `Board.everyStep_chained_iff`: the runs whose entries link up.
- `Board.close_breaks_chain`: closing a quarantined task breaks the chain.
-/

namespace TinyAgentOS.Projects

open Transition

/-! ## Chains -/

/-- An entry of the log, as far as the store fills it in. -/
structure AuditEntry where
  taskId : TaskId
  event : String
  actor : String
  fromStatus : Option Status
  toStatus : Option Status
  projectId : String

/-- Each entry leaves the status that the one before it entered. -/
def Linked : Option Status → List AuditEntry → Prop
  | _, [] => True
  | status, entry :: rest => entry.fromStatus = status ∧ Linked entry.toStatus rest

/-- The status a list of entries ends in. -/
def lastStatus : Option Status → List AuditEntry → Option Status
  | status, [] => status
  | _, entry :: rest => lastStatus entry.toStatus rest

theorem linked_append_singleton (status : Option Status) (entries : List AuditEntry)
    (entry : AuditEntry) :
    Linked status (entries ++ [entry]) ↔
      Linked status entries ∧ entry.fromStatus = lastStatus status entries := by
  induction entries generalizing status with
  | nil => simp [Linked, lastStatus]
  | cons first rest ih =>
    rw [List.cons_append, Linked, ih, Linked, lastStatus, and_assoc]

@[simp]
theorem lastStatus_append_singleton (status : Option Status) (entries : List AuditEntry)
    (entry : AuditEntry) : lastStatus status (entries ++ [entry]) = entry.toStatus := by
  induction entries generalizing status with
  | nil => rfl
  | cons first rest ih => exact ih first.toStatus

/-- The entries of one task, in order. -/
def trail (log : List AuditEntry) (taskId : TaskId) : List AuditEntry :=
  log.filter fun entry => entry.taskId = taskId

theorem trail_append_self {entry : AuditEntry} {taskId : TaskId} (log : List AuditEntry)
    (h : entry.taskId = taskId) : trail (log ++ [entry]) taskId = trail log taskId ++ [entry] := by
  simp [trail, h]

theorem trail_append_of_ne {entry : AuditEntry} {taskId : TaskId} (log : List AuditEntry)
    (h : entry.taskId ≠ taskId) : trail (log ++ [entry]) taskId = trail log taskId := by
  simp [trail, h]

/-! ## Entries -/

namespace TaskMove

/-- The event a move records. -/
def event : TaskMove → String
  | claim _ _ => "task.claimed"
  | release _ _ => "task.released"
  | close _ _ _ _ => "task.closed"
  | reopen _ _ => "task.reopened"
  | quarantine _ _ => "task.quarantined"
  | unquarantine _ _ => "task.unquarantined"

/-- Who made a move. -/
def actor : TaskMove → String
  | claim _ claimerId => claimerId
  | release _ releaserId => releaserId
  | close _ closedBy _ _ => closedBy
  | reopen _ reopenedBy => reopenedBy
  | quarantine _ actor => actor
  | unquarantine _ actor => actor

/-- A row with a claimer that is not empty counts as claimed, any other as open. -/
def derivedStatus (existing : Option Task) : Status :=
  if (existing.bind Task.claimedBy).any (fun claimer => claimer ≠ "") then "claimed" else "open"

/-- The status a move records as left, from the row after it. -/
def fromStatus (existing : Option Task) : TaskMove → Status
  | claim _ _ => "open"
  | release _ _ => "claimed"
  | close _ _ _ _ => derivedStatus existing
  | reopen _ _ => "closed"
  | quarantine _ _ => derivedStatus existing
  | unquarantine _ _ => "quarantined"

/-- The entry of a move that changed a row. -/
def entry (m : TaskMove) (existing : Option Task) : AuditEntry where
  taskId := m.taskId
  event := m.event
  actor := m.actor
  fromStatus := some (m.fromStatus existing)
  toStatus := some m.toStatus
  projectId := (existing.map Task.projectId).getD ""

end TaskMove

/-- The entry of a creation. -/
def createdEntry (suffix : String) (new : NewTask) : AuditEntry where
  taskId := newId "tsk" suffix
  event := "task.created"
  actor := new.createdBy
  fromStatus := none
  toStatus := some "open"
  projectId := new.projectId

/-- `record`: an entry without a task is refused, and the refusal is swallowed. -/
def recordAudit (log : List AuditEntry) (entry : AuditEntry) : List AuditEntry :=
  if entry.taskId = "" then log else log ++ [entry]

/-- The task store with its audit log. -/
structure Board where
  db : TaskDb
  log : List AuditEntry

/-- Creations, and the moves of the tasks. -/
inductive BoardOp where
  | create (suffix : String) (new : NewTask) (now : Clock)
  | move (m : TaskMove) (now : Clock)

namespace Board

/-- A new board. -/
def empty : Board := ⟨TaskDb.empty, []⟩

/-- Run an operation and record it. -/
def exec (b : Board) : BoardOp → Board
  | .create suffix new now =>
    match b.db.createTask suffix new now with
    | none => b
    | some db => ⟨db, recordAudit b.log (createdEntry suffix new)⟩
  | .move m now =>
    let moved := b.db.move m now
    ⟨moved.1,
      if moved.2 then recordAudit b.log (m.entry (moved.1.getTask m.taskId)) else b.log⟩

/-- One operation of the board. -/
def step (b : Board) (op : BoardOp) : Option Board := some (b.exec op)

/-- The trail of every task is a chain; before its creation a task has no status. -/
def Chained (b : Board) : Prop :=
  ∀ taskId, Linked none (trail b.log taskId)

/-- What a task in each status looks like. -/
def WellFormed (t : Task) : Prop :=
  t.status = "open" ∧ t.claimedBy = none ∨ t.status = "claimed" ∧ t.claimedBy ≠ none ∨
    t.status = "closed" ∨ t.status = "quarantined"

/-- The rows are well formed and the last entry of each task names its status. -/
structure Tracked (b : Board) : Prop where
  wellFormed : ∀ t ∈ b.db.tasks, t.id ≠ "" ∧ WellFormed t
  lastStatus : ∀ taskId,
    lastStatus none (trail b.log taskId) = (b.db.getTask taskId).map Task.status

/-! ## What an operation records -/

variable {b : Board} {now : Clock} {t : Task}

theorem exec_create_none {suffix : String} {new : NewTask}
    (h : b.db.createTask suffix new now = none) : b.exec (.create suffix new now) = b := by
  simp [exec, h]

variable {db : TaskDb}

theorem exec_create_some {suffix : String} {new : NewTask}
    (h : b.db.createTask suffix new now = some db) :
    b.exec (.create suffix new now) = ⟨db, recordAudit b.log (createdEntry suffix new)⟩ := by
  simp [exec, h]

/-- A move changes nothing, or moves its task and records that. -/
theorem exec_move_cases (b : Board) (m : TaskMove) (now : Clock) :
    (∀ t ∈ b.db.tasks, m.selects b.db t = false) ∧ b.exec (.move m now) =
        ⟨(b.db.move m now).1, b.log⟩ ∨
      ∃ t, b.db.getTask m.taskId = some t ∧ m.selects b.db t = true ∧
        b.exec (.move m now) =
          ⟨(b.db.move m now).1, recordAudit b.log (m.entry (some (m.row now t)))⟩ := by
  cases hany : b.db.tasks.any (m.selects b.db) with
  | false =>
    left
    refine ⟨by simpa using hany, ?_⟩
    simp [exec, TaskDb.move_snd, hany]
  | true =>
    right
    obtain ⟨t, ht, hsel⟩ := List.any_eq_true.mp hany
    have hget : b.db.getTask m.taskId = some t :=
      TaskDb.getTask_eq_some_iff.mpr ⟨ht, TaskMove.id_of_selects hsel⟩
    refine ⟨t, hget, hsel, ?_⟩
    have hafter : (b.db.move m now).1.getTask m.taskId = some (m.row now t) := by
      rw [TaskDb.move_fst, TaskDb.getTask_updateTasks, hget, Option.map_some, if_pos hsel]
    simp [exec, TaskDb.move_snd, hany, hafter]

/-- A move leaves the status of every other task. -/
theorem move_getTask_of_ne (db : TaskDb) (m : TaskMove) (now : Clock) {taskId : TaskId}
    (h : taskId ≠ m.taskId) : (db.move m now).1.getTask taskId = db.getTask taskId := by
  rw [TaskDb.move_fst, TaskDb.getTask_updateTasks]
  cases hget : db.getTask taskId with
  | none => rfl
  | some t =>
    have hid := (TaskDb.getTask_eq_some_iff.mp hget).2
    have hunsel : ¬m.selects db t = true := by
      intro hsel
      exact h (hid ▸ TaskMove.id_of_selects hsel)
    rw [Option.map_some, if_neg hunsel]

/-- A selected row is well formed after the move. -/
theorem wellFormed_row {m : TaskMove} : WellFormed (m.row now t) := by
  unfold WellFormed
  cases m with
  | claim taskId claimerId => simp [TaskMove.row, claimedRow]
  | release | unquarantine => simp [TaskMove.row, openedRow]
  | close taskId closedBy reason force => simp [TaskMove.row, TaskDb.closedRow]
  | reopen taskId reopenedBy => simp [TaskMove.row, reopenedRow, openedRow]
  | quarantine taskId actor => simp [TaskMove.row, quarantinedRow]

theorem Tracked.create (h : b.Tracked) (suffix : String) (new : NewTask)
    (now : Clock) : (b.exec (.create suffix new now)).Tracked := by
  cases hcreate : b.db.createTask suffix new now with
  | none =>
    rw [exec_create_none hcreate]
    exact h
  | some db =>
    rw [exec_create_some hcreate]
    constructor
    · intro t ht
      rcases (TaskDb.mem_createTask hcreate).mp ht with hold | rfl
      · exact h.wellFormed t hold
      · exact ⟨newId_ne_empty "tsk" suffix, Or.inl ⟨rfl, rfl⟩⟩
    · intro taskId
      simp only [recordAudit, createdEntry, newId_ne_empty, if_false]
      rw [TaskDb.getTask_createTask hcreate]
      by_cases heq : taskId = newId "tsk" suffix
      · rw [trail_append_self _ heq.symm, lastStatus_append_singleton, if_pos heq]
        rfl
      · rw [trail_append_of_ne _ (Ne.symm heq), if_neg heq]
        exact h.lastStatus taskId

theorem Tracked.move (h : b.Tracked) (m : TaskMove) (now : Clock) :
    (b.exec (.move m now)).Tracked := by
  have hrows : ∀ t ∈ (b.db.move m now).1.tasks, t.id ≠ "" ∧ WellFormed t := by
    intro u hu
    rw [TaskDb.move_fst] at hu
    obtain ⟨t, ht, rfl⟩ := TaskDb.mem_updateTasks.mp hu
    split
    · exact ⟨(m.row_id now t) ▸ (h.wellFormed t ht).1, wellFormed_row⟩
    · exact h.wellFormed t ht
  rcases b.exec_move_cases m now with ⟨hnone, heq⟩ | ⟨t, hget, hsel, heq⟩
  · rw [heq]
    refine ⟨hrows, fun taskId => ?_⟩
    rw [h.lastStatus taskId, TaskDb.move_fst, TaskDb.getTask_updateTasks]
    cases hget : b.db.getTask taskId with
    | none => rfl
    | some t =>
      have hunsel := hnone t (TaskDb.getTask_eq_some_iff.mp hget).1
      simp [hunsel]
  · rw [heq]
    refine ⟨hrows, fun taskId => ?_⟩
    obtain ⟨ht, hid⟩ := TaskDb.getTask_eq_some_iff.mp hget
    have hne : m.taskId ≠ "" := hid ▸ (h.wellFormed t ht).1
    simp only [recordAudit, TaskMove.entry, hne, if_false]
    by_cases hself : taskId = m.taskId
    · rw [trail_append_self _ hself.symm, lastStatus_append_singleton, hself, TaskDb.move_fst,
        TaskDb.getTask_updateTasks, hget]
      simp [hsel, m.row_status]
    · rw [trail_append_of_ne _ (Ne.symm hself), move_getTask_of_ne _ _ _ hself]
      exact h.lastStatus taskId

/-- The last entry of every task names the status it is in. -/
theorem Tracked.exec (h : b.Tracked) (op : BoardOp) : (b.exec op).Tracked := by
  cases op with
  | create suffix new now => exact h.create suffix new now
  | move m now => exact h.move m now

/-! ## When the chain holds -/

/-- The row after the move still tells the status before it: it was not quarantined, and a
claimer is not the empty name. -/
def Legible (t : Task) : TaskMove → Prop
  | .close _ _ _ _ => t.status ≠ "quarantined" ∧ t.claimedBy ≠ some ""
  | .quarantine _ _ => t.claimedBy ≠ some ""
  | _ => True

/-- Every row that a close or a quarantine changes is legible. -/
def AuditOrderly (b : Board) : BoardOp → Prop
  | .create _ _ _ => True
  | .move m _ => ∀ t ∈ b.db.getTask m.taskId, m.selects b.db t = true → Legible t m

/-- The status derived from a well-formed row that is not finished. -/
theorem derivedStatus_iff {u : Task} (hwell : WellFormed t) (hclosed : t.status ≠ "closed")
    (hkeep : u.claimedBy = t.claimedBy) :
    TaskMove.derivedStatus (some u) = t.status ↔
      t.status ≠ "quarantined" ∧ t.claimedBy ≠ some "" := by
  unfold TaskMove.derivedStatus
  rw [Option.bind_some, hkeep]
  rcases hwell with ⟨hstatus, hclaimer⟩ | ⟨hstatus, hclaimer⟩ | hstatus | hstatus
  · simp [hstatus, hclaimer]
  · obtain ⟨claimer, hclaimer⟩ := Option.ne_none_iff_exists'.mp hclaimer
    simp [hstatus, hclaimer]
  · exact absurd hstatus hclosed
  · rw [hstatus]
    split <;> simp

/-- A move records the status it left exactly when the row is legible. -/
theorem fromStatus_iff {m : TaskMove} (hwell : WellFormed t) (hsel : m.selects db t = true) :
    m.fromStatus (some (m.row now t)) = t.status ↔ Legible t m := by
  cases m with
  | claim taskId claimerId =>
    simp only [TaskMove.selects, TaskDb.claimable, Bool.and_eq_true, decide_eq_true_eq] at hsel
    simp [TaskMove.fromStatus, Legible, hsel.1.2]
  | release taskId releaserId =>
    simp only [TaskMove.selects, TaskDb.releasable, Bool.and_eq_true, decide_eq_true_eq] at hsel
    simp [TaskMove.fromStatus, Legible, hsel.2]
  | close taskId closedBy reason force =>
    simp only [TaskMove.selects, TaskDb.closable, Bool.and_eq_true, decide_eq_true_eq,
      finishedStatuses] at hsel
    exact derivedStatus_iff hwell (by simp at hsel; tauto) rfl
  | reopen | unquarantine =>
    simp only [TaskMove.selects, TaskDb.inStatus, Bool.and_eq_true, decide_eq_true_eq] at hsel
    simp [TaskMove.fromStatus, Legible, hsel.2]
  | quarantine taskId actor =>
    simp only [TaskMove.selects, TaskDb.quarantinable, Bool.and_eq_true, decide_eq_true_eq,
      List.mem_cons, not_or] at hsel
    have hderived := derivedStatus_iff (u := quarantinedRow now t) hwell hsel.2.1 rfl
    rw [and_iff_right hsel.2.2.2.1] at hderived
    exact hderived

/-- An entry for a task that has an id extends the chains exactly when it leaves the task's
last status. -/
theorem chained_recordAudit_iff (h : b.Chained) (db : TaskDb) {entry : AuditEntry}
    (hid : entry.taskId ≠ "") :
    Chained ⟨db, recordAudit b.log entry⟩ ↔
      entry.fromStatus = lastStatus none (trail b.log entry.taskId) := by
  unfold recordAudit
  rw [if_neg hid]
  constructor
  · intro hchained
    have hlinked := hchained entry.taskId
    rw [trail_append_self _ rfl, linked_append_singleton] at hlinked
    exact hlinked.2
  · intro hfrom taskId
    by_cases heq : entry.taskId = taskId
    · rw [trail_append_self _ heq, linked_append_singleton]
      exact ⟨h taskId, heq ▸ hfrom⟩
    · rw [trail_append_of_ne _ heq]
      exact h taskId

/-- An operation keeps the chains exactly when it is orderly. -/
theorem Chained.exec_iff (h : b.Chained) (htracked : b.Tracked) (op : BoardOp) :
    (b.exec op).Chained ↔ b.AuditOrderly op := by
  cases op with
  | create suffix new now =>
    refine iff_of_true ?_ trivial
    cases hcreate : b.db.createTask suffix new now with
    | none =>
      rw [exec_create_none hcreate]
      exact h
    | some db =>
      rw [exec_create_some hcreate,
        chained_recordAudit_iff h db
          (show (createdEntry suffix new).taskId ≠ "" from newId_ne_empty "tsk" suffix),
        htracked.lastStatus]
      rw [show (createdEntry suffix new).taskId = newId "tsk" suffix from rfl,
        TaskDb.getTask_newId_of_createTask hcreate]
      rfl
  | move m now =>
    rcases b.exec_move_cases m now with ⟨hnone, heq⟩ | ⟨t, hget, hsel, heq⟩
    · refine iff_of_true (heq ▸ h) ?_
      intro t hget hsel
      rw [hnone t (TaskDb.getTask_eq_some_iff.mp hget).1] at hsel
      contradiction
    · obtain ⟨ht, hid⟩ := TaskDb.getTask_eq_some_iff.mp hget
      obtain ⟨hne, hwell⟩ := htracked.wellFormed t ht
      rw [heq, chained_recordAudit_iff h _ (show m.taskId ≠ "" from hid ▸ hne)]
      have hlast : lastStatus none (trail b.log m.taskId) = some t.status := by
        rw [htracked.lastStatus, hget, Option.map_some]
      simp only [TaskMove.entry, hlast, Option.some.injEq, AuditOrderly, hget,
        Option.mem_def, forall_eq', fromStatus_iff hwell hsel]
      tauto

/-- The trails are chains after every operation exactly when every row that a close or a
quarantine changes still tells the status it had. -/
theorem everyStep_chained_iff (ops : List BoardOp) :
    EveryStep step (fun _ _ b => b.Chained) empty ops ↔ Guarded step AuditOrderly empty ops := by
  have hinit : Tracked empty ∧ Chained empty := by
    refine ⟨⟨?_, fun taskId => rfl⟩, fun taskId => trivial⟩
    intro t ht
    cases ht
  apply everyStep_iff_guarded (I := fun b => Tracked b ∧ Chained b) _ _ _ hinit ops
  · intro s op hnone
    cases hnone
  · rintro s op s' ⟨htracked, hchained⟩ hguard hstep
    cases hstep
    exact ⟨htracked.exec op, (hchained.exec_iff htracked op).mpr hguard⟩
  · rintro s op s' ⟨htracked, hchained⟩ hstep
    cases hstep
    exact hchained.exec_iff htracked op

/-- A task is quarantined as soon as it is created. -/
def quarantinedTask : List BoardOp :=
  [.create "a" ⟨"prj", "a", "lead", "", 0, [], none, none, none⟩ 1,
    .move (.quarantine "tsk-a" "lead") 2]

/-- The close records that the task was open. -/
theorem close_breaks_chain :
    ¬EveryStep step (fun _ _ b => b.Chained) empty
      (quarantinedTask ++ [.move (.close "tsk-a" "lead" none false) 3]) := by
  intro hevery
  have hlinked := hevery quarantinedTask _ [] _ _ rfl rfl rfl "tsk-a"
  exact absurd hlinked.2.2.1 (by decide)

end Board

end TinyAgentOS.Projects
