import TinyAgentOS.Library.Dict
import TinyAgentOS.Library.Forest
import TinyAgentOS.Projects.BeadsBridge
import TinyAgentOS.Projects.TaskMoves

/-!
# The task routes

Creating and updating a task over HTTP.  An update that sets a parent first walks
up from it, one read of the store at a time, and refuses when the walk meets the
task; the write comes later, and other requests may run between any two statements.

Main results:

- `RouteState.Sound.step`: what every request under way relies on.
- `RouteState.run_acyclic`: the runs in which no task becomes its own ancestor.
- `RouteState.walks_cross`: two updates that close a cycle together.
-/

namespace TinyAgentOS.Projects

open Collections Forest Transition

/-! ## Requests -/

/-- An error response. -/
structure Refusal where
  statusCode : Nat
  error : String

def notFound : Refusal := ⟨404, "not found"⟩

/-- The body of an update; `none` stands for a field that is left out. -/
structure UpdateTaskIn where
  title : Option String := none
  body : Option String := none
  priority : Option Int := none
  labels : Option (List String) := none
  status : Option Status := none
  assigneeId : Option String := none
  parentTaskId : Option TaskId := none
  elementId : Option String := none

/-- The first field that is set and that an agent may not edit. -/
def UpdateTaskIn.firstProtected (payload : UpdateTaskIn) : Option String :=
  if payload.status ≠ none then some "status"
  else if payload.assigneeId ≠ none then some "assignee_id"
  else if payload.parentTaskId ≠ none then some "parent_task_id"
  else if payload.elementId ≠ none then some "element_id"
  else none

/-- The call of `update_task` a body leads to. -/
def UpdateTaskIn.edit (payload : UpdateTaskIn) : TaskEdit where
  title := payload.title
  body := payload.body
  priority := payload.priority
  labels := payload.labels
  status := payload.status
  assigneeId := payload.assigneeId
  parentTaskId := payload.parentTaskId
  elementId :=
    match payload.elementId with
    | none => .unchanged
    | some elementId => if elementId = "none" then .clear else .set elementId

/-- An update whose actor has been authorised for the project. -/
structure PatchRequest where
  projectId : String
  taskId : TaskId
  actorId : String
  isAgent : Bool
  leadMemberId : Option String
  payload : UpdateTaskIn

/-- A creation whose actor has been authorised for the project. -/
structure CreateRequest where
  projectId : String
  actorId : String
  title : String
  body : String
  priority : Int
  labels : List String
  assigneeId : Option String
  parentTaskId : Option TaskId
  elementId : Option String

/-- The call of `create_task` a request leads to. -/
def CreateRequest.task (r : CreateRequest) : NewTask :=
  ⟨r.projectId, r.title, r.actorId, r.body, r.priority, r.labels, r.assigneeId, r.parentTaskId,
    r.elementId⟩

/-- What `get_element` reads of an element. -/
structure ProjectElement where
  projectId : String
  archived : Bool

/-- `_require_active_element`. -/
def requireActiveElement (projectId : String) (found : Option ProjectElement) :
    Except Refusal Unit :=
  match found with
  | none => .error ⟨400, "element not in project"⟩
  | some el =>
    if el.projectId ≠ projectId then .error ⟨400, "element not in project"⟩
    else if el.archived then .error ⟨400, "element archived"⟩
    else .ok ()

/-! ## The walk -/

/-- Where an update stands: the statement it awaits, and the tasks its walk has read. -/
inductive PatchStage where
  | parentRead
  | walking (walked : List TaskId) (next : TaskId)
  | elementRead (walked : List TaskId)
  | ready (walked : List TaskId)

/-- The tasks the walk has read. -/
def PatchStage.walked : PatchStage → List TaskId
  | parentRead => []
  | walking walked _ => walked
  | elementRead walked => walked
  | ready walked => walked

namespace PatchRequest

/-- Past the walk: an element that is named is looked up before the write. -/
def afterWalk (r : PatchRequest) (walked : List TaskId) : PatchStage :=
  match r.payload.elementId with
  | none => .ready walked
  | some elementId => if elementId = "none" then .ready walked else .elementRead walked

/-- The checks on the task itself. -/
def checkTask (r : PatchRequest) (existing : Option Task) : Except Refusal PatchStage :=
  match existing with
  | none => .error notFound
  | some t =>
    if t.projectId ≠ r.projectId then .error notFound
    else if r.isAgent ∧ t.createdBy ≠ r.actorId ∧ r.leadMemberId ≠ some r.actorId then
      .error ⟨403, "agent may only edit its own cards or those it leads"⟩
    else
      match if r.isAgent then r.payload.firstProtected else none with
      | some f => .error ⟨403, "field '" ++ f ++ "' is not editable by agents"⟩
      | none =>
        match r.payload.parentTaskId with
        | none => .ok (r.afterWalk [])
        | some parentId =>
          if parentId = r.taskId then .error ⟨400, "cycle: cannot self-parent"⟩
          else .ok .parentRead

/-- The turn of the loop after a row is read: end, refuse, or go on to its parent. -/
def climb (r : PatchRequest) (walked : List TaskId) (cur : Option Task) :
    Except Refusal PatchStage :=
  match truthy (cur.bind Task.parentTaskId) with
  | none => .ok (r.afterWalk walked)
  | some next =>
    if next = r.taskId ∨ next ∈ walked then .error ⟨400, "cycle in parent chain"⟩
    else .ok (.walking walked next)

/-- The next read of a task that an update awaits, and what follows from it. -/
def read (r : PatchRequest) (db : TaskDb) : PatchStage → Option (Except Refusal PatchStage)
  | .parentRead =>
    r.payload.parentTaskId.map fun parentId =>
      match db.getTask parentId with
      | none => .error ⟨400, "parent not in this project"⟩
      | some parent =>
        if parent.projectId ≠ r.projectId then .error ⟨400, "parent not in this project"⟩
        else r.climb [parent.id] (some parent)
  | .walking walked next => some (r.climb (next :: walked) (db.getTask next))
  | _ => none

end PatchRequest

/-! ## The server -/

abbrev RequestId := Nat

/-- A request under way. -/
inductive RouteCall where
  | patch (r : PatchRequest) (stage : PatchStage)
  | create (r : CreateRequest) (elementRead : Bool)

/-- The store, and the requests under way. -/
structure RouteState where
  db : TaskDb
  calls : Dict RequestId RouteCall

/-- The statements of the requests. -/
inductive RouteEvent where
  | patchCalled (id : RequestId) (r : PatchRequest)
  | createCalled (id : RequestId) (r : CreateRequest)
  | taskRead (id : RequestId)
  | elementRead (id : RequestId) (found : Option ProjectElement)
  | updated (id : RequestId) (now : Clock)
  | inserted (id : RequestId) (suffix : String) (now : Clock)

namespace RouteState

/-- A server with no requests under way. -/
def init (db : TaskDb) : RouteState := ⟨db, Dict.empty⟩

/-- Go on with an update, or answer with an error. -/
def goOn (s : RouteState) (id : RequestId) (r : PatchRequest) :
    Except Refusal PatchStage → RouteState
  | .error _ => { s with calls := s.calls.pop id }
  | .ok stage => { s with calls := s.calls.set id (.patch r stage) }

/-- One statement. -/
def step (s : RouteState) : RouteEvent → Option RouteState
  | .patchCalled id r =>
    if (s.calls.get? id).isSome then none
    else some (s.goOn id r (r.checkTask (s.db.getTask r.taskId)))
  | .createCalled id r =>
    if (s.calls.get? id).isSome then none
    else if r.parentTaskId.all (fun parentId =>
        (s.db.getTask parentId).any fun parent => parent.projectId = r.projectId) then
      some { s with calls := s.calls.set id (.create r r.elementId.isSome) }
    else some s
  | .taskRead id =>
    match s.calls.get? id with
    | some (.patch r stage) => (r.read s.db stage).map (s.goOn id r)
    | _ => none
  | .elementRead id found =>
    match s.calls.get? id with
    | some (.patch r (.elementRead walked)) =>
      some (s.goOn id r ((requireActiveElement r.projectId found).map fun _ => .ready walked))
    | some (.create r true) =>
      match requireActiveElement r.projectId found with
      | .error _ => some { s with calls := s.calls.pop id }
      | .ok _ => some { s with calls := s.calls.set id (.create r false) }
    | _ => none
  | .updated id now =>
    match s.calls.get? id with
    | some (.patch r (.ready _)) =>
      some ⟨s.db.updateTask r.taskId r.payload.edit now, s.calls.pop id⟩
    | _ => none
  | .inserted id suffix now =>
    match s.calls.get? id with
    | some (.create r false) =>
      some ⟨(s.db.createTask suffix r.task now).getD s.db, s.calls.pop id⟩
    | _ => none

end RouteState

/-! ## The parent graph -/

namespace TaskDb

/-- The parent a task's row names. -/
def parentOf (db : TaskDb) (taskId : TaskId) : Option TaskId :=
  (db.getTask taskId).bind Task.parentTaskId

/-- The parent graph is a forest of tasks of the store. -/
structure Rooted (db : TaskDb) : Prop where
  acyclic : Acyclic db.parentOf
  present : ∀ a p, db.parentOf a = some p → (db.getTask p).isSome = true
  named : db.getTask "" = none

variable {taskId : TaskId} {db : TaskDb}

/-- An update gives its task the parent it sets, and no other task one. -/
theorem parentOf_updateTask (db : TaskDb) (edit : TaskEdit) (now : Clock)
    (hexists : (db.getTask taskId).isSome = true) : (db.updateTask taskId edit now).parentOf =
      Function.update db.parentOf taskId (edit.parentTaskId.or (db.parentOf taskId)) := by
  obtain ⟨t, hget⟩ := Option.isSome_iff_exists.mp hexists
  funext a
  by_cases hempty : edit = {}
  · rw [updateTask, if_pos hempty, hempty, Option.none_or, Function.update_eq_self]
  · unfold parentOf
    rw [getTask_updateTask db taskId now hempty]
    by_cases ha : a = taskId
    · subst ha
      simp [hget, editedRow]
    · simp [ha]

/-- An update removes no row. -/
theorem isSome_getTask_updateTask (db : TaskDb) (taskId : TaskId) (edit : TaskEdit)
    (now : Clock) (a : TaskId) :
    ((db.updateTask taskId edit now).getTask a).isSome = (db.getTask a).isSome := by
  unfold updateTask
  split
  · rfl
  · rw [getTask_updateTasks, Option.isSome_map]

variable {now : Clock} {suffix : String} {new : NewTask}

/-- A creation gives the new task its parent, and no other task one. -/
theorem parentOf_createTask {db' : TaskDb} (h : db.createTask suffix new now = some db') :
    db'.parentOf = Function.update db.parentOf (newId "tsk" suffix) new.parentTaskId := by
  funext a
  unfold parentOf
  rw [getTask_createTask h]
  by_cases ha : a = newId "tsk" suffix
  · subst ha
    simp [NewTask.row]
  · simp [ha]

theorem isSome_getTask_createTask {db' : TaskDb} (h : db.createTask suffix new now = some db')
    {a : TaskId} (ha : (db.getTask a).isSome = true) : (db'.getTask a).isSome = true := by
  rw [getTask_createTask h]
  split
  · rfl
  · exact ha

theorem Rooted.createTask {db' : TaskDb} (hdb : db.Rooted)
    (h : db.createTask suffix new now = some db')
    (hparent : ∀ p, new.parentTaskId = some p → (db.getTask p).isSome = true) : db'.Rooted := by
  have hfresh := getTask_newId_of_createTask h
  constructor
  · rw [parentOf_createTask h]
    cases hp : new.parentTaskId with
    | none =>
      have hnone : db.parentOf (newId "tsk" suffix) = none := by simp [parentOf, hfresh]
      rw [← hnone, Function.update_eq_self]
      exact hdb.acyclic
    | some p =>
      apply hdb.acyclic.update
      apply not_reaches_of_leaf
      · intro a ha
        have hsome := hdb.present a _ ha
        rw [hfresh] at hsome
        contradiction
      · rintro rfl
        have hsome := hparent _ hp
        rw [hfresh] at hsome
        contradiction
  · intro a p hup
    rw [parentOf_createTask h] at hup
    by_cases ha : a = newId "tsk" suffix
    · rw [ha, Function.update_self] at hup
      exact isSome_getTask_createTask h (hparent p hup)
    · rw [Function.update_of_ne ha] at hup
      exact isSome_getTask_createTask h (hdb.present a p hup)
  · rw [getTask_createTask h, if_neg (newId_ne_empty "tsk" suffix).symm]
    exact hdb.named

/-- An update whose parent is not below the task. -/
theorem Rooted.updateTask (hdb : db.Rooted) {edit : TaskEdit}
    (hexists : (db.getTask taskId).isSome = true)
    (hparent : ∀ p, edit.parentTaskId = some p → (db.getTask p).isSome = true ∧
      ¬Relation.ReflTransGen (Up db.parentOf) p taskId) :
    (db.updateTask taskId edit now).Rooted := by
  constructor
  · rw [parentOf_updateTask db edit now hexists]
    cases hp : edit.parentTaskId with
    | none =>
      rw [Option.none_or, Function.update_eq_self]
      exact hdb.acyclic
    | some p =>
      rw [Option.some_or]
      exact hdb.acyclic.update (hparent p hp).2
  · intro a p hup
    rw [isSome_getTask_updateTask]
    rw [parentOf_updateTask db edit now hexists] at hup
    by_cases ha : a = taskId
    · rw [ha, Function.update_self] at hup
      rcases Option.or_eq_some_iff.mp hup with hset | ⟨_, hold⟩
      · exact (hparent p hset).1
      · exact hdb.present taskId p hold
    · rw [Function.update_of_ne ha] at hup
      exact hdb.present a p hup
  · rw [← Option.not_isSome_iff_eq_none, isSome_getTask_updateTask, hdb.named]
    simp

end TaskDb

/-! ## Requests under way -/

/-- An update's walk has read these tasks, the task itself not among them. -/
structure Walked (db : TaskDb) (r : PatchRequest) (walked : List TaskId)
    (next : Option TaskId) : Prop where
  climb : ∀ p, r.payload.parentTaskId = some p → Climb db.parentOf p walked next
  avoids : r.taskId ∉ walked
  present : ∀ a ∈ walked, (db.getTask a).isSome = true

/-- What an update relies on at each of its stages. -/
def PatchSound (db : TaskDb) (r : PatchRequest) : PatchStage → Prop
  | .parentRead => r.payload.parentTaskId ≠ some r.taskId
  | .walking walked next =>
    Walked db r walked (some next) ∧ next ≠ r.taskId ∧ (db.getTask next).isSome = true
  | .elementRead walked => Walked db r walked none
  | .ready walked => Walked db r walked none

/-- What a request relies on. -/
def RouteCall.Sound (db : TaskDb) : RouteCall → Prop
  | .patch r stage => (db.getTask r.taskId).isSome = true ∧ PatchSound db r stage
  | .create r _ => ∀ p, r.parentTaskId = some p → (db.getTask p).isSome = true

section Walks

variable {db db' : TaskDb} {r : PatchRequest} {walked : List TaskId} {stage : PatchStage}

theorem Walked.frame {next : Option TaskId} (h : Walked db r walked next)
    (hparent : ∀ a ∈ walked, db'.parentOf a = db.parentOf a)
    (hpresent : ∀ a, (db.getTask a).isSome = true → (db'.getTask a).isSome = true) :
    Walked db' r walked next where
  climb := fun p hp => (h.climb p hp).congr hparent
  avoids := h.avoids
  present := fun a ha => hpresent a (h.present a ha)

/-- A request goes on undisturbed while the tasks it has read keep their parents. -/
theorem PatchSound.frame (h : PatchSound db r stage)
    (hparent : ∀ a ∈ stage.walked, db'.parentOf a = db.parentOf a)
    (hpresent : ∀ a, (db.getTask a).isSome = true → (db'.getTask a).isSome = true) :
    PatchSound db' r stage := by
  cases stage with
  | parentRead => exact h
  | walking walked next => exact ⟨h.1.frame hparent hpresent, h.2.1, hpresent next h.2.2⟩
  | elementRead | ready => exact Walked.frame h hparent hpresent

theorem PatchSound.afterWalk (h : Walked db r walked none) :
    PatchSound db r (r.afterWalk walked) := by
  unfold PatchRequest.afterWalk
  cases r.payload.elementId with
  | none => exact h
  | some elementId =>
    by_cases hnone : elementId = "none"
    · simpa [hnone, PatchSound] using h
    · simpa [hnone, PatchSound] using h

/-- The turn of the loop after the row of a task is read. -/
theorem PatchSound.climb (hdb : db.Rooted) {a : TaskId} (h : Walked db r walked (db.parentOf a))
    (hstage : r.climb walked (db.getTask a) = .ok stage) : PatchSound db r stage := by
  have hcur : (db.getTask a).bind Task.parentTaskId = db.parentOf a := rfl
  unfold PatchRequest.climb at hstage
  rw [hcur] at hstage
  cases hup : db.parentOf a with
  | none =>
    rw [hup] at hstage h
    cases hstage
    exact PatchSound.afterWalk h
  | some next =>
    have hpresent := hdb.present a next hup
    have hne : next ≠ "" := by
      rintro rfl
      rw [hdb.named] at hpresent
      contradiction
    have htruthy : truthy (some next) = some next := by simp [truthy, Option.filter, hne]
    rw [hup] at hstage h
    simp only [htruthy] at hstage
    by_cases hseen : next = r.taskId ∨ next ∈ walked
    · simp [hseen] at hstage
    · rw [if_neg hseen] at hstage
      cases hstage
      exact ⟨h, fun heq => hseen (Or.inl heq), hpresent⟩

/-- The next read of a task. -/
theorem PatchSound.read (hdb : db.Rooted) (h : PatchSound db r stage) {stage' : PatchStage}
    (hread : r.read db stage = some (.ok stage')) : PatchSound db r stage' := by
  cases stage with
  | parentRead =>
    obtain ⟨p, hp, hok⟩ := Option.map_eq_some_iff.mp hread
    cases hget : db.getTask p with
    | none => simp [hget] at hok
    | some parent =>
      obtain ⟨_, hid⟩ := TaskDb.getTask_eq_some_iff.mp hget
      simp only [hget] at hok
      by_cases hproject : parent.projectId ≠ r.projectId
      · simp [hproject] at hok
      · rw [if_neg hproject, hid, ← hget] at hok
        have hne : r.taskId ≠ p := by
          rintro rfl
          exact h hp
        refine PatchSound.climb hdb ⟨?_, ?_, ?_⟩ hok
        · intro p' hp'
          obtain rfl : p = p' := by simpa [hp] using hp'
          exact Climb.start
        · simpa using hne
        · intro a ha
          rw [List.mem_singleton.mp ha, hget]
          rfl
  | walking walked next =>
    obtain ⟨hwalked, hne, hpresent⟩ := h
    refine PatchSound.climb hdb ⟨?_, ?_, ?_⟩ (Option.some.inj hread)
    · exact fun p hp => (hwalked.climb p hp).next
    · rw [List.mem_cons, not_or]
      exact ⟨hne.symm, hwalked.avoids⟩
    · intro a ha
      rcases List.mem_cons.mp ha with rfl | ha
      · exact hpresent
      · exact hwalked.present a ha
  | elementRead | ready => simp [PatchRequest.read] at hread

/-- The checks on the task itself. -/
theorem PatchSound.checkTask (hstage : r.checkTask (db.getTask r.taskId) = .ok stage) :
    (db.getTask r.taskId).isSome = true ∧ PatchSound db r stage := by
  cases hget : db.getTask r.taskId with
  | none => simp [PatchRequest.checkTask, hget] at hstage
  | some t =>
    refine ⟨rfl, ?_⟩
    unfold PatchRequest.checkTask at hstage
    simp only [hget] at hstage
    split at hstage
    · contradiction
    split at hstage
    · contradiction
    split at hstage
    · contradiction
    split at hstage
    · rename_i hnone
      cases hstage
      apply PatchSound.afterWalk
      exact ⟨fun p hp => by simp [hnone] at hp, List.not_mem_nil, fun a ha => by cases ha⟩
    · rename_i p hp
      split at hstage
      · contradiction
      rename_i hne
      cases hstage
      simpa [PatchSound, hp] using hne

end Walks

namespace RouteState

/-- The graph is a forest, and every request under way is sound. -/
structure Sound (s : RouteState) : Prop where
  rooted : s.db.Rooted
  calls : ∀ id call, s.calls.get? id = some call → call.Sound s.db

variable {id : RequestId} {s : RouteState}

/-- A request is set, answered or dropped. -/
theorem Sound.set (h : s.Sound) {call : RouteCall}
    (hcall : call.Sound s.db) : Sound { s with calls := s.calls.set id call } := by
  refine ⟨h.rooted, ?_⟩
  intro id' call' hget
  rcases Dict.get?_set_cases hget with ⟨_, rfl⟩ | ⟨_, hget⟩
  · exact hcall
  · exact h.calls id' call' hget

theorem Sound.pop (h : s.Sound) (id : RequestId) : Sound { s with calls := s.calls.pop id } := by
  refine ⟨h.rooted, ?_⟩
  intro id' call hget
  rw [Dict.get?_pop] at hget
  split at hget
  · contradiction
  · exact h.calls id' call hget

variable {r : PatchRequest}

theorem Sound.goOn (h : s.Sound) {result : Except Refusal PatchStage}
    (hresult : ∀ stage, result = .ok stage → RouteCall.Sound s.db (.patch r stage)) :
    (s.goOn id r result).Sound := by
  cases result with
  | error refusal => exact h.pop id
  | ok stage => exact h.set (hresult stage rfl)

/-- The tasks whose parents a request's write sets. -/
def reparents : RouteCall → Option TaskId
  | .patch r _ => if r.payload.parentTaskId = none then none else some r.taskId
  | .create _ _ => none

/-- The walk of a request has read the task. -/
def hasWalked (taskId : TaskId) : RouteCall → Bool
  | .patch _ stage => taskId ∈ stage.walked
  | .create _ _ => false

/-- A task is given a parent while no other request under way has walked over it. -/
def ParentOrderly (s : RouteState) : RouteEvent → Prop
  | .updated id _ =>
    ∀ call ∈ s.calls.get? id, ∀ taskId ∈ reparents call, ∀ e ∈ s.calls.entries, e.1 ≠ id →
      hasWalked taskId e.2 = false
  | _ => True

/-- A write that sets no parent, or one that no other walk has met. -/
theorem Sound.updated (h : s.Sound)
    {walked : List TaskId} (now : Clock) (hcall : s.calls.get? id = some (.patch r (.ready walked)))
    (horderly : s.ParentOrderly (.updated id now)) :
    Sound ⟨s.db.updateTask r.taskId r.payload.edit now, s.calls.pop id⟩ := by
  obtain ⟨hexists, hwalked⟩ := h.calls id _ hcall
  have hpresent : ∀ a, (s.db.getTask a).isSome = true →
      ((s.db.updateTask r.taskId r.payload.edit now).getTask a).isSome = true := by
    intro a ha
    rw [TaskDb.isSome_getTask_updateTask]
    exact ha
  constructor
  · apply h.rooted.updateTask hexists
    intro p hp
    have hclimb := Walked.climb hwalked p hp
    exact ⟨Walked.present hwalked p hclimb.start_mem, hclimb.not_reaches (Walked.avoids hwalked)⟩
  · intro id' call hget
    rw [Dict.get?_pop] at hget
    split at hget
    · contradiction
    rename_i hne
    have hsound := h.calls id' call hget
    cases call with
    | create r' elementRead => exact fun p hp => hpresent p (hsound p hp)
    | patch r' stage =>
      refine ⟨hpresent _ hsound.1, hsound.2.frame ?_ hpresent⟩
      intro a ha
      rw [TaskDb.parentOf_updateTask s.db _ now hexists]
      by_cases hset : r.payload.parentTaskId = none
      · rw [show r.payload.edit.parentTaskId = none from hset, Option.none_or,
          Function.update_eq_self]
      · have huntouched := horderly _ hcall r.taskId (by simp [reparents, hset]) (id', _)
          (Dict.mem_entries_iff.mpr hget) (Ne.symm hne)
        have hother : a ≠ r.taskId := by
          rintro rfl
          simp [hasWalked, ha] at huntouched
        rw [Function.update_of_ne hother]

/-- A creation disturbs no request. -/
theorem Sound.inserted (h : s.Sound) {r : CreateRequest}
    (suffix : String) (now : Clock) (hcall : s.calls.get? id = some (.create r false)) :
    Sound ⟨(s.db.createTask suffix r.task now).getD s.db, s.calls.pop id⟩ := by
  have hparent := h.calls id _ hcall
  cases hcreate : s.db.createTask suffix r.task now with
  | none => exact h.pop id
  | some db =>
    simp only [Option.getD_some]
    refine ⟨h.rooted.createTask hcreate hparent, ?_⟩
    have hpresent : ∀ a, (s.db.getTask a).isSome = true → (db.getTask a).isSome = true :=
      fun a ha => TaskDb.isSome_getTask_createTask hcreate ha
    intro id' call hget
    rw [Dict.get?_pop] at hget
    split at hget
    · contradiction
    have hsound := h.calls id' call hget
    cases call with
    | create r' elementRead => exact fun p hp => hpresent p (hsound p hp)
    | patch r' stage =>
      refine ⟨hpresent _ hsound.1, hsound.2.frame ?_ hpresent⟩
      intro a ha
      rw [TaskDb.parentOf_createTask hcreate, Function.update_of_ne]
      rintro rfl
      have hread : (s.db.getTask (newId "tsk" suffix)).isSome = true := by
        cases stage with
        | parentRead => cases ha
        | walking walked next => exact hsound.2.1.present _ ha
        | elementRead | ready => exact Walked.present hsound.2 _ ha
      rw [TaskDb.getTask_newId_of_createTask hcreate] at hread
      contradiction

/-- One statement, a parent being set only while no other walk has met its task. -/
theorem Sound.step {s' : RouteState} {e : RouteEvent} (h : s.Sound)
    (horderly : s.ParentOrderly e) (hstep : s.step e = some s') : s'.Sound := by
  cases e with
  | patchCalled id r =>
    simp only [RouteState.step] at hstep
    split at hstep
    · contradiction
    cases hstep
    exact h.goOn fun stage hstage => PatchSound.checkTask hstage
  | createCalled id r =>
    simp only [RouteState.step] at hstep
    split at hstep
    · contradiction
    split at hstep
    · rename_i hparent
      cases hstep
      apply h.set
      intro p hp
      simp only [hp, Option.all_some, Option.any_eq_true] at hparent
      obtain ⟨parent, hget, _⟩ := hparent
      rw [hget]
      rfl
    · cases hstep
      exact h
  | taskRead id =>
    simp only [RouteState.step] at hstep
    split at hstep
    · rename_i r stage hcall
      obtain ⟨result, hread, rfl⟩ := Option.map_eq_some_iff.mp hstep
      obtain ⟨hexists, hsound⟩ := h.calls id _ hcall
      apply h.goOn
      rintro stage' rfl
      exact ⟨hexists, hsound.read h.rooted hread⟩
    · contradiction
  | elementRead id found =>
    simp only [RouteState.step] at hstep
    split at hstep
    · rename_i r walked hcall
      cases hstep
      obtain ⟨hexists, hsound⟩ := h.calls id _ hcall
      apply h.goOn
      intro stage hstage
      cases hfound : requireActiveElement r.projectId found with
      | error refusal => simp [hfound, Except.map] at hstage
      | ok u =>
        simp only [hfound, Except.map, Except.ok.injEq] at hstage
        exact hstage ▸ ⟨hexists, hsound⟩
    · rename_i r hcall
      split at hstep
      · cases hstep
        exact h.pop id
      · cases hstep
        have hparent : RouteCall.Sound s.db (.create r false) := h.calls id (.create r true) hcall
        exact h.set hparent
    · contradiction
  | updated id now =>
    simp only [RouteState.step] at hstep
    split at hstep
    · rename_i r walked hcall
      cases hstep
      exact h.updated now hcall horderly
    · contradiction
  | inserted id suffix now =>
    simp only [RouteState.step] at hstep
    split at hstep
    · rename_i r hcall
      cases hstep
      exact h.inserted suffix now hcall
    · contradiction

/-- In a run in which a task is given a parent only while no other walk has met it, no task
becomes its own ancestor. -/
theorem run_acyclic {db : TaskDb} {s : RouteState} {es : List RouteEvent} (hdb : db.Rooted)
    (horderly : Guarded step ParentOrderly (init db) es) (hrun : run step (init db) es = some s) :
    Acyclic s.db.parentOf := by
  have hsound : Sound s := by
    apply invariant_of_guarded_run (fun _ _ _ h hg hstep => h.step hg hstep) _ horderly hrun
    refine ⟨hdb, ?_⟩
    intro id call hget
    simp [init] at hget
  exact hsound.rooted.acyclic

instance (s : RouteState) (e : RouteEvent) : Decidable (s.ParentOrderly e) := by
  apply RouteEvent.casesOn (motive := fun e => Decidable (s.ParentOrderly e)) e <;> intros <;>
    unfold ParentOrderly <;> infer_instance

theorem rooted_empty : TaskDb.empty.Rooted := by
  constructor
  · intro a hcycle
    obtain ⟨p, hup, _⟩ := Relation.TransGen.head'_iff.mp hcycle
    cases hup
  · intro a p hup
    cases hup
  · rfl

/-- A request of the project's owner to create a task. -/
def createRequest (title : String) : CreateRequest :=
  ⟨"prj", "lead", title, "", 0, [], none, none, none⟩

/-- A request of the project's owner that puts one task under another. -/
def underRequest (taskId parentId : TaskId) : PatchRequest :=
  ⟨"prj", taskId, "lead", false, none, { parentTaskId := some parentId }⟩

/-- Two tasks are created. -/
def twoCreated : List RouteEvent :=
  [.createCalled 1 (createRequest "a"), .inserted 1 "a" 1, .createCalled 2 (createRequest "b"),
    .inserted 2 "b" 2]

/-- A request that walks and writes without another in between. -/
theorem run_acyclic_alone :
    ∃ s, run step (init TaskDb.empty)
        (twoCreated ++
          [.patchCalled 3 (underRequest "tsk-a" "tsk-b"), .taskRead 3, .updated 3 5]) = some s ∧
      s.db.parentOf "tsk-a" = some "tsk-b" ∧ Acyclic s.db.parentOf := by
  refine ⟨_, rfl, by decide, ?_⟩
  have horderly : Guarded step ParentOrderly (init TaskDb.empty)
      (twoCreated ++
        [.patchCalled 3 (underRequest "tsk-a" "tsk-b"), .taskRead 3, .updated 3 5]) := by
    decide
  exact run_acyclic rooted_empty horderly rfl

/-- Each of two requests walks before the other writes. -/
theorem walks_cross :
    ∃ s, run step (init TaskDb.empty)
        (twoCreated ++
          [.patchCalled 3 (underRequest "tsk-a" "tsk-b"), .taskRead 3,
            .patchCalled 4 (underRequest "tsk-b" "tsk-a"), .taskRead 4, .updated 3 5,
            .updated 4 6]) = some s ∧
      ¬Acyclic s.db.parentOf := by
  refine ⟨_, rfl, ?_⟩
  intro hacyclic
  apply hacyclic "tsk-a"
  exact Relation.TransGen.tail (b := "tsk-b") (Relation.TransGen.single (by decide)) (by decide)

end RouteState

end TinyAgentOS.Projects
