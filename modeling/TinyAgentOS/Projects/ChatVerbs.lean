import TinyAgentOS.Projects.BeadsBridge
import TinyAgentOS.Projects.TaskMoves

/-!
# The Beads bridge: verbs in the chat

A message in the project's A2A channel may hold lines such as
`/close tsk-abc done`.  Each becomes a call of the task store, which finds its
task by id alone; calls of other requests may run in between.

Main results:

- `everyStep_confined_iff`: the messages that leave other projects alone.
- `verb_crosses_projects`: a message that closes another project's task.
-/

namespace TinyAgentOS.Projects

open Transition

/-! ## Parsing -/

/-- The verbs of the chat. -/
inductive Verb where
  | claim
  | release
  | close
deriving DecidableEq

/-- A verb with the id it names and what the line says after it. -/
structure ParsedVerb where
  verb : Verb
  taskId : TaskId
  note : Option String
deriving DecidableEq

/-- `[ \t]`. -/
def isBlank (c : Char) : Bool := c = ' ' || c = '\t'

/-- `[a-z0-9]`. -/
def isIdChar (c : Char) : Bool := ('a' ≤ c && c ≤ 'z') || ('0' ≤ c && c ≤ '9')

/-- What is left of a line after a word at its start. -/
def dropWord (word line : List Char) : Option (List Char) :=
  if word <+: line then some (line.drop word.length) else none

/-- `/(claim|release|close)`. -/
def parseVerb (line : List Char) : Option (Verb × List Char) :=
  ((dropWord "/claim".toList line).map fun rest => (.claim, rest)) <|>
    ((dropWord "/release".toList line).map fun rest => (.release, rest)) <|>
      ((dropWord "/close".toList line).map fun rest => (.close, rest))

/-- `[ \t]+`. -/
def parseBlanks (line : List Char) : Option (List Char) :=
  if (line.takeWhile isBlank) = [] then none else some (line.dropWhile isBlank)

/-- `tsk[-_][a-z0-9]+`. -/
def parseTaskId (line : List Char) : Option (TaskId × List Char) :=
  match dropWord "tsk".toList line with
  | some (c :: rest) =>
    if (c = '-' ∨ c = '_') ∧ rest.takeWhile isIdChar ≠ [] then
      some (String.ofList ("tsk".toList ++ c :: rest.takeWhile isIdChar),
        rest.dropWhile isIdChar)
    else none
  | _ => none

/-- `(?:[ \t]+(.+))?$`.  Of a tail of blanks alone the last one is the note. -/
def parseNote (tail : List Char) : Option (Option String) :=
  if tail = [] then some none
  else
    match tail.takeWhile isBlank, tail.dropWhile isBlank with
    | [], _ => none
    | [_], [] => none
    | blanks, [] => some (some (String.ofList (blanks.drop (blanks.length - 1))))
    | _, note => some (some (String.ofList note))

/-- `_VERB_RE` on one line. -/
def parseLine (line : List Char) : Option ParsedVerb := do
  let (verb, rest) ← parseVerb line
  let rest ← parseBlanks rest
  let (taskId, tail) ← parseTaskId rest
  let note ← parseNote tail
  return ⟨verb, taskId, note⟩

/-- `parse_verbs`; no match of the expression spans two lines. -/
def parseVerbs (body : String) : List ParsedVerb :=
  (body.toList.splitOn '\n').filterMap parseLine

/-! ## Handling a message -/

/-- The fields of a message that the bridge reads. -/
structure ChatMessage where
  contentType : Option String
  content : Option String
  authorId : Option String

/-- A `/new` verb, with its assignee already resolved among the members. -/
structure NewVerb where
  title : String
  assigneeId : Option String

/-- The store call a verb becomes. -/
def ParsedVerb.move (v : ParsedVerb) (author : String) : TaskMove :=
  match v.verb with
  | .claim => .claim v.taskId author
  | .release => .release v.taskId author
  | .close => .close v.taskId author v.note false

/-- A statement of the store: one of the message's, or another request's. -/
inductive ChatStep where
  | verb (v : ParsedVerb) (author : String) (now : Clock)
  | new (suffix : String) (task : NewTask) (now : Clock)
  | other (op : TaskOp)
deriving DecidableEq

/-- What runs while a message is handled: the readings of the clock, the random ids,
and the operations of other requests before each of its own. -/
structure Surroundings where
  clock : Nat → Clock
  suffix : Nat → String
  others : Nat → List TaskOp

/-- `_dispatch_verbs`, from the i-th statement on. -/
def dispatchVerbs (around : Surroundings) (author : String) :
    Nat → List ParsedVerb → List ChatStep
  | _, [] => []
  | i, v :: rest =>
    (around.others i).map .other ++ .verb v author (around.clock i) ::
      dispatchVerbs around author (i + 1) rest

/-- `_dispatch_new_verbs`, from the i-th statement on. -/
def dispatchNewVerbs (around : Surroundings) (projectId author : String) :
    Nat → List NewVerb → List ChatStep
  | _, [] => []
  | i, v :: rest =>
    (around.others i).map .other ++
      .new (around.suffix i)
          { projectId := projectId, title := v.title, createdBy := author,
            assigneeId := v.assigneeId } (around.clock i) ::
        dispatchNewVerbs around projectId author (i + 1) rest

/-- `on_chat_message`: the statements that handling a message runs.  Mentions add
comments, and touch no task. -/
def onChatMessage (around : Surroundings) (projectId channelId : String)
    (channels : List Channel) (newVerbs : List NewVerb) (message : ChatMessage) :
    List ChatStep :=
  if message.contentType = some "system" then []
  else if (findA2aChannel channels).map Channel.id ≠ some channelId then []
  else
    let body := message.content.getD ""
    let author := (truthy message.authorId).getD "agent"
    let verbs := parseVerbs body
    dispatchVerbs around author 0 verbs ++
      dispatchNewVerbs around projectId author verbs.length newVerbs

namespace TaskDb

/-- Run a statement. -/
def chat (db : TaskDb) : ChatStep → TaskDb
  | .verb v author now => (db.move (v.move author) now).1
  | .new suffix task now => (db.createTask suffix task now).getD db
  | .other op => db.exec op

/-- One statement while a message is handled. -/
def chatStep (db : TaskDb) (e : ChatStep) : Option TaskDb := some (db.chat e)

/-- Every task of another project is as it was. -/
def SparesOthers (projectId : String) (db db' : TaskDb) : Prop :=
  ∀ t ∈ db.tasks, t.projectId ≠ projectId → t ∈ db'.tasks

/-- The message's own statements spare the tasks of other projects. -/
def Confined (projectId : String) (db : TaskDb) (e : ChatStep) (db' : TaskDb) : Prop :=
  match e with
  | .verb _ _ _ => db.SparesOthers projectId db'
  | .new _ _ _ => db.SparesOthers projectId db'
  | .other _ => True

/-- A verb that takes effect names a task of the project. -/
def VerbOrderly (projectId : String) (db : TaskDb) : ChatStep → Prop
  | .verb v author _ =>
    ∀ t ∈ db.getTask v.taskId, (v.move author).selects db t = true → t.projectId = projectId
  | _ => True

theorem SparesOthers.refl (projectId : String) (db : TaskDb) : db.SparesOthers projectId db :=
  fun _ ht _ => ht

/-- A move that takes effect changes the status of its task. -/
theorem row_status_ne {m : TaskMove} {db : TaskDb} {now : Clock} {t : Task}
    (hsel : m.selects db t = true) : (m.row now t).status ≠ t.status := by
  rw [m.row_status]
  cases m <;>
    simp only [TaskMove.selects, claimable, releasable, closable, inStatus, quarantinable,
      finishedStatuses, Bool.and_eq_true, decide_eq_true_eq, List.mem_cons, not_or] at hsel
  case claim => simp [TaskMove.toStatus, hsel.1.2]
  case release => simp [TaskMove.toStatus, hsel.2]
  case close => exact fun h => hsel.1.2.1 h.symm
  case reopen => simp [TaskMove.toStatus, hsel.2]
  case quarantine => exact fun h => hsel.2.2.2.1 h.symm
  case unquarantine => simp [TaskMove.toStatus, hsel.2]

/-- A move spares the other projects exactly when the task it changes is of the project. -/
theorem move_sparesOthers_iff (db : TaskDb) (projectId : String) (m : TaskMove) (now : Clock) :
    db.SparesOthers projectId (db.move m now).1 ↔
      ∀ t ∈ db.getTask m.taskId, m.selects db t = true → t.projectId = projectId := by
  rw [move_fst]
  constructor
  · intro hspares t hget hsel
    by_contra hother
    obtain ⟨ht, hid⟩ := getTask_eq_some_iff.mp hget
    have hkept := getTask_eq_some_iff.mpr ⟨hspares t ht hother, hid⟩
    rw [getTask_updateTasks, hget, Option.map_some, if_pos hsel, Option.some.injEq] at hkept
    exact row_status_ne hsel (congrArg Task.status hkept)
  · intro hproject t ht hother
    refine mem_updateTasks.mpr ⟨t, ht, if_neg fun hsel => hother ?_⟩
    exact hproject t (getTask_eq_some_iff.mpr ⟨ht, TaskMove.id_of_selects hsel⟩) hsel

theorem taskId_move (v : ParsedVerb) (author : String) : (v.move author).taskId = v.taskId := by
  unfold ParsedVerb.move
  cases v.verb <;> rfl

/-- A statement is confined exactly when it is orderly. -/
theorem confined_iff (db : TaskDb) (projectId : String) (e : ChatStep) :
    db.Confined projectId e (db.chat e) ↔ db.VerbOrderly projectId e := by
  cases e with
  | verb v author now =>
    simp only [Confined, chat, VerbOrderly, move_sparesOthers_iff, taskId_move]
  | new suffix task now =>
    refine iff_of_true ?_ trivial
    show db.SparesOthers projectId ((db.createTask suffix task now).getD db)
    cases hcreate : db.createTask suffix task now with
    | none => exact SparesOthers.refl projectId db
    | some db' => exact fun t ht _ => (mem_createTask hcreate).mpr (Or.inl ht)
  | other op => exact Iff.rfl

/-- Handling a message spares the tasks of other projects exactly when each verb that takes
effect names a task of the project, whatever other requests run in between. -/
theorem everyStep_confined_iff (db : TaskDb) (around : Surroundings)
    (projectId channelId : String) (channels : List Channel) (newVerbs : List NewVerb)
    (message : ChatMessage) :
    EveryStep chatStep (Confined projectId) db
        (onChatMessage around projectId channelId channels newVerbs message) ↔
      Guarded chatStep (VerbOrderly projectId) db
        (onChatMessage around projectId channelId channels newVerbs message) := by
  generalize onChatMessage around projectId channelId channels newVerbs message = steps
  apply everyStep_iff_guarded (I := fun _ => True) _ (fun _ _ _ _ _ _ => trivial) _ trivial steps
  · intro s e hnone
    cases hnone
  · intro s e s' _ hstep
    cases hstep
    exact s.confined_iff projectId e

/-- A store with a task of each of two projects. -/
def twoProjects : TaskDb :=
  ⟨[sampleTask "tsk-a", { sampleTask "tsk-b" with projectId := "other" }], [], by decide⟩

/-- Nothing else runs, and the clock stands still. -/
def quiet : Surroundings := ⟨fun _ => 5, fun _ => "", fun _ => []⟩

/-- A message in one project's channel closes the other's task. -/
theorem verb_crosses_projects :
    ¬EveryStep chatStep (Confined "prj") twoProjects
      (onChatMessage quiet "prj" "chn-1" [sampleChannel] []
        ⟨some "text", some "/close tsk-b", some "agent"⟩) := by
  have hsteps : onChatMessage quiet "prj" "chn-1" [sampleChannel] []
      ⟨some "text", some "/close tsk-b", some "agent"⟩ =
        [.verb ⟨.close, "tsk-b", none⟩ "agent" 5] := by
    decide
  rw [hsteps]
  intro hevery
  have hspares := hevery [] _ [] _ _ rfl rfl rfl { sampleTask "tsk-b" with projectId := "other" }
  exact absurd (hspares (by decide) (by decide)) (by decide)

end TaskDb

end TinyAgentOS.Projects
