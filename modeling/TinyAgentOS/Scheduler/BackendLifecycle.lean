import TinyAgentOS.Library.Dict
import TinyAgentOS.Library.Transition

/-!
# Starting and stopping backends

A backend is started and stopped by commands of its configuration, and stopped when it has been
idle for a while.  The tasks of all calls write one state; a timer that expires stops the backend
by the same routine that cancels the timer of the backend, which is itself.

Main results:

- `LifecycleManager.Sound.step`: what holds while every call ends as its backend is.
- `LifecycleManager.truthful_of_guarded`: the runs in which the states are true, and idle backends
  stop.
- `LifecycleManager.not_truthful`: an idle backend that is never stopped.
-/

namespace TinyAgentOS.Scheduler

open Collections Transition

/-! ## The manager -/

/-- What the manager reads of a backend.  A backend that is not configured has the defaults. -/
structure ManagedBackend where
  startCmd : String := ""
  stopCmd : String := ""
  keepAliveMinutes : Int := 10

inductive LifecycleState where
  | stopped
  | starting
  | running
  | draining
  | stopping
deriving DecidableEq

inductive LifecycleCommand where
  | start
  | stop
deriving DecidableEq

/-- The state of a backend after the command. -/
def LifecycleCommand.result : LifecycleCommand → LifecycleState
  | .start => .running
  | .stop => .stopped

/-- How a task ends. -/
inductive LifecycleEnd where
  | returned
  | raised
  /-- `drain_and_stop` came to its end. -/
  | stopped
  | cancelled
deriving DecidableEq

/-- What a task awaits. -/
inductive LifecycleStage where
  | startCommand
  /-- The start command was killed. -/
  | startKill
  /-- `_probe_health`, or the pause after it. -/
  | probing
  /-- `_keepalive_expire` before its delay is over. -/
  | sleeping
  /-- `_wait_for_drain`. -/
  | draining
  | stopCommand
  /-- The stop command was killed. -/
  | stopKill
  | over (how : LifecycleEnd)

/-- A start or a stop is in progress. -/
def LifecycleStage.working : LifecycleStage → Bool
  | .sleeping => false
  | .over _ => false
  | _ => true

def LifecycleStage.isOver : LifecycleStage → Bool
  | .over _ => true
  | _ => false

/-- A task on a backend.  `mustCancel` is a cancellation that its next suspension meets. -/
structure LifecycleTask where
  name : String
  stage : LifecycleStage
  mustCancel : Bool := false
  /-- The timer of the task expired and found the backend running and idle. -/
  foundIdle : Bool := false

/-- The manager, the states of the catalog, and for each backend the command that ran to its end
last.  A command that is not configured ends at once. -/
structure LifecycleManager where
  lifecycleStates : Dict String LifecycleState
  inFlight : Dict String Nat
  keepaliveTasks : Dict String Nat
  tasks : Dict Nat LifecycleTask
  lastCommand : Dict String LifecycleCommand

inductive LifecycleEvent where
  | inFlightChanged (name : String) (count : Nat)
  | startCalled (id : Nat) (name : String) (inTime : Bool)
  | stopCalled (id : Nat) (name : String) (force : Bool)
  /-- `notify_task_complete`, and the task that it may create. -/
  | taskCompleted (id : Nat) (name : String)
  | keepaliveExpired (id : Nat)
  /-- `_wait_for_drain` looks again. -/
  | drainPolled (id : Nat)
  | drainTimedOut (id : Nat)
  /-- The command ends; is the deadline of a start still to come? -/
  | commandEnded (id : Nat) (inTime : Bool)
  | commandTimedOut (id : Nat)
  | killed (id : Nat)
  | probed (id : Nat) (healthy inTime : Bool)
  /-- The suspension meets the cancellation. -/
  | cancelled (id : Nat)

namespace LifecycleManager

def init : LifecycleManager :=
  ⟨Dict.empty, Dict.empty, Dict.empty, Dict.empty, Dict.empty⟩

/-- `get_lifecycle_state`. -/
def state (s : LifecycleManager) (name : String) : LifecycleState :=
  (s.lifecycleStates.get? name).getD .running

/-- `in_flight_count`. -/
def inFlightCount (s : LifecycleManager) (name : String) : Nat :=
  (s.inFlight.get? name).getD 0

/-- `set_lifecycle_state`. -/
def setState (s : LifecycleManager) (name : String) (state : LifecycleState) : LifecycleManager :=
  { s with lifecycleStates := s.lifecycleStates.set name state }

/-- A command of the backend ran to its end. -/
def ran (s : LifecycleManager) (name : String) (command : LifecycleCommand) : LifecycleManager :=
  { s with lastCommand := s.lastCommand.set name command }

/-- The task goes on with another stage. -/
def goOn (s : LifecycleManager) (id : Nat) (stage : LifecycleStage) : LifecycleManager :=
  { s with tasks := s.tasks.modify id fun t => { t with stage := stage } }

/-- The last state that a call sets. -/
def finish (s : LifecycleManager) (id : Nat) (name : String) (state : LifecycleState)
    (how : LifecycleEnd) : LifecycleManager :=
  (s.setState name state).goOn id (.over how)

def spawn (s : LifecycleManager) (id : Nat) (name : String) (stage : LifecycleStage) :
    LifecycleManager :=
  { s with tasks := s.tasks.set id { name := name, stage := stage } }

/-- `_cancel_keepalive`. -/
def cancelKeepalive (s : LifecycleManager) (name : String) : LifecycleManager :=
  match s.keepaliveTasks.get? name with
  | none => s
  | some id =>
    { s with
      keepaliveTasks := s.keepaliveTasks.pop name
      tasks := s.tasks.modify id fun t =>
        if t.stage.isOver then t else { t with mustCancel := true } }

/-- The loop of `start`, before it probes. -/
def probe (s : LifecycleManager) (id : Nat) (name : String) (inTime : Bool) : LifecycleManager :=
  if inTime then s.goOn id .probing else s.finish id name .stopped .raised

section Calls

variable (config : String → ManagedBackend)

def start (s : LifecycleManager) (id : Nat) (name : String) (inTime : Bool) : LifecycleManager :=
  let s₁ := s.setState name .starting
  if (config name).startCmd = "" then (s₁.ran name .start).probe id name inTime
  else s₁.goOn id .startCommand

/-- `drain_and_stop` from the end of the drain on. -/
def runStop (s : LifecycleManager) (id : Nat) (name : String) : LifecycleManager :=
  let s₁ := s.setState name .stopping
  if (config name).stopCmd = "" then (s₁.ran name .stop).finish id name .stopped .stopped
  else s₁.goOn id .stopCommand

/-- `drain_and_stop`.  A drain that has nothing to wait for does not suspend. -/
def drainAndStop (s : LifecycleManager) (id : Nat) (name : String) (force : Bool) :
    LifecycleManager :=
  let s₁ := (s.setState name .draining).cancelKeepalive name
  if force || s₁.inFlightCount name = 0 then s₁.runStop config id name
  else s₁.goOn id .draining

def notifyTaskComplete (s : LifecycleManager) (id : Nat) (name : String) : LifecycleManager :=
  if (config name).keepAliveMinutes = 0 then s
  else
    let s₁ := (s.cancelKeepalive name).spawn id name .sleeping
    { s₁ with keepaliveTasks := s₁.keepaliveTasks.set name id }

/-- The timer of the task has found its backend idle, or not. -/
def mark (s : LifecycleManager) (id : Nat) (idle : Bool) : LifecycleManager :=
  { s with tasks := s.tasks.modify id fun t => { t with foundIdle := idle } }

/-- `_keepalive_expire` after its delay. -/
def keepaliveExpire (s : LifecycleManager) (id : Nat) (name : String) : LifecycleManager :=
  if s.state name = .running then
    (s.drainAndStop config id name false).mark id (s.inFlightCount name = 0)
  else s.goOn id (.over .returned)

/-- A task goes on from what it awaits. -/
def resume (s : LifecycleManager) (id : Nat) (t : LifecycleTask) :
    LifecycleEvent → Option LifecycleManager
  | .keepaliveExpired _ =>
    match t.stage with
    | .sleeping => some (s.keepaliveExpire config id t.name)
    | _ => none
  | .drainPolled _ =>
    match t.stage with
    | .draining =>
      if s.inFlightCount t.name = 0 then some (s.runStop config id t.name) else some s
    | _ => none
  | .drainTimedOut _ =>
    match t.stage with
    | .draining => some (s.runStop config id t.name)
    | _ => none
  | .commandEnded _ inTime =>
    match t.stage with
    | .startCommand => some ((s.ran t.name .start).probe id t.name inTime)
    | .stopCommand => some ((s.ran t.name .stop).finish id t.name .stopped .stopped)
    | _ => none
  | .commandTimedOut _ =>
    match t.stage with
    | .startCommand => some (s.goOn id .startKill)
    | .stopCommand => some (s.goOn id .stopKill)
    | _ => none
  | .killed _ =>
    match t.stage with
    | .startKill => some (s.finish id t.name .stopped .raised)
    | .stopKill => some (s.finish id t.name .stopped .stopped)
    | _ => none
  | .probed _ healthy inTime =>
    match t.stage with
    | .probing =>
      if healthy then some (s.finish id t.name .running .returned)
      else some (s.probe id t.name inTime)
    | _ => none
  | _ => none

end Calls

end LifecycleManager

/-- The task that goes on. -/
def LifecycleEvent.taskId : LifecycleEvent → Option Nat
  | .keepaliveExpired id => some id
  | .drainPolled id => some id
  | .drainTimedOut id => some id
  | .commandEnded id _ => some id
  | .commandTimedOut id => some id
  | .killed id => some id
  | .probed id _ _ => some id
  | _ => none

namespace LifecycleManager

/-- One stretch between two suspensions.  A task that is to be cancelled does not go on. -/
def step (config : String → ManagedBackend) (s : LifecycleManager) (e : LifecycleEvent) :
    Option LifecycleManager :=
  match e with
  | .inFlightChanged name count => some { s with inFlight := s.inFlight.set name count }
  | .startCalled id name inTime =>
    if (s.tasks.get? id).isSome then none
    else some ((s.spawn id name .startCommand).start config id name inTime)
  | .stopCalled id name force =>
    if (s.tasks.get? id).isSome then none
    else some ((s.spawn id name .draining).drainAndStop config id name force)
  | .taskCompleted id name =>
    if (s.tasks.get? id).isSome then none
    else some (s.notifyTaskComplete config id name)
  | .cancelled id =>
    match s.tasks.get? id with
    | none => none
    | some t =>
      if t.mustCancel && !t.stage.isOver then some (s.goOn id (.over .cancelled)) else none
  | e =>
    match e.taskId with
    | none => none
    | some id =>
      match s.tasks.get? id with
      | none => none
      | some t => if t.mustCancel then none else s.resume config id t e

/-! ## True states -/

/-- A start or a stop of the backend is in progress. -/
def Busy (s : LifecycleManager) (name : String) : Prop :=
  ∃ id t, s.tasks.get? id = some t ∧ t.name = name ∧ t.stage.working = true

instance (s : LifecycleManager) (name : String) : Decidable (s.Busy name) :=
  decidable_of_iff (∃ t ∈ s.tasks.values, t.name = name ∧ t.stage.working = true) (by
    constructor
    · rintro ⟨t, ht, hbusy⟩
      obtain ⟨id, hget⟩ := Dict.mem_values_iff.mp ht
      exact ⟨id, t, hget, hbusy⟩
    · rintro ⟨id, t, hget, hbusy⟩
      exact ⟨t, Dict.mem_values_iff.mpr ⟨id, hget⟩, hbusy⟩)

/-- Another start or stop than the task. -/
def BusyBeside (s : LifecycleManager) (id : Nat) (name : String) : Prop :=
  ∃ i t, i ≠ id ∧ s.tasks.get? i = some t ∧ t.name = name ∧ t.stage.working = true

/-- The state of a backend is one to rest in, and agrees with the last command. -/
def Fine (s : LifecycleManager) (name : String) : Prop :=
  (s.state name = .running ∨ s.state name = .stopped) ∧
    ∀ command, s.lastCommand.get? name = some command → s.state name = command.result

/-- The states are true where nothing is in progress. -/
def Truthful (s : LifecycleManager) : Prop := ∀ name, ¬ s.Busy name → s.Fine name

/-- A timer that found its backend running and idle ends in this step: the stop command ran, and
the backend is stopped. -/
def IdleStops (s s' : LifecycleManager) : Prop :=
  ∀ id t', s'.tasks.get? id = some t' → t'.foundIdle = true → t'.stage.isOver = true →
    (∀ t, s.tasks.get? id = some t → t.stage.isOver = false) →
      t'.stage = .over .stopped ∧ s'.state t'.name = .stopped ∧
        s'.lastCommand.get? t'.name = some .stop

/-- No timer that found its backend running and idle is still on its way. -/
def IdleThrough (s : LifecycleManager) : Prop :=
  ∀ id t, s.tasks.get? id = some t → t.foundIdle = true → t.stage.isOver = true

/-- A call that ends finds that the last command was its own, unless another one goes on; and no
timer that has to suspend finds its backend running. -/
def EndsTruly (config : String → ManagedBackend) (s : LifecycleManager) : LifecycleEvent → Prop
  | .startCalled _ name inTime =>
    (config name).startCmd = "" → inTime = false → s.Busy name
  | .keepaliveExpired id => ∀ t, s.tasks.get? id = some t → t.stage = .sleeping →
      t.mustCancel = false → s.state t.name = .running →
        s.inFlightCount t.name = 0 ∧ (config t.name).stopCmd = ""
  | .commandEnded id inTime => ∀ t, s.tasks.get? id = some t → t.stage = .startCommand →
      inTime = true ∨ s.BusyBeside id t.name
  | .killed id => ∀ t, s.tasks.get? id = some t → t.stage = .startKill ∨ t.stage = .stopKill →
      s.lastCommand.get? t.name ≠ some .start ∨ s.BusyBeside id t.name
  | .probed id healthy inTime => ∀ t, s.tasks.get? id = some t → t.stage = .probing →
      (healthy = true → s.lastCommand.get? t.name ≠ some .stop ∨ s.BusyBeside id t.name) ∧
      (healthy = false → inTime = false →
        s.lastCommand.get? t.name ≠ some .start ∨ s.BusyBeside id t.name)
  | _ => True

/-! ## What a step leaves -/

/-- A step on one backend leaves the others, and marks no task. -/
structure Within (name : String) (s s' : LifecycleManager) : Prop where
  state : ∀ n, n ≠ name → s'.state n = s.state n
  last : ∀ n, n ≠ name → s'.lastCommand.get? n = s.lastCommand.get? n
  busy : ∀ n, n ≠ name → s.Busy n → s'.Busy n
  marks : ∀ id t', s'.tasks.get? id = some t' → t'.foundIdle = true →
    ∃ t, s.tasks.get? id = some t ∧ t.foundIdle = true

/-- A step that concerns timers alone. -/
structure Quiet (s s' : LifecycleManager) : Prop where
  states : s'.lifecycleStates = s.lifecycleStates
  last : s'.lastCommand = s.lastCommand
  busy : ∀ n, s.Busy n → s'.Busy n
  marks : ∀ id t', s'.tasks.get? id = some t' → t'.foundIdle = true →
    ∃ t, s.tasks.get? id = some t ∧ t.foundIdle = true

/-- What holds of the tasks: timers are not starts or stops, a cancellation waits for timers
alone, and a timer that found its backend idle is through. -/
structure Laws (s : LifecycleManager) : Prop where
  timers : ∀ name id, s.keepaliveTasks.get? name = some id →
    ∃ t, s.tasks.get? id = some t ∧ t.stage.working = false
  cancels : ∀ id t, s.tasks.get? id = some t → t.mustCancel = true → t.stage.working = false
  marks : s.IdleThrough

section Primitives

variable {s s' s'' : LifecycleManager} {name : String} {id : Nat}

theorem Within.trans (h : Within name s s') (h' : Within name s' s'') : Within name s s'' := by
  constructor
  · intro n hn
    rw [h'.state n hn, h.state n hn]
  · intro n hn
    rw [h'.last n hn, h.last n hn]
  · intro n hn hbusy
    exact h'.busy n hn (h.busy n hn hbusy)
  · intro i t hget hmark
    obtain ⟨t', hget', hmark'⟩ := h'.marks i t hget hmark
    exact h.marks i t' hget' hmark'

theorem Quiet.trans (h : Quiet s s') (h' : Quiet s' s'') : Quiet s s'' := by
  refine ⟨h'.states.trans h.states, h'.last.trans h.last, ?_, ?_⟩
  · intro n hbusy
    exact h'.busy n (h.busy n hbusy)
  · intro i t hget hmark
    obtain ⟨t', hget', hmark'⟩ := h'.marks i t hget hmark
    exact h.marks i t' hget' hmark'

/-- A quiet change leaves the states alone. -/
theorem Quiet.state (h : Quiet s s') (n : String) : s'.state n = s.state n := by
  unfold LifecycleManager.state
  rw [h.states]

theorem Quiet.within (h : Quiet s s') (name : String) : Within name s s' :=
  ⟨fun n _ => h.state n, fun n _ => by rw [h.last], fun n _ => h.busy n, h.marks⟩

/-- A quiet change keeps the states true. -/
theorem Quiet.truthful (h : Quiet s s') (htrue : s.Truthful) : s'.Truthful := by
  intro n hidle
  have hfine := htrue n fun hbusy => hidle (h.busy n hbusy)
  unfold Fine at hfine ⊢
  rw [h.state, h.last]
  exact hfine

theorem state_setState (s : LifecycleManager) (name : String) (state : LifecycleState) :
    (s.setState name state).state name = state := by
  unfold LifecycleManager.state setState
  rw [Dict.get?_set_self]
  rfl

theorem within_setState (s : LifecycleManager) (name : String) (state : LifecycleState) :
    Within name s (s.setState name state) := by
  refine ⟨?_, fun _ _ => rfl, fun _ _ h => h, fun _ t' h hmark => ⟨t', h, hmark⟩⟩
  intro n hn
  unfold LifecycleManager.state setState
  rw [Dict.get?_set_of_ne _ _ hn.symm]

/-- Setting a state keeps the laws. -/
theorem laws_setState (h : s.Laws) (name : String) (state : LifecycleState) :
    (s.setState name state).Laws :=
  ⟨h.timers, h.cancels, h.marks⟩

theorem within_ran (s : LifecycleManager) (name : String) (command : LifecycleCommand) :
    Within name s (s.ran name command) := by
  refine ⟨fun _ _ => rfl, ?_, fun _ _ h => h, fun _ t' h hmark => ⟨t', h, hmark⟩⟩
  intro n hn
  exact Dict.get?_set_of_ne _ _ hn.symm

/-- A command that ran keeps the laws. -/
theorem laws_ran (h : s.Laws) (command : LifecycleCommand) : (s.ran name command).Laws :=
  ⟨h.timers, h.cancels, h.marks⟩

/-- Tasks after one goes on. -/
theorem get?_goOn (s : LifecycleManager) (id i : Nat) (stage : LifecycleStage) :
    (s.goOn id stage).tasks.get? i =
      if id = i then (s.tasks.get? i).map fun t => { t with stage := stage }
      else s.tasks.get? i :=
  Dict.get?_modify _ _ _ _

variable {t : LifecycleTask}

/-- A call that goes on touches its own backend alone. -/
theorem within_goOn (hget : s.tasks.get? id = some t)
    (stage : LifecycleStage) : Within t.name s (s.goOn id stage) := by
  refine ⟨fun _ _ => rfl, fun _ _ => rfl, ?_, ?_⟩
  · rintro n hn ⟨i, u, hu, huname, hwork⟩
    have hi : id ≠ i := by
      rintro rfl
      rw [hget] at hu
      cases hu
      exact hn huname.symm
    exact ⟨i, u, by rw [get?_goOn, if_neg hi, hu], huname, hwork⟩
  · intro i t' ht' hmark
    rw [get?_goOn] at ht'
    by_cases hi : id = i
    · rw [if_pos hi] at ht'
      obtain ⟨u, hu, rfl⟩ := Option.map_eq_some_iff.mp ht'
      exact ⟨u, hu, hmark⟩
    · rw [if_neg hi] at ht'
      exact ⟨t', ht', hmark⟩

/-- A task goes on as a start or a stop if it is one. -/
theorem laws_goOn (h : s.Laws) (hget : s.tasks.get? id = some t)
    {stage : LifecycleStage} (hstage : stage.isOver = true ∨ t.stage.working = true) :
    (s.goOn id stage).Laws := by
  have hidle : stage.isOver = true → stage.working = false := by
    cases stage <;> simp [LifecycleStage.isOver, LifecycleStage.working]
  have hbusy : t.stage.working = true → t.stage.isOver = false := by
    cases t.stage <;> simp [LifecycleStage.isOver, LifecycleStage.working]
  constructor
  · intro name i hi
    obtain ⟨u, hu, hwork⟩ := h.timers name i hi
    by_cases heq : id = i
    · subst heq
      rw [hget] at hu
      cases hu
      refine ⟨{ t with stage := stage }, ?_, ?_⟩
      · rw [get?_goOn, if_pos rfl, hget]
        rfl
      · rcases hstage with hover | hworking
        · exact hidle hover
        · rw [hwork] at hworking
          contradiction
    · exact ⟨u, by rw [get?_goOn, if_neg heq, hu], hwork⟩
  · intro i u hu hcancel
    rw [get?_goOn] at hu
    by_cases heq : id = i
    · subst heq
      rw [if_pos rfl, hget, Option.map_some] at hu
      cases hu
      rcases hstage with hover | hworking
      · exact hidle hover
      · have hidle' := h.cancels id t hget hcancel
        rw [hworking] at hidle'
        contradiction
    · rw [if_neg heq] at hu
      exact h.cancels i u hu hcancel
  · intro i u hu hmark
    rw [get?_goOn] at hu
    by_cases heq : id = i
    · subst heq
      rw [if_pos rfl, hget, Option.map_some] at hu
      cases hu
      rcases hstage with hover | hworking
      · exact hover
      · have hover' := h.marks id t hget hmark
        rw [hbusy hworking] at hover'
        contradiction
    · rw [if_neg heq] at hu
      exact h.marks i u hu hmark

/-- A cancellation leaves the stages of all tasks. -/
theorem get?_cancelKeepalive (s : LifecycleManager) (name : String) (i : Nat) :
    ∃ cancelled : LifecycleTask → Bool, (s.cancelKeepalive name).tasks.get? i =
      (s.tasks.get? i).map fun t => { t with mustCancel := cancelled t } := by
  unfold cancelKeepalive
  split
  · refine ⟨fun t => t.mustCancel, ?_⟩
    cases s.tasks.get? i <;> rfl
  · rename_i id _
    refine ⟨fun t => if id = i ∧ t.stage.isOver = false then true else t.mustCancel, ?_⟩
    show (s.tasks.modify id _).get? i = _
    rw [Dict.get?_modify]
    by_cases hi : id = i
    · rw [if_pos hi]
      cases s.tasks.get? i with
      | none => rfl
      | some t =>
        simp only [Option.map_some, hi, true_and]
        cases t.stage.isOver <;> simp
    · rw [if_neg hi]
      cases s.tasks.get? i <;> simp [hi]

/-- Cancelling a timer is quiet. -/
theorem quiet_cancelKeepalive (s : LifecycleManager) (name : String) :
    Quiet s (s.cancelKeepalive name) := by
  have hsame : (s.cancelKeepalive name).lifecycleStates = s.lifecycleStates ∧
      (s.cancelKeepalive name).lastCommand = s.lastCommand := by
    unfold cancelKeepalive
    split <;> exact ⟨rfl, rfl⟩
  refine ⟨hsame.1, hsame.2, ?_, ?_⟩
  · rintro n ⟨i, t, ht, htname, hwork⟩
    obtain ⟨cancelled, hget⟩ := s.get?_cancelKeepalive name i
    exact ⟨i, { t with mustCancel := cancelled t }, by rw [hget, ht]; rfl, htname, hwork⟩
  · intro i t' ht' hmark
    obtain ⟨cancelled, hget⟩ := s.get?_cancelKeepalive name i
    rw [hget] at ht'
    obtain ⟨t, ht, rfl⟩ := Option.map_eq_some_iff.mp ht'
    exact ⟨t, ht, hmark⟩

theorem mem_keepaliveTasks_cancelKeepalive {n : String} {i : Nat}
    (h : (s.cancelKeepalive name).keepaliveTasks.get? n = some i) :
    s.keepaliveTasks.get? n = some i := by
  unfold cancelKeepalive at h
  split at h
  · exact h
  · exact (Dict.get?_pop_cases h).2

/-- Only the timer of the backend is cancelled. -/
theorem timer_of_cancelKeepalive {i : Nat} {t' : LifecycleTask}
    (ht : s.tasks.get? i = some t) (ht' : (s.cancelKeepalive name).tasks.get? i = some t')
    (hcancel : t'.mustCancel = true) :
    t.mustCancel = true ∨ s.keepaliveTasks.get? name = some i := by
  unfold cancelKeepalive at ht'
  split at ht'
  · rw [ht] at ht'
    cases ht'
    exact Or.inl hcancel
  · rename_i id hid
    rcases Dict.get?_modify_cases ht' with ⟨rfl, _⟩ | ⟨_, hold⟩
    · exact Or.inr hid
    · rw [ht] at hold
      cases hold
      exact Or.inl hcancel

/-- Cancelling a timer keeps the laws. -/
theorem laws_cancelKeepalive (h : s.Laws) (name : String) : (s.cancelKeepalive name).Laws := by
  constructor
  · intro n i hi
    obtain ⟨t, ht, hwork⟩ := h.timers n i (mem_keepaliveTasks_cancelKeepalive hi)
    obtain ⟨cancelled, hget⟩ := s.get?_cancelKeepalive name i
    exact ⟨{ t with mustCancel := cancelled t }, by rw [hget, ht]; rfl, hwork⟩
  · intro i t' ht' hcancel
    obtain ⟨cancelled, hget⟩ := s.get?_cancelKeepalive name i
    have hold := ht'
    rw [hget] at hold
    obtain ⟨t, ht, rfl⟩ := Option.map_eq_some_iff.mp hold
    rcases timer_of_cancelKeepalive ht ht' hcancel with hbefore | htimer
    · exact h.cancels i t ht hbefore
    · obtain ⟨u, hu, hwork⟩ := h.timers name i htimer
      rw [ht] at hu
      cases hu
      exact hwork
  · intro i t' ht' hmark
    obtain ⟨cancelled, hget⟩ := s.get?_cancelKeepalive name i
    rw [hget] at ht'
    obtain ⟨t, ht, rfl⟩ := Option.map_eq_some_iff.mp ht'
    exact h.marks i t ht hmark

/-- A new task is quiet. -/
theorem quiet_spawn (s : LifecycleManager) {id : Nat} (hfree : s.tasks.get? id = none)
    (name : String) (stage : LifecycleStage) : Quiet s (s.spawn id name stage) := by
  refine ⟨rfl, rfl, ?_, ?_⟩
  · rintro n ⟨i, t, ht, htname, hwork⟩
    have hi : id ≠ i := by
      rintro rfl
      rw [hfree] at ht
      contradiction
    exact ⟨i, t, by rw [spawn, Dict.get?_set_of_ne _ _ hi, ht], htname, hwork⟩
  · intro i t' ht' hmark
    rcases Dict.get?_set_cases ht' with ⟨_, rfl⟩ | ⟨_, hold⟩
    · contradiction
    · exact ⟨t', hold, hmark⟩

/-- A new task keeps the laws. -/
theorem laws_spawn (h : s.Laws) (hfree : s.tasks.get? id = none) (name : String)
    (stage : LifecycleStage) : (s.spawn id name stage).Laws := by
  constructor
  · intro n i hi
    obtain ⟨t, ht, hwork⟩ := h.timers n i hi
    have hne : id ≠ i := by
      rintro rfl
      rw [hfree] at ht
      contradiction
    exact ⟨t, by rw [spawn, Dict.get?_set_of_ne _ _ hne, ht], hwork⟩
  · intro i t ht hcancel
    rcases Dict.get?_set_cases ht with ⟨_, rfl⟩ | ⟨_, hold⟩
    · contradiction
    · exact h.cancels i t hold hcancel
  · intro i t ht hmark
    rcases Dict.get?_set_cases ht with ⟨_, rfl⟩ | ⟨_, hold⟩
    · contradiction
    · exact h.marks i t hold hmark

end Primitives

/-! ## What a call leaves -/

/-- A step on one backend keeps to it, and leaves it in progress or with a true state. -/
structure Settles (name : String) (s s' : LifecycleManager) : Prop where
  within : Within name s s'
  laws : s'.Laws
  own : s'.Busy name ∨ s'.Fine name

section CallLemmas

variable {config : String → ManagedBackend} {s s' : LifecycleManager} {id : Nat}
  {t : LifecycleTask}

variable {name : String} {inTime : Bool}

/-- A backend that settles truly leaves all states true. -/
theorem Truthful.settles (h : s.Truthful) (hsettles : Settles name s s') : s'.Truthful := by
  intro n hidle
  by_cases hn : n = name
  · subst hn
    exact hsettles.own.resolve_left hidle
  · have hfine := h n fun hbusy => hidle (hsettles.within.busy n hn hbusy)
    unfold Fine at hfine ⊢
    rw [hsettles.within.state n hn, hsettles.within.last n hn]
    exact hfine

/-- The task goes on with a start or a stop. -/
theorem settles_goOn (h : s.Laws) (hget : s.tasks.get? id = some t)
    (hwork : t.stage.working = true) {stage : LifecycleStage} (hstage : stage.working = true) :
    Settles t.name s (s.goOn id stage) := by
  refine ⟨within_goOn hget stage, laws_goOn h hget (Or.inr hwork), Or.inl ?_⟩
  refine ⟨id, { t with stage := stage }, ?_, rfl, hstage⟩
  rw [get?_goOn, if_pos rfl, hget]
  rfl

/-- The last state is set: the call was the last one in progress only if that state agrees with
the last command. -/
theorem settles_finish (h : s.Laws) (hget : s.tasks.get? id = some t) {state : LifecycleState}
    (how : LifecycleEnd) (hstate : state = .running ∨ state = .stopped)
    (hlast : (∀ command, s.lastCommand.get? t.name = some command → state = command.result) ∨
      s.BusyBeside id t.name) : Settles t.name s (s.finish id t.name state how) := by
  have hget' : (s.setState t.name state).tasks.get? id = some t := hget
  refine ⟨(within_setState s t.name state).trans (within_goOn hget' _),
    laws_goOn (laws_setState h _ state) hget' (Or.inl rfl), ?_⟩
  rcases hlast with hlast | ⟨i, u, hi, hu, huname, hwork⟩
  · right
    have hown : (s.finish id t.name state how).state t.name = state := state_setState s t.name state
    unfold Fine
    rw [hown]
    exact ⟨hstate, hlast⟩
  · left
    refine ⟨i, u, ?_, huname, hwork⟩
    show ((s.setState t.name state).goOn id _).tasks.get? i = _
    rw [get?_goOn, if_neg hi.symm]
    exact hu

/-- A step before does not matter, if it keeps to the backend. -/
theorem Settles.after {s₁ : LifecycleManager} (hwithin : Within name s s₁)
    (h : Settles name s₁ s') : Settles name s s' :=
  ⟨hwithin.trans h.within, h.laws, h.own⟩

/-- A health probe settles its backend. -/
theorem settles_probe (h : s.Laws) (hget : s.tasks.get? id = some t)
    (hwork : t.stage.working = true) (hlast : inTime = false →
      (∀ command, s.lastCommand.get? t.name = some command → .stopped = command.result) ∨
        s.BusyBeside id t.name) : Settles t.name s (s.probe id t.name inTime) := by
  unfold probe
  split
  · exact settles_goOn h hget hwork rfl
  · rename_i hlate
    exact settles_finish h hget .raised (Or.inr rfl) (hlast (Bool.eq_false_of_not_eq_true hlate))

/-- The stop command settles its backend. -/
theorem settles_runStop (h : s.Laws) (hget : s.tasks.get? id = some t)
    (hwork : t.stage.working = true) : Settles t.name s (s.runStop config id t.name) := by
  have hget' : (s.setState t.name .stopping).tasks.get? id = some t := hget
  unfold runStop
  simp only
  split
  · apply Settles.after
      ((within_setState s t.name .stopping).trans (within_ran _ t.name .stop))
    refine settles_finish (laws_ran (laws_setState h _ _) _) hget .stopped (Or.inr rfl) (Or.inl ?_)
    intro command hcommand
    have hrun : ((s.setState t.name .stopping).ran t.name .stop).lastCommand.get? t.name =
        some .stop := Dict.get?_set_self _ _ _
    rw [hrun] at hcommand
    cases hcommand
    rfl
  · exact (settles_goOn (laws_setState h _ _) hget' hwork rfl).after
      (within_setState s t.name .stopping)

/-- The task after the timer of its backend is cancelled. -/
theorem get?_draining (s : LifecycleManager) (hget : s.tasks.get? id = some t) :
    ∃ cancelled, ((s.setState t.name .draining).cancelKeepalive t.name).tasks.get? id =
      some { t with mustCancel := cancelled } := by
  obtain ⟨cancelled, hcancel⟩ :=
    (s.setState t.name .draining).get?_cancelKeepalive t.name id
  refine ⟨cancelled t, ?_⟩
  rw [hcancel]
  show (s.tasks.get? id).map _ = _
  rw [hget]
  rfl

theorem within_draining (s : LifecycleManager) (name : String) :
    Within name s ((s.setState name .draining).cancelKeepalive name) :=
  (within_setState s name .draining).trans ((quiet_cancelKeepalive _ name).within name)

/-- A drain settles its backend. -/
theorem settles_drainAndStop (h : s.Laws) (hget : s.tasks.get? id = some t)
    (hwork : t.stage.working = true) (force : Bool) :
    Settles t.name s (s.drainAndStop config id t.name force) := by
  obtain ⟨cancelled, hget₁⟩ := s.get?_draining hget
  have hlaws := laws_cancelKeepalive (laws_setState h t.name .draining) t.name
  unfold drainAndStop
  simp only
  split
  · exact (settles_runStop hlaws hget₁ hwork).after (within_draining s t.name)
  · exact (settles_goOn hlaws hget₁ hwork rfl).after (within_draining s t.name)

/-- A start settles its backend. -/
theorem settles_start (h : s.Laws) (hget : s.tasks.get? id = some t)
    (hwork : t.stage.working = true)
    (hfit : (config t.name).startCmd = "" → inTime = false → s.BusyBeside id t.name) :
    Settles t.name s (s.start config id t.name inTime) := by
  have hget' : (s.setState t.name .starting).tasks.get? id = some t := hget
  unfold start
  simp only
  split
  · rename_i hcmd
    apply Settles.after
      ((within_setState s t.name .starting).trans (within_ran _ t.name .start))
    exact settles_probe (laws_ran (laws_setState h _ _) _) hget hwork
      fun hlate => Or.inr (hfit hcmd hlate)
  · exact (settles_goOn (laws_setState h _ _) hget' hwork rfl).after
      (within_setState s t.name .starting)

/-- A task that is no start or stop ends, and the backend is as it was. -/
theorem quiet_goOn_over (hget : s.tasks.get? id = some t) (hidle : t.stage.working = false)
    (how : LifecycleEnd) : Quiet s (s.goOn id (.over how)) := by
  refine ⟨rfl, rfl, ?_, (within_goOn hget _).marks⟩
  rintro n ⟨i, u, hu, huname, hwork⟩
  have hi : id ≠ i := by
    rintro rfl
    rw [hget] at hu
    cases hu
    rw [hidle] at hwork
    contradiction
  exact ⟨i, u, by rw [get?_goOn, if_neg hi, hu], huname, hwork⟩

theorem laws_notifyTaskComplete (h : s.Laws) (hfree : s.tasks.get? id = none) (name : String) :
    (s.notifyTaskComplete config id name).Laws := by
  unfold notifyTaskComplete
  split
  · exact h
  · have hfree' : (s.cancelKeepalive name).tasks.get? id = none := by
      obtain ⟨cancelled, hget⟩ := s.get?_cancelKeepalive name id
      rw [hget, hfree]
      rfl
    have hspawn := laws_spawn (laws_cancelKeepalive h name) hfree' name .sleeping
    refine ⟨?_, hspawn.cancels, hspawn.marks⟩
    intro n i hi
    rcases Dict.get?_set_cases hi with ⟨_, rfl⟩ | ⟨_, hold⟩
    · exact ⟨_, Dict.get?_set_self _ _ _, rfl⟩
    · exact hspawn.timers n i hold

/-- The end of a task is quiet. -/
theorem quiet_notifyTaskComplete (s : LifecycleManager) (hfree : s.tasks.get? id = none)
    (name : String) : Quiet s (s.notifyTaskComplete config id name) := by
  unfold notifyTaskComplete
  split
  · exact ⟨rfl, rfl, fun _ h => h, fun _ t' h hmark => ⟨t', h, hmark⟩⟩
  · have hfree' : (s.cancelKeepalive name).tasks.get? id = none := by
      obtain ⟨cancelled, hget⟩ := s.get?_cancelKeepalive name id
      rw [hget, hfree]
      rfl
    have hspawn := (quiet_cancelKeepalive s name).trans
      (quiet_spawn (s.cancelKeepalive name) hfree' name .sleeping)
    exact ⟨hspawn.states, hspawn.last, hspawn.busy, hspawn.marks⟩

/-- A timer that has found its backend idle is through. -/
theorem Laws.idleStops (h : s.Laws) (hmarks : ∀ id t', s'.tasks.get? id = some t' →
    t'.foundIdle = true → ∃ t, s.tasks.get? id = some t ∧ t.foundIdle = true) : IdleStops s s' := by
  intro i t' ht' hmark _ hnew
  obtain ⟨u, hu, hmark'⟩ := hmarks i t' ht' hmark
  have hover := h.marks i u hu hmark'
  rw [hnew u hu] at hover
  contradiction

theorem get?_mark (s : LifecycleManager) (id i : Nat) (idle : Bool) :
    (s.mark id idle).tasks.get? i =
      if id = i then (s.tasks.get? i).map fun t => { t with foundIdle := idle }
      else s.tasks.get? i :=
  Dict.get?_modify _ _ _ _

/-- A mark keeps the states true. -/
theorem truthful_mark (h : s.Truthful) (id : Nat) (idle : Bool) : (s.mark id idle).Truthful := by
  intro n hfree
  refine h n ?_
  rintro ⟨i, u, hu, huname, hwork⟩
  by_cases hi : id = i
  · exact hfree ⟨i, { u with foundIdle := idle }, by rw [get?_mark, if_pos hi, hu]; rfl, huname,
      hwork⟩
  · exact hfree ⟨i, u, by rw [get?_mark, if_neg hi, hu], huname, hwork⟩

/-- A task that is through can be marked. -/
theorem laws_mark (h : s.Laws) (hget : s.tasks.get? id = some t) (hover : t.stage.isOver = true)
    (idle : Bool) : (s.mark id idle).Laws := by
  constructor
  · intro n i hi
    obtain ⟨u, hu, hwork⟩ := h.timers n i hi
    by_cases heq : id = i
    · exact ⟨{ u with foundIdle := idle }, by rw [get?_mark, if_pos heq, hu]; rfl, hwork⟩
    · exact ⟨u, by rw [get?_mark, if_neg heq, hu], hwork⟩
  · intro i u hu hcancel
    rcases Dict.get?_modify_cases hu with ⟨_, v, hv, rfl⟩ | ⟨_, hold⟩
    · exact h.cancels i v hv hcancel
    · exact h.cancels i u hold hcancel
  · intro i u hu hmark
    rcases Dict.get?_modify_cases hu with ⟨rfl, v, hv, rfl⟩ | ⟨_, hold⟩
    · rw [hget] at hv
      cases hv
      exact hover
    · exact h.marks i u hold hmark

/-- A timer expires, and there is nothing to wait for: the backend is stopped at once. -/
theorem expired_running (hlaws : s.Laws) (htrue : s.Truthful)
    (hget : s.tasks.get? id = some t) (hidle : s.inFlightCount t.name = 0)
    (hcmd : (config t.name).stopCmd = "") :
    ((s.drainAndStop config id t.name false).mark id true).Truthful ∧
      ((s.drainAndStop config id t.name false).mark id true).Laws ∧
        IdleStops s ((s.drainAndStop config id t.name false).mark id true) := by
  obtain ⟨cancelled, hget₁⟩ := s.get?_draining hget
  have hlaws₁ := laws_cancelKeepalive (laws_setState hlaws t.name .draining) t.name
  have hwithin := within_draining s t.name
  generalize hs₁ : (s.setState t.name .draining).cancelKeepalive t.name = s₁ at hget₁ hlaws₁ hwithin
  have hcount : s₁.inFlightCount t.name = 0 := by
    have hsame : s₁.inFlight = s.inFlight := by
      rw [← hs₁]
      unfold cancelKeepalive
      split <;> rfl
    unfold inFlightCount
    rw [hsame]
    exact hidle
  -- The last two states are set without a suspension in between.
  have hstop : s.drainAndStop config id t.name false =
      ((s₁.setState t.name .stopping).ran t.name .stop).finish id t.name .stopped .stopped := by
    unfold drainAndStop runStop
    simp [hs₁, hcount, hcmd]
  have hrun : ((s₁.setState t.name .stopping).ran t.name .stop).lastCommand.get? t.name =
      some .stop := Dict.get?_set_self _ _ _
  rw [hstop]
  generalize hs₂ : (s₁.setState t.name .stopping).ran t.name .stop = s₂ at hrun
  have hget₂ : s₂.tasks.get? id = some { t with mustCancel := cancelled } := by
    rw [← hs₂]
    exact hget₁
  have hlaws₂ : s₂.Laws := by
    rw [← hs₂]
    exact laws_ran (laws_setState hlaws₁ _ _) _
  have hwithin₂ : Within t.name s s₂ := by
    rw [← hs₂]
    exact hwithin.trans ((within_setState s₁ t.name .stopping).trans (within_ran _ t.name .stop))
  have hfinish : Settles t.name s₂ (s₂.finish id t.name .stopped .stopped) := by
    refine settles_finish hlaws₂ hget₂ .stopped (Or.inr rfl) (Or.inl ?_)
    intro command hcommand
    have hcommand' : s₂.lastCommand.get? t.name = some command := hcommand
    rw [hrun] at hcommand'
    cases hcommand'
    rfl
  have hsettles := hfinish.after hwithin₂
  have hget₃ : (s₂.finish id t.name .stopped .stopped).tasks.get? id =
      some { t with stage := .over .stopped, mustCancel := cancelled } := by
    show ((s₂.setState t.name .stopped).goOn id _).tasks.get? id = _
    rw [get?_goOn, if_pos rfl]
    show (s₂.tasks.get? id).map _ = _
    rw [hget₂]
    rfl
  refine ⟨truthful_mark (htrue.settles hsettles) id true, laws_mark hsettles.laws hget₃ rfl true,
    ?_⟩
  intro i t' ht' hmark hover hnew
  rcases Dict.get?_modify_cases ht' with ⟨rfl, v, hv, rfl⟩ | ⟨_, hold⟩
  · rw [hget₃] at hv
    cases hv
    exact ⟨rfl, state_setState s₂ t.name .stopped, hrun⟩
  · obtain ⟨u, hu, hmark'⟩ := hsettles.within.marks i t' hold hmark
    have hover' := hlaws.marks i u hu hmark'
    rw [hnew u hu] at hover'
    contradiction

end CallLemmas

/-! ## Runs -/

/-- The states are true, and the tasks are as they should be. -/
structure Sound (s : LifecycleManager) : Prop where
  truthful : s.Truthful
  laws : s.Laws

theorem sound_init : Sound init := by
  constructor
  · intro n _
    refine ⟨Or.inl rfl, ?_⟩
    intro command hcommand
    contradiction
  · refine ⟨?_, ?_, ?_⟩
    · intro n i hi
      contradiction
    · intro i t ht
      contradiction
    · intro i t ht
      contradiction

section Steps

variable {config : String → ManagedBackend} {s s' : LifecycleManager} {id : Nat}
  {t : LifecycleTask} {e : LifecycleEvent}

/-- A step that settles a backend keeps the state sound. -/
theorem Sound.settles (h : s.Sound) {name : String} (hsettles : Settles name s s') :
    s'.Sound ∧ IdleStops s s' :=
  ⟨⟨h.truthful.settles hsettles, hsettles.laws⟩, h.laws.idleStops hsettles.within.marks⟩

/-- A quiet step keeps the state sound. -/
theorem Sound.quiet (h : s.Sound) (hquiet : Quiet s s') (hlaws : s'.Laws) :
    s'.Sound ∧ IdleStops s s' :=
  ⟨⟨hquiet.truthful h.truthful, hlaws⟩, h.laws.idleStops hquiet.marks⟩

/-- A task goes on. -/
theorem Sound.resume (h : s.Sound) (hid : e.taskId = some id) (hget : s.tasks.get? id = some t)
    (hcancel : t.mustCancel = false) (hfit : s.EndsTruly config e)
    (hstep : s.resume config id t e = some s') : s'.Sound ∧ IdleStops s s' := by
  cases e with
  | keepaliveExpired i =>
    cases hid
    simp only [resume] at hstep
    split at hstep
    · rename_i hstage
      cases hstep
      unfold keepaliveExpire
      split
      · rename_i hrunning
        obtain ⟨hidle, hcmd⟩ := hfit t hget hstage hcancel hrunning
        rw [decide_eq_true hidle]
        obtain ⟨htrue, hlaws, hstops⟩ := expired_running h.laws h.truthful hget hidle hcmd
        exact ⟨⟨htrue, hlaws⟩, hstops⟩
      · have hquiet := quiet_goOn_over hget (by rw [hstage]; rfl) .returned
        exact h.quiet hquiet (laws_goOn h.laws hget (Or.inl rfl))
    · contradiction
  | drainPolled i =>
    cases hid
    simp only [resume] at hstep
    split at hstep
    · rename_i hstage
      have hwork : t.stage.working = true := by rw [hstage]; rfl
      split at hstep
      · cases hstep
        exact h.settles (settles_runStop h.laws hget hwork)
      · cases hstep
        exact ⟨h, h.laws.idleStops fun _ t' ht' hmark => ⟨t', ht', hmark⟩⟩
    · contradiction
  | drainTimedOut i =>
    cases hid
    simp only [resume] at hstep
    split at hstep
    · rename_i hstage
      have hwork : t.stage.working = true := by rw [hstage]; rfl
      cases hstep
      exact h.settles (settles_runStop h.laws hget hwork)
    · contradiction
  | commandEnded i inTime =>
    cases hid
    simp only [resume] at hstep
    split at hstep
    · rename_i hstage
      have hwork : t.stage.working = true := by rw [hstage]; rfl
      have hget' : (s.ran t.name .start).tasks.get? id = some t := hget
      cases hstep
      refine h.settles ((settles_probe (laws_ran h.laws _) hget' hwork ?_).after
        (within_ran s t.name .start))
      intro hlate
      rcases hfit t hget hstage with hin | hbeside
      · rw [hlate] at hin
        contradiction
      · exact Or.inr hbeside
    · have hget' : (s.ran t.name .stop).tasks.get? id = some t := hget
      cases hstep
      refine h.settles ((settles_finish (laws_ran h.laws _) hget' .stopped (Or.inr rfl)
        (Or.inl ?_)).after (within_ran s t.name .stop))
      intro command hcommand
      rw [ran, Dict.get?_set_self] at hcommand
      cases hcommand
      rfl
    · contradiction
  | commandTimedOut i =>
    cases hid
    simp only [resume] at hstep
    split at hstep
    · rename_i hstage
      cases hstep
      exact h.settles (settles_goOn h.laws hget (by rw [hstage]; rfl) rfl)
    · rename_i hstage
      cases hstep
      exact h.settles (settles_goOn h.laws hget (by rw [hstage]; rfl) rfl)
    · contradiction
  | killed i =>
    cases hid
    -- The command was killed: it did not run to its end.
    have hlast : t.stage = .startKill ∨ t.stage = .stopKill →
        (∀ command, s.lastCommand.get? t.name = some command →
          LifecycleState.stopped = command.result) ∨ s.BusyBeside id t.name := by
      intro hstage
      rcases hfit t hget hstage with hnot | hbeside
      · left
        intro command hcommand
        cases command with
        | start => exact absurd hcommand hnot
        | stop => rfl
      · exact Or.inr hbeside
    simp only [resume] at hstep
    split at hstep
    · rename_i hstage
      cases hstep
      exact h.settles (settles_finish h.laws hget .raised (Or.inr rfl) (hlast (Or.inl hstage)))
    · rename_i hstage
      cases hstep
      exact h.settles (settles_finish h.laws hget .stopped (Or.inr rfl) (hlast (Or.inr hstage)))
    · contradiction
  | probed i healthy inTime =>
    cases hid
    simp only [resume] at hstep
    split at hstep
    · rename_i hstage
      obtain ⟨hup, hdown⟩ := hfit t hget hstage
      split at hstep
      · rename_i hhealthy
        cases hstep
        refine h.settles (settles_finish h.laws hget .returned (Or.inl rfl) ?_)
        rcases hup hhealthy with hnot | hbeside
        · left
          intro command hcommand
          cases command with
          | start => rfl
          | stop => exact absurd hcommand hnot
        · exact Or.inr hbeside
      · rename_i hsick
        cases hstep
        refine h.settles (settles_probe h.laws hget (by rw [hstage]; rfl) ?_)
        intro hlate
        rcases hdown (Bool.eq_false_of_not_eq_true hsick) hlate with hnot | hbeside
        · left
          intro command hcommand
          cases command with
          | start => exact absurd hcommand hnot
          | stop => rfl
        · exact Or.inr hbeside
    · contradiction
  | _ => contradiction

/-- Where a call that ends finds its own command the last, the states stay true. -/
theorem Sound.step (h : s.Sound) (hfit : s.EndsTruly config e)
    (hstep : s.step config e = some s') : s'.Sound ∧ IdleStops s s' := by
  cases hid : e.taskId with
  | none =>
    cases e with
    | inFlightChanged name count =>
      cases hstep
      have hquiet : Quiet s { s with inFlight := s.inFlight.set name count } :=
        ⟨rfl, rfl, fun _ hbusy => hbusy, fun _ t' ht' hmark => ⟨t', ht', hmark⟩⟩
      exact h.quiet hquiet ⟨h.laws.timers, h.laws.cancels, h.laws.marks⟩
    | startCalled i name inTime =>
      simp only [step] at hstep
      split at hstep
      · contradiction
      rename_i hfree
      replace hfree := Option.not_isSome_iff_eq_none.mp hfree
      have hspawned : (s.spawn i name .startCommand).tasks.get? i =
          some { name := name, stage := .startCommand } := Dict.get?_set_self _ _ _
      have hquiet := quiet_spawn s hfree name .startCommand
      cases hstep
      refine h.settles ((settles_start (laws_spawn h.laws hfree name _) hspawned rfl
        ?_).after (hquiet.within name))
      intro hcmd hlate
      obtain ⟨j, u, hu, huname, hwork⟩ := hfit hcmd hlate
      have hne : i ≠ j := by
        rintro rfl
        rw [hfree] at hu
        contradiction
      exact ⟨j, u, hne.symm, by rw [spawn, Dict.get?_set_of_ne _ _ hne, hu], huname, hwork⟩
    | stopCalled i name force =>
      simp only [step] at hstep
      split at hstep
      · contradiction
      rename_i hfree
      replace hfree := Option.not_isSome_iff_eq_none.mp hfree
      have hspawned : (s.spawn i name .draining).tasks.get? i =
          some { name := name, stage := .draining } := Dict.get?_set_self _ _ _
      have hquiet := quiet_spawn s hfree name .draining
      cases hstep
      exact h.settles ((settles_drainAndStop (laws_spawn h.laws hfree name _) hspawned rfl
        force).after (hquiet.within name))
    | taskCompleted i name =>
      simp only [step] at hstep
      split at hstep
      · contradiction
      rename_i hfree
      replace hfree := Option.not_isSome_iff_eq_none.mp hfree
      cases hstep
      exact h.quiet (quiet_notifyTaskComplete s hfree name)
        (laws_notifyTaskComplete h.laws hfree name)
    | cancelled i =>
      simp only [step] at hstep
      split at hstep
      · contradiction
      rename_i t hget
      split at hstep
      · rename_i hcancel
        cases hstep
        have hidle := h.laws.cancels i t hget (Bool.and_eq_true_iff.mp hcancel).1
        exact h.quiet (quiet_goOn_over hget hidle .cancelled)
          (laws_goOn h.laws hget (Or.inl rfl))
      · contradiction
    | _ => contradiction
  | some i =>
    cases hget : s.tasks.get? i with
    | none =>
      cases e <;> first
        | contradiction
        | (cases hid; simp only [LifecycleManager.step, LifecycleEvent.taskId, hget] at hstep
           contradiction)
    | some t =>
      have hresume : t.mustCancel = false ∧ s.resume config i t e = some s' := by
        cases e <;> first
          | contradiction
          | (cases hid
             simp only [step, LifecycleEvent.taskId, hget] at hstep
             split at hstep
             · contradiction
             rename_i hcancel
             exact ⟨Bool.eq_false_of_not_eq_true hcancel, hstep⟩)
      exact h.resume hid hget hresume.1 hfit hresume.2

end Steps

/-- In every run whose steps end truly the states are true after every step, and every timer that
finds its backend running and idle is through with stopping it. -/
theorem truthful_of_guarded (config : String → ManagedBackend) (es : List LifecycleEvent)
    (hguard : Guarded (step config) (EndsTruly config) init es) :
    EveryStep (step config)
      (fun s _ s' => s'.Truthful ∧ IdleStops s s' ∧ s'.IdleThrough) init es := by
  intro pre e post t t' heq hrun hstep
  rw [heq, List.append_cons] at hguard
  have hupTo := guarded_of_append hguard
  have hsound : t.Sound := invariant_of_guarded_run
    (fun _ _ _ h hfit hstep' => (h.step hfit hstep').1) sound_init (guarded_of_append hupTo) hrun
  obtain ⟨hsound', hstops⟩ := hsound.step (guard_of_guarded_append hupTo hrun) hstep
  exact ⟨hsound'.truthful, hstops, hsound'.laws.marks⟩

/-- One backend is stopped by a command, the others by the manager alone. -/
def twoBackends (name : String) : ManagedBackend :=
  { startCmd := "up", stopCmd := if name = "b1" then "down" else "" }

/-- A backend is started and stopped, and another is stopped when it has been idle. -/
theorem truthful_startStop :
    EveryStep (step twoBackends)
      (fun s _ s' => s'.Truthful ∧ IdleStops s s' ∧ s'.IdleThrough) init
      [.startCalled 0 "b1" true, .commandEnded 0 true, .probed 0 true true,
        .stopCalled 1 "b1" false, .commandEnded 1 true,
        .taskCompleted 2 "b2", .keepaliveExpired 2] := by
  apply truthful_of_guarded
  refine ⟨?_, ?_, ?_, trivial, ?_, trivial, ?_, trivial⟩
  · intro hcmd
    contradiction
  · intro t _ _
    exact Or.inl rfl
  · intro t hget _
    cases hget
    refine ⟨?_, ?_⟩
    · intro _
      exact Or.inl (by decide)
    · intro hsick
      contradiction
  · intro t hget hstage
    cases hget
    contradiction
  · intro t hget _ _ _
    cases hget
    decide

/-- The timer of an idle backend expires: it cancels itself, and the backend is never stopped. -/
theorem not_truthful :
    ¬ EveryStep (step fun _ => { startCmd := "up", stopCmd := "down" })
      (fun s _ s' => s'.Truthful ∧ IdleStops s s' ∧ s'.IdleThrough) init
      [.taskCompleted 0 "b1", .keepaliveExpired 0, .cancelled 0] := by
  intro hevery
  obtain ⟨htrue, _⟩ := hevery [.taskCompleted 0 "b1", .keepaliveExpired 0] (.cancelled 0) [] _ _
    rfl rfl rfl
  have hfine := htrue "b1" (by decide)
  exact absurd hfine.1 (by decide)

end LifecycleManager

end TinyAgentOS.Scheduler
