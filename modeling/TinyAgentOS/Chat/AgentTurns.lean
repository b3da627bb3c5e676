import TinyAgentOS.Library.Dict
import TinyAgentOS.Library.Transition

/-!
# The turns of one agent

A message that comes while the agent is idle starts a turn; the task that brought it drives the
turn, and after it every message that was queued meanwhile.  The lock of the loop is never held
where a task waits, so that a task runs from one call of `drive_turn` to the next without
another task in between.

Main results:

- `Sound.of_step`: one turn at a time, in every run.
- `turnLaw_iff`: the runs in which every message that was accepted is driven once, in order.
-/

namespace TinyAgentOS.Chat

open Collections Transition

/-! ## The loop -/

inductive LoopState where
  | idle
  | working
  | safePoint
deriving DecidableEq

inductive LoopAction where
  | immediate
  | queued
deriving DecidableEq

/-- The contents are of any type. -/
structure QueuedMessage (μ : Type) where
  id : String
  content : μ
  receivedAt : Rat
  isRedirect : Bool

/-- The loop of an agent.  Nothing of the router spawns a subagent in it. -/
structure AgentLoop (μ : Type) where
  state : LoopState
  messageQueue : List (QueuedMessage μ)
  delivered : List (QueuedMessage μ)
  currentTurnId : Option String

/-- What `uuid.uuid4().hex` and `time.time()` give. -/
structure Reading where
  uuid : String
  now : Rat

namespace AgentLoop

variable {μ : Type}

def init : AgentLoop μ := ⟨.idle, [], [], none⟩

def maxDelivered : Nat := 1000

/-- `msg_id or uuid.uuid4().hex`. -/
def messageId (msgId : Option String) (uuid : String) : String :=
  match msgId with
  | some id => if id = "" then uuid else id
  | none => uuid

def handleMessage (l : AgentLoop μ) (content : μ) (msgId : Option String) (isRedirect : Bool)
    (reading : Reading) : AgentLoop μ × LoopAction :=
  let id := messageId msgId reading.uuid
  match l.state with
  | .idle => ({ l with state := .working, currentTurnId := some id }, .immediate)
  | .working | .safePoint =>
    ({ l with
        messageQueue := l.messageQueue ++ [⟨id, content, reading.now, isRedirect⟩] }, .queued)

/-- The last of the messages that were delivered are kept. -/
def pruneDelivered (delivered : List (QueuedMessage μ)) : List (QueuedMessage μ) :=
  delivered.drop (delivered.length - maxDelivered)

/-- A redirect among the messages cancels the subagents, of which there are none. -/
def reachSafePoint (l : AgentLoop μ) : AgentLoop μ × List (QueuedMessage μ) :=
  let l₁ := { l with state := .safePoint, messageQueue := [] }
  let queued := l.messageQueue ++ l₁.messageQueue
  let l₂ := { l₁ with
    messageQueue := []
    delivered := pruneDelivered (l₁.delivered ++ queued) }
  (if l₂.state = .safePoint then { l₂ with state := .idle, currentTurnId := none } else l₂, queued)

end AgentLoop

/-! ## The router -/

/-- A task inside `drive_turn`: what it drives, and what it is to drive after. -/
structure AcpTurn (μ : Type) where
  current : μ × Option String
  pending : List (μ × Option String)

/-- How `drive_turn` ends: it returns, it raises, or its task is cancelled. -/
inductive DriveOutcome where
  | returned
  | raised
  | cancelled
deriving DecidableEq

/-- The loop of the agent and the tasks that drive its turns, with what was accepted and what was
driven so far. -/
structure AgentTurns (μ : Type) where
  loop : AgentLoop μ
  tasks : Dict Nat (AcpTurn μ)
  accepted : List μ
  driven : List (μ × Option String)

/-- A task starts, or goes on where `drive_turn` ended.  Every message that it puts into the
loop again has a reading of its own. -/
inductive TurnEvent (μ : Type) where
  | starts (task : Nat) (text : μ) (traceId : Option String) (reading : Reading)
  | ends (task : Nat) (outcome : DriveOutcome) (readings : Nat → Reading)

namespace AgentTurns

variable {μ : Type}

def init : AgentTurns μ := ⟨AgentLoop.init, Dict.empty, [], []⟩

/-- The head of the loop over `pending`. -/
def drive (s : AgentTurns μ) (task : Nat) : List (μ × Option String) → AgentTurns μ
  | [] => { s with tasks := s.tasks.pop task }
  | current :: pending =>
    { s with
      tasks := s.tasks.set task ⟨current, pending⟩
      driven := s.driven ++ [current] }

/-- The messages that were queued are put into the loop again: the first starts a turn. -/
def followUp (readings : Nat → Reading) : AgentLoop μ → List (μ × Option String) →
    List (QueuedMessage μ) → AgentLoop μ × List (μ × Option String)
  | l, pending, [] => (l, pending)
  | l, pending, m :: queued =>
    let (l', action) := l.handleMessage m.content (some m.id) false (readings 0)
    let pending' :=
      match action with
      | .immediate => pending ++ [(m.content, some m.id)]
      | .queued => pending
    followUp (fun i => readings (i + 1)) l' pending' queued

/-- `_run_acp_turn`, from one place where it waits to the next. -/
def step (s : AgentTurns μ) : TurnEvent μ → Option (AgentTurns μ)
  | .starts task text traceId reading =>
    match s.tasks.get? task with
    | some _ => none
    | none =>
      let (l, action) := s.loop.handleMessage text traceId false reading
      let s' := { s with loop := l, accepted := s.accepted ++ [text] }
      match action with
      | .queued => some s'
      | .immediate => some (s'.drive task [(text, traceId)])
  | .ends task outcome readings =>
    match s.tasks.get? task with
    | none => none
    | some turn =>
      let (l, queued) := s.loop.reachSafePoint
      match outcome with
      | .cancelled => some { s with loop := l, tasks := s.tasks.pop task }
      | .returned | .raised =>
        let (l', pending) := followUp readings l turn.pending queued
        some ({ s with loop := l' }.drive task pending)

/-! ## What is asked of the turns -/

def drivenTexts (s : AgentTurns μ) : List μ :=
  s.driven.map Prod.fst

def waitingTexts (s : AgentTurns μ) : List μ :=
  s.loop.messageQueue.map QueuedMessage.content

/-- At most one turn is in flight, and what was accepted was driven in order or waits.  The turns
in flight drive all of it, if they are not cancelled. -/
structure Delivering (s : AgentTurns μ) : Prop where
  exclusive : s.tasks.entries.length ≤ 1
  lossless : s.drivenTexts ++ s.waitingTexts = s.accepted
  settled : s.tasks.entries = [] → s.drivenTexts = s.accepted
  settles : ∀ (task : Nat) (endings : List (DriveOutcome × (Nat → Reading))),
    (s.tasks.get? task).isSome = true → (∀ e ∈ endings, e.1 ≠ .cancelled) →
    endings.length = s.loop.messageQueue.length + 1 →
    ∃ s', run step s (endings.map fun e => .ends task e.1 e.2) = some s' ∧
      s'.tasks.entries = [] ∧ s'.drivenTexts = s.accepted

def TurnLaw (es : List (TurnEvent μ)) : Prop :=
  ∀ before after s, es = before ++ after → run step init before = some s → s.Delivering

/-- No turn is cancelled behind which a message waits. -/
def Spares (s : AgentTurns μ) : TurnEvent μ → Prop
  | .ends task .cancelled _ => (s.tasks.get? task).isSome = true → s.loop.messageQueue = []
  | _ => True

end AgentTurns

/-! ## The loop at a safe point -/

section Loop

variable {μ : Type} {l : AgentLoop μ}

/-- An idle loop starts on the message. -/
theorem AgentLoop.handleMessage_idle (h : l.state = .idle) (content : μ) (msgId : Option String)
    (isRedirect : Bool) (reading : Reading) :
    l.handleMessage content msgId isRedirect reading =
      ({ l with
          state := .working
          currentTurnId := some (messageId msgId reading.uuid) }, .immediate) := by
  simp only [handleMessage, h]

/-- A working loop queues the message. -/
theorem AgentLoop.handleMessage_working (h : l.state = .working) (content : μ)
    (msgId : Option String) (isRedirect : Bool) (reading : Reading) :
    l.handleMessage content msgId isRedirect reading =
      ({ l with
          messageQueue := l.messageQueue ++
            [⟨messageId msgId reading.uuid, content, reading.now, isRedirect⟩] }, .queued) := by
  simp only [handleMessage, h]

/-- The messages behind the first wait again. -/
theorem AgentTurns.followUp_working (readings : Nat → Reading) (h : l.state = .working)
    (pending : List (μ × Option String)) (queued : List (QueuedMessage μ)) :
    (followUp readings l pending queued).2 = pending ∧
      (followUp readings l pending queued).1.state = .working ∧
      (followUp readings l pending queued).1.messageQueue.map QueuedMessage.content =
        l.messageQueue.map QueuedMessage.content ++ queued.map QueuedMessage.content := by
  induction queued generalizing readings l with
  | nil => exact ⟨rfl, h, (List.append_nil _).symm⟩
  | cons m queued ih =>
    rw [followUp, AgentLoop.handleMessage_working h]
    obtain ⟨hpending, hstate, hqueue⟩ := ih (fun i => readings (i + 1))
      (l := { l with messageQueue := l.messageQueue ++
        [⟨AgentLoop.messageId (some m.id) (readings 0).uuid, m.content, (readings 0).now,
          false⟩] }) h
    refine ⟨hpending, hstate, hqueue.trans ?_⟩
    simp

/-- The first message that was queued is driven next. -/
theorem AgentTurns.followUp_idle (readings : Nat → Reading) (h : l.state = .idle)
    (hqueue : l.messageQueue = []) (m : QueuedMessage μ) (queued : List (QueuedMessage μ)) :
    ∃ l', followUp readings l [] (m :: queued) = (l', [(m.content, some m.id)]) ∧
      l'.state = .working ∧
      l'.messageQueue.map QueuedMessage.content = queued.map QueuedMessage.content := by
  obtain ⟨hpending, hstate, hwaiting⟩ := followUp_working (fun i => readings (i + 1))
    (l := { l with
      state := .working
      currentTurnId := some (AgentLoop.messageId (some m.id) (readings 0).uuid) }) rfl
    [(m.content, some m.id)] queued
  refine ⟨_, ?_, hstate, ?_⟩
  · rw [followUp, AgentLoop.handleMessage_idle h]
    exact Prod.ext rfl hpending
  · simpa [hqueue] using hwaiting

end Loop

/-! ## What a step does -/

namespace AgentTurns

variable {μ : Type}

/-- No task drives, and nothing waits. -/
structure Resting (s : AgentTurns μ) : Prop where
  tasks : s.tasks.entries = []
  state : s.loop.state = .idle
  queue : s.loop.messageQueue = []

/-- A task drives a message. -/
structure Driving (s : AgentTurns μ) (task : Nat) (current : μ × Option String) : Prop where
  tasks : s.tasks.entries = [(task, ⟨current, []⟩)]
  state : s.loop.state = .working

/-- What holds in every state. -/
def Sound (s : AgentTurns μ) : Prop :=
  s.Resting ∨ ∃ task current, s.Driving task current

theorem sound_init : (init : AgentTurns μ).Sound :=
  Or.inl ⟨rfl, rfl, rfl⟩

/-- The cases of a step. -/
inductive Turned (s : AgentTurns μ) : TurnEvent μ → AgentTurns μ → Prop
  | started {task : Nat} {text : μ} {traceId : Option String} {reading : Reading}
      {s' : AgentTurns μ} (hs : s.Resting) (hs' : s'.Driving task (text, traceId))
      (hwaiting : s'.waitingTexts = []) (haccepted : s'.accepted = s.accepted ++ [text])
      (hdriven : s'.drivenTexts = s.drivenTexts ++ [text]) :
      Turned s (.starts task text traceId reading) s'
  | queued {task holder : Nat} {text : μ} {traceId : Option String} {reading : Reading}
      {current : μ × Option String} {s' : AgentTurns μ} (hs : s.Driving holder current)
      (hs' : s'.Driving holder current) (hwaiting : s'.waitingTexts = s.waitingTexts ++ [text])
      (haccepted : s'.accepted = s.accepted ++ [text]) (hdriven : s'.drivenTexts = s.drivenTexts) :
      Turned s (.starts task text traceId reading) s'
  | rested {task : Nat} {outcome : DriveOutcome} {readings : Nat → Reading}
      {current : μ × Option String} {s' : AgentTurns μ} (hs : s.Driving task current)
      (houtcome : outcome ≠ .cancelled) (hwaiting : s.waitingTexts = []) (hs' : s'.Resting)
      (haccepted : s'.accepted = s.accepted) (hdriven : s'.drivenTexts = s.drivenTexts) :
      Turned s (.ends task outcome readings) s'
  | wentOn {task : Nat} {outcome : DriveOutcome} {readings : Nat → Reading}
      {current next : μ × Option String} {s' : AgentTurns μ} (hs : s.Driving task current)
      (houtcome : outcome ≠ .cancelled)
      (hwaiting : s.waitingTexts = next.1 :: s'.waitingTexts) (hs' : s'.Driving task next)
      (haccepted : s'.accepted = s.accepted)
      (hdriven : s'.drivenTexts = s.drivenTexts ++ [next.1]) :
      Turned s (.ends task outcome readings) s'
  | cancelled {task : Nat} {readings : Nat → Reading} {current : μ × Option String}
      {s' : AgentTurns μ} (hs : s.Driving task current) (hs' : s'.Resting)
      (haccepted : s'.accepted = s.accepted) (hdriven : s'.drivenTexts = s.drivenTexts) :
      Turned s (.ends task .cancelled readings) s'

variable {s s' : AgentTurns μ} {current : μ × Option String} {task : Nat} {e : TurnEvent μ}

theorem Resting.get? (h : s.Resting) (task : Nat) : s.tasks.get? task = none := by
  rw [Dict.get?, h.tasks]
  rfl

theorem Driving.get? (h : s.Driving task current) (task' : Nat) :
    s.tasks.get? task' = if task = task' then some ⟨current, []⟩ else none := by
  rw [Dict.get?, h.tasks]
  rfl

theorem Driving.entries_pop (h : s.Driving task current) : (s.tasks.pop task).entries = [] := by
  simp [Dict.pop, Dict.popIn, h.tasks]

/-- A message starts a turn, or waits for one. -/
theorem turned_starts (h : s.Sound) {text : μ} {traceId : Option String} {reading : Reading}
    (hstep : step s (.starts task text traceId reading) = some s') :
    Turned s (.starts task text traceId reading) s' := by
  rcases h with hresting | ⟨holder, current, hdriving⟩
  · rw [step, hresting.get?, AgentLoop.handleMessage_idle hresting.state] at hstep
    cases hstep
    refine .started hresting ⟨?_, rfl⟩ ?_ rfl ?_
    · simp [drive, Dict.set, hresting.tasks, Dict.setIn]
    · simp [drive, waitingTexts, hresting.queue]
    · simp [drive, drivenTexts]
  · rw [step, hdriving.get?] at hstep
    by_cases htask : holder = task
    · rw [if_pos htask] at hstep
      contradiction
    · rw [if_neg htask, AgentLoop.handleMessage_working hdriving.state] at hstep
      cases hstep
      refine .queued hdriving ⟨hdriving.tasks, hdriving.state⟩ ?_ rfl rfl
      simp [waitingTexts]

/-- A turn that ended otherwise than by its task. -/
theorem turned_ends (h : s.Driving task current) {outcome : DriveOutcome}
    (houtcome : outcome ≠ .cancelled)
    {readings : Nat → Reading} (hstep : step s (.ends task outcome readings) = some s') :
    Turned s (.ends task outcome readings) s' := by
  have hdrained : s.loop.reachSafePoint.2 = s.loop.messageQueue := List.append_nil _
  have hdrive : ∀ {l : AgentLoop μ} {pending : List (μ × Option String)},
      followUp readings s.loop.reachSafePoint.1 [] s.loop.messageQueue = (l, pending) →
        AgentTurns.drive { s with loop := l } task pending = s' := by
    intro l pending hfollow
    rw [step, h.get?, if_pos rfl] at hstep
    cases outcome with
    | cancelled => contradiction
    | returned | raised => simpa [hdrained, hfollow] using hstep
  cases hqueue : s.loop.messageQueue with
  | nil =>
    rw [hqueue] at hdrive
    obtain rfl := hdrive rfl
    refine .rested h houtcome ?_ ⟨h.entries_pop, rfl, rfl⟩ rfl rfl
    rw [waitingTexts, hqueue]
    rfl
  | cons m queued =>
    obtain ⟨l', hfollow, hstate, hwaiting⟩ := followUp_idle readings
      (l := s.loop.reachSafePoint.1) rfl rfl m queued
    rw [hqueue] at hdrive
    obtain rfl := hdrive hfollow
    have hnext : (AgentTurns.drive { s with loop := l' } task
        [(m.content, some m.id)]).Driving task (m.content, some m.id) := by
      refine ⟨?_, hstate⟩
      simp [drive, Dict.set, h.tasks, Dict.setIn]
    refine .wentOn h houtcome ?_ hnext rfl ?_
    · rw [waitingTexts, hqueue, List.map_cons, ← hwaiting]
      rfl
    · simp [drive, drivenTexts]

/-- What a step does. -/
theorem turned_of_step (h : s.Sound) (hstep : step s e = some s') : Turned s e s' := by
  cases e with
  | starts task text traceId reading => exact turned_starts h hstep
  | ends task outcome readings =>
    rcases h with hresting | ⟨holder, current, hdriving⟩
    · rw [step, hresting.get?] at hstep
      contradiction
    · have hget := hdriving.get? task
      by_cases htask : holder = task
      · obtain rfl := htask
        by_cases houtcome : outcome = .cancelled
        · obtain rfl := houtcome
          rw [step, hget, if_pos rfl] at hstep
          cases hstep
          exact .cancelled hdriving ⟨hdriving.entries_pop, rfl, rfl⟩ rfl rfl
        · exact turned_ends hdriving houtcome hstep
      · rw [step, hget, if_neg htask] at hstep
        contradiction

/-! ## Every run -/

/-- Every step keeps the loop sound. -/
theorem Sound.of_step (h : s.Sound) (hstep : step s e = some s') : s'.Sound := by
  cases turned_of_step h hstep with
  | started _ hs' | queued _ hs' | wentOn _ _ _ hs' => exact Or.inr ⟨_, _, hs'⟩
  | rested _ _ _ hs' => exact Or.inl hs'
  | cancelled _ hs' => exact Or.inl hs'

/-- What was accepted was driven, in order, or waits. -/
def Lossless (s : AgentTurns μ) : Prop :=
  s.drivenTexts ++ s.waitingTexts = s.accepted

theorem Resting.waitingTexts_eq (h : s.Resting) : s.waitingTexts = [] := by
  rw [waitingTexts, h.queue, List.map_nil]

/-- At rest everything accepted was driven. -/
theorem Resting.driven_eq (h : s.Resting) (hlossless : s.Lossless) :
    s.drivenTexts = s.accepted := by
  rw [Lossless, h.waitingTexts_eq, List.append_nil] at hlossless
  exact hlossless

theorem spares_of_ne (s : AgentTurns μ) (task : Nat) {outcome : DriveOutcome}
    (houtcome : outcome ≠ .cancelled) (readings : Nat → Reading) :
    s.Spares (.ends task outcome readings) := by
  cases outcome with
  | cancelled => contradiction
  | returned => trivial
  | raised => trivial

/-- A step loses nothing exactly when it spares the messages that wait. -/
theorem Turned.lossless_iff (h : s.Lossless)
    (hturned : Turned s e s') : s'.Lossless ↔ s.Spares e := by
  cases hturned with
  | started hs _ hwaiting haccepted hdriven =>
    refine iff_of_true ?_ trivial
    rw [Lossless, hwaiting, hdriven, haccepted, hs.driven_eq h, List.append_nil]
  | queued _ _ hwaiting haccepted hdriven =>
    refine iff_of_true ?_ trivial
    rw [Lossless, hwaiting, hdriven, haccepted, ← h, List.append_assoc]
  | rested _ houtcome hwaiting hs' haccepted hdriven =>
    refine iff_of_true ?_ (spares_of_ne s _ houtcome _)
    rw [Lossless, hs'.waitingTexts_eq, hdriven, haccepted, ← h, hwaiting]
  | wentOn _ houtcome hwaiting _ haccepted hdriven =>
    refine iff_of_true ?_ (spares_of_ne s _ houtcome _)
    rw [Lossless, hdriven, haccepted, ← h, hwaiting, List.append_assoc, List.singleton_append]
  | @cancelled task _ current _ hs hs' haccepted hdriven =>
    have hget : (s.tasks.get? task).isSome = true := by
      rw [hs.get?, if_pos rfl]
      rfl
    calc
      s'.Lossless ↔ s.drivenTexts = s.drivenTexts ++ s.waitingTexts := by
        rw [Lossless, hs'.waitingTexts_eq, hdriven, haccepted, List.append_nil, h]
      _ ↔ s.waitingTexts = [] := List.self_eq_append_right
      _ ↔ s.loop.messageQueue = [] := List.map_eq_nil_iff
      _ ↔ s.Spares (.ends task .cancelled _) := (imp_iff_right hget).symm

/-- A turn that ends otherwise than by its task, and those after it, drive all that waits. -/
theorem settles_of_driving (hs : s.Driving task current) (h : s.Lossless)
    {endings : List (DriveOutcome × (Nat → Reading))} (hendings : ∀ e ∈ endings, e.1 ≠ .cancelled)
    (hlength : endings.length = s.waitingTexts.length + 1) :
    ∃ s', run step s (endings.map fun e => .ends task e.1 e.2) = some s' ∧
      s'.tasks.entries = [] ∧ s'.drivenTexts = s.accepted := by
  induction endings generalizing s current with
  | nil => simp at hlength
  | cons e endings ih =>
    obtain ⟨outcome, readings⟩ := e
    have houtcome := hendings _ List.mem_cons_self
    obtain ⟨s', hstep⟩ : ∃ s', step s (.ends task outcome readings) = some s' := by
      rw [step, hs.get?, if_pos rfl]
      cases outcome with
      | cancelled | returned | raised => exact ⟨_, rfl⟩
    have hturned := turned_ends hs houtcome hstep
    have hlossless : s'.Lossless :=
      (hturned.lossless_iff h).mpr (spares_of_ne s task houtcome readings)
    cases hturned with
    | rested _ _ hwaiting hs' haccepted _ =>
      rw [hwaiting] at hlength
      have hnil : endings = [] := by simpa using hlength
      refine ⟨s', ?_, hs'.tasks, (hs'.driven_eq hlossless).trans haccepted⟩
      rw [hnil]
      exact run_cons_eq_some.mpr ⟨s', hstep, rfl⟩
    | wentOn _ _ hwaiting hs' haccepted _ =>
      rw [hwaiting, List.length_cons, List.length_cons] at hlength
      obtain ⟨t, hrun, htasks, hdriven⟩ := ih hs' hlossless
        (fun e he => hendings e (List.mem_cons_of_mem _ he)) (by omega)
      exact ⟨t, run_cons_eq_some.mpr ⟨s', hstep, hrun⟩, htasks, hdriven.trans haccepted⟩
    | cancelled => contradiction

/-- Where at most one task drives, nothing is asked but that nothing is lost. -/
theorem Sound.delivering_iff (h : s.Sound) : s.Delivering ↔ s.Lossless := by
  refine ⟨Delivering.lossless, fun hlossless => ?_⟩
  rcases h with hresting | ⟨holder, current, hdriving⟩
  · refine ⟨?_, hlossless, fun _ => hresting.driven_eq hlossless, ?_⟩
    · rw [hresting.tasks]
      exact Nat.zero_le _
    · intro task endings hsome
      rw [hresting.get?] at hsome
      contradiction
  · refine ⟨?_, hlossless, ?_, ?_⟩
    · rw [hdriving.tasks]
      exact le_rfl
    · intro hempty
      rw [hdriving.tasks] at hempty
      contradiction
    · intro task endings hsome hendings hlength
      have htask : holder = task := by
        by_contra hne
        rw [hdriving.get?, if_neg hne] at hsome
        contradiction
      obtain rfl := htask
      refine settles_of_driving hdriving hlossless hendings ?_
      rwa [waitingTexts, List.length_map]

/-- The runs in which one turn is in flight at a time and every message is driven once, in the
order in which it was accepted: those in which no turn is cancelled while a message waits. -/
theorem turnLaw_iff (es : List (TurnEvent μ)) :
    TurnLaw es ↔ Guarded step Spares (init : AgentTurns μ) es := by
  have hinit : (init : AgentTurns μ).Delivering := sound_init.delivering_iff.mpr rfl
  rw [TurnLaw, states_iff_everyStep hinit]
  refine everyStep_iff_guarded (I := fun s => s.Sound ∧ s.Lossless) ?_ ?_ ?_ ⟨sound_init, rfl⟩ es
  · intro s e hnone
    cases e with
    | starts task text traceId reading => trivial
    | ends task outcome readings =>
      cases outcome with
      | returned => trivial
      | raised => trivial
      | cancelled =>
        intro hsome
        obtain ⟨turn, hget⟩ := Option.isSome_iff_exists.mp hsome
        rw [step, hget] at hnone
        contradiction
  · rintro s e s' ⟨hsound, hlossless⟩ hspares hstep
    exact ⟨hsound.of_step hstep, ((turned_of_step hsound hstep).lossless_iff hlossless).mpr hspares⟩
  · rintro s e s' ⟨hsound, hlossless⟩ hstep
    exact (hsound.of_step hstep).delivering_iff.trans
      ((turned_of_step hsound hstep).lossless_iff hlossless)

/-- A message waits behind a turn whose task is cancelled: it is never driven. -/
theorem not_turnLaw : ¬ TurnLaw (μ := String)
    [.starts 0 "first" (some "t1") ⟨"u1", 0⟩, .starts 1 "second" (some "t2") ⟨"u2", 0⟩,
      .ends 0 .cancelled fun _ => ⟨"u3", 0⟩] := by
  intro h
  have hlossless := (h _ [] _ (List.append_nil _).symm rfl).lossless
  revert hlossless
  decide

end AgentTurns

end TinyAgentOS.Chat
