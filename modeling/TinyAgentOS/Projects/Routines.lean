import TinyAgentOS.Library.Dict
import TinyAgentOS.Library.Transition
import TinyAgentOS.Projects.TaskStore
import Mathlib.Data.List.Sort

/-!
# Routines

A routine fires at the instants of its cron expression.  A tick of the runner claims a
due instant by an update that expects it in `next_fire` and replaces it by the next
one.  A manual fire and an update replace `next_fire` whatever it is by then.  All
of them compute the new value from a clock they read some statements before.

Main results:

- `RoutineState.Books.step`: how old a value may be when it is written.
- `RoutineState.fair_step_iff`: the statements that write no claimed instant.
- `RoutineState.alwaysFair_iff`: the runs that claim every instant once.
- `RoutineState.not_alwaysFair`: a manual fire that is overtaken by two ticks.
-/

namespace TinyAgentOS.Projects

open Collections Transition

/-! ## Rows -/

/-- What `croniter` provides: a test of expressions, and the first instant of an expression
after a given one. -/
structure Cron where
  valid : String → Bool
  next : String → Clock → Clock
  later : ∀ expr t, t < next expr t

/-- The trigger kinds that `create_routine` accepts. -/
inductive TriggerKind where
  | cron
  | webhook
  | api
deriving DecidableEq

/-- The kind of a name, if that is valid. -/
def TriggerKind.ofName? : String → Option TriggerKind
  | "cron" => some .cron
  | "webhook" => some .webhook
  | "api" => some .api
  | _ => none

/-- A row of `routines`. -/
structure Routine where
  projectId : String
  title : String
  bodyTemplate : String
  assigneeId : Option String
  triggerKind : TriggerKind
  cronExpr : Option String
  webhookToken : Option String
  enabled : Bool
  lastFired : Option Clock
  nextFire : Option Clock
  createdBy : String
  createdAt : Clock
  updatedAt : Clock

/-- The cron expression, if it is not empty. -/
def nonempty (cronExpr : Option String) : Option String :=
  cronExpr.filter fun expr => expr ≠ ""

/-- The arguments of `create_routine`. -/
structure RoutineArgs where
  projectId : String
  title : String
  createdBy : String
  bodyTemplate : String := ""
  assigneeId : Option String := none
  triggerKind : String := "cron"
  cronExpr : Option String := none
  enabled : Bool := true

/-- The columns that `update_routine` can change. -/
structure RoutinePatch where
  title : Option String := none
  bodyTemplate : Option String := none
  assigneeId : Option String := none
  cronExpr : Option String := none
  enabled : Option Bool := none
deriving DecidableEq

/-- The `SET` clauses of `update_routine`; the instant is one of them if there is one. -/
def RoutinePatch.setIn (patch : RoutinePatch) (next : Option (Option Clock)) (now : Clock)
    (r : Routine) : Routine :=
  { r with
    title := patch.title.getD r.title
    bodyTemplate := patch.bodyTemplate.getD r.bodyTemplate
    assigneeId := patch.assigneeId.or r.assigneeId
    cronExpr := patch.cronExpr.or r.cronExpr
    enabled := patch.enabled.getD r.enabled
    nextFire := next.getD r.nextFire
    updatedAt := now }

/-- The `SET` clauses of `record_fire` and `claim_due`. -/
def Routine.fired (r : Routine) (next : Option Clock) (now : Clock) : Routine :=
  { r with lastFired := some now, nextFire := next, updatedAt := now }

section Schedules

variable (cron : Cron)

/-- The row that `create_routine` inserts, after its checks. -/
def RoutineArgs.row (args : RoutineArgs) (webhookToken : String) (now : Clock) :
    Except String Routine :=
  match TriggerKind.ofName? args.triggerKind with
  | none => .error ("invalid trigger_kind: " ++ args.triggerKind)
  | some kind =>
    if kind = .cron ∧ nonempty args.cronExpr = none then
      .error "cron_expr is required for trigger_kind='cron'"
    else if kind = .cron ∧ ¬args.cronExpr.all cron.valid then
      .error ("invalid cron expression: '" ++ args.cronExpr.getD "" ++ "'")
    else
      .ok
        { projectId := args.projectId
          title := args.title
          bodyTemplate := args.bodyTemplate
          assigneeId := args.assigneeId
          triggerKind := kind
          cronExpr := args.cronExpr
          webhookToken := if kind = .webhook then some webhookToken else none
          enabled := args.enabled
          lastFired := none
          nextFire :=
            if kind = .cron ∧ args.enabled then args.cronExpr.map (cron.next · now) else none
          createdBy := args.createdBy
          createdAt := now
          updatedAt := now }

/-- The instant that `record_fire` computes. -/
def fireNext (existing : Routine) (now : Clock) : Option Clock :=
  if existing.triggerKind = .cron ∧ existing.enabled then
    (nonempty existing.cronExpr).map (cron.next · now)
  else none

/-- The instant that `update_routine` computes, when it is to write one. -/
def patchNext (patch : RoutinePatch) (existing : Routine) (now : Clock) :
    Option (Option Clock) :=
  if existing.triggerKind = .cron ∧ (patch.cronExpr.isSome ∨ patch.enabled.isSome) then
    some
      (if patch.enabled.getD existing.enabled then
        (nonempty (patch.cronExpr.or existing.cronExpr)).map (cron.next · now)
      else none)
  else none

end Schedules

/-! ## Calls -/

/-- A claim: the routine, the instant, and which of the routine's schedules it was on. -/
structure Claim where
  routineId : String
  instant : Clock
  epoch : Nat

/-- The instant that is to be claimed once. -/
def Claim.key (c : Claim) : String × Clock :=
  (c.routineId, c.instant)

/-- Where a call stands.  A call that has read the clock keeps the reading, and how many claims
there were by then. -/
inductive RoutineCall where
  /-- A tick is to list what is due. -/
  | listing (now : Clock) (mark : Nat)
  /-- A tick is to claim these routines at these instants. -/
  | sweeping (now : Clock) (mark : Nat) (due : List (String × Clock))
  /-- `claim_due` has computed the instant it is to write. -/
  | swapping (now : Clock) (mark : Nat) (routineId : String) (expected next : Clock)
      (rest : List (String × Clock))
  /-- `record_fire` is to read the routine. -/
  | recording (now : Clock) (mark : Nat) (routineId : String)
  /-- `record_fire` has computed the instant it is to write. -/
  | stamping (now : Clock) (mark : Nat) (routineId : String) (next : Option Clock)
  /-- `update_routine` has read the routine. -/
  | planning (routineId : String) (patch : RoutinePatch) (existing : Routine)
  /-- `update_routine` has computed the instant it is to write, if any. -/
  | writing (now : Clock) (mark : Nat) (routineId : String) (patch : RoutinePatch)
      (next : Option (Option Clock))
  | done

/-- The clock that a call has read, and the claims before that. -/
def RoutineCall.reading : RoutineCall → Option (Clock × Nat)
  | .listing now mark => some (now, mark)
  | .sweeping now mark _ => some (now, mark)
  | .swapping now mark _ _ _ _ => some (now, mark)
  | .recording now mark _ => some (now, mark)
  | .stamping now mark _ _ => some (now, mark)
  | .writing now mark _ _ _ => some (now, mark)
  | _ => none

/-- The instants that a call is to claim. -/
def RoutineCall.due : RoutineCall → List Clock
  | .sweeping _ _ due => due.map Prod.snd
  | .swapping _ _ _ expected _ rest => expected :: rest.map Prod.snd
  | _ => []

/-- The instant that a call is to write. -/
def RoutineCall.upcoming : RoutineCall → Option Clock
  | .swapping _ _ _ _ next _ => some next
  | .stamping _ _ _ next => next
  | .writing _ _ _ _ next => next.join
  | _ => none

/-- The statements of the calls, and their readings of the clock. -/
inductive RoutineEvent where
  | created (routineId : String) (args : RoutineArgs) (webhookToken : String) (now : Clock)
  | deleted (routineId : String)
  | tickStarted (id : Nat) (now : Clock)
  | listed (id : Nat)
  | claimRead (id : Nat)
  | swapped (id : Nat)
  | fireStarted (id : Nat) (routineId : String) (now : Clock)
  | fireRead (id : Nat)
  | fireWritten (id : Nat)
  | updateRead (id : Nat) (routineId : String) (patch : RoutinePatch)
  | updatePlanned (id : Nat) (now : Clock)
  | updateWritten (id : Nat)

/-- The table and the calls, with the last reading of the clock, the claims so far, and the
number of schedules that each routine has had. -/
structure RoutineState where
  routines : Dict String Routine
  calls : Dict Nat RoutineCall
  now : Clock
  claims : List Claim
  epochs : Dict String Nat

namespace RoutineState

/-- An empty table. -/
def init : RoutineState := ⟨Dict.empty, Dict.empty, 0, [], Dict.empty⟩

/-- The number of a routine's schedule. -/
def epoch (s : RoutineState) (routineId : String) : Nat :=
  (s.epochs.get? routineId).getD 0

/-- The call awaits another statement, or has ended. -/
def goOn (s : RoutineState) (id : Nat) (call : RoutineCall) : RoutineState :=
  { s with calls := s.calls.set id call }

/-- The clock is read. -/
def readClock (s : RoutineState) (now : Clock) : RoutineState :=
  { s with now := now }

/-- A row is written; on a new schedule the routine's instants are new ones. -/
def put (s : RoutineState) (routineId : String) (row : Routine) (newSchedule : Bool) :
    RoutineState :=
  { s with
    routines := s.routines.set routineId row
    epochs :=
      if newSchedule then s.epochs.set routineId (s.epoch routineId + 1) else s.epochs }

/-- `list_due`. -/
def listDue (s : RoutineState) (now : Clock) : List (String × Clock) :=
  let due := s.routines.entries.filterMap fun p =>
    if p.2.triggerKind = .cron ∧ p.2.enabled then
      (p.2.nextFire.filter fun t => t ≤ now).map fun t => (p.1, t)
    else none
  due.insertionSort fun a b => a.2 ≤ b.2

/-- What `claim_due` computes from the row it reads, unless it gives up. -/
def claimNext (cron : Cron) (s : RoutineState) (routineId : String) (now : Clock) :
    Option Clock :=
  (s.routines.get? routineId).bind fun existing =>
    if existing.triggerKind = .cron ∧ existing.enabled then
      (nonempty existing.cronExpr).map (cron.next · now)
    else none

/-- The row that the guarded update of `claim_due` matches. -/
def claimable (s : RoutineState) (routineId : String) (expected : Clock) : Option Routine :=
  (s.routines.get? routineId).filter fun r => r.enabled && r.nextFire = some expected

/-- One statement, or one reading of the clock. -/
def step (cron : Cron) (s : RoutineState) : RoutineEvent → Option RoutineState
  | .created routineId args webhookToken now =>
    if now < s.now ∨ (s.routines.get? routineId).isSome then none
    else
      match args.row cron webhookToken now with
      | .error _ => some (s.readClock now)
      | .ok row => some ((s.readClock now).put routineId row true)
  | .deleted routineId => some { s with routines := s.routines.pop routineId }
  | .tickStarted id now =>
    if now < s.now ∨ (s.calls.get? id).isSome then none
    else some ((s.readClock now).goOn id (.listing now s.claims.length))
  | .listed id =>
    match s.calls.get? id with
    | some (.listing now mark) => some (s.goOn id (.sweeping now mark (s.listDue now)))
    | _ => none
  | .claimRead id =>
    match s.calls.get? id with
    | some (.sweeping now mark ((routineId, expected) :: rest)) =>
      match s.claimNext cron routineId now with
      | none => some (s.goOn id (.sweeping now mark rest))
      | some next => some (s.goOn id (.swapping now mark routineId expected next rest))
    | _ => none
  | .swapped id =>
    match s.calls.get? id with
    | some (.swapping now mark routineId expected next rest) =>
      match s.claimable routineId expected with
      | none => some (s.goOn id (.sweeping now mark rest))
      | some row =>
        some
          { (s.put routineId (row.fired (some next) now) false).goOn id
              (.sweeping now mark rest) with
            claims := s.claims ++ [⟨routineId, expected, s.epoch routineId⟩] }
    | _ => none
  | .fireStarted id routineId now =>
    if now < s.now ∨ (s.calls.get? id).isSome then none
    else some ((s.readClock now).goOn id (.recording now s.claims.length routineId))
  | .fireRead id =>
    match s.calls.get? id with
    | some (.recording now mark routineId) =>
      match s.routines.get? routineId with
      | none => some (s.goOn id .done)
      | some existing =>
        some (s.goOn id (.stamping now mark routineId (fireNext cron existing now)))
    | _ => none
  | .fireWritten id =>
    match s.calls.get? id with
    | some (.stamping now _ routineId next) =>
      match s.routines.get? routineId with
      | none => some (s.goOn id .done)
      | some row => some ((s.put routineId (row.fired next now) false).goOn id .done)
    | _ => none
  | .updateRead id routineId patch =>
    if (s.calls.get? id).isSome then none
    else
      match s.routines.get? routineId with
      | none => some (s.goOn id .done)
      | some existing =>
        if patch = {} ∨ ¬patch.cronExpr.all cron.valid then some (s.goOn id .done)
        else some (s.goOn id (.planning routineId patch existing))
  | .updatePlanned id now =>
    match s.calls.get? id with
    | some (.planning routineId patch existing) =>
      if now < s.now then none
      else
        some ((s.readClock now).goOn id
          (.writing now s.claims.length routineId patch (patchNext cron patch existing now)))
    | _ => none
  | .updateWritten id =>
    match s.calls.get? id with
    | some (.writing now _ routineId patch next) =>
      match s.routines.get? routineId with
      | none => some (s.goOn id .done)
      | some row =>
        let row' := patch.setIn next now row
        some ((s.put routineId row' (row'.cronExpr ≠ row.cronExpr)).goOn id .done)
    | _ => none

/-! ## How old a reading may be -/

/-- The claims up to a mark are of instants up to a time. -/
def ClaimedBy (s : RoutineState) (mark : Nat) (now : Clock) : Prop :=
  mark ≤ s.claims.length ∧ ∀ c ∈ s.claims.take mark, c.instant ≤ now

/-- What a call is to claim was due at its reading of the clock, and what it is to write was not;
neither were the claims that it cannot have seen. -/
def CallSound (s : RoutineState) (call : RoutineCall) : Prop :=
  ∀ reading ∈ call.reading, reading.1 ≤ s.now ∧ s.ClaimedBy reading.2 reading.1 ∧
    (∀ t ∈ call.due, t ≤ reading.1) ∧ ∀ t ∈ call.upcoming, reading.1 < t

/-- No claim is of an instant to come, or of a schedule to come. -/
structure Books (s : RoutineState) : Prop where
  instants : ∀ c ∈ s.claims, c.instant ≤ s.now
  epochs : ∀ c ∈ s.claims, c.epoch ≤ s.epoch c.routineId
  calls : ∀ id call, s.calls.get? id = some call → s.CallSound call

theorem books_init : init.Books := by
  constructor
  · intro c hc
    contradiction
  · intro c hc
    contradiction
  · intro id call hcall
    contradiction

variable {s s' : RoutineState} {id : Nat} {call' : RoutineCall} {now expected : Clock}
  {e : RoutineEvent} {routineId : String}

variable {new : List Claim} {call : RoutineCall}

/-- More claims and a later clock leave a call sound. -/
theorem CallSound.mono (h : s.CallSound call)
    (hnow : s.now ≤ s'.now) (hclaims : s'.claims = s.claims ++ new) :
    s'.CallSound call := by
  intro reading hreading
  obtain ⟨hle, ⟨hmark, htaken⟩, hdue, hupcoming⟩ := h reading hreading
  refine ⟨le_trans hle hnow, ⟨?_, ?_⟩, hdue, hupcoming⟩
  · rw [hclaims, List.length_append]
    omega
  · intro c hc
    rw [hclaims, List.take_append_of_le_length hmark] at hc
    exact htaken c hc

/-- What a step may do without breaking the books. -/
theorem Books.mono (h : s.Books) (hnow : s.now ≤ s'.now)
    (hepochs : ∀ routineId, s.epoch routineId ≤ s'.epoch routineId)
    (hclaims : s'.claims = s.claims ++ new)
    (hnew : ∀ c ∈ new, c.instant ≤ s'.now ∧ c.epoch ≤ s'.epoch c.routineId)
    (hcalls : ∀ id call, s'.calls.get? id = some call →
      s.calls.get? id = some call ∨ s'.CallSound call) : s'.Books := by
  constructor
  · intro c hc
    rw [hclaims] at hc
    rcases List.mem_append.mp hc with hold | hadded
    · exact le_trans (h.instants c hold) hnow
    · exact (hnew c hadded).1
  · intro c hc
    rw [hclaims] at hc
    rcases List.mem_append.mp hc with hold | hadded
    · exact le_trans (h.epochs c hold) (hepochs c.routineId)
    · exact (hnew c hadded).2
  · intro id call hcall
    rcases hcalls id call hcall with hold | hsound
    · exact (h.calls id call hold).mono hnow hclaims
    · exact hsound

/-- A step without a claim keeps the books if the clock and the epochs do not go back. -/
theorem Books.mono_of_claims_eq (h : s.Books) (hnow : s.now ≤ s'.now)
    (hepochs : ∀ routineId, s.epoch routineId ≤ s'.epoch routineId) (hclaims : s'.claims = s.claims)
    (hcalls : ∀ id call, s'.calls.get? id = some call →
      s.calls.get? id = some call ∨ s'.CallSound call) : s'.Books := by
  have happend : s'.claims = s.claims ++ [] := by rw [hclaims, List.append_nil]
  exact h.mono hnow hepochs happend (fun c hc => by contradiction) hcalls

/-- The calls after one of them went on. -/
theorem calls_set_cases {P : RoutineCall → Prop} (hsound : P call') :
    ∀ x call, (s.calls.set id call').get? x = some call →
      s.calls.get? x = some call ∨ P call := by
  intro x call hcall
  rcases Dict.get?_set_cases hcall with ⟨_, rfl⟩ | ⟨_, hold⟩
  · exact Or.inr hsound
  · exact Or.inl hold

/-- A call goes on, and nothing else happens. -/
theorem Books.goOn (h : s.Books) (id : Nat)
    (hsound : s.CallSound call') : (s.goOn id call').Books :=
  h.mono_of_claims_eq le_rfl (fun _ => le_rfl) rfl (calls_set_cases hsound)

theorem callSound_of_reading_none (hnone : call.reading = none) : s.CallSound call := by
  intro reading hreading
  rw [hnone] at hreading
  contradiction

/-- A call that reads the clock. -/
theorem Books.readClock (h : s.Books) (hnow : ¬now < s.now)
    (id : Nat) (hreading : call'.reading = some (now, s.claims.length))
    (hdue : call'.due = []) (hupcoming : ∀ t ∈ call'.upcoming, now < t) :
    ((s.readClock now).goOn id call').Books := by
  refine h.mono_of_claims_eq (not_lt.mp hnow) (fun _ => le_rfl) rfl (calls_set_cases ?_)
  intro reading hread
  rw [hreading, Option.mem_def, Option.some.injEq] at hread
  subst hread
  refine ⟨le_rfl, ⟨le_rfl, ?_⟩, ?_, hupcoming⟩
  · intro c hc
    exact le_trans (h.instants c (List.mem_of_mem_take hc)) (not_lt.mp hnow)
  · rw [hdue]
    intro t ht
    contradiction

theorem epoch_put (s : RoutineState) (routineId : String) (row : Routine) (newSchedule : Bool)
    (x : String) : (s.put routineId row newSchedule).epoch x =
      s.epoch x + if routineId = x ∧ newSchedule = true then 1 else 0 := by
  unfold epoch put
  cases newSchedule with
  | false => simp
  | true =>
    simp only [if_true, and_true]
    rw [Dict.get?_set]
    by_cases hx : routineId = x
    · subst hx
      simp [epoch]
    · simp [hx]

/-- A call that writes a row and goes on. -/
theorem Books.put (h : s.Books) (routineId : String) (row : Routine)
    (newSchedule : Bool) (id : Nat) (hsound : s.CallSound call') :
    ((s.put routineId row newSchedule).goOn id call').Books := by
  refine h.mono_of_claims_eq le_rfl ?_ rfl (calls_set_cases ?_)
  · intro x
    show s.epoch x ≤ (s.put routineId row newSchedule).epoch x
    rw [epoch_put]
    omega
  · exact hsound.mono le_rfl (List.append_nil _).symm

theorem mem_listDue_le {p : String × Clock} (h : p ∈ s.listDue now) : p.2 ≤ now := by
  unfold listDue at h
  rw [List.mem_insertionSort] at h
  obtain ⟨e, _, he⟩ := List.mem_filterMap.mp h
  split at he
  · obtain ⟨t, ht, rfl⟩ := Option.map_eq_some_iff.mp he
    simpa using (Option.filter_eq_some_iff.mp ht).2
  · contradiction

section Instants

variable {cron : Cron}

variable {now t : Clock}

/-- An instant that was computed lies after the clock it was computed from. -/
theorem later_of_map_next {expr : Option String}
    (h : t ∈ (nonempty expr).map (cron.next · now)) : now < t := by
  obtain ⟨e, _, rfl⟩ := Option.map_eq_some_iff.mp h
  exact cron.later e now

variable {existing : Routine}

theorem later_of_fireNext (h : t ∈ fireNext cron existing now) : now < t := by
  unfold fireNext at h
  split at h
  · exact later_of_map_next h
  · contradiction

theorem later_of_patchNext {patch : RoutinePatch}
    (h : t ∈ (patchNext cron patch existing now).join) : now < t := by
  unfold patchNext at h
  split at h
  · split at h
    · exact later_of_map_next h
    · contradiction
  · contradiction

theorem later_of_claimNext {s : RoutineState} {routineId : String}
    (h : s.claimNext cron routineId now = some t) : now < t := by
  unfold claimNext at h
  obtain ⟨existing, _, hnext⟩ := Option.bind_eq_some_iff.mp h
  split at hnext
  · exact later_of_map_next hnext
  · contradiction

end Instants

section Statements

variable {cron : Cron}

/-- A routine is made, or its arguments are refused. -/
theorem Books.created {args : RoutineArgs} {webhookToken : String} (h : s.Books)
    (hstep : s.step cron (.created routineId args webhookToken now) = some s') : s'.Books := by
  simp only [step] at hstep
  split at hstep
  · contradiction
  rename_i hguard
  have hnow : s.now ≤ now := not_lt.mp fun hlt => hguard (Or.inl hlt)
  split at hstep
  · cases hstep
    exact h.mono_of_claims_eq hnow (fun _ => le_rfl) rfl fun id call hcall => Or.inl hcall
  · rename_i row _
    cases hstep
    refine h.mono_of_claims_eq hnow ?_ rfl fun id call hcall => Or.inl hcall
    intro x
    have hepoch := epoch_put (s.readClock now) routineId row true x
    have hsame : (s.readClock now).epoch x = s.epoch x := rfl
    omega

/-- What is listed was due at the reading of the clock. -/
theorem Books.listed (h : s.Books)
    (hstep : s.step cron (.listed id) = some s') : s'.Books := by
  simp only [step] at hstep
  split at hstep
  · rename_i now mark hcall
    cases hstep
    obtain ⟨hle, hclaimed, _, _⟩ := h.calls id _ hcall _ rfl
    apply h.goOn
    rintro reading ⟨⟩
    refine ⟨hle, hclaimed, ?_, fun t ht => by contradiction⟩
    intro t ht
    obtain ⟨p, hp, rfl⟩ := List.mem_map.mp ht
    exact mem_listDue_le hp
  · contradiction

/-- An instant is computed that lies ahead. -/
theorem Books.claimRead (h : s.Books)
    (hstep : s.step cron (.claimRead id) = some s') : s'.Books := by
  simp only [step] at hstep
  split at hstep
  · rename_i now mark routineId expected rest hcall
    obtain ⟨hle, hclaimed, hdue, _⟩ := h.calls id _ hcall _ rfl
    split at hstep
    · cases hstep
      apply h.goOn
      rintro reading ⟨⟩
      refine ⟨hle, hclaimed, ?_, fun t ht => by contradiction⟩
      exact fun t ht => hdue t (List.mem_cons_of_mem _ ht)
    · rename_i next hnext
      cases hstep
      apply h.goOn
      rintro reading ⟨⟩
      refine ⟨hle, hclaimed, hdue, ?_⟩
      rintro t ⟨⟩
      exact later_of_claimNext hnext
  · contradiction

/-- A claim is of an instant that was due. -/
theorem Books.swapped (h : s.Books)
    (hstep : s.step cron (.swapped id) = some s') : s'.Books := by
  simp only [step] at hstep
  split at hstep
  · rename_i now mark routineId expected next rest hcall
    obtain ⟨hle, hclaimed, hdue, _⟩ := h.calls id _ hcall _ rfl
    have hrest : s.CallSound (.sweeping now mark rest) := by
      rintro reading ⟨⟩
      refine ⟨hle, hclaimed, ?_, fun t ht => by contradiction⟩
      exact fun t ht => hdue t (List.mem_cons_of_mem _ ht)
    split at hstep
    · cases hstep
      exact h.goOn id hrest
    · rename_i row _
      cases hstep
      refine h.mono le_rfl (fun x => le_rfl) rfl ?_ (calls_set_cases (hrest.mono le_rfl rfl))
      intro c hc
      obtain rfl := List.mem_singleton.mp hc
      exact ⟨le_trans (hdue expected List.mem_cons_self) hle, le_rfl⟩
  · contradiction

/-- The next instant of a fire is computed. -/
theorem Books.fireRead (h : s.Books)
    (hstep : s.step cron (.fireRead id) = some s') : s'.Books := by
  simp only [step] at hstep
  split at hstep
  · rename_i now mark routineId hcall
    obtain ⟨hle, hclaimed, _, _⟩ := h.calls id _ hcall _ rfl
    split at hstep
    · cases hstep
      exact h.goOn id (callSound_of_reading_none rfl)
    · cases hstep
      apply h.goOn
      rintro reading ⟨⟩
      exact ⟨hle, hclaimed, fun t ht => by contradiction, fun t ht => later_of_fireNext ht⟩
  · contradiction

/-- Every statement keeps the books. -/
theorem Books.step (h : s.Books) (hstep : s.step cron e = some s') : s'.Books := by
  cases e with
  | created routineId args webhookToken now => exact h.created hstep
  | deleted routineId =>
    cases hstep
    exact h.mono_of_claims_eq le_rfl (fun _ => le_rfl) rfl fun id call hcall => Or.inl hcall
  | tickStarted id now | fireStarted id routineId now =>
    simp only [step] at hstep
    split at hstep
    · contradiction
    rename_i hguard
    cases hstep
    exact h.readClock (fun hlt => hguard (Or.inl hlt)) id rfl rfl
      (fun t ht => by contradiction)
  | listed id => exact h.listed hstep
  | claimRead id => exact h.claimRead hstep
  | swapped id => exact h.swapped hstep
  | fireRead id => exact h.fireRead hstep
  | fireWritten id | updateWritten id =>
    simp only [step] at hstep
    split at hstep
    · split at hstep
      · cases hstep
        exact h.goOn id (callSound_of_reading_none rfl)
      · cases hstep
        exact h.put _ _ _ id (callSound_of_reading_none rfl)
    · contradiction
  | updateRead id routineId patch =>
    simp only [step] at hstep
    split at hstep
    · contradiction
    split at hstep
    · cases hstep
      exact h.goOn id (callSound_of_reading_none rfl)
    · split at hstep <;> (cases hstep; exact h.goOn id (callSound_of_reading_none rfl))
  | updatePlanned id now =>
    simp only [step] at hstep
    split at hstep
    · split at hstep
      · contradiction
      · rename_i hnow
        cases hstep
        exact h.readClock hnow id rfl rfl (fun t ht => later_of_patchNext ht)
    · contradiction

end Statements

/-! ## Claimed instants -/

/-- No instant of a routine is claimed twice. -/
def ClaimedOnce (s : RoutineState) : Prop :=
  (s.claims.map Claim.key).Nodup

/-- No routine waits for an instant that was claimed on its schedule. -/
def NextUnclaimed (s : RoutineState) : Prop :=
  ∀ routineId row, s.routines.get? routineId = some row → ∀ t ∈ row.nextFire,
    ⟨routineId, t, s.epoch routineId⟩ ∉ s.claims

/-- Every instant is claimed once and then past. -/
def Fair (s : RoutineState) : Prop :=
  s.ClaimedOnce ∧ s.NextUnclaimed

/-- No claim of the instant on the routine's schedule came after the mark. -/
def Unseen (s : RoutineState) (mark : Nat) (routineId : String) (t : Clock) : Prop :=
  ⟨routineId, t, s.epoch routineId⟩ ∉ s.claims.drop mark

/-- The statements that write what they should: no instant that was claimed on the schedule since
the call read the clock.  A claim also wants an instant that was not claimed on an earlier
schedule. -/
def Current (s : RoutineState) : RoutineEvent → Prop
  | .swapped id =>
    ∀ now mark routineId expected next rest,
      s.calls.get? id = some (.swapping now mark routineId expected next rest) →
      (s.claimable routineId expected).isSome →
      s.Unseen mark routineId next ∧
        ∀ c ∈ s.claims, c.routineId = routineId → c.instant = expected →
          c.epoch = s.epoch routineId
  | .fireWritten id =>
    ∀ now mark routineId next,
      s.calls.get? id = some (.stamping now mark routineId next) →
      (s.routines.get? routineId).isSome → ∀ t ∈ next, s.Unseen mark routineId t
  | .updateWritten id =>
    ∀ now mark routineId patch next,
      s.calls.get? id = some (.writing now mark routineId patch next) →
      ∀ row ∈ s.routines.get? routineId, patch.cronExpr.or row.cronExpr = row.cronExpr →
        ∀ t ∈ next.join, s.Unseen mark routineId t
  | _ => True

theorem current_of_none {cron : Cron} (hstep : s.step cron e = none) : s.Current e := by
  cases e with
  | swapped id =>
    intro now mark routineId expected next rest hcall _
    simp only [step, hcall] at hstep
    split at hstep <;> contradiction
  | fireWritten id =>
    intro now mark routineId next hcall _
    simp only [step, hcall] at hstep
    split at hstep <;> contradiction
  | updateWritten id =>
    intro now mark routineId patch next hcall row hrow
    simp only [step, hcall] at hstep
    split at hstep <;> contradiction
  | _ => trivial

/-- A call whose instant lies after its reading of the clock has seen every claim of it that came
before. -/
theorem notMem_claims_iff {mark : Nat}
    (hclaimed : s.ClaimedBy mark now) {t : Clock} (hlater : now < t) (routineId : String) :
    ⟨routineId, t, s.epoch routineId⟩ ∉ s.claims ↔ s.Unseen mark routineId t := by
  unfold Unseen
  have hsplit := List.take_append_drop mark s.claims
  have htaken : (⟨routineId, t, s.epoch routineId⟩ : Claim) ∉ s.claims.take mark := by
    intro hmem
    exact absurd (hclaimed.2 _ hmem) (not_le.mpr hlater)
  constructor
  · exact fun hnot hmem => hnot (List.mem_of_mem_drop hmem)
  · intro hnot hmem
    rw [← hsplit] at hmem
    rcases List.mem_append.mp hmem with htake | hdrop
    · exact htaken htake
    · exact hnot hdrop

/-- A row may be written on the same schedule with an instant that was not claimed. -/
theorem nextUnclaimed_put_iff (h : s.NextUnclaimed) (routineId : String) (row : Routine) :
    (s.put routineId row false).NextUnclaimed ↔
      ∀ t ∈ row.nextFire, ⟨routineId, t, s.epoch routineId⟩ ∉ s.claims := by
  constructor
  · exact fun hafter => hafter routineId row (Dict.get?_set_self _ _ _)
  · intro hrow x r hget
    rcases Dict.get?_set_cases hget with ⟨rfl, rfl⟩ | ⟨_, hold⟩
    · exact hrow
    · exact h x r hold

/-- On a new schedule nothing is claimed yet. -/
theorem nextUnclaimed_put_new (hbooks : s.Books) (h : s.NextUnclaimed)
    (routineId : String) (row : Routine) : (s.put routineId row true).NextUnclaimed := by
  intro x r hget t ht hmem
  have hepoch := epoch_put s routineId row true x
  rw [hepoch] at hmem
  rcases Dict.get?_set_cases hget with ⟨hx, _⟩ | ⟨hx, hold⟩
  · have hle := hbooks.epochs _ hmem
    simp only [hx, and_self, if_true] at hle
    omega
  · simp only [hx, false_and, if_false, Nat.add_zero] at hmem
    exact h x r hold t ht hmem

theorem mem_claimable_iff {row : Routine} : s.claimable routineId expected = some row ↔
      s.routines.get? routineId = some row ∧ row.enabled = true ∧
        row.nextFire = some expected := by
  simp [claimable, Option.filter_eq_some_iff]

/-- One more claim is once exactly when no claim of its instant was made on another schedule. -/
theorem nodup_claim_iff (h : s.ClaimedOnce)
    (hfresh : (⟨routineId, expected, s.epoch routineId⟩ : Claim) ∉ s.claims) :
    ((s.claims ++ [(⟨routineId, expected, s.epoch routineId⟩ : Claim)]).map
      Claim.key).Nodup ↔
      ∀ c ∈ s.claims, c.routineId = routineId → c.instant = expected →
        c.epoch = s.epoch routineId := by
  have hsplit : ((s.claims ++ [(⟨routineId, expected, s.epoch routineId⟩ : Claim)]).map
      Claim.key).Nodup ↔ (routineId, expected) ∉ s.claims.map Claim.key := by
    rw [List.map_append, List.map_singleton, ← List.concat_eq_append, List.nodup_concat]
    exact and_iff_left h
  rw [hsplit]
  constructor
  · intro hnot c hc hid hinstant
    exact absurd (List.mem_map.mpr ⟨c, hc, by rw [Claim.key, hid, hinstant]⟩) hnot
  · intro hepoch hmem
    obtain ⟨c, hc, heq⟩ := List.mem_map.mp hmem
    cases heq
    have hsame := hepoch c hc rfl rfl
    rw [← hsame] at hfresh
    exact hfresh hc

/-- After a claim the routine waits for another instant, unless that was claimed already. -/
theorem nextUnclaimed_claim_iff (h : s.NextUnclaimed) {next : Clock}
    (hne : expected ≠ next) (routineId : String) (row : Routine) (now : Clock)
    (calls : Dict Nat RoutineCall) :
    NextUnclaimed
        { s.put routineId (row.fired (some next) now) false with
          calls := calls
          claims := s.claims ++ [⟨routineId, expected, s.epoch routineId⟩] } ↔
      ⟨routineId, next, s.epoch routineId⟩ ∉ s.claims := by
  have hput := nextUnclaimed_put_iff h routineId (row.fired (some next) now)
  constructor
  · intro hafter hmem
    exact hafter routineId _ (Dict.get?_set_self _ _ _) next rfl (List.mem_append_left _ hmem)
  · intro hnot x r hx t ht hmem
    have hunclaimed : (s.put routineId (row.fired (some next) now) false).NextUnclaimed := by
      apply hput.mpr
      rintro t ⟨⟩
      exact hnot
    rcases List.mem_append.mp hmem with hold | hnew
    · exact hunclaimed x r hx t ht hold
    · -- the claim that was added is of the instant before
      have heq := List.mem_singleton.mp hnew
      have hid : x = routineId := congrArg Claim.routineId heq
      have hinstant : t = expected := congrArg Claim.instant heq
      subst hid
      have hself : (s.routines.set x (row.fired (some next) now)).get? x = some r := hx
      rw [Dict.get?_set_self] at hself
      cases hself
      cases ht
      exact hne hinstant.symm

/-- A claim is once, and the routine waits for another instant, exactly when it is current. -/
theorem fair_swapped_iff {cron : Cron} (hbooks : s.Books)
    (h : s.Fair) (hstep : s.step cron (.swapped id) = some s') :
    s'.Fair ↔ s.Current (.swapped id) := by
  simp only [step] at hstep
  split at hstep
  · rename_i now mark routineId expected next rest hcall
    have hcurrent : s.Current (.swapped id) ↔
        ((s.claimable routineId expected).isSome → s.Unseen mark routineId next ∧
          ∀ c ∈ s.claims, c.routineId = routineId → c.instant = expected →
            c.epoch = s.epoch routineId) := by
      constructor
      · exact fun hguard => hguard now mark routineId expected next rest hcall
      · intro hguard now' mark' routineId' expected' next' rest' hcall'
        rw [hcall] at hcall'
        cases hcall'
        exact hguard
    rw [hcurrent]
    obtain ⟨_, hclaimed, hdue, hupcoming⟩ := hbooks.calls id _ hcall _ rfl
    have hnext : now < next := hupcoming next rfl
    have hexpected : expected ≤ now := hdue expected List.mem_cons_self
    split at hstep
    · rename_i hnone
      cases hstep
      exact iff_of_true h fun hsome => by simp [hnone] at hsome
    · rename_i row hrow
      obtain ⟨hget, _, hfire⟩ := mem_claimable_iff.mp hrow
      cases hstep
      have honce := nodup_claim_iff h.1 (h.2 routineId row hget expected hfire)
      have hunclaimed := nextUnclaimed_claim_iff h.2
        (ne_of_lt (lt_of_le_of_lt hexpected hnext)) routineId row now
        (s.calls.set id (.sweeping now mark rest))
      rw [hrow, ← notMem_claims_iff hclaimed hnext, ← honce, ← hunclaimed]
      constructor
      · rintro ⟨hnodup, hafter⟩ _
        exact ⟨hafter, hnodup⟩
      · intro hguard
        obtain ⟨hafter, hnodup⟩ := hguard rfl
        exact ⟨hnodup, hafter⟩
  · contradiction

theorem fair_fireWritten_iff {cron : Cron} (hbooks : s.Books)
    (h : s.Fair) (hstep : s.step cron (.fireWritten id) = some s') :
    s'.Fair ↔ s.Current (.fireWritten id) := by
  simp only [step] at hstep
  split at hstep
  · rename_i now mark routineId next hcall
    have hcurrent : s.Current (.fireWritten id) ↔
        ((s.routines.get? routineId).isSome → ∀ t ∈ next, s.Unseen mark routineId t) := by
      constructor
      · exact fun hguard => hguard now mark routineId next hcall
      · intro hguard now' mark' routineId' next' hcall'
        rw [hcall] at hcall'
        cases hcall'
        exact hguard
    rw [hcurrent]
    obtain ⟨_, hclaimed, _, hupcoming⟩ := hbooks.calls id _ hcall _ rfl
    split at hstep
    · rename_i hnone
      cases hstep
      exact iff_of_true h fun hsome => by simp [hnone] at hsome
    · rename_i row hget
      cases hstep
      have hput := nextUnclaimed_put_iff h.2 routineId (row.fired next now)
      constructor
      · intro hafter _ t ht
        rw [← notMem_claims_iff hclaimed (hupcoming t ht)]
        exact hput.mp hafter.2 t ht
      · intro hguard
        refine ⟨h.1, hput.mpr ?_⟩
        intro t ht
        rw [notMem_claims_iff hclaimed (hupcoming t ht)]
        exact hguard (by rw [hget]; rfl) t ht
  · contradiction

theorem fair_updateWritten_iff {cron : Cron}
    (hbooks : s.Books) (h : s.Fair) (hstep : s.step cron (.updateWritten id) = some s') :
    s'.Fair ↔ s.Current (.updateWritten id) := by
  simp only [step] at hstep
  split at hstep
  · rename_i now mark routineId patch next hcall
    have hcurrent : s.Current (.updateWritten id) ↔
        ∀ row ∈ s.routines.get? routineId, patch.cronExpr.or row.cronExpr = row.cronExpr →
          ∀ t ∈ next.join, s.Unseen mark routineId t := by
      constructor
      · exact fun hguard => hguard now mark routineId patch next hcall
      · intro hguard now' mark' routineId' patch' next' hcall'
        rw [hcall] at hcall'
        cases hcall'
        exact hguard
    rw [hcurrent]
    obtain ⟨_, hclaimed, _, hupcoming⟩ := hbooks.calls id _ hcall _ rfl
    split at hstep
    · rename_i hnone
      cases hstep
      refine iff_of_true h fun row hrow => ?_
      rw [hnone] at hrow
      contradiction
    · rename_i row hget
      cases hstep
      by_cases hsame : patch.cronExpr.or row.cronExpr = row.cronExpr
      · have hfalse : decide ((patch.setIn next now row).cronExpr ≠ row.cronExpr) = false :=
          decide_eq_false fun hne => hne hsame
        rw [hfalse]
        have hput := nextUnclaimed_put_iff h.2 routineId (patch.setIn next now row)
        have hunseen : ∀ t ∈ next.join,
            (⟨routineId, t, s.epoch routineId⟩ ∉ s.claims ↔ s.Unseen mark routineId t) :=
          fun t ht => notMem_claims_iff hclaimed (hupcoming t ht) routineId
        cases next with
        | none =>
          refine iff_of_true ⟨h.1, hput.mpr ?_⟩ fun _ _ _ t ht => by contradiction
          exact fun t ht => h.2 routineId row hget t ht
        | some instant =>
          constructor
          · intro hafter _ _ _ t ht
            exact (hunseen t ht).mp (hput.mp hafter.2 t ht)
          · intro hguard
            refine ⟨h.1, hput.mpr ?_⟩
            exact fun t ht => (hunseen t ht).mpr (hguard row hget hsame t ht)
      · have htrue : decide ((patch.setIn next now row).cronExpr ≠ row.cronExpr) = true :=
          decide_eq_true hsame
        rw [htrue]
        refine iff_of_true ⟨h.1, nextUnclaimed_put_new hbooks h.2 routineId _⟩ ?_
        intro row' hrow' hsame'
        rw [hget] at hrow'
        cases hrow'
        exact absurd hsame' hsame
  · contradiction

/-- The statements that may write the table. -/
def writes : RoutineEvent → Bool
  | .created .. | .deleted _ | .swapped _ | .fireWritten _ | .updateWritten _ => true
  | _ => false

/-- The other statements leave the table, the claims and the schedules alone. -/
theorem frame_of_step {cron : Cron} (hstep : s.step cron e = some s') (hwrites : writes e = false) :
    s'.routines = s.routines ∧ s'.claims = s.claims ∧ s'.epochs = s.epochs := by
  cases e with
  | created | deleted | swapped | fireWritten | updateWritten => contradiction
  | tickStarted | fireStarted =>
    simp only [step] at hstep
    split at hstep
    · contradiction
    cases hstep
    exact ⟨rfl, rfl, rfl⟩
  | listed id =>
    simp only [step] at hstep
    split at hstep
    · cases hstep
      exact ⟨rfl, rfl, rfl⟩
    · contradiction
  | claimRead | fireRead =>
    simp only [step] at hstep
    split at hstep
    · split at hstep <;> (cases hstep; exact ⟨rfl, rfl, rfl⟩)
    · contradiction
  | updateRead id routineId patch =>
    simp only [step] at hstep
    split at hstep
    · contradiction
    split at hstep
    · cases hstep
      exact ⟨rfl, rfl, rfl⟩
    · split at hstep <;> (cases hstep; exact ⟨rfl, rfl, rfl⟩)
  | updatePlanned id now =>
    simp only [step] at hstep
    split at hstep
    · split at hstep
      · contradiction
      · cases hstep
        exact ⟨rfl, rfl, rfl⟩
    · contradiction

/-- What is fair depends on the table, the claims and the schedules alone. -/
theorem Fair.congr (h : s.Fair)
    (hframe : s'.routines = s.routines ∧ s'.claims = s.claims ∧ s'.epochs = s.epochs) :
    s'.Fair := by
  obtain ⟨hroutines, hclaims, hepochs⟩ := hframe
  constructor
  · rw [ClaimedOnce, hclaims]
    exact h.1
  · intro routineId row hget
    rw [hroutines] at hget
    rw [hclaims, epoch, hepochs]
    exact h.2 routineId row hget

/-- A new routine has had no instant claimed. -/
theorem Fair.created {cron : Cron} (h : s.Fair) (hbooks : s.Books) {args : RoutineArgs}
    {webhookToken : String}
    (hstep : s.step cron (.created routineId args webhookToken now) = some s') : s'.Fair := by
  simp only [step] at hstep
  split at hstep
  · contradiction
  rename_i hguard
  split at hstep
  · cases hstep
    exact h
  · cases hstep
    refine ⟨h.1, ?_⟩
    have hclock : (s.readClock now).Books :=
      hbooks.mono_of_claims_eq (not_lt.mp fun hlt => hguard (Or.inl hlt)) (fun _ => le_rfl) rfl
        fun id call hcall => Or.inl hcall
    exact nextUnclaimed_put_new hclock h.2 routineId _

/-- The statements after which every instant is still claimed once and then past. -/
theorem fair_step_iff {cron : Cron} (hbooks : s.Books)
    (h : s.Fair) (hstep : s.step cron e = some s') : s'.Fair ↔ s.Current e := by
  cases e with
  | created routineId args webhookToken now => exact iff_of_true (h.created hbooks hstep) trivial
  | deleted routineId =>
    refine iff_of_true ?_ trivial
    cases hstep
    refine ⟨h.1, ?_⟩
    intro x row hget
    exact h.2 x row (Dict.get?_pop_cases hget).2
  | swapped id => exact fair_swapped_iff hbooks h hstep
  | fireWritten id => exact fair_fireWritten_iff hbooks h hstep
  | updateWritten id => exact fair_updateWritten_iff hbooks h hstep
  | _ => exact iff_of_true (h.congr (frame_of_step hstep rfl)) trivial

/-! ## Runs -/

/-- Every instant is claimed once and then past, in every state of the run. -/
def AlwaysFair (cron : Cron) (es : List RoutineEvent) : Prop :=
  ∀ pre post s, es = pre ++ post → run (step cron) init pre = some s → s.Fair

/-- Instants are claimed once and then past in exactly the runs of current statements. -/
theorem alwaysFair_iff (cron : Cron) (es : List RoutineEvent) :
    AlwaysFair cron es ↔ Guarded (step cron) Current init es := by
  have hinit : init.Fair := by
    refine ⟨List.nodup_nil, ?_⟩
    intro routineId row hget
    contradiction
  unfold AlwaysFair
  rw [states_iff_everyStep hinit]
  apply everyStep_iff_guarded (I := fun s => s.Books ∧ s.Fair)
  · exact fun _ _ hstep => current_of_none hstep
  · rintro s e s' ⟨hbooks, hfair⟩ hguard hstep
    exact ⟨hbooks.step hstep, (fair_step_iff hbooks hfair hstep).mpr hguard⟩
  · rintro s e s' ⟨hbooks, hfair⟩ hstep
    exact fair_step_iff hbooks hfair hstep
  · exact ⟨books_init, hinit⟩

/-- The expression of every minute. -/
def everyMinute : Cron where
  valid expr := expr = "* * * * *"
  next _ t := (t / 60 + 1) * 60
  later _ t := Int.lt_ediv_add_one_mul_self t (by norm_num)

/-- A tick of the runner that finds one routine due. -/
def tick (id : Nat) (now : Clock) : List RoutineEvent :=
  [.tickStarted id now, .listed id, .claimRead id, .swapped id]

/-- A manual fire reads the clock and the routine, and writes when the minute has been claimed; the
next tick claims it again. -/
def overtaken : List RoutineEvent :=
  [.created "rtn" ⟨"prj", "title", "ada", "", none, "cron", some "* * * * *", true⟩ "" 0,
    .fireStarted 0 "rtn" 50, .fireRead 0] ++ tick 1 60 ++ [.fireWritten 0] ++ tick 2 61

/-- The first minute is claimed twice. -/
theorem not_alwaysFair : ¬AlwaysFair everyMinute overtaken := by
  intro hfair
  obtain ⟨honce, _⟩ := hfair overtaken [] _ (by simp) rfl
  exact absurd honce (by unfold ClaimedOnce; decide)

end RoutineState

end TinyAgentOS.Projects
