import TinyAgentOS.Library.Dict
import TinyAgentOS.Library.Transition
import TinyAgentOS.Projects.TaskStore

/-!
# Dispatching tasks

A task is run by the first resource that admits it.  The only point at which a submission
is interrupted is its payload: the resource's semaphore is free whenever the resource admits
a task.  A payload that returns or raises an exception settles its record; a cancellation is
no `Exception` and leaves the record running, and so does a probe that raises.

Main results:

- `DispatchState.place_eq_placed`: a resource that is chosen is below its cap.
- `DispatchState.Books.step`: counters and semaphores follow the calls.
- `DispatchState.accounting_iff`: the runs after which everything is settled.
- `DispatchState.not_accounting`: a cancelled call is never settled.
-/

namespace TinyAgentOS.Scheduler

open Collections Transition
open Projects (Clock)

/-! ## Tasks -/

inductive Capability where
  | imageGeneration
  | embedding
  | reranking
  | llmChat
  | speechToText
  | textToSpeech
  | vision
deriving DecidableEq

def Capability.value : Capability → String
  | .imageGeneration => "image-generation"
  | .embedding => "embedding"
  | .reranking => "reranking"
  | .llmChat => "llm-chat"
  | .speechToText => "speech-to-text"
  | .textToSpeech => "text-to-speech"
  | .vision => "vision"

inductive TaskStatus where
  | queued
  | running
  | complete
  | error
  | rejected
  | cancelled
deriving DecidableEq

def TaskStatus.isTerminal : TaskStatus → Bool
  | .queued => false
  | .running => false
  | .complete => true
  | .error => true
  | .rejected => true
  | .cancelled => true

structure ResourceSignature where
  platform : String
  runtime : String
  runtimeVersion : String := ""
deriving DecidableEq

def ResourceSignature.matches (signature required : ResourceSignature) : Bool :=
  if required.platform ≠ "" ∧ required.platform ≠ signature.platform then false
  else if required.runtime ≠ "" ∧ required.runtime ≠ signature.runtime then false
  else if required.runtimeVersion ≠ "" then
    required.runtimeVersion.toList.isPrefixOf signature.runtimeVersion.toList
  else true

/-- `platform/runtime/runtime_version`. -/
def ResourceSignature.text (signature : ResourceSignature) : String :=
  signature.platform ++ "/" ++ signature.runtime ++ "/" ++ signature.runtimeVersion

structure Task where
  id : String
  capability : Capability
  preferredResources : List String
  priority : Int := 20
  submitter : String := "unknown"
  estimatedMemoryMb : Int := 0
  requiredSignatures : List ResourceSignature := []
  submittedAt : Clock

structure TaskRecord where
  taskId : String
  capability : String
  submitter : String
  priority : Int
  resource : Option String
  status : TaskStatus
  submittedAt : Clock
  startedAt : Option Clock := none
  completedAt : Option Clock := none
  elapsedSeconds : Option Clock := none
  error : Option String := none

/-- The record that `submit` begins with. -/
def Task.record (task : Task) : TaskRecord where
  taskId := task.id
  capability := task.capability.value
  submitter := task.submitter
  priority := task.priority
  resource := none
  status := .queued
  submittedAt := task.submittedAt

/-! ## Resources -/

/-- What a resource is made of. -/
structure ResourceSpec where
  name : String
  signature : ResourceSignature
  concurrency : Nat
  tier : Int
deriving DecidableEq

/-- A resource with its count of running payloads and what its semaphore has left. -/
structure Resource extends ResourceSpec where
  inFlight : Int
  semaphore : Nat
deriving DecidableEq

/-- What the callables of a resource answer at present; the first two may raise. -/
structure Live where
  capabilities : Option (List String)
  availableMb : Option Int
  score : Option Rat

inductive Admission where
  | admitted
  | refused (reason : String)
  | raised

namespace Resource

def fresh (spec : ResourceSpec) : Resource :=
  { spec with inFlight := 0, semaphore := spec.concurrency }

/-- `can_admit`. -/
def canAdmit (r : Resource) (task : Task) (live : Live) : Admission :=
  match live.capabilities with
  | none => .raised
  | some caps =>
    if task.capability.value ∉ caps then
      .refused ("capability '" ++ task.capability.value ++ "' not served by " ++ r.name)
    else
      match task.requiredSignatures.find? fun required => !r.signature.matches required with
      | some required =>
        .refused ("signature mismatch: " ++ r.name ++ " is " ++ r.signature.text ++
          ", task requires " ++ required.text)
      | none =>
        if (r.concurrency : Int) ≤ r.inFlight then
          .refused (r.name ++ " is at concurrency cap (" ++ toString r.concurrency ++ ")")
        else if 0 < task.estimatedMemoryMb then
          match live.availableMb with
          | none => .raised
          | some avail =>
            if avail < task.estimatedMemoryMb + 1024 then
              .refused ("insufficient memory on " ++ r.name ++ ": need " ++
                toString task.estimatedMemoryMb ++ " MB + 1024 MB headroom, have " ++
                toString avail ++ " MB")
            else .admitted
        else .admitted

/-- `run` up to the payload. -/
def enter (r : Resource) : Resource :=
  { r with inFlight := r.inFlight + 1, semaphore := r.semaphore - 1 }

/-- `run` behind the payload, whatever came of it. -/
def leave (r : Resource) : Resource :=
  { r with inFlight := r.inFlight - 1, semaphore := r.semaphore + 1 }

/-- A resource that admits a task is below its cap. -/
theorem inFlight_lt_of_admitted {r : Resource} {task : Task} {live : Live}
    (h : r.canAdmit task live = .admitted) : r.inFlight < r.concurrency := by
  unfold canAdmit at h
  split at h
  · contradiction
  split at h
  · contradiction
  split at h
  · contradiction
  split at h
  · contradiction
  rename_i hbelow
  exact not_le.mp hbelow

end Resource

/-! ## Calls -/

/-- Where a call of `submit` is. -/
inductive Phase where
  | waiting (resource : String)
  | inPayload (resource : String)
  | done
deriving DecidableEq

structure Call where
  record : TaskRecord
  phase : Phase

/-- How a payload ends. -/
inductive PayloadEnd where
  | returned (elapsed : Clock)
  | raised (message : String)
  | cancelled
deriving DecidableEq

/-- The record of a call whose payload has ended; a cancellation is not caught. -/
def PayloadEnd.settle (outcome : PayloadEnd) (now : Clock) (record : TaskRecord) : TaskRecord :=
  match outcome with
  | .returned elapsed =>
    { record with
      status := .complete, completedAt := some now, elapsedSeconds := some elapsed }
  | .raised message =>
    { record with status := .error, completedAt := some now, error := some message }
  | .cancelled => record

inductive Placement where
  | placed (r : Resource)
  | refused (tried : List String)
  | raised
deriving DecidableEq

/-- The first resource that admits the task. -/
def tryResources (env : String → Live) (task : Task) : List Resource → List String → Placement
  | [], tried => .refused tried
  | r :: rs, tried =>
    match r.canAdmit task (env r.name) with
    | .raised => .raised
    | .admitted => .placed r
    | .refused reason => tryResources env task rs (tried ++ [r.name ++ "=" ++ reason])

/-- The resources that serve the capability now, with their keys, and the others. -/
def autoRoute (env : String → Live) (capability : String) :
    List Resource → Option (List (Int × Rat × Resource) × List String)
  | [] => some ([], [])
  | r :: rs => do
      let caps ← (env r.name).capabilities
      let (keyed, tried) ← autoRoute env capability rs
      return if capability ∈ caps then
          ((r.tier, -((env r.name).score.getD 0), r) :: keyed, tried)
        else (keyed, (r.name ++ "=capability '" ++ capability ++ "' not loaded") :: tried)

/-- By tier, then by score. -/
def byTier (a b : Int × Rat × Resource) : Prop :=
  a.1 < b.1 ∨ a.1 = b.1 ∧ a.2.1 ≤ b.2.1

instance : DecidableRel byTier := fun _ _ =>
  inferInstanceAs (Decidable (_ ∨ _))

structure DispatchState where
  resources : Dict String Resource
  calls : Dict Nat Call
  submitted : Nat
  rejected : Nat
  errors : Nat
  completed : Nat

inductive DispatchEvent where
  | submit (task : Task) (env : String → Live) (now : Clock)
  | acquired (id : Nat)
  | ended (id : Nat) (outcome : PayloadEnd) (now : Clock)

namespace DispatchState

/-- `register`. -/
def register (resources : Dict String Resource) (spec : ResourceSpec) : Dict String Resource :=
  resources.set spec.name (Resource.fresh spec)

def init (specs : List ResourceSpec) : DispatchState where
  resources := specs.foldl register Dict.empty
  calls := Dict.empty
  submitted := 0
  rejected := 0
  errors := 0
  completed := 0

/-- The candidates in their order, and those that are none. -/
def candidates (s : DispatchState) (env : String → Live) (task : Task) :
    Option (List Resource × List String) :=
  if task.preferredResources = [] then
    (autoRoute env task.capability.value s.resources.values).map fun p =>
      ((p.1.insertionSort byTier).map fun keyed => keyed.2.2, p.2)
  else
    some (task.preferredResources.filterMap s.resources.get?,
      task.preferredResources.filterMap fun name =>
        if (s.resources.get? name).isNone then some (name ++ "=unknown") else none)

def place (s : DispatchState) (env : String → Live) (task : Task) : Placement :=
  match s.candidates env task with
  | none => .raised
  | some (ordered, tried) => tryResources env task ordered tried

/-- `"; ".join(tried) or "no preferred resources"`. -/
def rejection (tried : List String) : String :=
  if String.intercalate "; " tried = "" then "no preferred resources"
  else String.intercalate "; " tried

/-- `submit` up to its payload, or to its end. -/
def submit (s : DispatchState) (task : Task) (env : String → Live) (now : Clock) :
    DispatchState :=
  let id := s.submitted + 1
  let s' := { s with submitted := id }
  match s.place env task with
  | .raised => { s' with calls := s.calls.set id ⟨task.record, .done⟩ }
  | .refused tried =>
    { s' with
      calls := s.calls.set id ⟨{ task.record with
        status := .rejected
        completedAt := some now
        error := some (rejection tried) }, .done⟩
      rejected := s.rejected + 1 }
  | .placed r =>
    let record := { task.record with
      resource := some r.name, status := .running, startedAt := some now }
    if r.semaphore = 0 then
      { s' with calls := s.calls.set id ⟨record, .waiting r.name⟩ }
    else
      { s' with
        calls := s.calls.set id ⟨record, .inPayload r.name⟩
        resources := s.resources.modify r.name Resource.enter }

/-- The counters and the record of a call whose payload has ended. -/
def settle (s : DispatchState) (id : Nat) (record : TaskRecord) (outcome : PayloadEnd)
    (now : Clock) : DispatchState :=
  let s' := { s with calls := s.calls.set id ⟨outcome.settle now record, .done⟩ }
  match outcome with
  | .returned _ => { s' with completed := s.completed + 1 }
  | .raised _ => { s' with errors := s.errors + 1 }
  | .cancelled => s'

def step (s : DispatchState) : DispatchEvent → Option DispatchState
  | .submit task env now => some (s.submit task env now)
  | .acquired id =>
    match s.calls.get? id with
    | some ⟨record, .waiting name⟩ =>
      match s.resources.get? name with
      | none => none
      | some r =>
        if r.semaphore = 0 then none
        else
          some { s with
            calls := s.calls.set id ⟨record, .inPayload name⟩
            resources := s.resources.modify name Resource.enter }
    | _ => none
  | .ended id outcome now =>
    match s.calls.get? id with
    | some ⟨record, .inPayload name⟩ =>
      some { s.settle id record outcome now with
        resources := s.resources.modify name Resource.leave }
    | some ⟨record, .waiting _⟩ =>
      if outcome = .cancelled then some (s.settle id record outcome now) else none
    | _ => none

/-! ## What is claimed of a run -/

def WithinConcurrency (s : DispatchState) : Prop :=
  ∀ name r, s.resources.get? name = some r → 0 ≤ r.inFlight ∧ r.inFlight ≤ r.concurrency

def Finished (s : DispatchState) : Prop :=
  ∀ id call, s.calls.get? id = some call → call.phase = .done

structure Settled (s : DispatchState) : Prop where
  terminal : ∀ id call, s.calls.get? id = some call → call.record.status.isTerminal = true
  idle : ∀ name r, s.resources.get? name = some r → r.inFlight = 0
  balanced : s.submitted = s.completed + s.errors + s.rejected

/-- No probe raises, and no call is cancelled. -/
def Caught (s : DispatchState) : DispatchEvent → Prop
  | .submit task env _ => s.place env task ≠ .raised
  | .acquired _ => True
  | .ended _ outcome _ => outcome ≠ .cancelled

/-! ## Placement -/

variable {env : String → Live} {r : Resource} {task : Task} {new : Call} {id : Nat}

variable {tried : List String} {rs : List Resource} {name : String} {t : DispatchState}
  {e : DispatchEvent}

theorem exists_of_tryResources (h : tryResources env task rs tried = .placed r) :
    r ∈ rs ∧ r.inFlight < r.concurrency := by
  induction rs generalizing tried with
  | nil => contradiction
  | cons r' rs ih =>
    rw [tryResources] at h
    split at h
    · contradiction
    · rename_i hadmitted
      obtain rfl := Placement.placed.inj h
      exact ⟨List.mem_cons_self, Resource.inFlight_lt_of_admitted hadmitted⟩
    · obtain ⟨hmem, hlt⟩ := ih h
      exact ⟨List.mem_cons_of_mem r' hmem, hlt⟩

theorem mem_of_autoRoute {capability : String} {keyed : List (Int × Rat × Resource)}
    (h : autoRoute env capability rs = some (keyed, tried)) {x : Int × Rat × Resource}
    (hx : x ∈ keyed) : x.2.2 ∈ rs := by
  induction rs generalizing keyed tried with
  | nil =>
    cases h
    contradiction
  | cons r rs ih =>
    rw [autoRoute] at h
    obtain ⟨caps, _, h⟩ := Option.bind_eq_some_iff.mp h
    obtain ⟨⟨keyed', tried'⟩, hrest, h⟩ := Option.bind_eq_some_iff.mp h
    simp only [Option.pure_def, Option.some.injEq] at h
    split at h
    · obtain ⟨rfl, rfl⟩ := Prod.mk.inj h
      rcases List.mem_cons.mp hx with rfl | hx
      · exact List.mem_cons_self
      · exact List.mem_cons_of_mem r (ih hrest hx)
    · obtain ⟨rfl, rfl⟩ := Prod.mk.inj h
      exact List.mem_cons_of_mem r (ih hrest hx)

/-- A resource that is chosen is registered and below its cap. -/
theorem place_eq_placed {s : DispatchState} (h : s.place env task = .placed r) :
    (∃ name, s.resources.get? name = some r) ∧ r.inFlight < r.concurrency := by
  unfold place at h
  split at h
  · contradiction
  rename_i ordered tried hcandidates
  obtain ⟨hmem, hlt⟩ := exists_of_tryResources h
  refine ⟨?_, hlt⟩
  unfold candidates at hcandidates
  split at hcandidates
  · obtain ⟨⟨keyed, _⟩, hroute, heq⟩ := Option.map_eq_some_iff.mp hcandidates
    obtain ⟨rfl, _⟩ := Prod.mk.inj heq
    obtain ⟨x, hx, rfl⟩ := List.mem_map.mp hmem
    rw [List.mem_insertionSort] at hx
    exact Dict.mem_values_iff.mp (mem_of_autoRoute hroute hx)
  · obtain ⟨rfl, _⟩ := Prod.mk.inj (Option.some.inj hcandidates)
    obtain ⟨name, _, hget⟩ := List.mem_filterMap.mp hmem
    exact ⟨name, hget⟩

/-! ## Books -/

def isRunningOn (name : String) (call : Call) : Bool :=
  call.phase = .inPayload name

def isOpen (call : Call) : Bool :=
  !call.record.status.isTerminal

/-- The call has ended and its record says otherwise. -/
def isAbandoned (call : Call) : Bool :=
  call.phase = .done && isOpen call

/-- The counters and the semaphores follow the calls. -/
structure Books (s : DispatchState) : Prop where
  named : ∀ name r, s.resources.get? name = some r → r.name = name
  inFlight : ∀ name r, s.resources.get? name = some r →
    r.inFlight = s.calls.count (isRunningOn name) ∧ (r.semaphore : Int) + r.inFlight = r.concurrency
  phases : ∀ id call, s.calls.get? id = some call →
    id ≤ s.submitted ∧ (∀ name, call.phase ≠ .waiting name) ∧
      (∀ name, call.phase = .inPayload name → isOpen call = true)
  counted : s.submitted = s.completed + s.errors + s.rejected + s.calls.count isOpen

variable {s s' : DispatchState}

theorem get?_registered (specs : List ResourceSpec) (d : Dict String Resource)
    (hd : ∀ name r, d.get? name = some r → ∃ spec, r = Resource.fresh spec ∧ spec.name = name)
    (h : (specs.foldl register d).get? name = some r) :
    ∃ spec, r = Resource.fresh spec ∧ spec.name = name := by
  induction specs generalizing d with
  | nil => exact hd name r h
  | cons spec specs ih =>
    apply ih (register d spec) _ h
    intro name' r' hget
    rcases Dict.get?_set_cases hget with ⟨hname, hr⟩ | ⟨_, hget⟩
    · exact ⟨spec, hr.symm, hname⟩
    · exact hd name' r' hget

theorem Books.init (specs : List ResourceSpec) : (init specs).Books := by
  have hfresh : ∀ name r, (DispatchState.init specs).resources.get? name = some r →
      ∃ spec, r = Resource.fresh spec ∧ spec.name = name := by
    intro name r h
    apply get?_registered specs Dict.empty _ h
    intro name' r' hget
    contradiction
  constructor
  · intro name r hget
    obtain ⟨spec, rfl, hname⟩ := hfresh name r hget
    exact hname
  · intro name r hget
    obtain ⟨spec, rfl, _⟩ := hfresh name r hget
    exact ⟨rfl, add_zero _⟩
  · intro id call hget
    contradiction
  · rfl

/-- A call is not yet there. -/
theorem Books.fresh (h : s.Books) : s.calls.get? (s.submitted + 1) = none := by
  cases hget : s.calls.get? (s.submitted + 1) with
  | none => rfl
  | some call =>
    have hle := (h.phases _ call hget).1
    omega

theorem Books.withinConcurrency (h : s.Books) : s.WithinConcurrency := by
  intro name r hget
  obtain ⟨hcount, hsum⟩ := h.inFlight name r hget
  omega

/-- A chosen resource has a free semaphore. -/
theorem Books.semaphore_of_placed (h : s.Books) (hplace : s.place env task = .placed r) :
    s.resources.get? r.name = some r ∧ r.semaphore ≠ 0 := by
  obtain ⟨⟨name, hget⟩, hlt⟩ := place_eq_placed hplace
  have hsum := (h.inFlight name r hget).2
  refine ⟨?_, by omega⟩
  rw [h.named name r hget]
  exact hget

/-- The books after one call is set, with the resource that it enters or leaves. -/
theorem Books.set_call (h : s.Books)
    (hcalls : t.calls = s.calls.set id new) (hid : id ≤ t.submitted)
    (hsubmitted : s.submitted ≤ t.submitted) (hwait : ∀ name, new.phase ≠ .waiting name)
    (hopen : ∀ name, new.phase = .inPayload name → isOpen new = true)
    (hresources : ∀ name r', t.resources.get? name = some r' →
      ∃ r, s.resources.get? name = some r ∧ r'.name = r.name ∧ r'.concurrency = r.concurrency ∧
        r'.inFlight + Dict.tally (isRunningOn name) (s.calls.get? id) =
          r.inFlight + Dict.tally (isRunningOn name) (some new) ∧
        (r'.semaphore : Int) + r'.inFlight = r.semaphore + r.inFlight)
    (hcounted : t.submitted + (s.completed + s.errors + s.rejected) +
        Dict.tally isOpen (s.calls.get? id) =
      s.submitted + (t.completed + t.errors + t.rejected) + Dict.tally isOpen (some new)) :
    t.Books := by
  constructor
  · intro name r' hget
    obtain ⟨r, hr, hname, _⟩ := hresources name r' hget
    rw [hname]
    exact h.named name r hr
  · intro name r' hget
    obtain ⟨r, hr, _, hconcurrency, hflight, hsemaphore⟩ := hresources name r' hget
    obtain ⟨hcount, hsum⟩ := h.inFlight name r hr
    have hset := Dict.count_set (isRunningOn name) s.calls id new
    rw [hcalls, hconcurrency]
    constructor
    · omega
    · omega
  · intro id' call hget
    rw [hcalls] at hget
    rcases Dict.get?_set_cases hget with ⟨rfl, rfl⟩ | ⟨_, hget⟩
    · exact ⟨hid, hwait, hopen⟩
    · obtain ⟨hle, hphases⟩ := h.phases id' call hget
      exact ⟨hle.trans hsubmitted, hphases⟩
  · have hset := Dict.count_set isOpen s.calls id new
    have hold := h.counted
    rw [hcalls]
    omega

/-- The resources do not change. -/
theorem resources_same (name : String) (hsame : Dict.tally (isRunningOn name) (s.calls.get? id) =
      Dict.tally (isRunningOn name) (some new)) (hget : s.resources.get? name = some r) :
    ∃ r₀, s.resources.get? name = some r₀ ∧ r.name = r₀.name ∧ r.concurrency = r₀.concurrency ∧
      r.inFlight + Dict.tally (isRunningOn name) (s.calls.get? id) =
        r₀.inFlight + Dict.tally (isRunningOn name) (some new) ∧
      (r.semaphore : Int) + r.inFlight = r₀.semaphore + r₀.inFlight :=
  ⟨r, hget, rfl, rfl, by rw [hsame], rfl⟩

theorem isOpen_record (task : Task) (phase : Phase) : isOpen ⟨task.record, phase⟩ = true :=
  rfl

theorem Books.submit (h : s.Books) (task : Task) (env : String → Live) (now : Clock) :
    (s.submit task env now).Books := by
  have hfresh := h.fresh
  have hnone : ∀ p, Dict.tally p (s.calls.get? (s.submitted + 1)) = 0 := by
    intro p
    rw [hfresh]
    rfl
  unfold DispatchState.submit
  split
  · refine h.set_call rfl (le_refl _) (Nat.le_succ _) ?_ ?_ ?_ ?_
    · intro name
      simp
    · intro name hphase
      contradiction
    · intro name r hget
      refine resources_same name ?_ hget
      rw [hnone]
      rfl
    · rw [hnone, Dict.tally, isOpen_record]
      simp only [if_true]
      omega
  · refine h.set_call rfl (le_refl _) (Nat.le_succ _) ?_ ?_ ?_ ?_
    · intro name
      simp
    · intro name hphase
      contradiction
    · intro name r hget
      refine resources_same name ?_ hget
      rw [hnone]
      rfl
    · rw [hnone]
      simp only [Dict.tally, isOpen, TaskStatus.isTerminal]
      simp only [Bool.not_true, Bool.false_eq_true, if_false]
      omega
  · rename_i r hplace
    obtain ⟨hget, hfree⟩ := h.semaphore_of_placed hplace
    rw [if_neg hfree]
    refine h.set_call rfl (le_refl _) (Nat.le_succ _) ?_ ?_ ?_ ?_
    · intro name
      simp
    · intro name _
      rfl
    · intro name r' hget'
      rcases Dict.get?_modify_cases hget' with ⟨hname, r₀, hr₀, rfl⟩ | ⟨hname, hget'⟩
      · subst hname
        obtain rfl := Option.some.inj (hget.symm.trans hr₀)
        refine ⟨r, hget, rfl, rfl, ?_, ?_⟩
        · rw [hnone]
          simp [Dict.tally, isRunningOn, Resource.enter]
        · simp only [Resource.enter]
          omega
      · refine resources_same name ?_ hget'
        rw [hnone]
        simp [Dict.tally, isRunningOn, hname]
    · rw [hnone]
      simp only [Dict.tally, isOpen, TaskStatus.isTerminal]
      simp only [Bool.not_false, if_true]
      omega

theorem calls_settle (s : DispatchState) (id : Nat) (record : TaskRecord) (outcome : PayloadEnd)
    (now : Clock) : (s.settle id record outcome now).calls =
      s.calls.set id ⟨outcome.settle now record, .done⟩ := by
  cases outcome <;> rfl

/-- A payload ends. -/
theorem Books.ended (h : s.Books) {record : TaskRecord}
    (hcall : s.calls.get? id = some ⟨record, .inPayload name⟩) (outcome : PayloadEnd)
    (now : Clock) : Books { s.settle id record outcome now with
      resources := s.resources.modify name Resource.leave } := by
  have hopen : isOpen ⟨record, .inPayload name⟩ = true :=
    (h.phases id _ hcall).2.2 name rfl
  have hcalls := s.calls_settle id record outcome now
  have hsubmitted : (s.settle id record outcome now).submitted = s.submitted := by
    cases outcome <;> rfl
  refine h.set_call hcalls ?_ (le_of_eq hsubmitted.symm) ?_ ?_ ?_ ?_
  · rw [hsubmitted]
    exact (h.phases id _ hcall).1
  · intro name
    simp
  · intro name hphase
    contradiction
  · intro name' r' hget'
    rw [hcall]
    rcases Dict.get?_modify_cases hget' with ⟨hname, r, hr, rfl⟩ | ⟨hname, hget'⟩
    · subst hname
      refine ⟨r, hr, rfl, rfl, ?_, ?_⟩
      · simp [Dict.tally, isRunningOn, Resource.leave]
      · simp only [Resource.leave]
        omega
    · refine ⟨r', hget', rfl, rfl, ?_, rfl⟩
      simp [Dict.tally, isRunningOn, hname]
  · have hold : Dict.tally isOpen (s.calls.get? id) = 1 := by
      rw [hcall, Dict.tally, hopen]
      rfl
    rw [hold]
    cases outcome with
    | returned elapsed =>
      have hnew : Dict.tally isOpen (some
          ⟨(PayloadEnd.returned elapsed).settle now record, .done⟩) = 0 := rfl
      rw [hnew]
      simp only [settle]
      omega
    | raised message =>
      have hnew : Dict.tally isOpen (some
          ⟨(PayloadEnd.raised message).settle now record, .done⟩) = 0 := rfl
      rw [hnew]
      simp only [settle]
      omega
    | cancelled =>
      have hnew : Dict.tally isOpen (some
          ⟨PayloadEnd.cancelled.settle now record, .done⟩) = 1 := by
        rw [← hold, hcall]
        rfl
      rw [hnew]
      rfl

theorem Books.step (h : s.Books) (hstep : s.step e = some s') : s'.Books := by
  cases e with
  | submit task env now =>
    cases hstep
    exact h.submit task env now
  | acquired id =>
    simp only [step] at hstep
    split at hstep
    · rename_i record name hcall
      exact absurd rfl ((h.phases id _ hcall).2.1 name)
    · contradiction
  | ended id outcome now =>
    simp only [step] at hstep
    split at hstep
    · rename_i record name hcall
      cases hstep
      exact h.ended hcall outcome now
    · rename_i record name hcall
      exact absurd rfl ((h.phases id _ hcall).2.1 name)
    · contradiction

/-! ## Accounting -/

def Abandoned (s : DispatchState) : Prop :=
  ∃ id call, s.calls.get? id = some call ∧ isAbandoned call = true

theorem abandoned_set (hcalls : t.calls = s.calls.set id new)
    (hold : ∀ old, s.calls.get? id = some old → isAbandoned old = false) :
    t.Abandoned ↔ s.Abandoned ∨ isAbandoned new = true := by
  constructor
  · rintro ⟨id', call, hget, hcall⟩
    rw [hcalls] at hget
    rcases Dict.get?_set_cases hget with ⟨_, rfl⟩ | ⟨_, hget⟩
    · exact Or.inr hcall
    · exact Or.inl ⟨id', call, hget, hcall⟩
  · rintro (⟨id', call, hget, hcall⟩ | hnew)
    · have hne : id ≠ id' := by
        rintro rfl
        rw [hold call hget] at hcall
        contradiction
      exact ⟨id', call, by rw [hcalls, Dict.get?_set_of_ne _ _ hne, hget], hcall⟩
    · exact ⟨id, new, by rw [hcalls, Dict.get?_set_self], hnew⟩

theorem Books.abandoned_submit (h : s.Books) (task : Task) (env : String → Live) (now : Clock) :
    (s.submit task env now).Abandoned ↔ s.Abandoned ∨ ¬ s.Caught (.submit task env now) := by
  have hold : ∀ old, s.calls.get? (s.submitted + 1) = some old → isAbandoned old = false := by
    intro old hget
    rw [h.fresh] at hget
    contradiction
  have hcaught : s.Caught (.submit task env now) ↔ s.place env task ≠ .raised := Iff.rfl
  rw [hcaught, not_not]
  unfold DispatchState.submit
  split
  · rename_i hplace
    rw [abandoned_set rfl hold]
    exact or_congr Iff.rfl (iff_of_true rfl hplace)
  · rename_i tried hplace
    rw [abandoned_set rfl hold, hplace]
    exact or_congr Iff.rfl (iff_of_false Bool.false_ne_true (by simp))
  · rename_i r hplace
    rw [if_neg (h.semaphore_of_placed hplace).2, abandoned_set rfl hold, hplace]
    exact or_congr Iff.rfl (iff_of_false Bool.false_ne_true (by simp))

/-- A call is abandoned by a cancellation or a probe that raises, and by nothing else. -/
theorem Books.abandoned_step (h : s.Books) (hstep : s.step e = some s') :
    s'.Abandoned ↔ s.Abandoned ∨ ¬ s.Caught e := by
  cases e with
  | submit task env now =>
    cases hstep
    exact h.abandoned_submit task env now
  | acquired id =>
    simp only [DispatchState.step] at hstep
    split at hstep
    · rename_i record name hcall
      exact absurd rfl ((h.phases id _ hcall).2.1 name)
    · contradiction
  | ended id outcome now =>
    simp only [DispatchState.step] at hstep
    split at hstep
    · rename_i record name hcall
      cases hstep
      have hopen : isOpen ⟨record, .inPayload name⟩ = true :=
        (h.phases id _ hcall).2.2 name rfl
      have hold : ∀ old, s.calls.get? id = some old → isAbandoned old = false := by
        intro old hget
        obtain rfl := Option.some.inj (hcall.symm.trans hget)
        rfl
      have hcalls := s.calls_settle id record outcome now
      have hset := abandoned_set (t := { s.settle id record outcome now with
        resources := s.resources.modify name Resource.leave }) hcalls hold
      have hcaught : s.Caught (.ended id outcome now) ↔ outcome ≠ .cancelled := Iff.rfl
      rw [hset, hcaught, not_not]
      refine or_congr Iff.rfl ?_
      cases outcome with
      | returned | raised => exact iff_of_false Bool.false_ne_true (by simp)
      | cancelled => exact iff_of_true hopen rfl
    · rename_i record name hcall
      exact absurd rfl ((h.phases id _ hcall).2.1 name)
    · contradiction

/-- After all calls have ended, everything is settled unless one was abandoned. -/
theorem Books.settled_iff (h : s.Books) (hfinished : s.Finished) : s.Settled ↔ ¬ s.Abandoned := by
  constructor
  · rintro hsettled ⟨id, call, hget, habandoned⟩
    have hterminal := hsettled.terminal id call hget
    simp [isAbandoned, isOpen, hterminal] at habandoned
  · intro hnone
    have hterminal : ∀ id call, s.calls.get? id = some call →
        call.record.status.isTerminal = true := by
      intro id call hget
      by_contra hopen
      refine hnone ⟨id, call, hget, ?_⟩
      rw [Bool.not_eq_true] at hopen
      simp [isAbandoned, isOpen, hfinished id call hget, hopen]
    have hcount : ∀ p, (∀ id call, s.calls.get? id = some call → p call = false) →
        s.calls.count p = 0 := by
      intro p hp
      rw [Dict.count, List.countP_eq_zero]
      intro call hcall
      obtain ⟨id, hget⟩ := Dict.mem_values_iff.mp hcall
      rw [hp id call hget]
      exact Bool.false_ne_true
    refine ⟨hterminal, ?_, ?_⟩
    · intro name r hget
      rw [(h.inFlight name r hget).1, hcount (isRunningOn name)]
      · rfl
      · intro id call hcall
        simp [isRunningOn, hfinished id call hcall]
    · have hcounted := h.counted
      rw [hcount isOpen] at hcounted
      · exact hcounted
      · intro id call hcall
        simp [isOpen, hterminal id call hcall]

/-- No resource is ever above its concurrency, and a run that ends all of its calls settles
everything in exactly the case that no call was cancelled and no probe raised. -/
theorem accounting_iff (specs : List ResourceSpec) (es : List DispatchEvent) :
    (∀ pre post t, es = pre ++ post → run step (init specs) pre = some t →
      t.WithinConcurrency) ∧
    ∀ s, run step (init specs) es = some s → s.Finished →
      (s.Settled ↔ Guarded step Caught (init specs) es) := by
  have hbooks : ∀ {es s}, run step (init specs) es = some s → s.Books := fun hrun =>
    invariant_of_run (fun _ _ _ h hstep => Books.step h hstep) (Books.init specs) hrun
  constructor
  · intro pre post t _ hrun
    exact (hbooks hrun).withinConcurrency
  · intro s hrun hfinished
    rw [(hbooks hrun).settled_iff hfinished, flawless_iff_guarded
      (fun _ _ _ h hstep => Books.step h hstep) (fun _ _ _ h hstep => h.abandoned_step hstep)
      (Books.init specs) hrun]
    apply and_iff_right
    rintro ⟨id, call, hget, _⟩
    contradiction

instance (s : DispatchState) (e : DispatchEvent) : Decidable (s.Caught e) :=
  match e with
  | .submit task env _ => inferInstanceAs (Decidable (s.place env task ≠ .raised))
  | .acquired _ => isTrue trivial
  | .ended _ outcome _ => inferInstanceAs (Decidable (outcome ≠ .cancelled))

def cpu : ResourceSpec :=
  ⟨"cpu-inference", ⟨"cpu-aarch64", "native", ""⟩, 1, 2⟩

def embed (id : String) : Task where
  id := id
  capability := .embedding
  preferredResources := ["cpu-inference"]
  submittedAt := 0

def serving (_ : String) : Live :=
  ⟨some ["embedding"], some 4096, none⟩

/-- What a run leaves of its calls and counters. -/
def outcome (es : List DispatchEvent) : Option (List (Phase × TaskStatus) × Nat × Nat) :=
  (run step (init [cpu]) es).map fun s =>
    (s.calls.values.map fun call => (call.phase, call.record.status), s.submitted,
      s.completed + s.errors + s.rejected)

theorem finished_of_phases (s : DispatchState) (h : ∀ call ∈ s.calls.values, call.phase = .done) :
    s.Finished := fun id call hget => h call (Dict.mem_values_iff.mpr ⟨id, hget⟩)

/-- Of two tasks the second finds the resource at its cap, and the first fails. -/
def oneAtATime : List DispatchEvent :=
  [.submit (embed "a") serving 1, .submit (embed "b") serving 2,
    .ended 1 (.raised "boom") 3]

theorem accounting_oneAtATime :
    ∃ s, run step (init [cpu]) oneAtATime = some s ∧ s.Finished ∧ s.Settled := by
  have hsome : ((run step (init [cpu]) oneAtATime).map fun s =>
      s.calls.values.map Call.phase) = some [.done, .done] := by decide
  obtain ⟨s, hrun, hphases⟩ := Option.map_eq_some_iff.mp hsome
  have hfinished : s.Finished := by
    apply finished_of_phases
    intro call hcall
    have hmem := List.mem_map_of_mem (f := Call.phase) hcall
    rw [hphases] at hmem
    simpa using hmem
  have hcaught : Guarded step Caught (init [cpu]) oneAtATime := by decide
  exact ⟨s, hrun, hfinished, ((accounting_iff [cpu] oneAtATime).2 s hrun hfinished).mpr hcaught⟩

/-- The call is cancelled within its payload. -/
def cancelledCall : List DispatchEvent :=
  [.submit (embed "a") serving 1, .ended 1 .cancelled 2]

/-- The call has ended, its record is running, and it is in no counter. -/
theorem not_accounting :
    outcome cancelledCall = some ([(.done, .running)], 1, 0) ∧
      ∃ s, run step (init [cpu]) cancelledCall = some s ∧ s.Finished ∧ ¬ s.Settled := by
  have houtcome : outcome cancelledCall = some ([(.done, .running)], 1, 0) := by decide
  refine ⟨houtcome, ?_⟩
  obtain ⟨s, hrun, hs⟩ := Option.map_eq_some_iff.mp houtcome
  obtain ⟨hcalls, hcounters⟩ := Prod.mk.inj hs
  refine ⟨s, hrun, ?_, fun hsettled => ?_⟩
  · apply finished_of_phases
    intro call hcall
    have hmem := List.mem_map_of_mem
      (f := fun call : Call => (call.phase, call.record.status)) hcall
    rw [hcalls, List.mem_singleton] at hmem
    exact (Prod.mk.inj hmem).1
  · have hbalanced := hsettled.balanced
    obtain ⟨hsubmitted, hcounted⟩ := Prod.mk.inj hcounters
    omega

end DispatchState

end TinyAgentOS.Scheduler
