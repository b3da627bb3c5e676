import TinyAgentOS.Library.Dict
import TinyAgentOS.Library.Transition
import Mathlib.Data.List.Sort

/-!
# The job queue

Jobs are rows of a table that survives restarts; a worker pulls the first
pending job whose resource type has room under its concurrency limit.  Every
operation holds the queue's lock and is one transaction, so it is one step.

Main results:

- `dequeue_first`: a delivery is the first pending job with spare capacity.
- `run_queueSafe`: single delivery, final statuses and limits in every run.
-/

namespace TinyAgentOS.Scheduling

open Collections Transition

/-! ## The tables -/

/-- Readings of `time.time()`, in seconds. -/
abbrev Instant := Int

abbrev JobId := String

inductive JobStatus where
  | pending
  | running
  | completed
  | failed
  | cancelled
deriving DecidableEq

/-- Completed, failed or cancelled. -/
def JobStatus.final : JobStatus → Bool
  | pending => false
  | running => false
  | _ => true

/-- A row of `jobs`, without its primary key. -/
structure Job where
  jobType : String
  priority : Int
  status : JobStatus
  agentName : Option String
  payloadJson : String
  resourceType : String
  estimatedSeconds : Int
  createdAt : Instant
  startedAt : Option Instant
  completedAt : Option Instant
  error : Option String
  resultJson : Option String

/-- `DEFAULT_LIMITS`. -/
def defaultLimits : Dict String Int :=
  ((((Dict.empty.set "cpu" 2).set "gpu" 1).set "npu" 3).set "embed" 1)

/-- The tables `jobs` and `queue_config`, and the limits of the process. -/
structure JobQueue where
  jobs : Dict JobId Job
  queueConfig : Dict String String
  limits : Dict String Int

/-- The arguments of `enqueue`; the payload is its JSON text. -/
structure JobRequest where
  jobType : String
  payloadJson : String := "{}"
  agentName : Option String := none
  priority : Int := 1
  resourceType : String := "cpu"
  estimatedSeconds : Int := 0

namespace JobQueue

/-- A new database. -/
def init : JobQueue := ⟨Dict.empty, Dict.empty, defaultLimits⟩

/-! ## Operations -/

/-- The limits a process starts with: a stored value that is no number is passed over. -/
def loadLimits (queueConfig : Dict String String) : Dict String Int :=
  queueConfig.entries.foldl
    (fun limits row =>
      if "limit_".toList <+: row.1.toList then
        match row.2.toInt? with
        | some value => limits.set (String.ofList (row.1.toList.drop 6)) value
        | none => limits
      else limits)
    defaultLimits

/-- `_sync_init` on an existing database: what was running has failed. -/
def restart (q : JobQueue) : JobQueue :=
  { q with
    limits := loadLimits q.queueConfig
    jobs := q.jobs.mapValues fun j =>
      if j.status = .running then
        { j with status := .failed, error := some "stale: process restarted" }
      else j }

/-- `_sync_enqueue`; the primary key refuses an id that is in the table. -/
def enqueue (q : JobQueue) (jobId : JobId) (request : JobRequest) (now : Instant) :
    Option JobQueue :=
  if (q.jobs.get? jobId).isSome then none
  else
    some
      { q with
        jobs := q.jobs.set jobId
          { jobType := request.jobType
            priority := request.priority
            status := .pending
            agentName := request.agentName
            payloadJson := request.payloadJson
            resourceType := request.resourceType
            estimatedSeconds := request.estimatedSeconds
            createdAt := now
            startedAt := none
            completedAt := none
            error := none
            resultJson := none } }

/-- How many jobs of a resource type are running; a type without any is not in the count. -/
def runningCount (q : JobQueue) (resource : String) : Nat :=
  q.jobs.count fun j => j.status = .running && j.resourceType = resource

/-- The limit `dequeue` goes by. -/
def limitOf (q : JobQueue) (resource : String) : Int := (q.limits.get? resource).getD 1

def hasCapacity (q : JobQueue) (resource : String) : Bool :=
  (q.runningCount resource : Int) < q.limitOf resource

/-- The filter on resource types; an empty list is none. -/
def wants (resourceTypes : Option (List String)) (resource : String) : Bool :=
  match resourceTypes with
  | none => true
  | some [] => true
  | some types => resource ∈ types

/-- `ORDER BY priority DESC, created_at ASC`. -/
def Ahead (e f : JobId × Job) : Prop :=
  f.2.priority < e.2.priority ∨
    e.2.priority = f.2.priority ∧ e.2.createdAt ≤ f.2.createdAt

instance (e f : JobId × Job) : Decidable (Ahead e f) :=
  inferInstanceAs (Decidable (_ ∨ _))

/-- The pending rows in the order of the query; equal rows in table order. -/
def selectPending (q : JobQueue) (resourceTypes : Option (List String)) : List (JobId × Job) :=
  (q.jobs.entries.filter fun e =>
    e.2.status = .pending && wants resourceTypes e.2.resourceType).insertionSort Ahead

/-- `_sync_dequeue`. -/
def dequeue (q : JobQueue) (resourceTypes : Option (List String)) (now : Instant) :
    JobQueue × Option (JobId × Job) :=
  match (q.selectPending resourceTypes).find? fun e => q.hasCapacity e.2.resourceType with
  | none => (q, none)
  | some (jobId, j) =>
    let claimed := { j with status := .running, startedAt := some now }
    ({ q with jobs := q.jobs.set jobId claimed }, some (jobId, claimed))

/-- Update a row that is in a status, and tell whether there was one. -/
def updateWhere (q : JobQueue) (jobId : JobId) (status : JobStatus) (f : Job → Job) :
    JobQueue × Bool :=
  match q.jobs.get? jobId with
  | none => (q, false)
  | some j =>
    if j.status = status then ({ q with jobs := q.jobs.set jobId (f j) }, true) else (q, false)

/-- `_sync_complete`. -/
def complete (q : JobQueue) (jobId : JobId) (resultJson : String) (now : Instant) :
    JobQueue × Bool :=
  q.updateWhere jobId .running fun j =>
    { j with status := .completed, completedAt := some now, resultJson := some resultJson }

/-- `_sync_fail`. -/
def fail (q : JobQueue) (jobId : JobId) (error : String) (now : Instant) : JobQueue × Bool :=
  q.updateWhere jobId .running fun j =>
    { j with status := .failed, completedAt := some now, error := some error }

/-- `_sync_cancel`. -/
def cancel (q : JobQueue) (jobId : JobId) : JobQueue × Bool :=
  q.updateWhere jobId .pending fun j => { j with status := .cancelled }

/-- `_sync_set_limit`. -/
def setLimit (q : JobQueue) (resourceType : String) (maxConcurrent : Int) : JobQueue :=
  { q with
    limits := q.limits.set resourceType maxConcurrent
    queueConfig := q.queueConfig.set ("limit_" ++ resourceType) (toString maxConcurrent) }

/-- `_sync_cleanup`. -/
def cleanup (q : JobQueue) (olderThanDays now : Int) : JobQueue × Nat :=
  let gone := fun j : Job => j.status.final && decide (j.createdAt < now - olderThanDays * 86400)
  ({ q with jobs := q.jobs.filterValues fun j => !gone j }, q.jobs.count gone)

end JobQueue

/-! ## Runs -/

/-- What a job goes through on its way to a worker. -/
inductive Delivery where
  | queued (jobId : JobId)
  | handedOut (jobId : JobId)
deriving DecidableEq

/-- The queue, with the deliveries so far. -/
structure QueueRun where
  queue : JobQueue
  log : List Delivery

/-- The calls of the queue's users, and restarts of the process. -/
inductive JobEvent where
  | enqueue (jobId : JobId) (request : JobRequest) (now : Instant)
  | dequeue (resourceTypes : Option (List String)) (now : Instant)
  | complete (jobId : JobId) (resultJson : String) (now : Instant)
  | fail (jobId : JobId) (error : String) (now : Instant)
  | cancel (jobId : JobId)
  | setLimit (resourceType : String) (maxConcurrent : Int)
  | cleanup (olderThanDays now : Int)
  | restart

namespace QueueRun

/-- One call; an id that is taken is refused and leaves the tables alone. -/
def step (s : QueueRun) : JobEvent → Option QueueRun
  | .enqueue jobId request now =>
    match s.queue.enqueue jobId request now with
    | none => some s
    | some q => some ⟨q, s.log ++ [.queued jobId]⟩
  | .dequeue resourceTypes now =>
    let delivered := s.queue.dequeue resourceTypes now
    some ⟨delivered.1, s.log ++ (delivered.2.map fun e => Delivery.handedOut e.1).toList⟩
  | .complete jobId resultJson now =>
    some { s with queue := (s.queue.complete jobId resultJson now).1 }
  | .fail jobId error now => some { s with queue := (s.queue.fail jobId error now).1 }
  | .cancel jobId => some { s with queue := (s.queue.cancel jobId).1 }
  | .setLimit resourceType maxConcurrent =>
    some { s with queue := s.queue.setLimit resourceType maxConcurrent }
  | .cleanup olderThanDays now => some { s with queue := (s.queue.cleanup olderThanDays now).1 }
  | .restart => some { s with queue := s.queue.restart }

end QueueRun

/-! ## A single call -/

/-- The first hit in a sorted list comes before every other hit. -/
theorem rel_of_find? {α : Type} {r : α → α → Prop} {p : α → Bool} {l : List α} {a : α}
    (hrefl : ∀ b, r b b) (hsorted : l.Pairwise r) (hfind : l.find? p = some a) :
    ∀ b ∈ l, p b = true → r a b := by
  induction l with
  | nil => simp at hfind
  | cons c l ih =>
    intro b hb hp
    rw [List.pairwise_cons] at hsorted
    rw [List.find?_cons] at hfind
    split at hfind
    · cases hfind
      rcases List.mem_cons.mp hb with rfl | hb
      · exact hrefl b
      · exact hsorted.1 b hb
    · rename_i hc
      rcases List.mem_cons.mp hb with rfl | hb
      · rw [hp] at hc
        contradiction
      · exact ih hsorted.2 hfind b hb hp

namespace JobQueue

theorem Ahead.refl (e : JobId × Job) : Ahead e e :=
  .inr ⟨rfl, le_rfl⟩

instance : Std.Total Ahead where
  total e f := by
    rcases lt_trichotomy e.2.priority f.2.priority with hlt | heq | hgt
    · exact .inr (.inl hlt)
    · rcases le_total e.2.createdAt f.2.createdAt with hle | hge
      · exact .inl (.inr ⟨heq, hle⟩)
      · exact .inr (.inr ⟨heq.symm, hge⟩)
    · exact .inl (.inl hgt)

instance : IsTrans (JobId × Job) Ahead where
  trans e f g hef hfg := by
    rcases hef with hlt | ⟨heq, hle⟩
    · left
      rcases hfg with hlt' | ⟨heq', _⟩
      · exact hlt'.trans hlt
      · rwa [← heq']
    · rcases hfg with hlt' | ⟨heq', hle'⟩
      · left
        rwa [heq]
      · exact .inr ⟨heq.trans heq', hle.trans hle'⟩

/-- Pending, of a wanted type, and with room for it. -/
def Eligible (q : JobQueue) (resourceTypes : Option (List String)) (j : Job) : Prop :=
  j.status = .pending ∧ wants resourceTypes j.resourceType = true ∧
    q.hasCapacity j.resourceType = true

/-- The jobs that are selected are pending and wanted. -/
theorem mem_selectPending {q : JobQueue} {resourceTypes : Option (List String)} {e : JobId × Job} :
    e ∈ q.selectPending resourceTypes ↔
      q.jobs.get? e.1 = some e.2 ∧ e.2.status = .pending ∧
        wants resourceTypes e.2.resourceType = true := by
  rw [selectPending, List.mem_insertionSort, List.mem_filter, ← Dict.mem_entries_iff]
  simp

/-- A delivery is the first pending job with spare capacity. -/
theorem dequeue_first (q : JobQueue) (resourceTypes : Option (List String)) (now : Instant) :
    (q.dequeue resourceTypes now = (q, none) ∧
        ∀ jobId j, q.jobs.get? jobId = some j → ¬Eligible q resourceTypes j) ∨
      ∃ jobId j, q.jobs.get? jobId = some j ∧ Eligible q resourceTypes j ∧
        (∀ jobId' j', q.jobs.get? jobId' = some j' → Eligible q resourceTypes j' →
          Ahead (jobId, j) (jobId', j')) ∧
        q.dequeue resourceTypes now =
          ({ q with jobs := q.jobs.set jobId { j with status := .running, startedAt := some now } },
            some (jobId, { j with status := .running, startedAt := some now })) := by
  unfold dequeue
  split
  · rename_i hnone
    refine .inl ⟨rfl, ?_⟩
    intro jobId j hget heligible
    have hmem : (jobId, j) ∈ q.selectPending resourceTypes :=
      mem_selectPending.mpr ⟨hget, heligible.1, heligible.2.1⟩
    have hmiss := List.find?_eq_none.mp hnone _ hmem
    exact hmiss heligible.2.2
  · rename_i jobId j hfind
    have hmem := mem_selectPending.mp (List.mem_of_find?_eq_some hfind)
    have hcapacity := List.find?_some hfind
    refine .inr ⟨jobId, j, hmem.1, ⟨hmem.2.1, hmem.2.2, hcapacity⟩, ?_, rfl⟩
    intro jobId' j' hget heligible
    have hsorted : (q.selectPending resourceTypes).Pairwise Ahead :=
      List.pairwise_insertionSort _ _
    have hmem' : (jobId', j') ∈ q.selectPending resourceTypes :=
      mem_selectPending.mpr ⟨hget, heligible.1, heligible.2.1⟩
    exact rel_of_find? Ahead.refl hsorted hfind _ hmem' heligible.2.2

/-- The count is the number of rows of the resource whose status is running. -/
theorem runningCount_eq (q : JobQueue) (resource : String) :
    ∃ jobIds : List JobId, jobIds.Nodup ∧ jobIds.length = q.runningCount resource ∧
      ∀ jobId, jobId ∈ jobIds ↔ ∃ j, q.jobs.get? jobId = some j ∧ j.status = .running ∧
        j.resourceType = resource := by
  refine ⟨_, Dict.nodup _, (Dict.count_eq_length_keys _ q.jobs).symm, fun jobId => ?_⟩
  refine Dict.mem_keys_iff.trans (exists_congr fun j => Dict.get?_filterValues_iff.trans ?_)
  rw [Bool.and_eq_true, decide_eq_true_iff, decide_eq_true_iff]

/-- A delivery takes a free place under the limit. -/
theorem runningCount_dequeue (q : JobQueue) (resourceTypes : Option (List String))
    (now : Instant) (resource : String) :
    (q.dequeue resourceTypes now).1.runningCount resource ≤ q.runningCount resource ∨
      ((q.dequeue resourceTypes now).1.runningCount resource : Int) ≤ q.limitOf resource := by
  rcases q.dequeue_first resourceTypes now with ⟨heq, _⟩ | ⟨jobId, j, hget, heligible, _, heq⟩
  · rw [heq]
    exact .inl le_rfl
  · rw [heq]
    have hcount := Dict.count_set_of_get?
      (fun j => j.status = .running && j.resourceType = resource)
      { j with status := .running, startedAt := some now } hget
    have hcapacity : (q.runningCount j.resourceType : Int) < q.limitOf j.resourceType :=
      of_decide_eq_true heligible.2.2
    simp only [runningCount] at hcapacity ⊢
    by_cases hresource : j.resourceType = resource
    · right
      subst hresource
      simp [heligible.1] at hcount
      omega
    · left
      simp [hresource] at hcount
      omega

/-- An update takes place where the job has the status. -/
theorem updateWhere_cases (q : JobQueue) (jobId : JobId) (status : JobStatus) (f : Job → Job) :
    (q.updateWhere jobId status f).1 = q ∨
      ∃ j, q.jobs.get? jobId = some j ∧ j.status = status ∧
        (q.updateWhere jobId status f).1 = { q with jobs := q.jobs.set jobId (f j) } := by
  unfold updateWhere
  split
  · exact .inl rfl
  · rename_i j hget
    split
    · rename_i hstatus
      exact .inr ⟨j, hget, hstatus, rfl⟩
    · exact .inl rfl

end JobQueue

/-! ## What a call does to a row -/

/-- The ways a status changes while its row stays. -/
inductive JobStatus.Moves : JobStatus → JobStatus → Prop
  | stay (status) : Moves status status
  | start : Moves .pending .running
  | cancel : Moves .pending .cancelled
  | complete : Moves .running .completed
  | fail : Moves .running .failed

variable {status' status : JobStatus}

/-- A final status stays. -/
theorem JobStatus.Moves.eq_of_final (h : Moves status status')
    (hfinal : status.final = true) : status' = status := by
  cases h <;> first | rfl | contradiction

/-- A job does not become pending again. -/
theorem JobStatus.Moves.ne_pending (h : Moves status status')
    (hne : status ≠ .pending) : status' ≠ .pending := by
  cases h <;> first | exact hne | simp

namespace QueueRun

/-- A call logs at most one delivery, and only that delivery's id gets a new row. -/
structure Effect (s s' : QueueRun) (logged : Option Delivery) : Prop where
  log : s'.log = s.log ++ logged.toList
  handedOut : ∀ jobId, logged = some (.handedOut jobId) →
    (∃ j, s.queue.jobs.get? jobId = some j ∧ j.status = .pending) ∧
      ∀ j', s'.queue.jobs.get? jobId = some j' → j'.status ≠ .pending
  rows : ∀ jobId j', s'.queue.jobs.get? jobId = some j' →
    logged = some (.queued jobId) ∨
      ∃ j, s.queue.jobs.get? jobId = some j ∧ j.status.Moves j'.status

variable {s : QueueRun} {q : JobQueue} {jobId : JobId} {logged : Option Delivery}

/-- A call without a delivery. -/
theorem Effect.of_rows (hrows : ∀ jobId j', q.jobs.get? jobId = some j' →
      ∃ j, s.queue.jobs.get? jobId = some j ∧ j.status.Moves j'.status) :
    Effect s { s with queue := q } none where
  log := by simp
  handedOut := by simp
  rows := fun jobId j' hget => .inr (hrows jobId j' hget)

theorem Effect.same (s : QueueRun) : Effect s s none :=
  .of_rows fun _ j' hget => ⟨j', hget, .stay _⟩

/-- The row of one id is overwritten. -/
theorem exists_of_set {jobs : Dict JobId Job} {j j' : Job}
    (hget : jobs.get? jobId = some j) (hmoves : j.status.Moves j'.status) {jobId' : JobId}
    {i : Job} (hi : (jobs.set jobId j').get? jobId' = some i) :
    ∃ before, jobs.get? jobId' = some before ∧ before.status.Moves i.status := by
  rcases Dict.get?_set_cases hi with ⟨heq, rfl⟩ | ⟨_, hi⟩
  · exact ⟨j, heq ▸ hget, hmoves⟩
  · exact ⟨i, hi, .stay _⟩

/-- A job's status moves. -/
theorem Effect.updateWhere (s : QueueRun) (jobId : JobId) (status : JobStatus) (f : Job → Job)
    (hmoves : ∀ j : Job, j.status = status → j.status.Moves (f j).status) :
    Effect s { s with queue := (s.queue.updateWhere jobId status f).1 } none := by
  rcases s.queue.updateWhere_cases jobId status f with heq | ⟨j, hget, hstatus, heq⟩
  · rw [heq]
    exact .same s
  · rw [heq]
    exact .of_rows fun _ _ hi => exists_of_set hget (hmoves j hstatus) hi

/-- A job is queued. -/
theorem Effect.enqueue {request : JobRequest} {now : Instant}
    (h : s.queue.enqueue jobId request now = some q) :
    Effect s ⟨q, s.log ++ [.queued jobId]⟩ (some (.queued jobId)) where
  log := rfl
  handedOut := by simp
  rows := by
    intro jobId' j' hget
    unfold JobQueue.enqueue at h
    split at h
    · contradiction
    cases h
    rw [Dict.get?_set] at hget
    split at hget
    · rename_i heq
      exact .inl (heq ▸ rfl)
    · exact .inr ⟨j', hget, .stay _⟩

/-- A job is handed out. -/
theorem Effect.dequeue (s : QueueRun) (resourceTypes : Option (List String)) (now : Instant) :
    Effect s
      ⟨(s.queue.dequeue resourceTypes now).1,
        s.log ++ ((s.queue.dequeue resourceTypes now).2.map fun e =>
          Delivery.handedOut e.1).toList⟩
      ((s.queue.dequeue resourceTypes now).2.map fun e => .handedOut e.1) := by
  rcases s.queue.dequeue_first resourceTypes now with
    ⟨heq, _⟩ | ⟨jobId, j, hget, heligible, _, heq⟩
  · rw [heq]
    simpa using Effect.same s
  · rw [heq]
    refine ⟨rfl, ?_, ?_⟩
    · intro jobId' hlogged
      cases hlogged
      refine ⟨⟨j, hget, heligible.1⟩, ?_⟩
      intro j' hget'
      rw [Dict.get?_set_self] at hget'
      cases hget'
      simp
    · intro jobId' j' hget'
      have hmoves : j.status.Moves .running := heligible.1 ▸ .start
      exact .inr (exists_of_set hget hmoves hget')

/-- The worker restarts. -/
theorem Effect.restart (s : QueueRun) : Effect s { s with queue := s.queue.restart } none := by
  refine .of_rows fun jobId j' hget => ?_
  simp only [JobQueue.restart, Dict.get?_mapValues, Option.map_eq_some_iff] at hget
  obtain ⟨j, hj, rfl⟩ := hget
  refine ⟨j, hj, ?_⟩
  split
  · rename_i hrunning
    rw [hrunning]
    exact .fail
  · exact .stay _

/-- Old jobs are deleted. -/
theorem Effect.cleanup (s : QueueRun) (olderThanDays now : Int) :
    Effect s { s with queue := (s.queue.cleanup olderThanDays now).1 } none :=
  .of_rows fun _ j' hget => ⟨j', (Dict.get?_filterValues_iff.mp hget).1, .stay _⟩

/-- Every step has an effect. -/
theorem effect_of_step {s' : QueueRun} {e : JobEvent} (hstep : s.step e = some s') :
    ∃ logged, Effect s s' logged := by
  cases e with
  | enqueue jobId request now =>
    simp only [step] at hstep
    split at hstep
    · cases hstep
      exact ⟨none, .same s⟩
    · rename_i q hq
      cases hstep
      exact ⟨_, .enqueue hq⟩
  | dequeue resourceTypes now =>
    cases hstep
    exact ⟨_, .dequeue s resourceTypes now⟩
  | complete jobId resultJson now =>
    cases hstep
    exact ⟨none, .updateWhere s _ _ _ fun j hj => hj ▸ .complete⟩
  | fail jobId error now =>
    cases hstep
    exact ⟨none, .updateWhere s _ _ _ fun j hj => hj ▸ .fail⟩
  | cancel jobId =>
    cases hstep
    exact ⟨none, .updateWhere s _ _ _ fun j hj => hj ▸ .cancel⟩
  | setLimit resourceType maxConcurrent =>
    cases hstep
    exact ⟨none, .of_rows fun _ j' hget => ⟨j', hget, .stay _⟩⟩
  | cleanup olderThanDays now =>
    cases hstep
    exact ⟨none, .cleanup s olderThanDays now⟩
  | restart =>
    cases hstep
    exact ⟨none, .restart s⟩

/-! ## Every run -/

/-- Between two deliveries of an id it is queued again. -/
def DeliveredOnce (log : List Delivery) : Prop :=
  ∀ jobId before between after,
    log = before ++ .handedOut jobId :: (between ++ .handedOut jobId :: after) →
      .queued jobId ∈ between

/-- A log that grows by one entry and ends in another one splits at the same place. -/
theorem append_singleton_cases {α : Type} {log before after : List α} {x y : α}
    (h : log ++ [x] = before ++ y :: after) : (after = [] ∧ log = before ∧ x = y) ∨
      ∃ after', after = after' ++ [x] ∧ log = before ++ y :: after' := by
  rcases List.eq_nil_or_concat after with rfl | ⟨after', z, rfl⟩
  · have hsplit := List.append_inj' h rfl
    exact .inl ⟨rfl, hsplit.1, by simpa using hsplit.2⟩
  · right
    rw [List.concat_eq_append, ← List.cons_append, ← List.append_assoc] at h
    have hsplit := List.append_inj' h rfl
    refine ⟨after', ?_, hsplit.1⟩
    rw [List.concat_eq_append, hsplit.2]

/-- A delivery after its queueing keeps the log. -/
theorem DeliveredOnce.append {log : List Delivery} (h : DeliveredOnce log) {x : Delivery}
    (hx : ∀ jobId, x = .handedOut jobId → ∀ before after,
      log = before ++ .handedOut jobId :: after → .queued jobId ∈ after) :
    DeliveredOnce (log ++ [x]) := by
  intro jobId before between after heq
  rw [← List.cons_append, ← List.append_assoc] at heq
  rcases append_singleton_cases heq with ⟨_, hlog, hlast⟩ | ⟨after', _, hlog⟩
  · exact hx jobId hlast before between hlog
  · rw [List.append_assoc, List.cons_append] at hlog
    exact h jobId before between after' hlog

/-- A delivered id stays away from the pending jobs until it is queued again. -/
structure Invariant (s : QueueRun) : Prop where
  deliveredOnce : DeliveredOnce s.log
  delivered : ∀ jobId before after, s.log = before ++ .handedOut jobId :: after →
    .queued jobId ∉ after → ∀ j, s.queue.jobs.get? jobId = some j → j.status ≠ .pending

theorem Invariant.init (q : JobQueue) : Invariant ⟨q, []⟩ where
  deliveredOnce := by simp [DeliveredOnce]
  delivered := by simp

/-- Every effect keeps the invariant. -/
theorem Invariant.effect {s' : QueueRun} (h : Invariant s)
    (heffect : Effect s s' logged) : Invariant s' := by
  have hlog := heffect.log
  cases logged with
  | none =>
    simp only [Option.toList_none, List.append_nil] at hlog
    refine ⟨hlog ▸ h.deliveredOnce, ?_⟩
    intro jobId before after heq hqueued j' hget'
    rcases heffect.rows jobId j' hget' with hlogged | ⟨j, hget, hmoves⟩
    · contradiction
    · exact hmoves.ne_pending (h.delivered jobId before after (hlog ▸ heq) hqueued j hget)
  | some x =>
    simp only [Option.toList_some] at hlog
    refine ⟨?_, ?_⟩
    · rw [hlog]
      refine h.deliveredOnce.append ?_
      intro jobId hx before after heq
      obtain ⟨⟨j, hget, hpending⟩, _⟩ := heffect.handedOut jobId (hx ▸ rfl)
      by_contra hqueued
      exact h.delivered jobId before after heq hqueued j hget hpending
    · intro jobId before after heq hqueued j' hget'
      rw [hlog] at heq
      rcases append_singleton_cases heq with ⟨_, _, hx⟩ | ⟨after', rfl, hold⟩
      · exact (heffect.handedOut jobId (hx ▸ rfl)).2 j' hget'
      · rw [List.mem_append, not_or, List.mem_singleton] at hqueued
        rcases heffect.rows jobId j' hget' with hlogged | ⟨j, hget, hmoves⟩
        · cases hlogged
          exact absurd rfl hqueued.2
        · exact hmoves.ne_pending (h.delivered jobId before after' hold hqueued.1 j hget)

/-- From here on, the jobs that are over stay as they ended. -/
def Settled (s s' : QueueRun) : Prop :=
  ∃ since, s'.log = s.log ++ since ∧
    ∀ jobId j, s.queue.jobs.get? jobId = some j → j.status.final = true →
      .queued jobId ∈ since ∨
        ∀ j', s'.queue.jobs.get? jobId = some j' → j'.status = j.status

theorem Settled.refl (s : QueueRun) : Settled s s := by
  refine ⟨[], by simp, ?_⟩
  intro jobId j hget _
  right
  intro j' hget'
  cases hget.symm.trans hget'
  rfl

/-- Every effect keeps what is settled. -/
theorem Settled.effect {t t' : QueueRun} (h : Settled s t)
    (heffect : Effect t t' logged) : Settled s t' := by
  obtain ⟨since, hlog, hkept⟩ := h
  refine ⟨since ++ logged.toList, ?_, ?_⟩
  · rw [heffect.log, hlog, List.append_assoc]
  · intro jobId j hget hfinal
    rcases hkept jobId j hget hfinal with hqueued | hstatus
    · exact .inl (List.mem_append_left _ hqueued)
    · by_cases hlogged : logged = some (.queued jobId)
      · left
        simp [hlogged]
      · right
        intro j'' hget''
        rcases heffect.rows jobId j'' hget'' with habsurd | ⟨j', hget', hmoves⟩
        · contradiction
        · have hsame := hstatus j' hget'
          rw [hmoves.eq_of_final (hsame ▸ hfinal), hsame]

/-- Single delivery; final statuses; and of every next delivery, that it respects the limit in
force and that it is the first eligible job. -/
structure QueueSafe (s : QueueRun) : Prop where
  deliveredOnce : DeliveredOnce s.log
  settled : ∀ events s', run step s events = some s' → Settled s s'
  withinLimit : ∀ resourceTypes now resource,
    (s.queue.dequeue resourceTypes now).1.runningCount resource ≤
        s.queue.runningCount resource ∨
      ((s.queue.dequeue resourceTypes now).1.runningCount resource : Int) ≤
        s.queue.limitOf resource
  first : ∀ resourceTypes now jobId claimed,
    (s.queue.dequeue resourceTypes now).2 = some (jobId, claimed) →
      ∃ j, s.queue.jobs.get? jobId = some j ∧ s.queue.Eligible resourceTypes j ∧
        claimed = { j with status := .running, startedAt := some now } ∧
        ∀ jobId' j', s.queue.jobs.get? jobId' = some j' → s.queue.Eligible resourceTypes j' →
          JobQueue.Ahead (jobId, j) (jobId', j')
  idle : ∀ resourceTypes now, (s.queue.dequeue resourceTypes now).2 = none →
    ∀ jobId j, s.queue.jobs.get? jobId = some j → ¬s.queue.Eligible resourceTypes j

theorem Invariant.safe (h : Invariant s) : QueueSafe s where
  deliveredOnce := h.deliveredOnce
  settled := by
    intro events s' hrun
    refine invariant_of_run ?_ (Settled.refl s) hrun
    intro t e t' hsettled hstep
    obtain ⟨logged, heffect⟩ := effect_of_step hstep
    exact hsettled.effect heffect
  withinLimit := s.queue.runningCount_dequeue
  first := by
    intro resourceTypes now jobId claimed hsome
    rcases s.queue.dequeue_first resourceTypes now with
      ⟨heq, _⟩ | ⟨jobId', j, hget, heligible, hfirst, heq⟩
    · rw [heq] at hsome
      contradiction
    · rw [heq] at hsome
      cases hsome
      exact ⟨j, hget, heligible, rfl, hfirst⟩
  idle := by
    intro resourceTypes now hnone
    rcases s.queue.dequeue_first resourceTypes now with ⟨_, hidle⟩ | ⟨jobId, j, _, _, _, heq⟩
    · exact hidle
    · rw [heq] at hnone
      contradiction

/-- The queue's safety on every database, over every interleaving of calls and restarts. -/
theorem run_queueSafe (q : JobQueue) (events : List JobEvent) (s : QueueRun)
    (hrun : run step ⟨q, []⟩ events = some s) : QueueSafe s := by
  have hinvariant : Invariant s := by
    refine invariant_of_run ?_ (Invariant.init q) hrun
    intro t e t' h hstep
    obtain ⟨logged, heffect⟩ := effect_of_step hstep
    exact h.effect heffect
  exact hinvariant.safe

/-- Two workers, a limit that drops to nothing while a job runs, and a restart. -/
theorem run_queueSafe_restart :
    ∃ s, run step ⟨JobQueue.init, []⟩
      [.enqueue "a" { jobType := "embed" } 1,
        .enqueue "b" { jobType := "index", priority := 2, resourceType := "gpu" } 2,
        .dequeue none 3, .setLimit "gpu" 0, .dequeue (some ["gpu"]) 4, .dequeue (some []) 5,
        .complete "b" "{}" 6, .restart, .complete "a" "{}" 7, .cleanup 0 8] = some s ∧
      QueueSafe s := by
  obtain ⟨s, hrun⟩ := Option.isSome_iff_exists.mp
    (by decide : (run step ⟨JobQueue.init, []⟩
      [.enqueue "a" { jobType := "embed" } 1,
        .enqueue "b" { jobType := "index", priority := 2, resourceType := "gpu" } 2,
        .dequeue none 3, .setLimit "gpu" 0, .dequeue (some ["gpu"]) 4, .dequeue (some []) 5,
        .complete "b" "{}" 6, .restart, .complete "a" "{}" 7, .cleanup 0 8]).isSome)
  exact ⟨s, hrun, run_queueSafe _ _ _ hrun⟩

end QueueRun

end TinyAgentOS.Scheduling
