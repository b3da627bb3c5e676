import TinyAgentOS.Cluster.Leases
import TinyAgentOS.Vram.Reservation

/-!
# The GPU arbiter

A submission is admitted against the VRAM ledger or a cluster snapshot and then
runs in its caller's task, or it is queued and waits on a future.  A drain pass
takes the queue's entries in turn, evicts for them, starts one as a task of its
own and puts the others back.

The calls are coroutines of one event loop, so a step is the stretch of one
coroutine between two suspensions; the running lock and the lease lock are never
held across one.  The stretch of a drain pass has loops, and each round of them
is a step of its own during which nothing else is enabled.

Main results:

- Definition `ArbiterState.step`: one stretch of one coroutine.
-/

namespace TinyAgentOS.Gpu

open Cluster Collections Vram

abbrev TaskId := String

/-- A call of `submit_gpu`, with the `Task` object it brings. -/
abbrev SubId := Nat

/-! ## Submissions -/

/-- Exceptions; those of a payload are opaque. -/
inductive ArbiterError where
  | valueError (message : String)
  | noResourceAvailable (message : String)
  | payload
deriving DecidableEq

/-- How a coroutine or a future ends; results are opaque. -/
inductive Outcome where
  | returned
  | raised (error : ArbiterError)
  | cancelled
deriving DecidableEq

/-- The arguments of `submit_gpu` that its control flow reads. -/
structure Request where
  taskId : TaskId
  priority : Int
  submitter : String
  requiredVramMb : Int
  requiredGpuArch : Option String
  op : String
  resourceId : Option String
deriving DecidableEq

/-- `_QueuedGpuTask`. -/
structure QueuedGpuTask where
  seq : Nat
  job : SubId
  request : Request
deriving DecidableEq

namespace QueuedGpuTask

def taskId (e : QueuedGpuTask) : TaskId := e.request.taskId

/-- The order by priority and sequence number. -/
def before (e f : QueuedGpuTask) : Bool :=
  e.request.priority < f.request.priority ||
    (e.request.priority = f.request.priority && e.seq < f.seq)

end QueuedGpuTask

/-- Put an entry at its place in the priority queue. -/
def putEntry (e : QueuedGpuTask) : List QueuedGpuTask → List QueuedGpuTask
  | [] => [e]
  | f :: fs => if e.before f then e :: f :: fs else f :: putEntry e fs

/-- Where a `_reserve_and_check` is suspended.  The reading is the effective free VRAM of
a host with a probe; without a probe the ledger only keeps the books. -/
inductive CheckPhase where
  | available
  | locking (effectiveFree : Option Int)
  | probing (effectiveFree : Option Int)
deriving DecidableEq

/-- The coroutine of `submit_gpu`. -/
inductive Submitter where
  | checking (phase : CheckPhase)
  | waiting (cancelRequested : Bool)
  | inline
  | ended (how : Outcome)
deriving DecidableEq

/-- `_arbiter_future`. -/
inductive FutureState where
  | absent
  | pending
  | resolved (how : Outcome)
deriving DecidableEq

/-- The coroutine of `_run_gpu_task`: spawned by a drain pass, in its payload, or waiting
for its lease renewal to stop. -/
inductive RunState where
  | absent
  | spawned
  | payload (lease : Option LeaseId)
  | stopping (lease : LeaseId) (how : Outcome)
  | ended (how : Outcome)
deriving DecidableEq

/-- About to run, or running. -/
def RunState.active : RunState → Bool
  | spawned => true
  | payload _ => true
  | stopping _ _ => true
  | _ => false

/-- A submission, with the reservation and the lease it was ever given and the worker whose
snapshot admitted it. -/
structure Job where
  request : Request
  submitter : Submitter
  future : FutureState
  run : RunState
  /-- The done-callback of the background task has run. -/
  propagated : Bool
  reservation : Option ReservationId
  lease : Option LeaseId
  site : Option String

namespace Job

/-- A submission as it arrives. -/
def init (request : Request) : Job :=
  ⟨request, .checking .available, .absent, .absent, false, none, none, none⟩

/-- Resolve the future unless it is done. -/
def resolveFuture (j : Job) (how : Outcome) : Job :=
  if j.future = .pending then { j with future := .resolved how } else j

/-- The run ends, and with it a submitter that ran it. -/
def finish (j : Job) (how : Outcome) : Job :=
  { j with
    run := .ended how
    submitter := if j.submitter = .inline then .ended how else j.submitter }

end Job

/-! ## The arbiter's tables -/

/-- A value of `_running`. -/
structure RunningEntry where
  job : SubId
  lease : Option LeaseId
  priority : Int
  vramMb : Int

/-- An `_evict_task` that has taken its victim from `_running` and awaits its end. -/
structure Eviction where
  job : SubId
  taskId : TaskId
  lease : Option LeaseId
deriving DecidableEq

/-- The coroutine of `_drain_queue`. -/
inductive Drain where
  | idle
  | loop (retry : List QueuedGpuTask)
  | checking (entry : QueuedGpuTask) (retry : List QueuedGpuTask) (evicted : Bool)
      (phase : CheckPhase)
  | evicting (entry : QueuedGpuTask) (retry : List QueuedGpuTask) (eviction : Eviction)
  | requeue (retry : List QueuedGpuTask)
deriving DecidableEq

namespace Drain

/-- Between two rounds of a loop, where the coroutine does not suspend. -/
def mid : Drain → Bool
  | loop _ => true
  | requeue _ => true
  | _ => false

/-- The entries a pass has taken from the queue. -/
def held : Drain → List QueuedGpuTask
  | idle => []
  | loop retry => retry
  | checking entry retry _ _ => entry :: retry
  | evicting entry retry _ => entry :: retry
  | requeue retry => retry

end Drain

/-- Who runs a `_reserve_and_check`. -/
inductive Checker where
  | submit (k : SubId)
  | drain
deriving DecidableEq

/-- Who holds the ledger's lock across its probe. -/
inductive LockHolder where
  | checker (who : Checker)
  | outside (vramMb : Int) (caller : String)

/-- Constructor arguments. -/
structure ArbiterParams where
  maxQueueSize : Nat
  evictionEnabled : Bool

/-- The arbiter, the ledger it shares and the cluster, with the history the claims speak of. -/
structure ArbiterState where
  jobs : Dict SubId Job
  seq : Nat
  queue : List QueuedGpuTask
  drain : Drain
  running : Dict TaskId RunningEntry
  queuedEntries : Dict TaskId QueuedGpuTask
  cancelledIds : Finset TaskId
  pendingReservations : Dict TaskId ReservationId
  evictions : Dict Nat Eviction
  paused : Bool
  manager : VramReservationManager
  lock : Option LockHolder
  cluster : Option ClusterManager
  /-- The free VRAM the host last reported to a grant. -/
  reported : Option Int
  issued : List ReservationId
  leaseIds : List LeaseId
  /-- Reservations of callers other than the arbiter. -/
  outside : List ReservationId
  reservationReleases : List ReservationId
  leaseReleases : List LeaseId

/-- A new arbiter. -/
def ArbiterState.init (ttlSeconds : Vram.Clock) (cluster : Option ClusterManager) :
    ArbiterState where
  jobs := Dict.empty
  seq := 0
  queue := []
  drain := .idle
  running := Dict.empty
  queuedEntries := Dict.empty
  cancelledIds := ∅
  pendingReservations := Dict.empty
  evictions := Dict.empty
  paused := false
  manager := VramReservationManager.init ttlSeconds
  lock := none
  cluster := cluster
  reported := none
  issued := []
  leaseIds := []
  outside := []
  reservationReleases := []
  leaseReleases := []

/-! ## Admission -/

/-- `GpuAdmission`, with the fields the arbiter sets. -/
structure GpuAdmission where
  admitted : Bool
  reason : Option String
  freeVramMb : Int
  requiredVramMb : Int

/-- `_resource_on_worker`. -/
def resourceOnWorker (resourceId workerName : String) : Bool :=
  match parseResourceId resourceId with
  | some (worker, _) => worker = workerName
  | none => (workerName ++ ":").toList <+: resourceId.toList

/-- `_check_gpu_arch_compatibility`: why the requirement is not met. -/
def checkGpuArchCompatibility (cluster : Option ClusterManager) (requiredGpuArch : Option String)
    (resourceId : Option String) : Option String :=
  match requiredGpuArch.filter fun arch => arch ≠ "", cluster with
  | some arch, some c =>
    let compatible := fun w : WorkerInfo =>
      (w.status = .online || w.status = .draining) &&
        (arch = w.computeCap || arch.toList <:+: w.gpuModel.toList) &&
        resourceId.all fun r => resourceOnWorker r w.name
    if c.getWorkers.any compatible then none
    else some ("no online worker with GPU architecture " ++ arch)
  | _, _ => none

/-- Free VRAM of a worker beyond its leases and the ledger's reservations. -/
def workerAvailable (leases : List GpuLease) (reservedVramMb : Int) (w : WorkerInfo) :
    Option Int :=
  if w.status = .online then
    w.freeVramMb.map fun freeMb =>
      freeMb -
        ((leases.filter fun l => resourceOnWorker l.resourceId w.name && 0 < l.requiredVramMb).map
          GpuLease.requiredVramMb).sum -
        reservedVramMb
  else none

/-- The first worker with the VRAM, and what it has available. -/
def hostingWorker (c : ClusterManager) (reservedVramMb requiredVramMb : Int)
    (now : Cluster.Instant) : Option (String × Int) :=
  c.getWorkers.findSome? fun w =>
    ((workerAvailable (c.getLeases now) reservedVramMb w).filter fun available =>
      requiredVramMb ≤ available).map fun available => (w.name, available)

/-- `_check_cluster_admission` with a cluster. -/
def checkClusterAdmission (c : ClusterManager) (reservedVramMb requiredVramMb : Int)
    (now : Cluster.Instant) : GpuAdmission :=
  match hostingWorker c reservedVramMb requiredVramMb now with
  | some (_, available) => ⟨true, none, available, requiredVramMb⟩
  | none =>
    ⟨false, some ("no cluster worker with " ++ toString requiredVramMb ++ " MiB free VRAM"), 0,
      requiredVramMb⟩

/-- What a check against the ledger comes to; without a probe it fails open. -/
def ledgerAdmission (effectiveFree : Option Int) (granted : Bool) (requiredVramMb : Int) :
    GpuAdmission :=
  match effectiveFree, granted with
  | none, _ => ⟨true, none, 0, requiredVramMb⟩
  | some freeMb, true => ⟨true, none, freeMb, requiredVramMb⟩
  | some freeMb, false =>
    ⟨false,
      some ("insufficient local VRAM: need " ++ toString requiredVramMb ++ " MiB, have " ++
        toString freeMb ++ " MiB available"), freeMb, requiredVramMb⟩

/-- The victim `evict_lowest_priority` picks: the first with the largest priority value. -/
def lowestPriority (running : Dict TaskId RunningEntry) (minPriority : Int) :
    Option (TaskId × RunningEntry) :=
  (running.entries.foldl
    (fun victim e =>
      if e.2.priority ≤ minPriority then victim
      else if victim.2 < e.2.priority then (some e, e.2.priority)
      else victim)
    (none, -1)).1

/-- A text in quotes, as `repr` shows one without quotes or escapes in it. -/
def quoted (text : String) : String := "'" ++ text ++ "'"

namespace ArbiterState

/-! ## Stretches shared by the coroutines -/

def queueFull (p : ArbiterParams) (s : ArbiterState) : Bool :=
  0 < p.maxQueueSize && p.maxQueueSize ≤ s.queue.length

/-- `_release_reservation`; the history notes what the ledger really gave back. -/
def releaseReservation (s : ArbiterState) (taskId : TaskId) : ArbiterState :=
  let rid := s.pendingReservations.get? taskId
  { s with
    pendingReservations := s.pendingReservations.pop taskId
    manager :=
      match rid with
      | none => s.manager
      | some rid => (s.manager.release rid).1
    reservationReleases :=
      s.reservationReleases ++ (rid.filter fun rid => (s.manager.release rid).2).toList }

/-- The arbiter's calls of `release_lease`; a lease was only claimed with a cluster. -/
def releaseLease (s : ArbiterState) (lease : Option LeaseId) : ArbiterState :=
  { s with
    cluster :=
      match lease with
      | none => s.cluster
      | some leaseId => s.cluster.map fun c => c.releaseLease leaseId
    leaseReleases := s.leaseReleases ++ lease.toList }

/-- Resolve the future of a submission unless it is done. -/
def resolveFuture (s : ArbiterState) (k : SubId) (how : Outcome) : ArbiterState :=
  { s with jobs := s.jobs.modify k fun j => j.resolveFuture how }

/-- The end of `_run_gpu_task`: an evictor that has taken the entry releases the lease. -/
def finishRun (s : ArbiterState) (k : SubId) (j : Job) (how : Outcome) : ArbiterState :=
  let entry := s.running.get? j.request.taskId
  { s.releaseReservation j.request.taskId with
    running := s.running.pop j.request.taskId
    jobs := s.jobs.set k (j.finish how) }.releaseLease (entry.bind RunningEntry.lease)

/-- Register in `_running` and go into the payload. -/
def register (s : ArbiterState) (k : SubId) (j : Job) (lease : Option LeaseId) : ArbiterState :=
  { s with
    running := s.running.set j.request.taskId
      ⟨k, lease, j.request.priority, j.request.requiredVramMb⟩
    jobs := s.jobs.set k { j with run := .payload lease, lease := lease } }

/-- `_run_gpu_task` up to its payload; the lease id is the one a claim draws. -/
def startRun (s : ArbiterState) (k : SubId) (j : Job) (leaseId : LeaseId) (now : Cluster.Instant) :
    ArbiterState :=
  match s.cluster, j.request.resourceId with
  | some c, some resourceId =>
    let claimed := c.claimLease resourceId j.request.submitter arbiterLeaseTtl
      j.request.requiredVramMb leaseId now
    if claimed.2.isSome then
      { s with cluster := some claimed.1, leaseIds := leaseId :: s.leaseIds }.register k j
        (some leaseId)
    else
      s.finishRun k j
        (.raised (.noResourceAvailable
          ("GPU lease claim failed for " ++ resourceId ++ " (task " ++ j.request.taskId ++ ")")))
  | _, _ => s.register k j none

/-- Not admitted: drop the submission when the queue is full, else queue it. -/
def enqueue (p : ArbiterParams) (s : ArbiterState) (k : SubId) (j : Job) : ArbiterState :=
  let taskId := j.request.taskId
  let s := s.releaseReservation taskId
  if s.queueFull p then
    let error := .noResourceAvailable
      ("GPU arbiter queue full (" ++ toString p.maxQueueSize ++ "), dropped task " ++ taskId)
    { s with jobs := s.jobs.set k { j with submitter := .ended (.raised error) } }
  else
    let entry : QueuedGpuTask := ⟨s.seq + 1, k, j.request⟩
    { s with
      seq := s.seq + 1
      queue := putEntry entry s.queue
      queuedEntries := s.queuedEntries.set taskId entry
      jobs := s.jobs.set k { j with submitter := .waiting false, future := .pending } }

/-- `_evict_task` up to its wait.  From within the victim's own task there is none. -/
def finishEvict (s : ArbiterState) (eviction : Eviction) : ArbiterState :=
  ((s.releaseReservation eviction.taskId).releaseLease eviction.lease).resolveFuture eviction.job
    .cancelled

def evictTask (s : ArbiterState) (evictor : Nat) (taskId : TaskId) (bySelf : Bool) :
    ArbiterState :=
  match s.running.get? taskId with
  | none => s
  | some r =>
    let eviction : Eviction := ⟨r.job, taskId, r.lease⟩
    let s := { s with running := s.running.pop taskId }
    if bySelf then s.finishEvict eviction
    else { s with evictions := s.evictions.set evictor eviction }

/-- The victim's task is done, and so is its done-callback, which was added first. -/
def evictionOver (s : ArbiterState) (eviction : Eviction) : Bool :=
  (s.jobs.get? eviction.job).any fun j =>
    match j.run with
    | .ended _ => j.future = .absent || j.propagated
    | _ => false

/-! ## Checks -/

/-- The submission and the phase of a check under way. -/
def checking (s : ArbiterState) : Checker → Option (SubId × Request × CheckPhase)
  | .submit k =>
    (s.jobs.get? k).bind fun j =>
      match j.submitter with
      | .checking phase => some (k, j.request, phase)
      | _ => none
  | .drain =>
    match s.drain with
    | .checking entry _ _ phase => some (entry.job, entry.request, phase)
    | _ => none

def setPhase (s : ArbiterState) (phase : CheckPhase) : Checker → ArbiterState
  | .submit k => { s with jobs := s.jobs.modify k fun j => { j with submitter := .checking phase } }
  | .drain =>
    match s.drain with
    | .checking entry retry evicted _ => { s with drain := .checking entry retry evicted phase }
    | _ => s

/-- `submit_gpu` after its check. -/
def submitChecked (p : ArbiterParams) (s : ArbiterState) (k : SubId) (admission : GpuAdmission)
    (leaseId : LeaseId) (now : Cluster.Instant) : ArbiterState :=
  match s.jobs.get? k with
  | none => s
  | some j =>
    if admission.admitted then s.startRun k { j with submitter := .inline } leaseId now
    else s.enqueue p k j

/-- Start an entry in a task of its own and leave the loop. -/
def spawn (s : ArbiterState) (entry : QueuedGpuTask) (retry : List QueuedGpuTask) : ArbiterState :=
  { s with
    jobs := s.jobs.modify entry.job fun j => { j with run := .spawned }
    queuedEntries := s.queuedEntries.pop entry.taskId
    drain := .requeue retry }

/-- `_drain_queue` after a check of its entry. -/
def drainChecked (p : ArbiterParams) (s : ArbiterState) (admission : GpuAdmission) :
    ArbiterState :=
  match s.drain with
  | .checking entry retry evicted _ =>
    if admission.admitted then
      -- Cancelled while the check was suspended.
      if entry.taskId ∈ s.cancelledIds then
        { s with
          cancelledIds := s.cancelledIds.erase entry.taskId
          drain := .loop retry }.releaseReservation entry.taskId
      else s.spawn entry retry
    else
      match evicted, if p.evictionEnabled then lowestPriority s.running entry.request.priority
          else none with
      | false, some (taskId, r) =>
        { s with
          running := s.running.pop taskId
          drain := .evicting entry retry ⟨r.job, taskId, r.lease⟩ }
      | _, _ =>
        { s with drain := .loop (retry ++ [entry]) }.releaseReservation entry.taskId
  | _ => s

def checked (p : ArbiterParams) (s : ArbiterState) (who : Checker) (admission : GpuAdmission)
    (leaseId : LeaseId) (now : Cluster.Instant) : ArbiterState :=
  match who with
  | .submit k => s.submitChecked p k admission leaseId now
  | .drain => s.drainChecked p admission

def sweep (s : ArbiterState) (now : Vram.Clock) : ArbiterState :=
  { s with manager := (s.manager.sweepStaleUnlocked now).1 }

/-- Note the worker that can host a submission. -/
def noteSite (s : ArbiterState) (k : SubId) (site : Option String) : ArbiterState :=
  { s with jobs := s.jobs.modify k fun j => { j with site := site } }

/-- The reading of `available_vram` is in: go for the ledger, or ask the cluster. -/
def availableRead (p : ArbiterParams) (s : ArbiterState) (who : Checker) (k : SubId)
    (request : Request) (probe : Probe) (leaseId : LeaseId) (now : Vram.Clock) : ArbiterState :=
  let reading := (s.manager.availableVram now probe).2
  let s := s.sweep now
  if 0 < reading.2 then s.setPhase (.locking (some reading.1)) who
  else
    match s.cluster with
    | some c =>
      let reservedVramMb := s.manager.reservedVramMb
      (s.noteSite k
        ((hostingWorker c reservedVramMb request.requiredVramMb now).map Prod.fst)).checked p who
          (checkClusterAdmission c reservedVramMb request.requiredVramMb now) leaseId now
    | none => s.setPhase (.locking none) who

/-- Note a granted reservation. -/
def noteGrant (s : ArbiterState) (k : SubId) (taskId : TaskId) (rid : ReservationId)
    (manager : VramReservationManager) (probe : Probe) : ArbiterState :=
  { s with
    manager := manager
    reported := (probe.map Prod.fst).or s.reported
    pendingReservations := s.pendingReservations.set taskId rid
    jobs := s.jobs.modify k fun j => { j with reservation := some rid } }

/-- The ledger has decided. -/
def reserved (p : ArbiterParams) (s : ArbiterState) (who : Checker) (k : SubId)
    (request : Request) (effectiveFree : Option Int) (probe : Probe) (rid : ReservationId)
    (leaseId : LeaseId) (now : Vram.Clock) : ArbiterState :=
  let decided := s.manager.reserveDecision request.requiredVramMb
    ("gpu-task:" ++ request.taskId) probe rid now
  let s := { s with lock := none, issued := rid :: s.issued }
  match decided.2 with
  | none => s.checked p who (ledgerAdmission effectiveFree false request.requiredVramMb) leaseId now
  | some _ =>
    (s.noteGrant k request.taskId rid decided.1 probe).checked p who
      (ledgerAdmission effectiveFree true request.requiredVramMb) leaseId now

/-! ## The coroutines -/

/-- The refusals of `submit_gpu` before any check. -/
def submitRefusal (s : ArbiterState) (request : Request) : Option ArbiterError :=
  if request.op ≠ "inference" ∧ request.op ≠ "load" then
    some (.valueError
      ("unknown gpu_op: " ++ quoted request.op ++ " (expected 'inference' or 'load')"))
  else
    (checkGpuArchCompatibility s.cluster request.requiredGpuArch request.resourceId).map
      fun reason => .noResourceAvailable
        ("GPU architecture requirement not met: " ++ reason ++ " (task " ++ request.taskId ++ ")")

/-- `submit_gpu` up to its first suspension. -/
def submit (s : ArbiterState) (k : SubId) (request : Request) (leaseId : LeaseId)
    (now : Cluster.Instant) : ArbiterState :=
  let j := Job.init request
  match s.submitRefusal request with
  | some error => { s with jobs := s.jobs.set k { j with submitter := .ended (.raised error) } }
  | none =>
    if 0 < request.requiredVramMb then { s with jobs := s.jobs.set k j }
    else s.startRun k { j with submitter := .inline } leaseId now

/-- The task that called `submit_gpu` is cancelled.  A payload decides itself how it ends. -/
def cancelSubmitter (s : ArbiterState) (k : SubId) (j : Job) : Option ArbiterState :=
  match j.submitter with
  | .checking phase =>
    some
      { s with
        lock := if phase matches .probing _ then none else s.lock
        jobs := s.jobs.set k { j with submitter := .ended .cancelled } }
  | .waiting _ =>
    -- The cancellation goes to the future; the submitter sees it when it wakes.
    some
      { s with
        jobs := s.jobs.set k { j.resolveFuture .cancelled with submitter := .waiting true } }
  | _ => none

/-- `submit_gpu` wakes on its future. -/
def wake (s : ArbiterState) (k : SubId) (j : Job) : Option ArbiterState :=
  match j.submitter, j.future with
  | .waiting cancelRequested, .resolved how =>
    if cancelRequested ∨ how = .cancelled then
      some
        { s with
          queuedEntries := s.queuedEntries.pop j.request.taskId
          cancelledIds := insert j.request.taskId s.cancelledIds
          jobs := s.jobs.set k { j with submitter := .ended .cancelled } }
    else some { s with jobs := s.jobs.set k { j with submitter := .ended how } }
  | _, _ => none

/-- A payload ends; without a lease there is nothing to wait for. -/
def payloadEnds (s : ArbiterState) (k : SubId) (j : Job) (how : Outcome) : Option ArbiterState :=
  match j.run with
  | .payload none => some (s.finishRun k j how)
  | .payload (some leaseId) =>
    some { s with jobs := s.jobs.set k { j with run := .stopping leaseId how } }
  | _ => none

/-- A round of `_renew_lease_loop`; a lost lease cancels the submitter's future. -/
def renew (s : ArbiterState) (k : SubId) (j : Job) (now : Cluster.Instant) : Option ArbiterState :=
  match j.run, s.cluster with
  | .payload (some leaseId), some c =>
    let renewed := c.renewLease leaseId arbiterLeaseTtl now
    let s := { s with cluster := some renewed.1 }
    if renewed.2.isSome then some s else some (s.resolveFuture k .cancelled)
  | _, _ => none

/-- `_propagate`: a cancelled task leaves the future alone. -/
def propagate (s : ArbiterState) (k : SubId) (j : Job) : Option ArbiterState :=
  match j.run with
  | .ended how =>
    if j.future = .absent ∨ j.propagated then none
    else
      let j := if how = .cancelled then j else j.resolveFuture how
      some { s with jobs := s.jobs.set k { j with propagated := true } }
  | _ => none

/-- `cancel_op`: a queued entry is cancelled, a running task evicted. -/
def cancelOp (s : ArbiterState) (evictor : Nat) (taskId : TaskId) (bySelf : Bool) : ArbiterState :=
  match s.queuedEntries.get? taskId with
  | some entry =>
    ({ s with
        queuedEntries := s.queuedEntries.pop taskId
        cancelledIds := insert taskId s.cancelledIds }.releaseReservation taskId).resolveFuture
      entry.job .cancelled
  | none => s.evictTask evictor taskId bySelf

/-- One round of the loops of `_drain_queue`.  Nothing runs between the two looks at
`_cancelled_ids` around an insertion, so the second never fires. -/
def drainStep (p : ArbiterParams) (s : ArbiterState) : Option ArbiterState :=
  match s.drain with
  | .loop retry =>
    match s.queue with
    | [] => some { s with drain := .requeue retry }
    | entry :: rest =>
      if entry.taskId ∈ s.cancelledIds then
        some { s with queue := rest, cancelledIds := s.cancelledIds.erase entry.taskId }
      else some { s with queue := rest, drain := .checking entry retry false .available }
  | .requeue [] => some { s with drain := .idle }
  | .requeue (entry :: rest) =>
    let s := { s with drain := .requeue rest }
    if entry.taskId ∈ s.cancelledIds then
      some { s with cancelledIds := s.cancelledIds.erase entry.taskId }
    else if s.queueFull p then
      some (s.resolveFuture entry.job
        (.raised (.noResourceAvailable "queue full, task dropped")))
    else
      some
        { s with
          queue := putEntry entry s.queue
          queuedEntries := s.queuedEntries.set entry.taskId entry }
  | _ => none

/-- An exception or the cancellation of the queue processor ends a pass during a check. -/
def drainRaises (s : ArbiterState) : Option ArbiterState :=
  match s.drain with
  | .checking _ _ _ phase =>
    some { s with drain := .idle, lock := if phase matches .probing _ then none else s.lock }
  | _ => none

/-- The victim of a drain pass is gone: check the entry again. -/
def drainEvicted (s : ArbiterState) : Option ArbiterState :=
  match s.drain with
  | .evicting entry retry eviction =>
    if s.evictionOver eviction then
      some { s.finishEvict eviction with drain := .checking entry retry true .available }
    else none
  | _ => none

end ArbiterState

/-- Stretches of the coroutines, and what happens around the arbiter. -/
inductive ArbiterEvent where
  | submit (k : SubId) (request : Request) (leaseId : LeaseId) (now : Cluster.Instant)
  | availableRead (who : Checker) (probe : Probe) (leaseId : LeaseId) (now : Vram.Clock)
  | acquire (who : Checker) (now : Vram.Clock)
  | reserved (who : Checker) (probe : Probe) (rid : ReservationId) (leaseId : LeaseId)
      (now : Vram.Clock)
  | cancelSubmitter (k : SubId)
  | wake (k : SubId)
  | runStarts (k : SubId) (leaseId : LeaseId) (now : Cluster.Instant)
  | payloadEnds (k : SubId) (how : Outcome)
  | renewalStops (k : SubId)
  | renew (k : SubId) (now : Cluster.Instant)
  | propagate (k : SubId)
  | cancelOp (evictor : Nat) (taskId : TaskId) (bySelf : Bool)
  | evict (evictor : Nat) (taskId : TaskId) (bySelf : Bool)
  | evicted (evictor : Nat)
  | drainBegins
  | drainStep
  | drainEvicted
  | drainRaises
  | pause
  | resume
  | sweepStale (now : Vram.Clock)
  | outsideAcquire (vramMb : Int) (caller : String) (now : Vram.Clock)
  | outsideReserved (probe : Probe) (rid : ReservationId) (now : Vram.Clock)
  | outsideAborted
  | outsideRelease (rid : ReservationId)
  | clusterChanges (cluster : ClusterManager)

namespace ArbiterState

/-- The callers that share the ledger with the arbiter. -/
def outsideReserved (s : ArbiterState) (probe : Probe) (rid : ReservationId) (now : Vram.Clock) :
    Option ArbiterState :=
  match s.lock with
  | some (.outside vramMb caller) =>
    if rid ∈ s.issued then none
    else
      let decided := s.manager.reserveDecision vramMb caller probe rid now
      let s := { s with lock := none, issued := rid :: s.issued }
      match decided.2 with
      | none => some s
      | some _ =>
        some
          { s with
            manager := decided.1
            reported := (probe.map Prod.fst).or s.reported
            outside := rid :: s.outside }
  | _ => none

/-- One stretch; ids that are drawn are fresh. -/
def stretch (p : ArbiterParams) (s : ArbiterState) : ArbiterEvent → Option ArbiterState
  | .submit k request leaseId now =>
    if (s.jobs.get? k).isSome ∨ leaseId ∈ s.leaseIds then none
    else some (s.submit k request leaseId now)
  | .availableRead who probe leaseId now =>
    match s.checking who with
    | some (k, request, .available) =>
      if leaseId ∈ s.leaseIds then none
      else some (s.availableRead p who k request probe leaseId now)
    | _ => none
  | .acquire who now =>
    match s.checking who with
    | some (_, _, .locking effectiveFree) =>
      if s.lock = none then
        some ({ s.sweep now with lock := some (.checker who) }.setPhase
          (.probing effectiveFree) who)
      else none
    | _ => none
  | .reserved who probe rid leaseId now =>
    match s.checking who with
    | some (k, request, .probing effectiveFree) =>
      if rid ∈ s.issued ∨ leaseId ∈ s.leaseIds then none
      else some (s.reserved p who k request effectiveFree probe rid leaseId now)
    | _ => none
  | .cancelSubmitter k => (s.jobs.get? k).bind fun j => s.cancelSubmitter k j
  | .wake k => (s.jobs.get? k).bind fun j => s.wake k j
  | .runStarts k leaseId now =>
    match s.jobs.get? k with
    | some j =>
      if j.run = .spawned ∧ leaseId ∉ s.leaseIds then some (s.startRun k j leaseId now)
      else none
    | none => none
  | .payloadEnds k how => (s.jobs.get? k).bind fun j => s.payloadEnds k j how
  | .renewalStops k =>
    match s.jobs.get? k with
    | some j =>
      match j.run with
      | .stopping _ how => some (s.finishRun k j how)
      | _ => none
    | none => none
  | .renew k now => (s.jobs.get? k).bind fun j => s.renew k j now
  | .propagate k => (s.jobs.get? k).bind fun j => s.propagate k j
  | .cancelOp evictor taskId bySelf =>
    if (s.evictions.get? evictor).isSome then none else some (s.cancelOp evictor taskId bySelf)
  | .evict evictor taskId bySelf =>
    if (s.evictions.get? evictor).isSome then none else some (s.evictTask evictor taskId bySelf)
  | .evicted evictor =>
    match s.evictions.get? evictor with
    | some eviction =>
      if s.evictionOver eviction then
        some ({ s with evictions := s.evictions.pop evictor }.finishEvict eviction)
      else none
    | none => none
  | .drainBegins =>
    if s.drain = .idle ∧ s.paused = false then some { s with drain := .loop [] } else none
  | .drainStep => none
  | .drainEvicted => s.drainEvicted
  | .drainRaises => s.drainRaises
  | .pause => some { s with paused := true }
  | .resume => some { s with paused := false }
  | .sweepStale now => some (s.sweep now)
  | .outsideAcquire vramMb caller now =>
    if 0 < vramMb ∧ s.lock = none then
      some { s.sweep now with lock := some (.outside vramMb caller) }
    else none
  | .outsideReserved probe rid now => s.outsideReserved probe rid now
  | .outsideAborted =>
    match s.lock with
    | some (.outside _ _) => some { s with lock := none }
    | _ => none
  | .outsideRelease rid =>
    if rid ∈ s.outside then some { s with manager := (s.manager.release rid).1 } else none
  | .clusterChanges cluster =>
    if s.cluster.isSome then some { s with cluster := some cluster } else none

/-- One step: while a drain pass is between two rounds, only it goes on. -/
def step (p : ArbiterParams) (s : ArbiterState) (e : ArbiterEvent) : Option ArbiterState :=
  if s.drain.mid then
    match e with
    | .drainStep => s.drainStep p
    | _ => none
  else s.stretch p e

end ArbiterState

end TinyAgentOS.Gpu
