import TinyAgentOS.Cluster.Leases
import TinyAgentOS.Library.Transition

/-!
# The cluster manager and its monitor

Workers register, send heartbeats, are drained and removed, and take leases
while a monitor loop visits them in turn.  A registration replaces the record
of a worker, and the monitor keeps references to the records it is about to
visit, so records live in a memory of their own.  The monitor suspends while it
reads the durable generation, sends a notification or has tasks cancelled; the
lease lock is never held there, so every other operation is one step.

Main results:

- Definition `step`: one call, or one stretch of the monitor between suspensions.
- Definition `start`: a manager with the workers that were persisted.
-/

namespace TinyAgentOS.Cluster

open Collections Transition

/-! ## Records -/

/-- A worker's record: what admission reads, and what the monitor and routing do. -/
structure Worker extends WorkerInfo where
  lastHeartbeat : Instant
  capabilities : List String
  load : Rat
deriving DecidableEq

/-- A reference to a record. -/
abbrev WorkerRef := Nat

/-- What a heartbeat carries. -/
structure Heartbeat where
  load : Rat := 0
  capabilities : Option (List String) := none
  freeVramMb : Option Int := none
  hardware : Option (String × String) := none
  status : Option String := none
  generation : Option Int := none
deriving DecidableEq

/-- Which of the optional parts the manager was given. -/
structure Wiring where
  notifications : Bool
  registryStore : Bool
  gpuArbiter : Bool

/-- `HEARTBEAT_TIMEOUT`. -/
def heartbeatTimeout : Int := 30

/-- `_VALID_STATUSES`: the statuses a worker may report. -/
def reportedStatus (text : String) : Option WorkerStatus :=
  if text = "draining" then some .draining
  else if text = "update-available" then some .updateAvailable
  else if text = "updating" then some .updating
  else none

namespace WorkerStatus

/-- The statuses in which a worker is routed to and takes leases. -/
def claimable (status : WorkerStatus) : Bool :=
  status = .online || status = .updateAvailable

/-- The statuses a heartbeat without a valid one leaves as they are. -/
def guarded (status : WorkerStatus) : Bool :=
  status = .draining || status = .updateAvailable || status = .updating

/-- The status after a heartbeat. -/
def afterHeartbeat (status : WorkerStatus) (reported : Option WorkerStatus) : WorkerStatus :=
  match reported with
  | some status' => status'
  | none => if status.guarded then status else .online

end WorkerStatus

namespace Worker

def timedOut (w : Worker) (now : Instant) : Bool := heartbeatTimeout < now - w.lastHeartbeat

/-- A record after an accepted heartbeat. -/
def heard (w : Worker) (beat : Heartbeat) (now : Instant) : Worker :=
  { w with
    lastHeartbeat := now
    load := beat.load
    status := w.status.afterHeartbeat (beat.status.bind reportedStatus)
    capabilities := beat.capabilities.getD w.capabilities
    freeVramMb := beat.freeVramMb.or w.freeVramMb
    gpuModel := (beat.hardware.map Prod.fst).getD w.gpuModel
    computeCap := (beat.hardware.map Prod.snd).getD w.computeCap }

end Worker

/-! ## The manager -/

/-- Where the monitor loop is.  A suspended pass remembers the time it began and the
records still to be visited. -/
inductive MonitorPhase where
  | sleeping
  | readingGeneration
  | notifying (now : Instant) (ref : WorkerRef) (thenDrop : Bool) (todo : List WorkerRef)
  | cancelling (now : Instant) (todo : List WorkerRef)
  | cancellingFenced (todo : List WorkerRef)
  | stopped
deriving DecidableEq

/-- The manager's tables, the records they refer to, the clock, the monitor, and the lease
ids that were ever drawn. -/
structure Fleet where
  objects : WorkerRef → Worker
  nextRef : WorkerRef
  workers : Dict String WorkerRef
  leases : Dict LeaseId GpuLease
  fenced : Bool
  generation : Int
  clock : Instant
  monitor : MonitorPhase
  issued : List LeaseId

namespace Fleet

/-- The record registered under a name. -/
def worker? (s : Fleet) (name : String) : Option Worker := (s.workers.get? name).map s.objects

/-- The tables as lease operations see them. -/
def cluster (s : Fleet) : ClusterManager where
  workers := s.workers.mapValues fun ref => (s.objects ref).toWorkerInfo
  leases := s.leases

def setObject (s : Fleet) (ref : WorkerRef) (w : Worker) : Fleet :=
  { s with objects := Function.update s.objects ref w }

def setStatus (s : Fleet) (ref : WorkerRef) (status : WorkerStatus) : Fleet :=
  s.setObject ref { s.objects ref with status := status }

/-- A lease on one of a worker's resources. -/
def leaseOn (name : String) (lease : GpuLease) : Bool :=
  (parseResourceId lease.resourceId).any fun parsed => parsed.1 = name

/-- The leases on a worker's resources, expired ones included. -/
def leaseIdsOn (s : Fleet) (name : String) : List LeaseId :=
  (s.leases.entries.filter fun e => leaseOn name e.2).map Prod.fst

def dropLeases (s : Fleet) (ids : List LeaseId) : Fleet :=
  { s with leases := ids.foldl Dict.pop s.leases }

/-- `_sweep_expired_leases`. -/
def sweepExpiredLeases (s : Fleet) : Fleet :=
  s.dropLeases ((s.leases.entries.filter fun e => e.2.expired s.clock).map Prod.fst)

/-! ### Operations -/

/-- A generation that another controller has handed out. -/
def staleGeneration (s : Fleet) (generation : Option Int) : Bool :=
  generation.any fun g => g ≠ s.generation

/-- `register_worker`: a new record replaces the one under the name. -/
def registerWorker (s : Fleet) (info : Worker) (generation : Option Int) : Fleet :=
  if s.fenced || s.staleGeneration generation then s
  else
    { s with
      objects := Function.update s.objects s.nextRef
        { info with status := .online, lastHeartbeat := s.clock }
      nextRef := s.nextRef + 1
      workers := s.workers.set info.name s.nextRef }

/-- `heartbeat`. -/
def heartbeat (s : Fleet) (name : String) (beat : Heartbeat) : Fleet :=
  match s.workers.get? name with
  | none => s
  | some ref =>
    if s.fenced || s.staleGeneration beat.generation then s
    else s.setObject ref ((s.objects ref).heard beat s.clock)

/-- `unregister_worker`. -/
def unregisterWorker (s : Fleet) (name : String) : Fleet :=
  match s.workers.get? name with
  | none => s
  | some _ =>
    let s := s.dropLeases (s.leaseIdsOn name)
    { s with workers := s.workers.pop name }

/-- `claim_lease`; the id is the one a granted lease draws. -/
def claimLease (s : Fleet) (resourceId caller : String) (ttl : Seconds)
    (requiredVramMb : Int) (leaseId : LeaseId) : Fleet :=
  match s.cluster.claimLease resourceId caller ttl requiredVramMb leaseId s.clock with
  | (_, none) => s
  | (c, some _) => { s with leases := c.leases, issued := leaseId :: s.issued }

/-- `release_lease`. -/
def releaseLease (s : Fleet) (leaseId : LeaseId) : Fleet :=
  { s with leases := (s.cluster.releaseLease leaseId).leases }

/-- `renew_lease`. -/
def renewLease (s : Fleet) (leaseId : LeaseId) (ttl : Seconds) : Fleet :=
  { s with leases := (s.cluster.renewLease leaseId ttl s.clock).1.leases }

/-- `drain_worker` up to the cancellation of tasks. -/
def drainWorker (s : Fleet) (name : String) (graceful : Bool) : Fleet :=
  match s.workers.get? name with
  | none => s
  | some ref =>
    let s := s.setStatus ref .draining
    if graceful then s else (s.dropLeases (s.leaseIdsOn name)).setStatus ref .offline

/-- `cancel_drain`. -/
def cancelDrain (s : Fleet) (name : String) : Fleet :=
  match s.workers.get? name with
  | none => s
  | some ref => if (s.objects ref).status = .draining then s.setStatus ref .online else s

/-- A worker is blocked or its pairing revoked: an online one is marked offline. -/
def setOffline (s : Fleet) (name : String) : Fleet :=
  match s.workers.get? name with
  | none => s
  | some ref => if (s.objects ref).status = .online then s.setStatus ref .offline else s

/-! ### Routing -/

/-- The workers that are routed to. -/
def routable (s : Fleet) : List Worker :=
  (s.workers.values.map s.objects).filter fun w => w.status.claimable

/-- `get_workers_for_capability`: the least loaded first. -/
def getWorkersForCapability (s : Fleet) (capability : String) : List Worker :=
  (s.routable.filter fun w => capability ∈ w.capabilities).insertionSort fun w w' =>
    w.load ≤ w'.load

/-- `get_best_worker`. -/
def getBestWorker (s : Fleet) (capability : String) : Option Worker :=
  (s.getWorkersForCapability capability).head?

/-- The workers that `aggregate_catalog` lists, with what they can do. -/
def aggregateCatalog (s : Fleet) : List (String × List String) :=
  s.routable.map fun w => (w.name, w.capabilities)

/-! ### The monitor loop -/

/-- What the monitor does about a worker it visits. -/
inductive Verdict where
  | keep
  | timedOut
  | drained
  | forceDrained
deriving DecidableEq

/-- The controller's own worker is left alone; others time out or finish their drain. -/
def verdict (s : Fleet) (now : Instant) (ref : WorkerRef) : Verdict :=
  let w := s.objects ref
  if w.name = "local" then .keep
  else
    match w.status with
    | .online | .updateAvailable | .updating => if w.timedOut now then .timedOut else .keep
    | .draining =>
      if s.leaseIdsOn w.name = [] then .drained
      else if w.timedOut now then .forceDrained
      else .keep
    | .offline | .stale => .keep

/-- Drop the leases under a record's name; the tasks behind them are cancelled. -/
def dropFor (p : Wiring) (s : Fleet) (ref : WorkerRef) (cancelling : MonitorPhase) :
    Fleet × Option MonitorPhase :=
  let ids := s.leaseIdsOn (s.objects ref).name
  (s.dropLeases ids, if ids ≠ [] ∧ p.gpuArbiter then some cancelling else none)

/-- Visit a worker; a suspension remembers the records still to be visited. -/
def visit (p : Wiring) (s : Fleet) (now : Instant) (ref : WorkerRef) (todo : List WorkerRef) :
    Fleet × Option MonitorPhase :=
  match s.verdict now ref with
  | .keep => (s, none)
  | .timedOut =>
    let s := s.setStatus ref .offline
    if p.notifications then (s, some (.notifying now ref true todo))
    else s.dropFor p ref (.cancelling now todo)
  | .drained =>
    (s.setStatus ref .offline,
      if p.notifications then some (.notifying now ref false todo) else none)
  | .forceDrained => (s.setStatus ref .offline).dropFor p ref (.cancelling now todo)

/-- Visit workers until the monitor suspends; at the end of a pass, sweep and sleep. -/
def rounds (p : Wiring) (now : Instant) : List WorkerRef → Fleet → Fleet
  | [], s => { s.sweepExpiredLeases with monitor := .sleeping }
  | ref :: todo, s =>
    match s.visit p now ref todo with
    | (s, none) => rounds p now todo s
    | (s, some phase) => { s with monitor := phase }

/-- A fenced controller takes a worker offline and drops its leases. -/
def visitFenced (p : Wiring) (s : Fleet) (ref : WorkerRef) (todo : List WorkerRef) :
    Fleet × Option MonitorPhase :=
  let w := s.objects ref
  if w.name = "local" then (s, none)
  else
    let s := if w.status.claimable then s.setStatus ref .offline else s
    s.dropFor p ref (.cancellingFenced todo)

/-- A pass of a fenced controller. -/
def fencedRounds (p : Wiring) : List WorkerRef → Fleet → Fleet
  | [], s => { s with monitor := .sleeping }
  | ref :: todo, s =>
    match s.visitFenced p ref todo with
    | (s, none) => fencedRounds p todo s
    | (s, some phase) => { s with monitor := phase }

/-- Begin a pass over the workers registered now. -/
def beginPass (p : Wiring) (s : Fleet) : Fleet :=
  if s.fenced then fencedRounds p s.workers.values s
  else rounds p s.clock s.workers.values s

/-- The sleep is over: check the fence first. -/
def wakeUp (p : Wiring) (s : Fleet) : Option Fleet :=
  match s.monitor with
  | .sleeping =>
    if !s.fenced && p.registryStore then some { s with monitor := .readingGeneration }
    else some (s.beginPass p)
  | _ => none

/-- The durable generation was read; a failed read leaves the fence as it is. -/
def generationRead (p : Wiring) (s : Fleet) (durable : Option Int) : Option Fleet :=
  match s.monitor with
  | .readingGeneration =>
    let fenced := s.fenced || durable.any fun g => s.generation < g
    some (beginPass p { s with fenced := fenced })
  | _ => none

/-- The notification was sent; an exception there ends the loop. -/
def notified (p : Wiring) (s : Fleet) (raises : Bool) : Option Fleet :=
  match s.monitor with
  | .notifying now ref thenDrop todo =>
    if raises then some { s with monitor := .stopped }
    else if thenDrop then
      match s.dropFor p ref (.cancelling now todo) with
      | (s, none) => some (rounds p now todo s)
      | (s, some phase) => some { s with monitor := phase }
    else some (rounds p now todo s)
  | _ => none

/-- The tasks behind dropped leases were cancelled. -/
def cancelled (p : Wiring) (s : Fleet) : Option Fleet :=
  match s.monitor with
  | .cancelling now todo => some (rounds p now todo s)
  | .cancellingFenced todo => some (fencedRounds p todo s)
  | _ => none

end Fleet

/-! ## Runs -/

/-- What can happen next. -/
inductive FleetEvent where
  | tick (now : Instant)
  | registerWorker (info : Worker) (generation : Option Int)
  | heartbeat (name : String) (beat : Heartbeat)
  | unregisterWorker (name : String)
  | claimLease (resourceId caller : String) (ttl : Seconds) (requiredVramMb : Int)
      (leaseId : LeaseId)
  | releaseLease (leaseId : LeaseId)
  | renewLease (leaseId : LeaseId) (ttl : Seconds)
  | drainWorker (name : String) (graceful : Bool)
  | cancelDrain (name : String)
  | setOffline (name : String)
  | wakeUp
  | generationRead (durable : Option Int)
  | notified (raises : Bool)
  | cancelled
  | stop
deriving DecidableEq

namespace Fleet

/-- One step: the clock does not run backwards and lease ids are drawn once. -/
def step (p : Wiring) (s : Fleet) : FleetEvent → Option Fleet
  | .tick now => if s.clock ≤ now then some { s with clock := now } else none
  | .registerWorker info generation => some (s.registerWorker info generation)
  | .heartbeat name beat => some (s.heartbeat name beat)
  | .unregisterWorker name => some (s.unregisterWorker name)
  | .claimLease resourceId caller ttl requiredVramMb leaseId =>
    if leaseId ∈ s.issued then none
    else some (s.claimLease resourceId caller ttl requiredVramMb leaseId)
  | .releaseLease leaseId => some (s.releaseLease leaseId)
  | .renewLease leaseId ttl => some (s.renewLease leaseId ttl)
  | .drainWorker name graceful => some (s.drainWorker name graceful)
  | .cancelDrain name => some (s.cancelDrain name)
  | .setOffline name => some (s.setOffline name)
  | .wakeUp => s.wakeUp p
  | .generationRead durable => s.generationRead p durable
  | .notified raises => s.notified p raises
  | .cancelled => s.cancelled p
  | .stop => some { s with monitor := .stopped }

/-- A manager before it loads what was persisted. -/
def blank (generation : Int) (clock : Instant) : Fleet where
  objects := fun _ =>
    { name := "", status := .stale, gpuModel := "", computeCap := "", freeVramMb := none,
      lastHeartbeat := clock, capabilities := [], load := 0 }
  nextRef := 0
  workers := Dict.empty
  leases := Dict.empty
  fenced := false
  generation := generation
  clock := clock
  monitor := .sleeping
  issued := []

/-- Enter a persisted worker, except the controller's own. -/
def loadWorker (s : Fleet) (info : Worker) : Fleet :=
  if info.name = "local" then s
  else
    { s with
      objects := Function.update s.objects s.nextRef { info with status := .stale }
      nextRef := s.nextRef + 1
      workers := s.workers.set info.name s.nextRef }

/-- `start`: the persisted workers are stale until they are heard from. -/
def start (persisted : List Worker) (generation : Int) (clock : Instant) : Fleet :=
  persisted.foldl loadWorker (blank generation clock)

/-- A worker as it registers. -/
def sampleWorker (name : String) (freeVramMb : Int) : Worker where
  name := name
  status := .online
  gpuModel := "RTX 3060"
  computeCap := "8.6"
  freeVramMb := some freeVramMb
  lastHeartbeat := 0
  capabilities := ["chat"]
  load := 0

/-- Everything that a manager can be given. -/
def wired : Wiring := ⟨true, true, true⟩

end Fleet

end TinyAgentOS.Cluster
