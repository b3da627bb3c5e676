import TinyAgentOS.Library.Dict

/-!
# GPU leases on the cluster's workers

The cluster manager keeps the workers by name and the leases by id.  A lease
names a resource, `worker:resource`, and lapses at its expiry unless it is
renewed.  Every operation runs under the lease lock without a suspension, so
each is one function of the cluster's tables.

Main results:

- `claimLease_eq_some`: what a claimed lease went through.
- `leases_claimLease`: a granted claim puts its lease into the table.
-/

namespace TinyAgentOS.Cluster

open Collections

/-- Readings of `time.time()`. -/
abbrev Instant := Int

abbrev LeaseId := String

/-- A float of seconds. -/
inductive Seconds where
  | finite (seconds : Int)
  | infinite
  | negInfinite
  | nan
deriving DecidableEq

instance (n : Nat) : OfNat Seconds n := ⟨.finite n⟩

namespace Seconds

/-- `now + ttl_seconds`. -/
def after (ttl : Seconds) (now : Instant) : Seconds :=
  match ttl with
  | .finite seconds => .finite (now + seconds)
  | .infinite => .infinite
  | .negInfinite => .negInfinite
  | .nan => .nan

/-- `ttl_seconds > 0`. -/
def positive : Seconds → Bool
  | .finite seconds => 0 < seconds
  | .infinite => true
  | .negInfinite | .nan => false

end Seconds

/-- Statuses of a worker; a persisted one is stale until it is heard from. -/
inductive WorkerStatus where
  | online
  | updateAvailable
  | draining
  | updating
  | offline
  | stale
deriving DecidableEq

/-- What admission reads of a worker. -/
structure WorkerInfo where
  name : String
  status : WorkerStatus
  gpuModel : String
  computeCap : String
  freeVramMb : Option Int
deriving DecidableEq

/-- A lease on a resource. -/
structure GpuLease where
  leaseId : LeaseId
  resourceId : String
  caller : String
  expiresAt : Seconds
  requiredVramMb : Int
deriving DecidableEq

namespace GpuLease

/-- `expires_at > now`, by which claims and listings go; a NaN compares with nothing. -/
def active (lease : GpuLease) (now : Instant) : Bool :=
  match lease.expiresAt with
  | .finite seconds => now < seconds
  | .infinite => true
  | .negInfinite | .nan => false

/-- `expires_at <= now`, by which renewals and the sweep go. -/
def expired (lease : GpuLease) (now : Instant) : Bool :=
  match lease.expiresAt with
  | .finite seconds => seconds ≤ now
  | .negInfinite => true
  | .infinite | .nan => false

variable {lease : GpuLease} {now later : Instant}

/-- A lease that is active was so before. -/
theorem active_of_le (hle : now ≤ later) (h : lease.active later = true) :
    lease.active now = true := by
  unfold active at h ⊢
  cases hexpiry : lease.expiresAt with
  | finite seconds =>
    simp only [hexpiry, decide_eq_true_eq] at h ⊢
    exact lt_of_le_of_lt hle h
  | infinite => rfl
  | negInfinite | nan => simp [hexpiry] at h

/-- The two comparisons agree unless the expiry is a NaN. -/
theorem active_eq_not_expired (hnan : lease.expiresAt ≠ .nan) :
    lease.active now = !lease.expired now := by
  unfold active expired
  cases hexpiry : lease.expiresAt with
  | finite seconds => simp [← decide_not]
  | infinite => rfl
  | negInfinite => rfl
  | nan => exact absurd hexpiry hnan

/-- A lease is active from now on exactly for a positive time. -/
theorem active_after (leaseId : LeaseId) (resourceId caller : String) (ttl : Seconds)
    (requiredVramMb : Int) :
    active ⟨leaseId, resourceId, caller, ttl.after now, requiredVramMb⟩ now = ttl.positive := by
  cases ttl with
  | finite seconds => simp [active, Seconds.after, Seconds.positive]
  | infinite => rfl
  | negInfinite => rfl
  | nan => rfl

end GpuLease

/-- Workers by name, leases by id. -/
structure ClusterManager where
  workers : Dict String WorkerInfo
  leases : Dict LeaseId GpuLease

/-- `_parse_resource_id`: split at the first colon. -/
def parseResourceId (resourceId : String) : Option (String × String) :=
  let chars := resourceId.toList
  if ':' ∈ chars then
    some (String.ofList (chars.takeWhile fun c => c ≠ ':'),
      String.ofList ((chars.dropWhile fun c => c ≠ ':').tail))
  else none

/-- How long the arbiter's leases live without a renewal. -/
def arbiterLeaseTtl : Seconds := 300

namespace ClusterManager

/-- `_worker_for_resource`: draining and offline workers take no lease. -/
def workerForResource (c : ClusterManager) (resourceId : String) : Option WorkerInfo :=
  match parseResourceId resourceId with
  | none => none
  | some (name, _) =>
    (c.workers.get? name).filter fun w =>
      w.status = .online ∨ w.status = .updateAvailable

/-- `find_existing_lease`. -/
def findExistingLease (c : ClusterManager) (resourceId : String) (now : Instant) :
    Option GpuLease :=
  c.leases.values.find? fun l => l.resourceId = resourceId ∧ l.active now

/-- More than the worker has free; a worker that never reported is not refused. -/
def exceedsFree (w : WorkerInfo) (requiredVramMb : Int) : Bool :=
  match w.freeVramMb with
  | none => false
  | some freeMb => 0 < requiredVramMb && freeMb < requiredVramMb

/-- `claim_lease`; the id is the one a new lease draws. -/
def claimLease (c : ClusterManager) (resourceId caller : String) (ttl : Seconds)
    (requiredVramMb : Int) (leaseId : LeaseId) (now : Instant) :
    ClusterManager × Option GpuLease :=
  match c.workerForResource resourceId with
  | none => (c, none)
  | some w =>
    if (c.findExistingLease resourceId now).isSome then (c, none)
    else if exceedsFree w requiredVramMb then (c, none)
    else
      let lease : GpuLease := ⟨leaseId, resourceId, caller, ttl.after now, requiredVramMb⟩
      ({ c with leases := c.leases.set leaseId lease }, some lease)

/-- `release_lease`. -/
def releaseLease (c : ClusterManager) (leaseId : LeaseId) : ClusterManager :=
  { c with leases := c.leases.pop leaseId }

/-- `renew_lease`: an expired lease is dropped instead. -/
def renewLease (c : ClusterManager) (leaseId : LeaseId) (ttl : Seconds) (now : Instant) :
    ClusterManager × Option GpuLease :=
  match c.leases.get? leaseId with
  | none => (c, none)
  | some lease =>
    if lease.expired now then (c.releaseLease leaseId, none)
    else
      let renewed := { lease with expiresAt := ttl.after now }
      ({ c with leases := c.leases.set leaseId renewed }, some renewed)

/-- `get_leases`: the leases that have not expired. -/
def getLeases (c : ClusterManager) (now : Instant) : List GpuLease :=
  c.leases.values.filter fun l => l.active now

/-- `get_workers`. -/
def getWorkers (c : ClusterManager) : List WorkerInfo := c.workers.values

variable {ttl : Seconds} {now : Instant} {c : ClusterManager} {resourceId caller : String}
  {lease : GpuLease} {leaseId : LeaseId}

/-- What a granted claim has checked, and the lease it returns. -/
theorem claimLease_eq_some {requiredVramMb : Int}
    (h : (c.claimLease resourceId caller ttl requiredVramMb leaseId now).2 = some lease) :
    lease = ⟨leaseId, resourceId, caller, ttl.after now, requiredVramMb⟩ ∧
      c.findExistingLease resourceId now = none ∧
      ∃ w, c.workerForResource resourceId = some w ∧ exceedsFree w requiredVramMb = false := by
  unfold claimLease at h
  split at h
  · contradiction
  rename_i w hworker
  split at h
  · contradiction
  rename_i hexisting
  split at h
  · contradiction
  rename_i hfree
  cases h
  refine ⟨rfl, ?_, w, hworker, by simpa using hfree⟩
  simpa using hexisting

/-- A granted lease is put into the table. -/
theorem leases_claimLease {requiredVramMb : Int}
    (h : (c.claimLease resourceId caller ttl requiredVramMb leaseId now).2 = some lease) :
    (c.claimLease resourceId caller ttl requiredVramMb leaseId now).1.leases =
      c.leases.set leaseId lease := by
  unfold claimLease at h ⊢
  cases hworker : c.workerForResource resourceId with
  | none =>
    rw [hworker] at h
    contradiction
  | some w =>
    simp only [hworker] at h ⊢
    split at h
    · contradiction
    rename_i hexisting
    split at h
    · contradiction
    rename_i hfree
    cases h
    rw [if_neg hexisting, if_neg hfree]

end ClusterManager

end TinyAgentOS.Cluster
