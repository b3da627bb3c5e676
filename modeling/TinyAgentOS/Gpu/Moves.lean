import TinyAgentOS.Gpu.Arbiter

/-!
# The moves of the arbiter's coroutines

The step function read backwards: one rule for each way a stretch can go, and
what the stretches that the coroutines share come to.

Main results:

- `move_of_step`: a step is one of the moves of the coroutines.
- `availableRead_cases` and `reserved_cases`: where a check ends, and `verdict` what it found.
-/

namespace TinyAgentOS.Gpu

open Cluster Collections Vram

namespace ArbiterState

/-! ## Moves -/

/-- The moves of a drain pass between two rounds. -/
inductive DrainMove (p : ArbiterParams) (s : ArbiterState) : ArbiterState → Prop
  | drained {retry} (hdrain : s.drain = .loop retry) (hqueue : s.queue = []) :
      DrainMove p s { s with drain := .requeue retry }
  | skip {retry entry rest} (hdrain : s.drain = .loop retry) (hqueue : s.queue = entry :: rest)
      (hcancelled : entry.taskId ∈ s.cancelledIds) :
      DrainMove p s { s with queue := rest, cancelledIds := s.cancelledIds.erase entry.taskId }
  | dequeue {retry entry rest} (hdrain : s.drain = .loop retry) (hqueue : s.queue = entry :: rest)
      (hcancelled : entry.taskId ∉ s.cancelledIds) :
      DrainMove p s { s with queue := rest, drain := .checking entry retry false .available }
  | finished (hdrain : s.drain = .requeue []) : DrainMove p s { s with drain := .idle }
  | requeueSkip {entry rest} (hdrain : s.drain = .requeue (entry :: rest))
      (hcancelled : entry.taskId ∈ s.cancelledIds) :
      DrainMove p s
        { s with drain := .requeue rest, cancelledIds := s.cancelledIds.erase entry.taskId }
  | requeueDrop {entry rest} (hdrain : s.drain = .requeue (entry :: rest))
      (hcancelled : entry.taskId ∉ s.cancelledIds) (hfull : s.queueFull p = true) :
      DrainMove p s
        ({ s with drain := .requeue rest }.resolveFuture entry.job
          (.raised (.noResourceAvailable "queue full, task dropped")))
  | requeuePut {entry rest} (hdrain : s.drain = .requeue (entry :: rest))
      (hcancelled : entry.taskId ∉ s.cancelledIds) (hfull : s.queueFull p = false) :
      DrainMove p s
        { s with
          drain := .requeue rest
          queue := putEntry entry s.queue
          queuedEntries := s.queuedEntries.set entry.taskId entry }

/-- What a step does, one rule for each way a stretch can go. -/
inductive Move (p : ArbiterParams) (s : ArbiterState) : ArbiterEvent → ArbiterState → Prop
  | submit {k request leaseId now} (hfresh : s.jobs.get? k = none)
      (hlease : leaseId ∉ s.leaseIds) :
      Move p s (.submit k request leaseId now) (s.submit k request leaseId now)
  | availableRead {who k request probe leaseId now}
      (hcheck : s.checking who = some (k, request, .available)) (hlease : leaseId ∉ s.leaseIds) :
      Move p s (.availableRead who probe leaseId now)
        (s.availableRead p who k request probe leaseId now)
  | acquire {who k request effectiveFree now}
      (hcheck : s.checking who = some (k, request, .locking effectiveFree))
      (hlock : s.lock = none) :
      Move p s (.acquire who now)
        ({ s.sweep now with lock := some (.checker who) }.setPhase (.probing effectiveFree) who)
  | reserved {who k request effectiveFree probe rid leaseId now}
      (hcheck : s.checking who = some (k, request, .probing effectiveFree))
      (hrid : rid ∉ s.issued) (hlease : leaseId ∉ s.leaseIds) :
      Move p s (.reserved who probe rid leaseId now)
        (s.reserved p who k request effectiveFree probe rid leaseId now)
  | cancelChecking {k j phase lock} (hget : s.jobs.get? k = some j)
      (hchecking : j.submitter = .checking phase) (hlock : lock = none ∨ lock = s.lock) :
      Move p s (.cancelSubmitter k)
        { s with lock := lock, jobs := s.jobs.set k { j with submitter := .ended .cancelled } }
  | cancelWaiting {k j c} (hget : s.jobs.get? k = some j) (hwaiting : j.submitter = .waiting c) :
      Move p s (.cancelSubmitter k)
        { s with
          jobs := s.jobs.set k { j.resolveFuture .cancelled with submitter := .waiting true } }
  | wakeCancelled {k j c how} (hget : s.jobs.get? k = some j)
      (hwaiting : j.submitter = .waiting c) (hfuture : j.future = .resolved how)
      (hcancelled : c = true ∨ how = .cancelled) :
      Move p s (.wake k)
        { s with
          queuedEntries := s.queuedEntries.pop j.request.taskId
          cancelledIds := insert j.request.taskId s.cancelledIds
          jobs := s.jobs.set k { j with submitter := .ended .cancelled } }
  | wakeAnswered {k j c how} (hget : s.jobs.get? k = some j)
      (hwaiting : j.submitter = .waiting c) (hfuture : j.future = .resolved how)
      (hanswered : how ≠ .cancelled) :
      Move p s (.wake k) { s with jobs := s.jobs.set k { j with submitter := .ended how } }
  | runStarts {k j leaseId now} (hget : s.jobs.get? k = some j) (hrun : j.run = .spawned)
      (hlease : leaseId ∉ s.leaseIds) :
      Move p s (.runStarts k leaseId now) (s.startRun k j leaseId now)
  | payloadEnds {k j how} (hget : s.jobs.get? k = some j) (hrun : j.run = .payload none) :
      Move p s (.payloadEnds k how) (s.finishRun k j how)
  | payloadStops {k j how leaseId} (hget : s.jobs.get? k = some j)
      (hrun : j.run = .payload (some leaseId)) :
      Move p s (.payloadEnds k how)
        { s with jobs := s.jobs.set k { j with run := .stopping leaseId how } }
  | renewalStops {k j how leaseId} (hget : s.jobs.get? k = some j)
      (hrun : j.run = .stopping leaseId how) :
      Move p s (.renewalStops k) (s.finishRun k j how)
  | renewed {k now c} (hcluster : s.cluster.isSome = true) :
      Move p s (.renew k now) { s with cluster := some c }
  | leaseLost {k j leaseId now c} (hget : s.jobs.get? k = some j)
      (hrun : j.run = .payload (some leaseId)) (hcluster : s.cluster.isSome = true) :
      Move p s (.renew k now) ({ s with cluster := some c }.resolveFuture k .cancelled)
  | propagate {k j j' how} (hget : s.jobs.get? k = some j) (hrun : j.run = .ended how)
      (hnext : j' = j ∨ j' = j.resolveFuture how) :
      Move p s (.propagate k) { s with jobs := s.jobs.set k { j' with propagated := true } }
  | cancelQueued {evictor taskId bySelf entry} (hget : s.queuedEntries.get? taskId = some entry) :
      Move p s (.cancelOp evictor taskId bySelf)
        (({ s with
            queuedEntries := s.queuedEntries.pop taskId
            cancelledIds := insert taskId s.cancelledIds }.releaseReservation taskId).resolveFuture
          entry.job .cancelled)
  | cancelOp {evictor taskId bySelf} (hevictor : s.evictions.get? evictor = none) :
      Move p s (.cancelOp evictor taskId bySelf) (s.evictTask evictor taskId bySelf)
  | evict {evictor taskId bySelf} (hevictor : s.evictions.get? evictor = none) :
      Move p s (.evict evictor taskId bySelf) (s.evictTask evictor taskId bySelf)
  | evicted {evictor eviction} (hget : s.evictions.get? evictor = some eviction)
      (hover : s.evictionOver eviction = true) :
      Move p s (.evicted evictor)
        ({ s with evictions := s.evictions.pop evictor }.finishEvict eviction)
  | drainBegins (hdrain : s.drain = .idle) : Move p s .drainBegins { s with drain := .loop [] }
  | drainStep {s'} (hmove : DrainMove p s s') : Move p s .drainStep s'
  | drainEvicted {entry retry eviction} (hdrain : s.drain = .evicting entry retry eviction)
      (hover : s.evictionOver eviction = true) :
      Move p s .drainEvicted
        { s.finishEvict eviction with drain := .checking entry retry true .available }
  | drainRaises {entry retry evicted phase lock}
      (hdrain : s.drain = .checking entry retry evicted phase)
      (hlock : lock = none ∨ lock = s.lock) :
      Move p s .drainRaises { s with drain := .idle, lock := lock }
  | pause : Move p s .pause { s with paused := true }
  | resume : Move p s .resume { s with paused := false }
  | sweepStale {now} : Move p s (.sweepStale now) (s.sweep now)
  | outsideAcquire {vramMb caller now} (hpos : 0 < vramMb) :
      Move p s (.outsideAcquire vramMb caller now)
        { s.sweep now with lock := some (.outside vramMb caller) }
  | outsideRefused {probe rid now} :
      Move p s (.outsideReserved probe rid now) { s with lock := none, issued := rid :: s.issued }
  | outsideGranted {probe rid now vramMb caller}
      (hlock : s.lock = some (.outside vramMb caller)) (hrid : rid ∉ s.issued)
      (hgranted : (s.manager.reserveDecision vramMb caller probe rid now).2.isSome = true) :
      Move p s (.outsideReserved probe rid now)
        { s with
          lock := none
          issued := rid :: s.issued
          manager := (s.manager.reserveDecision vramMb caller probe rid now).1
          reported := (probe.map Prod.fst).or s.reported
          outside := rid :: s.outside }
  | outsideAborted : Move p s .outsideAborted { s with lock := none }
  | outsideRelease {rid} (hrid : rid ∈ s.outside) :
      Move p s (.outsideRelease rid) { s with manager := (s.manager.release rid).1 }
  | clusterChanges {cluster} (hcluster : s.cluster.isSome = true) :
      Move p s (.clusterChanges cluster) { s with cluster := some cluster }

variable {s s' : ArbiterState} {p : ArbiterParams} {k : SubId} {phase : CheckPhase}
  {request : Request} {who : Checker}

/-- What the drain pass does without a check is one of its moves. -/
theorem drainMove_of_drainStep (h : s.drainStep p = some s') : DrainMove p s s' := by
  unfold drainStep at h
  split at h
  · rename_i retry hdrain
    split at h
    · rename_i hqueue
      cases h
      exact .drained hdrain hqueue
    · rename_i entry rest hqueue
      split at h
      · rename_i hcancelled
        cases h
        exact .skip hdrain hqueue hcancelled
      · rename_i hcancelled
        cases h
        exact .dequeue hdrain hqueue hcancelled
  · rename_i hdrain
    cases h
    exact .finished hdrain
  · rename_i entry rest hdrain
    simp only at h
    split at h
    · rename_i hcancelled
      cases h
      exact .requeueSkip hdrain hcancelled
    · rename_i hcancelled
      split at h
      · rename_i hfull
        cases h
        exact .requeueDrop hdrain hcancelled hfull
      · rename_i hfull
        cases h
        exact .requeuePut hdrain hcancelled (Bool.eq_false_of_not_eq_true hfull)
  · contradiction

/-! ### Checks -/

variable {probe : Probe} {leaseId : LeaseId} {now : Vram.Clock} {rid : ReservationId}
  {e : ArbiterEvent}

/-- The probe of a check is read. -/
theorem move_of_availableRead (h : s.stretch p (.availableRead who probe leaseId now) = some s') :
    Move p s (.availableRead who probe leaseId now) s' := by
  simp only [stretch] at h
  split at h
  · rename_i k request hcheck
    rw [Option.ite_none_left_eq_some] at h
    obtain ⟨hlease, hs⟩ := h
    cases hs
    exact .availableRead hcheck hlease
  · contradiction

/-- A check takes the lock of the ledger. -/
theorem move_of_acquire (h : s.stretch p (.acquire who now) = some s') :
    Move p s (.acquire who now) s' := by
  simp only [stretch] at h
  split at h
  · rename_i k request effectiveFree hcheck
    rw [Option.ite_none_right_eq_some] at h
    obtain ⟨hlock, hs⟩ := h
    cases hs
    exact .acquire hcheck hlock
  · contradiction

/-- The ledger decides a check. -/
theorem move_of_reserved (h : s.stretch p (.reserved who probe rid leaseId now) = some s') :
    Move p s (.reserved who probe rid leaseId now) s' := by
  simp only [stretch] at h
  split at h
  · rename_i k request effectiveFree hcheck
    rw [Option.ite_none_left_eq_some, not_or] at h
    obtain ⟨⟨hrid, hlease⟩, hs⟩ := h
    cases hs
    exact .reserved hcheck hrid hlease
  · contradiction

/-! ### Submissions -/

/-- A caller is cancelled while it is checked or waits. -/
theorem move_of_cancelSubmitter (h : s.stretch p (.cancelSubmitter k) = some s') :
    Move p s (.cancelSubmitter k) s' := by
  obtain ⟨j, hget, hs⟩ := Option.bind_eq_some_iff.mp h
  unfold cancelSubmitter at hs
  split at hs
  · rename_i phase hchecking
    cases hs
    refine .cancelChecking hget hchecking ?_
    split <;> simp
  · rename_i c hwaiting
    cases hs
    exact .cancelWaiting hget hwaiting
  · contradiction

/-- A caller that waits goes on. -/
theorem move_of_wake (h : s.stretch p (.wake k) = some s') : Move p s (.wake k) s' := by
  obtain ⟨j, hget, hs⟩ := Option.bind_eq_some_iff.mp h
  unfold wake at hs
  split at hs
  · rename_i c how hwaiting hfuture
    split at hs
    · rename_i hcancelled
      cases hs
      exact .wakeCancelled hget hwaiting hfuture (by simpa using hcancelled)
    · rename_i hanswered
      cases hs
      exact .wakeAnswered hget hwaiting hfuture fun heq => hanswered (.inr heq)
  · contradiction

/-- A task that was created starts. -/
theorem move_of_runStarts {now : Cluster.Instant}
    (h : s.stretch p (.runStarts k leaseId now) = some s') :
    Move p s (.runStarts k leaseId now) s' := by
  simp only [stretch] at h
  split at h
  · rename_i j hget
    rw [Option.ite_none_right_eq_some] at h
    obtain ⟨⟨hrun, hlease⟩, hs⟩ := h
    cases hs
    exact .runStarts hget hrun hlease
  · contradiction

/-- The payload of a task ends, with a renewal loop to stop or without. -/
theorem move_of_payloadEnds {how : Outcome} (h : s.stretch p (.payloadEnds k how) = some s') :
    Move p s (.payloadEnds k how) s' := by
  obtain ⟨j, hget, hs⟩ := Option.bind_eq_some_iff.mp h
  unfold payloadEnds at hs
  split at hs
  · rename_i hrun
    cases hs
    exact .payloadEnds hget hrun
  · rename_i leaseId hrun
    cases hs
    exact .payloadStops hget hrun
  · contradiction

/-- The renewal loop of a task has stopped. -/
theorem move_of_renewalStops (h : s.stretch p (.renewalStops k) = some s') :
    Move p s (.renewalStops k) s' := by
  simp only [stretch] at h
  split at h
  · rename_i j hget
    split at h
    · rename_i leaseId how hrun
      cases h
      exact .renewalStops hget hrun
    · contradiction
  · contradiction

/-- A lease is renewed, or it is lost. -/
theorem move_of_renew {now : Cluster.Instant} (h : s.stretch p (.renew k now) = some s') :
    Move p s (.renew k now) s' := by
  obtain ⟨j, hget, hs⟩ := Option.bind_eq_some_iff.mp h
  unfold renew at hs
  split at hs
  · rename_i leaseId c hrun hcluster
    simp only at hs
    split at hs
    · cases hs
      exact .renewed (by simp [hcluster])
    · cases hs
      exact .leaseLost hget hrun (by simp [hcluster])
  · contradiction

/-- The end of a task reaches its future. -/
theorem move_of_propagate (h : s.stretch p (.propagate k) = some s') :
    Move p s (.propagate k) s' := by
  obtain ⟨j, hget, hs⟩ := Option.bind_eq_some_iff.mp h
  unfold propagate at hs
  split at hs
  · rename_i how hrun
    split at hs
    · contradiction
    cases hs
    refine .propagate hget hrun ?_
    split <;> simp
  · contradiction

/-! ### Evictions, drain passes and other callers -/

/-- An eviction has been awaited. -/
theorem move_of_evicted {evictor : Nat} (h : s.stretch p (.evicted evictor) = some s') :
    Move p s (.evicted evictor) s' := by
  simp only [stretch] at h
  split at h
  · rename_i eviction hget
    rw [Option.ite_none_right_eq_some] at h
    obtain ⟨hover, hs⟩ := h
    cases hs
    exact .evicted hget hover
  · contradiction

/-- The eviction of a drain pass has been awaited. -/
theorem move_of_drainEvicted (h : s.stretch p .drainEvicted = some s') :
    Move p s .drainEvicted s' := by
  simp only [stretch, drainEvicted] at h
  split at h
  · rename_i entry retry eviction hdrain
    rw [Option.ite_none_right_eq_some] at h
    obtain ⟨hover, hs⟩ := h
    cases hs
    exact .drainEvicted hdrain hover
  · contradiction

/-- A check of a drain pass raises. -/
theorem move_of_drainRaises (h : s.stretch p .drainRaises = some s') :
    Move p s .drainRaises s' := by
  simp only [stretch, drainRaises] at h
  split at h
  · rename_i entry retry evicted phase hdrain
    cases h
    refine .drainRaises hdrain ?_
    split <;> simp
  · contradiction

/-- The ledger decides the reservation of another caller. -/
theorem move_of_outsideReserved (h : s.stretch p (.outsideReserved probe rid now) = some s') :
    Move p s (.outsideReserved probe rid now) s' := by
  simp only [stretch, outsideReserved] at h
  split at h
  · rename_i vramMb caller hlock
    split at h
    · contradiction
    rename_i hrid
    split at h
    · cases h
      exact .outsideRefused
    · rename_i res hgranted
      cases h
      exact .outsideGranted hlock hrid (by simp [hgranted])
  · contradiction

/-! ### Steps -/

/-- A stretch of any coroutine is one of its moves. -/
theorem move_of_stretch (h : s.stretch p e = some s') : Move p s e s' := by
  cases e with
  | submit k request leaseId now =>
    simp only [stretch, Option.ite_none_left_eq_some, not_or, Option.some.injEq] at h
    obtain ⟨⟨hfresh, hlease⟩, rfl⟩ := h
    exact .submit (by simpa using hfresh) hlease
  | availableRead who probe leaseId now => exact move_of_availableRead h
  | acquire who now => exact move_of_acquire h
  | reserved who probe rid leaseId now => exact move_of_reserved h
  | cancelSubmitter k => exact move_of_cancelSubmitter h
  | wake k => exact move_of_wake h
  | runStarts k leaseId now => exact move_of_runStarts h
  | payloadEnds k how => exact move_of_payloadEnds h
  | renewalStops k => exact move_of_renewalStops h
  | renew k now => exact move_of_renew h
  | propagate k => exact move_of_propagate h
  | cancelOp evictor taskId bySelf =>
    simp only [stretch, Option.ite_none_left_eq_some, Option.some.injEq] at h
    obtain ⟨hevictor, rfl⟩ := h
    unfold cancelOp
    split
    · rename_i entry hentry
      exact .cancelQueued hentry
    · exact .cancelOp (by simpa using hevictor)
  | evict evictor taskId bySelf =>
    simp only [stretch, Option.ite_none_left_eq_some, Option.some.injEq] at h
    obtain ⟨hevictor, rfl⟩ := h
    exact .evict (by simpa using hevictor)
  | evicted evictor => exact move_of_evicted h
  | drainBegins =>
    simp only [stretch, Option.ite_none_right_eq_some, Option.some.injEq] at h
    obtain ⟨⟨hdrain, _⟩, rfl⟩ := h
    exact .drainBegins hdrain
  | drainStep => contradiction
  | drainEvicted => exact move_of_drainEvicted h
  | drainRaises => exact move_of_drainRaises h
  | pause =>
    cases h
    exact .pause
  | resume =>
    cases h
    exact .resume
  | sweepStale now =>
    cases h
    exact .sweepStale
  | outsideAcquire vramMb caller now =>
    simp only [stretch, Option.ite_none_right_eq_some, Option.some.injEq] at h
    obtain ⟨⟨hpos, _⟩, rfl⟩ := h
    exact .outsideAcquire hpos
  | outsideReserved probe rid now => exact move_of_outsideReserved h
  | outsideAborted =>
    simp only [stretch] at h
    split at h
    · cases h
      exact .outsideAborted
    · contradiction
  | outsideRelease rid =>
    simp only [stretch, Option.ite_none_right_eq_some, Option.some.injEq] at h
    obtain ⟨hrid, rfl⟩ := h
    exact .outsideRelease hrid
  | clusterChanges cluster =>
    simp only [stretch, Option.ite_none_right_eq_some, Option.some.injEq] at h
    obtain ⟨hcluster, rfl⟩ := h
    exact .clusterChanges hcluster

/-- A step is one of the moves. -/
theorem move_of_step (h : s.step p e = some s') : Move p s e s' := by
  unfold step at h
  split at h
  · split at h
    · exact .drainStep (drainMove_of_drainStep h)
    · contradiction
  · exact move_of_stretch h

/-- The victim is running. -/
theorem get?_of_lowestPriority {running : Dict TaskId RunningEntry} {minPriority : Int}
    {taskId : TaskId} {r : RunningEntry}
    (h : lowestPriority running minPriority = some (taskId, r)) : running.get? taskId = some r := by
  have hfold : ∀ (es : List (TaskId × RunningEntry))
      (victim : Option (TaskId × RunningEntry) × Int),
      (es.foldl
        (fun victim e =>
          if e.2.priority ≤ minPriority then victim
          else if victim.2 < e.2.priority then (some e, e.2.priority)
          else victim)
        victim).1 = some (taskId, r) →
      victim.1 = some (taskId, r) ∨ (taskId, r) ∈ es := by
    intro es
    induction es with
    | nil => exact fun _ hvictim => .inl hvictim
    | cons e es ih =>
      intro victim hvictim
      rcases ih _ hvictim with hfirst | hrest
      · dsimp only at hfirst
        split at hfirst
        · exact .inl hfirst
        · split at hfirst
          · right
            cases hfirst
            exact List.mem_cons_self
          · exact .inl hfirst
      · exact .inr (List.mem_cons_of_mem _ hrest)
  rcases hfold running.entries (none, -1) h with hnone | hmem
  · contradiction
  · exact Dict.mem_entries_iff.mp hmem

/-! ## What the shared stretches come to -/

/-- A task that starts asks for a lease and is refused. -/
def claimRefused (s : ArbiterState) (request : Request) (leaseId : LeaseId)
    (now : Cluster.Instant) : Bool :=
  match s.cluster, request.resourceId with
  | some c, some resourceId =>
    (c.claimLease resourceId request.submitter arbiterLeaseTtl request.requiredVramMb leaseId
      now).2.isNone
  | _, _ => false

/-- The eviction a drain pass awaits. -/
def drainEviction (s : ArbiterState) : Option Eviction :=
  match s.drain with
  | .evicting _ _ eviction => some eviction
  | _ => none

/-- A drain pass whose entry is refused evicts for it first. -/
def evictsFor (p : ArbiterParams) (s : ArbiterState) : Bool :=
  match s.drain with
  | .checking entry _ evicted _ =>
    !evicted && p.evictionEnabled && (lowestPriority s.running entry.request.priority).isSome
  | _ => false

/-- A start registers the run, or fails it where the lease is refused. -/
theorem startRun_cases (s : ArbiterState) (k : SubId) (j : Job) (leaseId : LeaseId)
    (now : Cluster.Instant) : (s.claimRefused j.request leaseId now = false ∧
        s.startRun k j leaseId now = s.register k j none) ∨
      (s.claimRefused j.request leaseId now = false ∧ ∃ c, s.cluster.isSome = true ∧
        s.startRun k j leaseId now =
          { s with cluster := some c, leaseIds := leaseId :: s.leaseIds }.register k j
            (some leaseId)) ∨
      (s.claimRefused j.request leaseId now = true ∧
        ∃ how, s.startRun k j leaseId now = s.finishRun k j how) := by
  cases hcluster : s.cluster with
  | none => exact .inl (by simp [claimRefused, startRun, hcluster])
  | some c =>
    cases hresource : j.request.resourceId with
    | none => exact .inl (by simp [claimRefused, startRun, hcluster, hresource])
    | some resourceId =>
      cases hclaim : (c.claimLease resourceId j.request.submitter arbiterLeaseTtl
          j.request.requiredVramMb leaseId now).2 with
      | none =>
        exact .inr (.inr (by simp [claimRefused, startRun, hcluster, hresource, hclaim]))
      | some lease =>
        refine .inr (.inl ⟨by simp [claimRefused, hcluster, hresource, hclaim],
          (c.claimLease resourceId j.request.submitter arbiterLeaseTtl
            j.request.requiredVramMb leaseId now).1, rfl, ?_⟩)
        simp only [startRun, hcluster, hresource, hclaim, Option.isSome_some, if_true]

/-- A submission is refused, to be checked, or started. -/
theorem submit_cases (s : ArbiterState) (k : SubId) (request : Request) (leaseId : LeaseId)
    (now : Cluster.Instant) : (∃ error, s.submit k request leaseId now =
        { s with
          jobs := s.jobs.set k { Job.init request with submitter := .ended (.raised error) } }) ∨
      (0 < request.requiredVramMb ∧
        s.submit k request leaseId now = { s with jobs := s.jobs.set k (Job.init request) }) ∨
      (request.requiredVramMb ≤ 0 ∧ s.submitRefusal request = none ∧
        s.submit k request leaseId now =
          s.startRun k { Job.init request with submitter := .inline } leaseId now) := by
  unfold submit
  simp only
  split
  · rename_i error _
    exact .inl ⟨error, rfl⟩
  · rename_i hrefusal
    split
    · rename_i hpos
      exact .inr (.inl ⟨hpos, rfl⟩)
    · rename_i hpos
      exact .inr (.inr ⟨not_lt.mp hpos, hrefusal, rfl⟩)

/-- A submission is queued, or refused where the queue is full. -/
theorem enqueue_cases (p : ArbiterParams) (s : ArbiterState) (k : SubId) (j : Job) :
    (s.queueFull p = true ∧ ∃ error, s.enqueue p k j =
        { s.releaseReservation j.request.taskId with
          jobs := s.jobs.set k { j with submitter := .ended (.raised error) } }) ∨
      (s.queueFull p = false ∧ s.enqueue p k j =
        { s.releaseReservation j.request.taskId with
          seq := s.seq + 1
          queue := putEntry ⟨s.seq + 1, k, j.request⟩ s.queue
          queuedEntries := s.queuedEntries.set j.request.taskId ⟨s.seq + 1, k, j.request⟩
          jobs := s.jobs.set k { j with submitter := .waiting false, future := .pending } }) := by
  unfold enqueue
  simp only
  split
  · rename_i hfull
    exact .inl ⟨hfull, _, rfl⟩
  · rename_i hfull
    exact .inr ⟨Bool.eq_false_of_not_eq_true hfull, rfl⟩

/-- An answered check of the drain pass drops, spawns or puts back the entry. -/
theorem drainChecked_cases {entry : QueuedGpuTask} {retry : List QueuedGpuTask} {evicted : Bool}
    (hdrain : s.drain = .checking entry retry evicted phase) (admission : GpuAdmission) :
    (admission.admitted = true ∧ entry.taskId ∈ s.cancelledIds ∧ s.drainChecked p admission =
        { s with
          cancelledIds := s.cancelledIds.erase entry.taskId
          drain := .loop retry }.releaseReservation entry.taskId) ∨
      (admission.admitted = true ∧ entry.taskId ∉ s.cancelledIds ∧
        s.drainChecked p admission = s.spawn entry retry) ∨
      (admission.admitted = false ∧ ∃ taskId r, s.running.get? taskId = some r ∧
        s.drainChecked p admission =
          { s with
            running := s.running.pop taskId
            drain := .evicting entry retry ⟨r.job, taskId, r.lease⟩ }) ∨
      (admission.admitted = false ∧ s.evictsFor p = false ∧ s.drainChecked p admission =
        { s with drain := .loop (retry ++ [entry]) }.releaseReservation entry.taskId) := by
  unfold drainChecked
  simp only [hdrain]
  cases hadmitted : admission.admitted with
  | true =>
    by_cases hcancelled : entry.taskId ∈ s.cancelledIds
    · exact .inl ⟨rfl, hcancelled, by simp [hcancelled]⟩
    · exact .inr (.inl ⟨rfl, hcancelled, by simp [hcancelled]⟩)
  | false =>
    simp only [Bool.false_eq_true, if_false]
    split
    · rename_i taskId r hvictim
      refine .inr (.inr (.inl ⟨trivial, taskId, r, ?_, rfl⟩))
      split at hvictim
      · exact get?_of_lowestPriority hvictim
      · contradiction
    · rename_i hstays
      refine .inr (.inr (.inr ⟨trivial, ?_, rfl⟩))
      simp only [evictsFor, hdrain]
      by_contra hevicts
      simp only [Bool.not_eq_false, Bool.and_eq_true, Bool.not_eq_true'] at hevicts
      obtain ⟨⟨hfirst, henabled⟩, hvictim⟩ := hevicts
      obtain ⟨⟨taskId, r⟩, hlowest⟩ := Option.isSome_iff_exists.mp hvictim
      exact hstays taskId r hfirst (by rw [if_pos henabled, hlowest])

/-! ## Checks -/

/-- The check of a submission is about it. -/
theorem checking_submit {k' : SubId} (h : s.checking (.submit k) = some (k', request, phase)) :
    k' = k ∧ ∃ j, s.jobs.get? k = some j ∧ j.request = request ∧ j.submitter = .checking phase := by
  obtain ⟨j, hget, hj⟩ := Option.bind_eq_some_iff.mp h
  split at hj
  · rename_i phase' hphase
    cases hj
    exact ⟨rfl, j, hget, rfl, hphase⟩
  · contradiction

/-- Taking the lock ends no check. -/
theorem checking_locked (hcheck : s.checking who = some (k, request, phase)) (now : Vram.Clock) :
    { s.sweep now with lock := some (.checker who) }.checking who = some (k, request, phase) := by
  cases who <;> exact hcheck

/-- The check of the drain pass is about the entry that it holds. -/
theorem checking_drain (h : s.checking .drain = some (k, request, phase)) :
    ∃ entry retry evicted, s.drain = .checking entry retry evicted phase ∧ k = entry.job ∧
      request = entry.request := by
  simp only [checking] at h
  split at h
  · rename_i entry retry evicted phase' hdrain
    cases h
    exact ⟨entry, retry, evicted, hdrain, rfl, rfl⟩
  · contradiction

/-- A read goes on to the lock, or ends the check at the cluster. -/
theorem availableRead_cases (p : ArbiterParams) (s : ArbiterState) (who : Checker) (k : SubId)
    (request : Request) (probe : Probe) (leaseId : LeaseId) (now : Vram.Clock) :
    (∃ effectiveFree, s.availableRead p who k request probe leaseId now =
        (s.sweep now).setPhase (.locking effectiveFree) who) ∨
      ∃ c, s.cluster = some c ∧ (s.manager.availableVram now probe).2.2 ≤ 0 ∧
        s.availableRead p who k request probe leaseId now =
          ((s.sweep now).noteSite k ((hostingWorker c (s.sweep now).manager.reservedVramMb
            request.requiredVramMb now).map Prod.fst)).checked p who
              (checkClusterAdmission c (s.sweep now).manager.reservedVramMb
                request.requiredVramMb now) leaseId now := by
  unfold availableRead
  simp only
  split
  · exact .inl ⟨_, rfl⟩
  · rename_i htotal
    split
    · rename_i c hcluster
      exact .inr ⟨c, hcluster, not_lt.mp htotal, rfl⟩
    · exact .inl ⟨none, rfl⟩

/-- The ledger refuses, or it grants what fits into the probe. -/
theorem reserved_cases (p : ArbiterParams) (s : ArbiterState) (who : Checker) (k : SubId)
    (request : Request) (effectiveFree : Option Int) (probe : Probe) (rid : ReservationId)
    (leaseId : LeaseId) (now : Vram.Clock) :
    ((s.manager.reserveDecision request.requiredVramMb ("gpu-task:" ++ request.taskId) probe rid
          now).2 = none ∧
        s.reserved p who k request effectiveFree probe rid leaseId now =
          { s with lock := none, issued := rid :: s.issued }.checked p who
            (ledgerAdmission effectiveFree false request.requiredVramMb) leaseId now) ∨
      ((s.manager.reserveDecision request.requiredVramMb ("gpu-task:" ++ request.taskId) probe rid
          now).2.isSome = true ∧
        (∀ freeMb totalMb, probe = some (freeMb, totalMb) →
          request.requiredVramMb ≤ s.manager.effectiveFree freeMb) ∧
        s.reserved p who k request effectiveFree probe rid leaseId now =
          ({ s with lock := none, issued := rid :: s.issued }.noteGrant k request.taskId rid
            (s.manager.grant
              ⟨rid, request.requiredVramMb, "gpu-task:" ++ request.taskId, now⟩) probe).checked p
            who (ledgerAdmission effectiveFree true request.requiredVramMb) leaseId now) := by
  unfold reserved
  rcases s.manager.reserveDecision_cases request.requiredVramMb ("gpu-task:" ++ request.taskId)
    probe rid now with heq | ⟨heq, hfits⟩
  · rw [heq]
    exact .inl ⟨rfl, rfl⟩
  · rw [heq]
    exact .inr ⟨rfl, hfits, rfl⟩

/-- Notes about a submission leave every check where it was. -/
theorem checking_modify (who : Checker) {f : Job → Job}
    (hjobs : s'.jobs = s.jobs.modify k f) (hdrain : s'.drain = s.drain)
    (hf : ∀ j, (f j).submitter = j.submitter ∧ (f j).request = j.request) :
    s'.checking who = s.checking who := by
  cases who with
  | drain => simp only [checking, hdrain]
  | submit k' =>
    simp only [checking, hjobs, Dict.get?_modify]
    split
    · cases s.jobs.get? k' with
      | none => rfl
      | some j => simp [(hf j).1, (hf j).2]
    · rfl

/-- Noting a grant ends no check. -/
theorem checking_noteGrant (s : ArbiterState) (who : Checker) (k : SubId) (taskId : TaskId)
    (rid : ReservationId) (manager : VramReservationManager) (probe : Probe) :
    (s.noteGrant k taskId rid manager probe).checking who = s.checking who :=
  checking_modify who rfl rfl fun _ => ⟨rfl, rfl⟩

/-- Noting a site ends no check. -/
theorem checking_noteSite (s : ArbiterState) (who : Checker) (k : SubId) (site : Option String) :
    (s.noteSite k site).checking who = s.checking who :=
  checking_modify who rfl rfl fun _ => ⟨rfl, rfl⟩

/-- What the check that ends with an event has found, if one does. -/
def verdict (s : ArbiterState) : ArbiterEvent → Option (Checker × GpuAdmission)
  | .availableRead who probe _ now =>
    (s.checking who).bind fun check =>
      if 0 < (s.manager.availableVram now probe).2.2 then none
      else
        s.cluster.map fun c =>
          (who, checkClusterAdmission c (s.sweep now).manager.reservedVramMb
            check.2.1.requiredVramMb now)
  | .reserved who probe rid _ now =>
    (s.checking who).bind fun check =>
      match check.2.2 with
      | .probing effectiveFree =>
        let granted := (s.manager.reserveDecision check.2.1.requiredVramMb
          ("gpu-task:" ++ check.2.1.taskId) probe rid now).2.isSome
        some (who, ledgerAdmission effectiveFree granted check.2.1.requiredVramMb)
      | _ => none
  | _ => none

/-- Where there is no GPU of its own, the cluster decides. -/
theorem verdict_availableRead (hcheck : s.checking who = some (k, request, phase))
    (leaseId : LeaseId) {c : ClusterManager} (hcluster : s.cluster = some c)
    (htotal : (s.manager.availableVram now probe).2.2 ≤ 0) :
    s.verdict (.availableRead who probe leaseId now) =
      some (who, checkClusterAdmission c (s.sweep now).manager.reservedVramMb
        request.requiredVramMb now) := by
  simp [verdict, hcheck, hcluster, not_lt.mpr htotal]

/-- The ledger decides. -/
theorem verdict_reserved {effectiveFree : Option Int}
    (hcheck : s.checking who = some (k, request, .probing effectiveFree)) (probe : Probe)
    (rid : ReservationId) (leaseId : LeaseId) (now : Vram.Clock) :
    s.verdict (.reserved who probe rid leaseId now) =
      some (who, ledgerAdmission effectiveFree
        (s.manager.reserveDecision request.requiredVramMb ("gpu-task:" ++ request.taskId) probe rid
          now).2.isSome request.requiredVramMb) := by
  simp [verdict, hcheck]

/-- A condition on the check that the event ends, if it ends one. -/
def AtVerdict (s : ArbiterState) (event : ArbiterEvent)
    (cond : SubId → Request → GpuAdmission → Checker → Prop) : Prop :=
  ∀ verdict ∈ s.verdict event, ∀ check ∈ s.checking verdict.1,
    cond check.1 check.2.1 verdict.2 verdict.1

instance (s : ArbiterState) (event : ArbiterEvent)
    (cond : SubId → Request → GpuAdmission → Checker → Prop)
    [∀ k request admission who, Decidable (cond k request admission who)] :
    Decidable (AtVerdict s event cond) := by
  unfold AtVerdict
  infer_instance

/-- A condition at verdicts holds at the verdict of the check. -/
theorem AtVerdict.check {event : ArbiterEvent}
    {cond : SubId → Request → GpuAdmission → Checker → Prop} (h : AtVerdict s event cond)
    {admission : GpuAdmission} (hverdict : s.verdict event = some (who, admission))
    (hcheck : s.checking who = some (k, request, phase)) : cond k request admission who :=
  h (who, admission) hverdict (k, request, phase) hcheck

end ArbiterState

end TinyAgentOS.Gpu
