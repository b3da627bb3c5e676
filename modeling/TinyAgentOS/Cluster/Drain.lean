import TinyAgentOS.Cluster.LeaseEffects

/-!
# Draining a worker

A drained worker gets no new work: it is draining, then updating or offline,
until its drain is cancelled or it registers again.  A heartbeat can end the
drain sooner, because it may report another status, and because any heartbeat
of an offline worker takes it back online.

Main results:

- `detached_of_unclaimable`: who is not routed to and gets no lease.
- `run_drainKept`: a drain lasts if every heartbeat in between keeps it.
- `drain_undone`: a draining worker reports an update and gets a lease.
-/

namespace TinyAgentOS.Cluster
namespace Fleet

open Collections Transition

variable {p : Wiring} {s s' : Fleet} {name : String}

/-! ## Workers without new work -/

/-- No lease is granted on a worker's resources, and no routing query returns it. -/
structure Detached (s : Fleet) (name : String) : Prop where
  noLease : ∀ resourceId rest caller ttl requiredVramMb leaseId,
    parseResourceId resourceId = some (name, rest) →
      (s.cluster.claimLease resourceId caller ttl requiredVramMb leaseId s.clock).2 = none
  notEligible : ∀ capability, ∀ w ∈ s.getWorkersForCapability capability, w.name ≠ name
  notBest : ∀ capability, ∀ w ∈ s.getBestWorker capability, w.name ≠ name
  notListed : ∀ entry ∈ s.aggregateCatalog, entry.1 ≠ name

/-- A routable worker is registered under its name and claimable. -/
theorem Wellformed.mem_routable (h : Wellformed s) {w : Worker} (hw : w ∈ s.routable) :
    s.worker? w.name = some w ∧ w.status.claimable = true := by
  obtain ⟨hmem, hstatus⟩ := List.mem_filter.mp hw
  obtain ⟨ref, href, hobject⟩ := List.mem_map.mp hmem
  obtain ⟨key, hkey⟩ := Dict.mem_values_iff.mp href
  have hname := h.named key ref hkey
  rw [hobject] at hname
  refine ⟨?_, hstatus⟩
  rw [hname, worker?_of_get? hkey, hobject]

theorem mem_getWorkersForCapability {capability : String} {w : Worker}
    (hw : w ∈ s.getWorkersForCapability capability) : w ∈ s.routable := by
  have hmem := (List.perm_insertionSort _ _).mem_iff.mp hw
  exact (List.mem_filter.mp hmem).1

/-- A worker that is not claimable gets no new work. -/
theorem detached_of_unclaimable (h : Wellformed s)
    (hstatus : ∀ w ∈ s.worker? name, w.status.claimable = false) : Detached s name := by
  have hroutable : ∀ w ∈ s.routable, w.name ≠ name := by
    intro w hw hname
    obtain ⟨hget, hclaimable⟩ := h.mem_routable hw
    rw [hname] at hget
    rw [hstatus w hget] at hclaimable
    contradiction
  constructor
  · intro resourceId rest caller ttl requiredVramMb leaseId hparse
    cases hclaim : (s.cluster.claimLease resourceId caller ttl requiredVramMb leaseId
        s.clock).2 with
    | none => rfl
    | some lease =>
      obtain ⟨_, _, w, hworker, _⟩ := ClusterManager.claimLease_eq_some hclaim
      obtain ⟨name', rest', ref, hparse', href, _, hclaimable⟩ :=
        workerForResource_registered hworker
      rw [hparse] at hparse'
      cases hparse'
      rw [hstatus _ (worker?_of_get? href)] at hclaimable
      contradiction
  · intro capability w hw
    exact hroutable w (mem_getWorkersForCapability hw)
  · intro capability w hw
    exact hroutable w (mem_getWorkersForCapability (List.mem_of_mem_head? hw))
  · intro entry hentry
    obtain ⟨w, hw, rfl⟩ := List.mem_map.mp hentry
    exact hroutable w hw

/-! ## The drain of a worker -/

/-- The drain is cancelled, or the worker is removed or registers again. -/
def endsDrain (name : String) (s : Fleet) : FleetEvent → Bool
  | .registerWorker info generation =>
    info.name = name && !s.fenced && !s.staleGeneration generation
  | .unregisterWorker key => key = name
  | .cancelDrain key => key = name && (s.worker? key).any fun w => w.status = .draining
  | _ => false

/-- A heartbeat of the worker that is accepted reports that it drains or updates, or reports
nothing while it does. -/
def beatKeepsDrain (name : String) (s : Fleet) : FleetEvent → Bool
  | .heartbeat key beat =>
    key ≠ name || s.fenced || s.staleGeneration beat.generation ||
      match beat.status.bind reportedStatus with
      | some status => status = .draining || status = .updating
      | none => (s.worker? key).all fun w => w.status = .draining || w.status = .updating
  | _ => true

/-- The statuses of a drain under way. -/
def Winding (s : Fleet) (name : String) : Prop :=
  ∀ w ∈ s.worker? name, w.status = .draining ∨ w.status = .updating ∨ w.status = .offline

theorem Winding.detached (h : Winding s name) (hwf : Wellformed s) : Detached s name := by
  apply detached_of_unclaimable hwf
  intro w hw
  rcases h w hw with hstatus | hstatus | hstatus <;> rw [hstatus] <;> rfl

/-- A drain is under way once it is called for. -/
theorem winding_drainWorker (h : Wellformed s) (name : String) (graceful : Bool) :
    Winding (s.drainWorker name graceful) name := by
  intro w hw
  rw [h.worker?_drainWorker, if_pos rfl] at hw
  obtain ⟨v, _, rfl⟩ := Option.mem_map.mp hw
  cases graceful with
  | true => exact Or.inl rfl
  | false => exact Or.inr (Or.inr rfl)

/-- One step keeps a drain under way. -/
theorem Winding.step {e : FleetEvent} (h : Winding s name) (hwf : Wellformed s)
    (hlasts : endsDrain name s e = false) (hbeat : beatKeepsDrain name s e = true)
    (hstep : step p s e = some s') : Winding s' name := by
  have hfate := workerStep hwf hstep name
  intro w hw
  rw [Option.mem_def.mp hw] at hfate
  generalize hbefore : s.worker? name = before at hfate
  cases hfate with
  | same => exact h w hbefore
  | registered info generation _ hname hfence hgeneration =>
    simp [endsDrain, hname, hfence, hgeneration] at hlasts
  | heard beat v hfence hgeneration =>
    simp only [beatKeepsDrain, hfence, hgeneration, hbefore, ne_eq, not_true_eq_false,
      decide_false, Bool.or_self, Bool.false_or, Option.all_some] at hbeat
    simp only [Worker.heard, WorkerStatus.afterHeartbeat]
    generalize beat.status.bind reportedStatus = reported at hbeat ⊢
    cases reported with
    | none =>
      simp only [Bool.or_eq_true, decide_eq_true_eq] at hbeat
      rcases hbeat with hstatus | hstatus
      · left
        simp [hstatus, WorkerStatus.guarded]
      · right
        left
        simp [hstatus, WorkerStatus.guarded]
    | some status =>
      simp only [Bool.or_eq_true, decide_eq_true_eq] at hbeat
      rcases hbeat with rfl | rfl
      · exact Or.inl rfl
      · exact Or.inr (Or.inl rfl)
  | drained graceful v =>
    cases graceful with
    | true => exact Or.inl rfl
    | false => exact Or.inr (Or.inr rfl)
  | undrained v hstatus => simp [endsDrain, hbefore, hstatus] at hlasts
  | offline _ v => exact Or.inr (Or.inr rfl)

/-- In every run, from the moment a worker is drained until its drain is cancelled or it is
removed or registers again, it gets no new work, provided that each accepted heartbeat of
it in between reports that it drains or updates, or reports nothing while it does. -/
theorem run_drainKept (p : Wiring) (persisted : List Worker) (generation : Int)
    (clock : Instant) {es fs : List FleetEvent} {before drained s : Fleet} {name : String}
    {graceful : Bool} (hrun : run (step p) (start persisted generation clock) es = some before)
    (hdrain : step p before (.drainWorker name graceful) = some drained)
    (hkept : Guarded (step p)
      (fun t e => endsDrain name t e = false ∧ beatKeepsDrain name t e = true) drained fs)
    (hrest : run (step p) drained fs = some s) : Detached s name := by
  have hwf := (wellformed_start persisted generation clock).run hrun
  have hwinding : Winding drained name := by
    cases hdrain
    exact winding_drainWorker hwf name graceful
  have hlater : Winding s name ∧ Wellformed s := by
    apply invariant_of_guarded_run _ ⟨hwinding, hwf.step hdrain⟩ hkept hrest
    intro t e t' h hguard hstep
    exact ⟨h.1.step h.2 hguard.1 hguard.2 hstep, h.2.step hstep⟩
  exact hlater.1.detached hlater.2

/-- A drain that outlasts a heartbeat without a status, and one that reports an update under
way. -/
theorem run_drainKept_updating :
    ∃ before drained s,
      run (step wired) (start [] 1 0)
        [.registerWorker (sampleWorker "w1" 8000) none] = some before ∧
      step wired before (.drainWorker "w1" true) = some drained ∧
      run (step wired) drained
        [.heartbeat "w1" {}, .heartbeat "w1" { status := some "updating" }] = some s ∧
      Detached s "w1" := by
  have hall : ((run (step wired) (start [] 1 0)
        [.registerWorker (sampleWorker "w1" 8000) none]).bind fun before =>
      (step wired before (.drainWorker "w1" true)).bind fun drained =>
        if Guarded (step wired)
            (fun t e => endsDrain "w1" t e = false ∧ beatKeepsDrain "w1" t e = true) drained
            [.heartbeat "w1" {}, .heartbeat "w1" { status := some "updating" }] then
          run (step wired) drained
            [.heartbeat "w1" {}, .heartbeat "w1" { status := some "updating" }]
        else none).isSome := by
    decide
  obtain ⟨s, hall⟩ := Option.isSome_iff_exists.mp hall
  obtain ⟨before, hrun, hall⟩ := Option.bind_eq_some_iff.mp hall
  obtain ⟨drained, hdrain, hall⟩ := Option.bind_eq_some_iff.mp hall
  split at hall
  · rename_i hkept
    exact ⟨before, drained, s, hrun, hdrain, hall,
      run_drainKept wired [] 1 0 hrun hdrain hkept hall⟩
  · cases hall

/-- The drain of a worker that still has a lease is undone by its report of an update: it
takes a second lease. -/
theorem drain_undone :
    ¬ ∀ (es fs : List FleetEvent) (before drained s : Fleet) (name : String) (graceful : Bool),
      run (step wired) (start [] 1 0) es = some before →
      step wired before (.drainWorker name graceful) = some drained →
      Guarded (step wired) (fun t e => endsDrain name t e = false) drained fs →
      run (step wired) drained fs = some s → Detached s name := by
  intro hclaim
  have hall : ((run (step wired) (start [] 1 0)
        [.registerWorker (sampleWorker "w1" 8000) none,
          .claimLease "w1:gpu-0" "a" 30 4000 "l_1"]).bind fun before =>
      (step wired before (.drainWorker "w1" true)).bind fun drained =>
        if Guarded (step wired) (fun t e => endsDrain "w1" t e = false) drained
            [.heartbeat "w1" { status := some "update-available" }] then
          (run (step wired) drained
            [.heartbeat "w1" { status := some "update-available" }]).bind fun s =>
              if (s.cluster.claimLease "w1:gpu-1" "b" 30 2000 "l_2" s.clock).2 = none then none
              else some s
        else none).isSome := by
    decide
  obtain ⟨s, hall⟩ := Option.isSome_iff_exists.mp hall
  obtain ⟨before, hrun, hall⟩ := Option.bind_eq_some_iff.mp hall
  obtain ⟨drained, hdrain, hall⟩ := Option.bind_eq_some_iff.mp hall
  split at hall
  · rename_i hlasts
    obtain ⟨t, hrest, hgranted⟩ := Option.bind_eq_some_iff.mp hall
    have hdetached := hclaim _ _ before drained t "w1" true hrun hdrain hlasts hrest
    have hnone := hdetached.noLease "w1:gpu-1" "gpu-1" "b" 30 2000 "l_2" (by decide)
    rw [if_pos hnone] at hgranted
    contradiction
  · cases hall

end Fleet
end TinyAgentOS.Cluster
