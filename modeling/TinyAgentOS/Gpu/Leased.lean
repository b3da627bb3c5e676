import TinyAgentOS.Gpu.Lifecycle
import TinyAgentOS.Library.Custody

/-!
# Leases in custody

A task that starts may claim a lease, which is released when its run is over.
Until then the lease lies in the task's entry of `_running`, or with the
evictor that has taken the entry from there.

Main results:

- `Leased.register`, `Leased.finishRun`, `Leased.evict` and `Leased.finishEvict`: a lease from its
  claim to its release.
- `Leased.move`: what every move of every coroutine keeps.
-/

namespace TinyAgentOS.Gpu

open Cluster Collections Custody Vram

namespace ArbiterState

/-! ## The condition -/

/-- A task that starts overwrites no entry of `_running` that has a lease. -/
def StartsClear (s : ArbiterState) (request : Request) (leaseId : LeaseId)
    (now : Cluster.Instant) : Prop :=
  s.claimRefused request leaseId now = false →
    ∀ r ∈ s.running.get? request.taskId, r.lease = none

/-- A check ends with a refusal, or with the start of its task. -/
def EndsClear (s : ArbiterState) (leaseId : LeaseId) (now : Cluster.Instant) (_ : SubId)
    (request : Request) (admission : GpuAdmission) (who : Checker) : Prop :=
  admission.admitted = true → who ≠ .drain → StartsClear s request leaseId now

/-- No step overwrites an entry of `_running` that has a lease. -/
def LeaseOrderly (s : ArbiterState) : ArbiterEvent → Prop
  | .submit _ request leaseId now =>
    request.requiredVramMb ≤ 0 → s.submitRefusal request = none →
      StartsClear s request leaseId now
  | .availableRead who probe leaseId now =>
    AtVerdict s (.availableRead who probe leaseId now) (EndsClear s leaseId now)
  | .reserved who probe rid leaseId now =>
    AtVerdict s (.reserved who probe rid leaseId now) (EndsClear s leaseId now)
  | .runStarts k leaseId now => ∀ j ∈ s.jobs.get? k, StartsClear s j.request leaseId now
  | _ => True

instance (s : ArbiterState) (request : Request) (leaseId : LeaseId) (now : Cluster.Instant) :
    Decidable (StartsClear s request leaseId now) := by
  unfold StartsClear
  infer_instance

instance (s : ArbiterState) (leaseId : LeaseId) (now : Cluster.Instant) (k : SubId)
    (request : Request) (admission : GpuAdmission) (who : Checker) :
    Decidable (EndsClear s leaseId now k request admission who) := by
  unfold EndsClear
  infer_instance

instance (s : ArbiterState) (event : ArbiterEvent) : Decidable (LeaseOrderly s event) := by
  apply ArbiterEvent.casesOn (motive := fun e => Decidable (LeaseOrderly s e)) event <;>
    intros <;> unfold LeaseOrderly <;> infer_instance

/-! ## The invariant -/

/-- The lease a submission has claimed. -/
def leaseOf (jobs : Dict SubId Job) (k : SubId) : Option LeaseId :=
  (jobs.get? k).bind Job.lease

variable {leaseId : LeaseId} {phase : CheckPhase} {now : Cluster.Instant} {request : Request}
  {p : ArbiterParams} {who : Checker}

/-- The lease of a submission. -/
theorem leaseOf_eq_some {jobs : Dict SubId Job} {k : SubId} :
    leaseOf jobs k = some leaseId ↔ ∃ j, jobs.get? k = some j ∧ j.lease = some leaseId :=
  Option.bind_eq_some_iff

/-- Storing a submission stores its lease. -/
theorem leaseOf_set (jobs : Dict SubId Job) (k : SubId) (j : Job) (k' : SubId) :
    leaseOf (jobs.set k j) k' = if k = k' then j.lease else leaseOf jobs k' := by
  unfold leaseOf
  rw [Dict.get?_set]
  split <;> rfl

/-- A change that keeps the lease keeps the leases. -/
theorem leaseOf_modify (jobs : Dict SubId Job) (k : SubId) {f : Job → Job}
    (hf : ∀ j, (f j).lease = j.lease) (k' : SubId) :
    leaseOf (jobs.modify k f) k' = leaseOf jobs k' := by
  rw [leaseOf, leaseOf, Dict.get?_modify]
  split
  · cases jobs.get? k' with
    | none => rfl
    | some j => exact hf j
  · rfl

/-- Where a lease lies until it is released. -/
inductive LeasePlace where
  | running (taskId : TaskId)
  | evictor (evictor : Nat)
  | drain

def leaseAt (s : ArbiterState) : LeasePlace → Option LeaseId
  | .running taskId => (s.running.get? taskId).bind RunningEntry.lease
  | .evictor i => (s.evictions.get? i).bind Eviction.lease
  | .drain => s.drainEviction.bind Eviction.lease

/-- Leases are in custody, under ids that were drawn. -/
structure Leased (s : ArbiterState) : Prop where
  custody : Kept (leaseOf s.jobs) s.leaseAt s.leaseReleases
  drawn : ∀ k leaseId, leaseOf s.jobs k = some leaseId → leaseId ∈ s.leaseIds

/-- At first there is no lease. -/
theorem leased_init (ttlSeconds : Vram.Clock) (cluster : Option ClusterManager) :
    Leased (init ttlSeconds cluster) := by
  have hempty : ∀ place, (init ttlSeconds cluster).leaseAt place = none := by
    intro place
    cases place <;> rfl
  have hnone : ∀ k, leaseOf (init ttlSeconds cluster).jobs k = none := fun _ => rfl
  refine ⟨⟨?_, ?_, ?_, ?_, ?_, ?_⟩, ?_⟩
  · simp [hempty]
  · simp [hnone]
  · simp [hempty]
  · simp [hempty]
  · simp [hnone]
  · simp [init]
  · simp [hnone]

variable {s s' : ArbiterState} {k : SubId} {j : Job}

/-- An ended task's lease has been released once, unless an evictor is still about to do it. -/
theorem Leased.released (h : Leased s) (hplaced : Placed s) (hget : s.jobs.get? k = some j)
    (hlease : j.lease = some leaseId) (hover : j.run.active = false)
    (hevicting : ∀ ev, Evicting s ev → ev.job ≠ k) : s.leaseReleases.count leaseId = 1 := by
  have howner : leaseOf s.jobs k = some leaseId := leaseOf_eq_some.mpr ⟨j, hget, hlease⟩
  apply h.custody.gone k leaseId howner
  -- An entry with the lease would belong to this task, which neither runs nor is evicted.
  have hmine : ∀ k' i, s.jobs.get? k' = some i → i.lease = some leaseId → k' = k :=
    fun k' i hi hsome =>
      h.custody.unique k' k leaseId (leaseOf_eq_some.mpr ⟨i, hi, hsome⟩) howner
  have hevictions : ∀ ev, Evicting s ev → ev.lease ≠ some leaseId := by
    intro ev hev hsome
    obtain ⟨i, hi, _, _, hsame⟩ := hplaced.evictions ev hev
    exact hevicting ev hev (hmine ev.job i hi (hsame.symm.trans hsome))
  intro place hlies
  cases place with
  | running taskId =>
    obtain ⟨r, hr, hsome⟩ := Option.bind_eq_some_iff.mp hlies
    obtain ⟨i, hi, hrun, _, hsame⟩ := hplaced.running taskId r hr
    have hk := hmine r.job i hi (hsame.symm.trans hsome)
    rw [hk, hget] at hi
    cases hi
    revert hrun hover
    cases j.run <;> simp [RunState.registered, RunState.active]
  | evictor i =>
    obtain ⟨ev, hev, hsome⟩ := Option.bind_eq_some_iff.mp hlies
    exact hevictions ev (Or.inl ⟨i, hev⟩) hsome
  | drain =>
    obtain ⟨ev, hev, hsome⟩ := Option.bind_eq_some_iff.mp hlies
    rw [drainEviction] at hev
    split at hev
    · rename_i entry retry ev' hdrain
      cases hev
      exact hevictions ev (Or.inr ⟨entry, retry, hdrain⟩) hsome
    · contradiction

/-! ## Stretches that leave leases where they are -/

/-- Only the leases and their places count. -/
theorem Leased.same (h : Leased s) (hjobs : ∀ k, leaseOf s'.jobs k = leaseOf s.jobs k)
    (hplace : ∀ place, s'.leaseAt place = s.leaseAt place)
    (hreleases : s'.leaseReleases = s.leaseReleases) (hleaseIds : s'.leaseIds = s.leaseIds) :
    Leased s' where
  custody := by
    rw [hreleases]
    exact h.custody.congr hjobs hplace
  drawn := by
    intro k leaseId hlease
    rw [hjobs] at hlease
    rw [hleaseIds]
    exact h.drawn k leaseId hlease

/-- The same tables have the same leases. -/
theorem leaseAt_congr (hrunning : s'.running = s.running) (hevictions : s'.evictions = s.evictions)
    (hdrain : s'.drainEviction = s.drainEviction) (place : LeasePlace) :
    s'.leaseAt place = s.leaseAt place := by
  cases place with
  | running taskId => rw [leaseAt, leaseAt, hrunning]
  | evictor i => rw [leaseAt, leaseAt, hevictions]
  | drain => rw [leaseAt, leaseAt, hdrain]

theorem leaseOf_of_get? (hget : s.jobs.get? k = some j) : leaseOf s.jobs k = j.lease := by
  rw [leaseOf, hget, Option.bind_some]

/-- A submission changes, but not its lease. -/
theorem leaseOf_put (j' : Job) (hjobs : s'.jobs = s.jobs.set k j')
    (hlease : leaseOf s.jobs k = j'.lease) (k' : SubId) :
    leaseOf s'.jobs k' = leaseOf s.jobs k' := by
  rw [hjobs, leaseOf_set]
  split
  · rename_i heq
    rw [← heq, hlease]
  · rfl

/-- A submission goes on with its lease. -/
theorem Leased.follow (h : Leased s) (hget : s.jobs.get? k = some j) (j' : Job)
    (hjobs : s'.jobs = s.jobs.set k j') (hlease : j'.lease = j.lease)
    (hrunning : s'.running = s.running) (hevictions : s'.evictions = s.evictions)
    (hdrain : s'.drainEviction = s.drainEviction)
    (hreleases : s'.leaseReleases = s.leaseReleases) (hleaseIds : s'.leaseIds = s.leaseIds) :
    Leased s' :=
  h.same (leaseOf_put j' hjobs ((leaseOf_of_get? hget).trans hlease.symm))
    (leaseAt_congr hrunning hevictions hdrain) hreleases hleaseIds

/-- The drain pass goes on, before and after without a victim. -/
theorem Leased.moveDrain (h : Leased s) (hjobs : s'.jobs = s.jobs)
    (hbefore : s.drainEviction = none) (hafter : s'.drainEviction = none)
    (hrunning : s'.running = s.running) (hevictions : s'.evictions = s.evictions)
    (hreleases : s'.leaseReleases = s.leaseReleases) (hleaseIds : s'.leaseIds = s.leaseIds) :
    Leased s' :=
  h.same (fun _ => by rw [hjobs]) (leaseAt_congr hrunning hevictions (hafter.trans hbefore.symm))
    hreleases hleaseIds

/-- A future is resolved. -/
theorem Leased.resolveFuture (h : Leased s) (k : SubId) (how : Outcome) :
    Leased (s.resolveFuture k how) :=
  h.same (leaseOf_modify s.jobs k fun j => Job.resolveFuture_lease j how)
    (leaseAt_congr rfl rfl rfl) rfl rfl

variable {evicted : Bool} {retry : List QueuedGpuTask} {entry : QueuedGpuTask}
  {admission : GpuAdmission} {probe : Probe}

/-- A pass that checks is not evicting. -/
theorem drainEviction_of_checking (hdrain : s.drain = .checking entry retry evicted phase) :
    s.drainEviction = none := by
  rw [drainEviction, hdrain]

/-! ## From the claim to the release -/

/-- A task without a lease is registered, with a new one or without, where no lease lies. -/
theorem Leased.register (h : Leased s) (hnone : leaseOf s.jobs k = none)
    (hidle : ∀ r ∈ s.running.get? j.request.taskId, r.lease = none) {lease : Option LeaseId}
    (hnew : ∀ leaseId, lease = some leaseId → leaseId ∉ s.leaseIds)
    (cluster : Option ClusterManager) (leaseIds : List LeaseId)
    (hdrawn : ∀ leaseId, lease = some leaseId ∨ leaseId ∈ s.leaseIds → leaseId ∈ leaseIds) :
    Leased ({ s with cluster := cluster, leaseIds := leaseIds }.register k j lease) where
  custody := by
    have hlies : ∀ taskId, ({ s with cluster := cluster, leaseIds := leaseIds }.register k j
        lease).leaseAt (.running taskId) =
          if j.request.taskId = taskId then lease else s.leaseAt (.running taskId) := by
      intro taskId
      simp only [leaseAt, ArbiterState.register, Dict.get?_set]
      split <;> rfl
    have hempty : s.leaseAt (.running j.request.taskId) = none := by
      rw [leaseAt]
      cases hr : s.running.get? j.request.taskId with
      | none => rfl
      | some r => exact hidle r hr
    refine h.custody.give k (.running j.request.taskId) lease ?_ hnone hempty ?_ ?_ ?_ ?_
    · intro leaseId hlease k' hk'
      exact hnew leaseId hlease (h.drawn k' leaseId hk')
    · simp only [ArbiterState.register, leaseOf_set, if_true]
    · rw [hlies, if_pos rfl]
    · intro k' hne
      simp only [ArbiterState.register, leaseOf_set, if_neg (Ne.symm hne)]
    · intro place hne
      cases place with
      | running taskId =>
        rw [hlies, if_neg]
        rintro rfl
        exact hne rfl
      | evictor i => rfl
      | drain => rfl
  drawn := by
    intro k' leaseId hlease
    apply hdrawn
    simp only [ArbiterState.register, leaseOf_set] at hlease
    split at hlease
    · exact Or.inl hlease
    · exact Or.inr (h.drawn k' leaseId hlease)

/-- A finished run keeps its lease. -/
theorem leaseOf_finishRun (hlease : leaseOf s.jobs k = j.lease) (how : Outcome) (k' : SubId) :
    leaseOf (s.finishRun k j how).jobs k' = leaseOf s.jobs k' :=
  leaseOf_put (j.finish how) rfl hlease k'

section

variable (h : Leased s)
include h

/-- A run ends: the lease in its entry is released, unless an evictor has taken it. -/
theorem Leased.finishRun (hlease : leaseOf s.jobs k = j.lease) (how : Outcome) :
    Leased (s.finishRun k j how) where
  custody := by
    refine (h.custody.giveBack (n := .running j.request.taskId) ?_ ?_).congr
      (leaseOf_finishRun hlease how) fun _ => rfl
    · simp only [leaseAt, ArbiterState.finishRun, ArbiterState.releaseLease, Dict.get?_pop_self,
        Option.bind_none]
    · intro place hne
      cases place with
      | running taskId =>
        have htask : j.request.taskId ≠ taskId := by
          rintro rfl
          exact hne rfl
        simp only [leaseAt, ArbiterState.finishRun, ArbiterState.releaseLease,
          Dict.get?_pop_of_ne _ htask]
      | evictor i => rfl
      | drain => rfl
  drawn := by
    intro k' leaseId hk'
    rw [leaseOf_finishRun hlease how] at hk'
    exact h.drawn k' leaseId hk'

/-- An evictor takes the entry of a running task. -/
theorem Leased.evict {taskId : TaskId} {r : RunningEntry}
    (hr : s.running.get? taskId = some r) (place : LeasePlace) (hplace : s.leaseAt place = none)
    (hmoved : s'.leaseAt place = r.lease) (hrunning : s'.running = s.running.pop taskId)
    (hothers : ∀ place', (∀ taskId', place' ≠ .running taskId') → place' ≠ place →
      s'.leaseAt place' = s.leaseAt place')
    (hjobs : s'.jobs = s.jobs) (hreleases : s'.leaseReleases = s.leaseReleases)
    (hleaseIds : s'.leaseIds = s.leaseIds) : Leased s' where
  custody := by
    rw [hjobs, hreleases]
    refine h.custody.move (.running taskId) place hplace ?_ ?_ ?_
    · rw [leaseAt, hrunning, Dict.get?_pop_self, Option.bind_none]
    · rw [hmoved, leaseAt, hr, Option.bind_some]
    · intro place' hne hne'
      cases place' with
      | running taskId' =>
        have htask : taskId ≠ taskId' := by
          rintro rfl
          exact hne rfl
        rw [leaseAt, leaseAt, hrunning, Dict.get?_pop_of_ne _ htask]
      | evictor | drain => exact hothers _ (by simp) hne'
  drawn := by
    intro k leaseId hlease
    rw [hjobs] at hlease
    rw [hleaseIds]
    exact h.drawn k leaseId hlease

/-- An evictor has waited for its victim, or is the victim: the lease it has taken is released. -/
theorem Leased.finishEvict (ev : Eviction) (place : LeasePlace)
    (hlies : s.leaseAt place = ev.lease) (running : Dict TaskId RunningEntry)
    (evictions : Dict Nat Eviction) (drain : Drain)
    (hgone : { s with running := running, evictions := evictions, drain := drain }.leaseAt place =
      none)
    (hothers : ∀ place', place' ≠ place →
      { s with running := running, evictions := evictions, drain := drain }.leaseAt place' =
        s.leaseAt place') :
    Leased
      ({ s with running := running, evictions := evictions, drain := drain }.finishEvict ev) := by
  have hreleased : Leased
      (({ s with
          running := running
          evictions := evictions
          drain := drain }.releaseReservation ev.taskId).releaseLease ev.lease) := by
    refine ⟨?_, h.drawn⟩
    have hback := h.custody.giveBack hgone hothers
    rw [hlies] at hback
    refine hback.congr (fun _ => rfl) ?_
    intro place'
    cases place' <;> rfl
  exact hreleased.resolveFuture ev.job .cancelled

/-! ## Runs -/

/-- A submission is started. -/
theorem Leased.startRun
    (hstart : StartsClear s j.request leaseId now) (hnone : leaseOf s.jobs k = none)
    (hlease : j.lease = none) (hnew : leaseId ∉ s.leaseIds) :
    Leased (s.startRun k j leaseId now) := by
  rcases startRun_cases s k j leaseId now with
    ⟨hclaim, heq⟩ | ⟨hclaim, c, _, heq⟩ | ⟨hclaim, how, heq⟩
  · rw [heq]
    refine h.register hnone (hstart hclaim) ?_ s.cluster s.leaseIds ?_
    · intro leaseId' hsome
      contradiction
    · rintro leaseId' (hsome | hold)
      · contradiction
      · exact hold
  · rw [heq]
    refine h.register hnone (hstart hclaim) ?_ _ _ ?_
    · intro leaseId' hsome
      cases hsome
      exact hnew
    · rintro leaseId' (hsome | hold)
      · cases hsome
        exact List.mem_cons_self
      · exact List.mem_cons_of_mem _ hold
  · rw [heq]
    exact h.finishRun (hnone.trans hlease.symm) how

/-- A submission arrives. -/
theorem Leased.submit (hfresh : s.jobs.get? k = none) (hnew : leaseId ∉ s.leaseIds)
    (horderly : LeaseOrderly s (.submit k request leaseId now)) :
    Leased (s.submit k request leaseId now) := by
  have hnone : leaseOf s.jobs k = none := by
    rw [leaseOf, hfresh, Option.bind_none]
  rcases submit_cases s k request leaseId now with
    ⟨error, heq⟩ | ⟨_, heq⟩ | ⟨hzero, hrefusal, heq⟩
  · rw [heq]
    exact h.same (leaseOf_put _ rfl hnone) (leaseAt_congr rfl rfl rfl) rfl rfl
  · rw [heq]
    exact h.same (leaseOf_put _ rfl hnone) (leaseAt_congr rfl rfl rfl) rfl rfl
  · rw [heq]
    exact h.startRun (horderly hzero hrefusal) hnone rfl hnew

/-! ## Checks -/

theorem Leased.enqueue (hget : s.jobs.get? k = some j) : Leased (s.enqueue p k j) := by
  rcases enqueue_cases p s k j with ⟨_, error, heq⟩ | ⟨_, heq⟩
  · rw [heq]
    exact h.follow hget _ rfl rfl rfl rfl rfl rfl rfl
  · rw [heq]
    exact h.follow hget _ rfl rfl rfl rfl rfl rfl rfl

/-- The check of the drain pass is answered. -/
theorem Leased.drainChecked
    (hdrain : s.drain = .checking entry retry evicted phase) (admission : GpuAdmission) :
    Leased (s.drainChecked p admission) := by
  have hbefore := drainEviction_of_checking hdrain
  rcases drainChecked_cases hdrain admission with
    ⟨_, _, heq⟩ | ⟨_, _, heq⟩ | ⟨_, taskId, r, hr, heq⟩ | ⟨_, _, heq⟩
  · rw [heq]
    exact h.moveDrain rfl hbefore rfl rfl rfl rfl rfl
  · rw [heq]
    exact h.same (leaseOf_modify s.jobs entry.job fun _ => rfl)
      (leaseAt_congr rfl rfl hbefore.symm) rfl rfl
  · rw [heq]
    refine h.evict hr .drain ?_ rfl rfl ?_ rfl rfl rfl
    · rw [leaseAt, hbefore, Option.bind_none]
    · intro place hnot hne
      cases place with
      | running taskId' => exact absurd rfl (hnot taskId')
      | evictor i => rfl
      | drain => exact absurd rfl hne
  · rw [heq]
    exact h.moveDrain rfl hbefore rfl rfl rfl rfl rfl

/-- A check is answered. -/
theorem Leased.checked (hplaced : Placed s) (hcheck : s.checking who = some (k, request, phase))
    (hend : EndsClear s leaseId now k request admission who) (hnew : leaseId ∉ s.leaseIds) :
    Leased (s.checked p who admission leaseId now) := by
  cases who with
  | submit k' =>
    obtain ⟨rfl, j, hget, rfl, hphase⟩ := checking_submit hcheck
    have hok := hplaced.leases k j hget
    rw [Job.LeaseOk, (hplaced.checking k j phase hget hphase).1] at hok
    simp only [ArbiterState.checked, submitChecked, hget]
    cases hverdict : admission.admitted with
    | true =>
      rw [if_pos rfl]
      exact h.startRun (hend hverdict (by simp)) ((leaseOf_of_get? hget).trans hok) hok hnew
    | false =>
      rw [if_neg (by simp)]
      exact h.enqueue hget
  | drain =>
    obtain ⟨entry, retry, evicted, hdrain, _, _⟩ := checking_drain hcheck
    exact h.drainChecked hdrain admission

/-- A check enters its next phase. -/
theorem Leased.setPhase {before : CheckPhase}
    (hcheck : s.checking who = some (k, request, before)) (phase : CheckPhase) :
    Leased (s.setPhase phase who) := by
  cases who with
  | submit k' =>
    exact h.same (leaseOf_modify s.jobs k' fun _ => rfl) (leaseAt_congr rfl rfl rfl) rfl rfl
  | drain =>
    obtain ⟨entry, retry, evicted, hdrain, _, _⟩ := checking_drain hcheck
    simp only [ArbiterState.setPhase, hdrain]
    exact h.moveDrain rfl (drainEviction_of_checking hdrain) rfl rfl rfl rfl rfl

end

/-- A check ends in a state with the same tables. -/
theorem EndsClear.congr (h : EndsClear s leaseId now k request admission who)
    (hcluster : s'.cluster = s.cluster)
    (hrunning : s'.running = s.running) : EndsClear s' leaseId now k request admission who := by
  intro hadmitted hwho hclaim
  rw [hrunning]
  apply h hadmitted hwho
  rwa [claimRefused, hcluster] at hclaim

/-- The free VRAM is read. -/
theorem Leased.availableRead (h : Leased s) (hplaced : Placed s)
    (hcheck : s.checking who = some (k, request, phase))
    {now : Vram.Clock} (hnew : leaseId ∉ s.leaseIds)
    (horderly : LeaseOrderly s (.availableRead who probe leaseId now)) :
    Leased (s.availableRead p who k request probe leaseId now) := by
  obtain ⟨j, hget, _⟩ := hplaced.job_of_checking hcheck
  have hplaced' : Placed (s.sweep now) := hplaced.same ⟨rfl, rfl, rfl, rfl⟩ rfl
  have hcheck' : (s.sweep now).checking who = some (k, request, phase) := by
    cases who <;> exact hcheck
  have hswept : Leased (s.sweep now) :=
    h.same (fun _ => rfl) (leaseAt_congr rfl rfl rfl) rfl rfl
  rcases availableRead_cases p s who k request probe leaseId now with
    ⟨effectiveFree, heq⟩ | ⟨c, hcluster, htotal, heq⟩
  · rw [heq]
    exact hswept.setPhase hcheck' _
  · rw [heq]
    have hend := horderly.check (verdict_availableRead hcheck leaseId hcluster htotal) hcheck
    refine Leased.checked ?_ (hplaced'.noteSite hget _)
      ((checking_noteSite _ who k _).trans hcheck') (hend.congr rfl rfl) hnew
    exact hswept.same (leaseOf_modify _ k fun _ => rfl) (leaseAt_congr rfl rfl rfl) rfl rfl

/-- The ledger answers. -/
theorem Leased.reserved (h : Leased s) (hplaced : Placed s) {effectiveFree : Option Int}
    (hcheck : s.checking who = some (k, request, .probing effectiveFree))
    {rid : ReservationId} (hnew : leaseId ∉ s.leaseIds) {now : Vram.Clock}
    (horderly : LeaseOrderly s (.reserved who probe rid leaseId now)) :
    Leased (s.reserved p who k request effectiveFree probe rid leaseId now) := by
  obtain ⟨j, hget, _⟩ := hplaced.job_of_checking hcheck
  have hend := horderly.check (verdict_reserved hcheck probe rid leaseId now) hcheck
  have hplaced' : Placed { s with lock := none, issued := rid :: s.issued } :=
    hplaced.same ⟨rfl, rfl, rfl, rfl⟩ rfl
  have hcheck' : { s with lock := none, issued := rid :: s.issued }.checking who =
      some (k, request, .probing effectiveFree) := by
    cases who <;> exact hcheck
  have hissued : Leased { s with lock := none, issued := rid :: s.issued } :=
    h.same (fun _ => rfl) (leaseAt_congr rfl rfl rfl) rfl rfl
  rcases reserved_cases p s who k request effectiveFree probe rid leaseId now with
    ⟨hdenied, heq⟩ | ⟨hgranted, _, heq⟩
  · rw [heq]
    rw [hdenied] at hend
    exact hissued.checked hplaced' hcheck' (hend.congr rfl rfl) hnew
  · rw [heq]
    rw [hgranted] at hend
    refine Leased.checked ?_ (hplaced'.noteGrant hget _ _ _ _)
      ((checking_noteGrant _ who k _ rid _ probe).trans hcheck') (hend.congr rfl rfl) hnew
    exact hissued.same (leaseOf_modify _ k fun _ => rfl) (leaseAt_congr rfl rfl rfl) rfl rfl

/-! ## Evictions and drain passes -/

/-- A task is evicted, or is to be. -/
theorem Leased.evictTask (h : Leased s) {evictor : Nat} (hevictor : s.evictions.get? evictor = none)
    (taskId : TaskId) (bySelf : Bool) : Leased (s.evictTask evictor taskId bySelf) := by
  unfold ArbiterState.evictTask
  split
  · exact h
  · rename_i r hr
    cases bySelf with
    | true =>
      simp only [if_true]
      refine h.finishEvict ⟨r.job, taskId, r.lease⟩ (.running taskId) ?_
        (s.running.pop taskId) s.evictions s.drain ?_ ?_
      · rw [leaseAt, hr, Option.bind_some]
      · rw [leaseAt, Dict.get?_pop_self, Option.bind_none]
      · intro place' hne
        cases place' with
        | running taskId' =>
          have htask : taskId ≠ taskId' := by
            rintro rfl
            exact hne rfl
          rw [leaseAt, leaseAt, Dict.get?_pop_of_ne _ htask]
        | evictor i => rfl
        | drain => rfl
    | false =>
      simp only [Bool.false_eq_true, if_false]
      refine h.evict hr (.evictor evictor) ?_ ?_ rfl ?_ rfl rfl rfl
      · rw [leaseAt, hevictor, Option.bind_none]
      · rw [leaseAt, Dict.get?_set_self, Option.bind_some]
      · intro place' hnot hne
        cases place' with
        | running taskId' => exact absurd rfl (hnot taskId')
        | evictor i =>
          have hi : evictor ≠ i := by
            rintro rfl
            exact hne rfl
          rw [leaseAt, leaseAt, Dict.get?_set_of_ne _ _ hi]
        | drain => rfl

theorem Leased.drainMove (h : Leased s) (hmove : DrainMove p s s') : Leased s' := by
  cases hmove with
  | drained hdrain _ | dequeue hdrain _ _ | finished hdrain | requeueSkip hdrain _
  | requeuePut hdrain _ _ =>
    exact h.moveDrain rfl (by rw [drainEviction, hdrain]) rfl rfl rfl rfl rfl
  | skip _ _ _ => exact h.same (fun _ => rfl) (leaseAt_congr rfl rfl rfl) rfl rfl
  | @requeueDrop entry rest hdrain _ _ =>
    have hdropped : Leased { s with drain := .requeue rest } :=
      h.moveDrain rfl (by rw [drainEviction, hdrain]) rfl rfl rfl rfl rfl
    exact hdropped.resolveFuture _ _

/-- What every orderly move of every coroutine keeps. -/
theorem Leased.move {event : ArbiterEvent} (h : Leased s) (hplaced : Placed s)
    (horderly : LeaseOrderly s event) (hmove : Move p s event s') : Leased s' := by
  have hkept : ∀ {k j j'}, s.jobs.get? k = some j → Job.lease j' = j.lease →
      Leased { s with jobs := s.jobs.set k j' } := by
    intro k j j' hget hlease
    exact h.follow hget j' rfl hlease rfl rfl rfl rfl rfl
  have hled : ∀ {manager lock reported issued outside paused cluster}, Leased
      { s with
        manager := manager
        lock := lock
        reported := reported
        issued := issued
        outside := outside
        paused := paused
        cluster := cluster } :=
    h.same (fun _ => rfl) (leaseAt_congr rfl rfl rfl) rfl rfl
  cases hmove with
  | submit hfresh hnew => exact h.submit hfresh hnew horderly
  | availableRead hcheck hnew => exact h.availableRead hplaced hcheck hnew horderly
  | @acquire who k request effectiveFree now hcheck _ =>
    have hlocked : Leased { s.sweep now with lock := some (.checker who) } := hled
    exact hlocked.setPhase (checking_locked hcheck now) _
  | reserved hcheck _ hnew => exact h.reserved hplaced hcheck hnew horderly
  | cancelChecking hget _ _ | wakeCancelled hget _ _ _ =>
    exact h.follow hget _ rfl rfl rfl rfl rfl rfl rfl
  | @cancelWaiting k j c hget _ => exact hkept hget (Job.resolveFuture_lease j .cancelled)
  | wakeAnswered hget _ _ _ | payloadStops hget _ => exact hkept hget rfl
  | @runStarts k j leaseId now hget hrun hnew =>
    have hok := hplaced.leases k j hget
    rw [Job.LeaseOk, hrun] at hok
    exact h.startRun (horderly j hget) ((leaseOf_of_get? hget).trans hok) hok hnew
  | @payloadEnds k j how hget _ => exact h.finishRun (leaseOf_of_get? hget) how
  | @renewalStops k j how leaseId hget _ => exact h.finishRun (leaseOf_of_get? hget) how
  | renewed | pause | resume | sweepStale | outsideAcquire | outsideRefused | outsideGranted
  | outsideAborted | outsideRelease | clusterChanges => exact hled
  | @leaseLost k j leaseId now c hget _ _ =>
    have hrenewed : Leased { s with cluster := some c } := hled
    exact hrenewed.resolveFuture _ _
  | @propagate k j j' how hget _ hnext =>
    rcases hnext with rfl | rfl
    · exact hkept hget rfl
    · exact hkept hget (Job.resolveFuture_lease j how)
  | @cancelQueued evictor taskId bySelf entry _ =>
    have hreleased : Leased ({ s with
        queuedEntries := s.queuedEntries.pop taskId
        cancelledIds := insert taskId s.cancelledIds }.releaseReservation taskId) :=
      h.same (fun _ => rfl) (leaseAt_congr rfl rfl rfl) rfl rfl
    exact hreleased.resolveFuture _ _
  | cancelOp hevictor | evict hevictor => exact h.evictTask hevictor _ _
  | @evicted evictor eviction hget _ =>
    refine h.finishEvict eviction (.evictor evictor) ?_ s.running (s.evictions.pop evictor)
      s.drain ?_ ?_
    · rw [leaseAt, hget, Option.bind_some]
    · rw [leaseAt, Dict.get?_pop_self, Option.bind_none]
    · intro place hne
      cases place with
      | running taskId => rfl
      | evictor i =>
        have hi : evictor ≠ i := by
          rintro rfl
          exact hne rfl
        rw [leaseAt, leaseAt, Dict.get?_pop_of_ne _ hi]
      | drain => rfl
  | drainBegins hdrain =>
    exact h.moveDrain rfl (by rw [drainEviction, hdrain]) rfl rfl rfl rfl rfl
  | drainStep hmove => exact h.drainMove hmove
  | @drainEvicted entry retry eviction hdrain _ =>
    refine h.finishEvict eviction .drain ?_ s.running s.evictions
      (.checking entry retry true .available) rfl ?_
    · rw [leaseAt, drainEviction, hdrain, Option.bind_some]
    · intro place hne
      cases place with
      | running taskId => rfl
      | evictor i => rfl
      | drain => exact absurd rfl hne
  | drainRaises hdrain _ =>
    exact h.moveDrain rfl (drainEviction_of_checking hdrain) rfl rfl rfl rfl rfl

end ArbiterState

end TinyAgentOS.Gpu
