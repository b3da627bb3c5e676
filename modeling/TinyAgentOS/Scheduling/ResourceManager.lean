import TinyAgentOS.Scheduling.JobQueue

/-!
# The resource manager

The manager sets the job queue's limits from what it finds on the machine, and
throttles them while the user has claimed it.  Its calls are coroutines: each
limit is set in a stretch of its own, and other calls may run in between.

Main results:

- `admissionAgrees_iff`: when the admission test and the queue agree.
- `throttled_of_orderly`: the runs in which a yield stays in force.
- `throttle_undone`: a refresh under way undoes a yield.
-/

namespace TinyAgentOS.Scheduling

open Collections Transition

/-! ## Limits from a snapshot -/

/-- `ResourceSnapshot`, as far as the limits depend on it. -/
structure ResourceSnapshot where
  cpuCores : Int
  npuCores : Int
  /-- `gpu.get("count", 0)`. -/
  gpuCount : Int
  ramAvailableMb : Int
  totalGpuWorkers : Nat

/-- A call of `set_limit`. -/
abbrev LimitUpdate := String × Int

/-- The calls that `_apply_limits` makes, in order. -/
def limitUpdates (snap : ResourceSnapshot) : List LimitUpdate :=
  let npuLimit := if 0 < snap.npuCores then snap.npuCores else 0
  [("cpu", max 1 snap.cpuCores), ("npu", npuLimit),
      ("gpu", max (snap.gpuCount + snap.totalGpuWorkers) 0), ("embed", 1)] ++
    if snap.ramAvailableMb < 1024 then [("cpu", 1), ("npu", min npuLimit 1)] else []

/-- The calls that `yield_resources` makes, in order. -/
def throttled : List LimitUpdate := [("cpu", 1), ("gpu", 0), ("npu", 0), ("embed", 1)]

def setLimits (q : JobQueue) (updates : List LimitUpdate) : JobQueue :=
  updates.foldl (fun q u => q.setLimit u.1 u.2) q

/-- `can_accept_job`: a snapshot that is out of date is taken again first. -/
def canAcceptJob (yielded : Bool) (refreshed : Option ResourceSnapshot) (q : JobQueue)
    (resourceType : String) : JobQueue × Bool :=
  let q :=
    match refreshed with
    | some snap => if yielded then q else setLimits q (limitUpdates snap)
    | none => q
  (q, decide ((q.runningCount resourceType : Int) < (q.limits.get? resourceType).getD 0))

/-! ## The admission test and the queue -/

namespace JobQueue

/-- With these limits and running jobs, and whatever is pending as long as it includes a job
of the type, a worker that asks for the type is handed one. -/
def WouldHandOut (q : JobQueue) (resourceType : String) : Prop :=
  ∀ t : JobQueue, t.limits = q.limits →
    (∀ resource, t.runningCount resource = q.runningCount resource) →
    (∃ jobId j, t.jobs.get? jobId = some j ∧ j.status = .pending ∧
      j.resourceType = resourceType) →
    ∀ now, ∃ jobId j, (t.dequeue (some [resourceType]) now).2 = some (jobId, j) ∧
      j.resourceType = resourceType

theorem hasCapacity_congr {q t : JobQueue} (hlimits : t.limits = q.limits)
    (hrunning : ∀ resource, t.runningCount resource = q.runningCount resource)
    (resource : String) : t.hasCapacity resource = q.hasCapacity resource := by
  rw [hasCapacity, hasCapacity, hrunning, limitOf, limitOf, hlimits]

/-- A job of the type could always be pending. -/
theorem exists_pending (q : JobQueue) (resourceType : String) :
    ∃ t : JobQueue, t.limits = q.limits ∧
      (∀ resource, t.runningCount resource = q.runningCount resource) ∧
      ∃ jobId j, t.jobs.get? jobId = some j ∧ j.status = .pending ∧
        j.resourceType = resourceType := by
  obtain ⟨jobId, hfresh⟩ := Infinite.exists_notMem_finset q.jobs.keys.toFinset
  have hnone : q.jobs.get? jobId = none :=
    Dict.get?_eq_none_iff.mpr (by simpa using hfresh)
  let j : Job :=
    { jobType := "embed"
      priority := 1
      status := .pending
      agentName := none
      payloadJson := "{}"
      resourceType := resourceType
      estimatedSeconds := 0
      createdAt := 0
      startedAt := none
      completedAt := none
      error := none
      resultJson := none }
  refine ⟨{ q with jobs := q.jobs.set jobId j }, rfl, ?_, jobId, j, Dict.get?_set_self _ _ _,
    rfl, rfl⟩
  intro resource
  simp [runningCount, Dict.count_set_new _ j hnone, j]

theorem wouldHandOut_iff (q : JobQueue) (resourceType : String) :
    q.WouldHandOut resourceType ↔ q.hasCapacity resourceType = true := by
  constructor
  · intro hwould
    obtain ⟨t, hlimits, hrunning, hpending⟩ := q.exists_pending resourceType
    obtain ⟨jobId, j, hsome, hresource⟩ := hwould t hlimits hrunning hpending 0
    rcases t.dequeue_first (some [resourceType]) 0 with
      ⟨heq, _⟩ | ⟨_, j', _, heligible, _, heq⟩
    · rw [heq] at hsome
      contradiction
    · rw [heq] at hsome
      cases hsome
      have hcapacity := heligible.2.2
      rwa [hasCapacity_congr hlimits hrunning, show j'.resourceType = resourceType from hresource]
        at hcapacity
  · intro hcapacity t hlimits hrunning hpending now
    rcases hpending with ⟨jobId, j, hget, hstatus, hresource⟩
    have heligible : t.Eligible (some [resourceType]) j := by
      refine ⟨hstatus, by simp [wants, hresource], ?_⟩
      rwa [hasCapacity_congr hlimits hrunning, hresource]
    rcases t.dequeue_first (some [resourceType]) now with
      ⟨_, hidle⟩ | ⟨jobId', j', _, heligible', _, heq⟩
    · exact absurd heligible (hidle jobId j hget)
    · refine ⟨_, _, congrArg Prod.snd heq, ?_⟩
      simpa [wants] using heligible'.2.1

end JobQueue

@[simp]
theorem runningCount_setLimits (q : JobQueue) (updates : List LimitUpdate) (resource : String) :
    (setLimits q updates).runningCount resource = q.runningCount resource := by
  unfold setLimits
  induction updates generalizing q with
  | nil => rfl
  | cons u updates ih => exact ih (q.setLimit u.1 u.2)

theorem isSome_limits_setLimits (q : JobQueue) (updates : List LimitUpdate) (resource : String) :
    ((setLimits q updates).limits.get? resource).isSome = true ↔
      (q.limits.get? resource).isSome = true ∨ resource ∈ updates.map Prod.fst := by
  unfold setLimits
  induction updates generalizing q with
  | nil => simp
  | cons u updates ih =>
    have hset : ((q.setLimit u.1 u.2).limits.get? resource).isSome = true ↔
        (q.limits.get? resource).isSome = true ∨ resource = u.1 := by
      simp only [JobQueue.setLimit, Dict.get?_set]
      by_cases heq : u.1 = resource
      · simp [heq]
      · simp [heq, Ne.symm heq]
    rw [List.foldl_cons, ih, hset, List.map_cons, List.mem_cons, or_assoc]

theorem mem_limitUpdates_keys (snap : ResourceSnapshot) (resource : String) :
    resource ∈ (limitUpdates snap).map Prod.fst ↔ resource ∈ throttled.map Prod.fst := by
  unfold limitUpdates
  split <;> simp [throttled] <;> tauto

/-- What the admission test leaves of the queue. -/
theorem canAcceptJob_queue (yielded : Bool) (refreshed : Option ResourceSnapshot) (q : JobQueue)
    (resourceType resource : String) :
    (canAcceptJob yielded refreshed q resourceType).1.runningCount resource =
        q.runningCount resource ∧
      (((canAcceptJob yielded refreshed q resourceType).1.limits.get? resource).isSome = true ↔
        (q.limits.get? resource).isSome = true ∨
          refreshed.isSome = true ∧ yielded = false ∧ resource ∈ throttled.map Prod.fst) := by
  unfold canAcceptJob
  cases refreshed with
  | none => simp
  | some snap =>
    cases yielded with
    | true => simp
    | false => simp [isSome_limits_setLimits, mem_limitUpdates_keys]

/-- The admission test and the queue agree on a type that has a limit, and on any other type
only while a job of it is running. -/
theorem admissionAgrees_iff (yielded : Bool) (refreshed : Option ResourceSnapshot)
    (q : JobQueue) (resourceType : String) :
    ((canAcceptJob yielded refreshed q resourceType).2 = true ↔
        (canAcceptJob yielded refreshed q resourceType).1.WouldHandOut resourceType) ↔
      (q.limits.get? resourceType).isSome = true ∨
        (refreshed.isSome = true ∧ yielded = false ∧ resourceType ∈ throttled.map Prod.fst) ∨
        0 < q.runningCount resourceType := by
  obtain ⟨hrunning, hlimits⟩ :=
    canAcceptJob_queue yielded refreshed q resourceType resourceType
  rw [← or_assoc, ← hlimits, ← hrunning, JobQueue.wouldHandOut_iff]
  have hanswer : (canAcceptJob yielded refreshed q resourceType).2 =
      decide (((canAcceptJob yielded refreshed q resourceType).1.runningCount resourceType : Int) <
        ((canAcceptJob yielded refreshed q resourceType).1.limits.get? resourceType).getD 0) := rfl
  rw [hanswer]
  generalize (canAcceptJob yielded refreshed q resourceType).1 = t
  rw [JobQueue.hasCapacity, JobQueue.limitOf, decide_eq_true_iff, decide_eq_true_iff]
  cases hlimit : t.limits.get? resourceType with
  | none =>
    simp only [Option.getD_none, Option.isSome_none, Bool.false_eq_true, false_or]
    omega
  | some limit => simp

/-- A job of a type that was never given a limit: the queue hands it out, the test refuses it. -/
theorem admission_disagrees :
    ∃ q, JobQueue.init.enqueue "j1" { jobType := "index", resourceType := "disk" } 1 = some q ∧
      (q.dequeue (some ["disk"]) 2).2.map Prod.fst = some "j1" ∧
      ¬((canAcceptJob false none q "disk").2 = true ↔
        (canAcceptJob false none q "disk").1.WouldHandOut "disk") := by
  refine ⟨_, rfl, by decide, ?_⟩
  rw [JobQueue.wouldHandOut_iff]
  decide

/-! ## The coroutines -/

abbrev CallId := Nat

/-- A call of the manager under way, with the limits it has still to set. -/
inductive Call where
  /-- `yield_resources`, called after so many calls of `reclaim_resources`. -/
  | yielding (reclaims : Nat) (rest : List LimitUpdate)
  /-- `refresh`, which `reclaim_resources` goes through as well, at its probes. -/
  | probing
  /-- `_apply_limits`, past its look at the flag. -/
  | applying (rest : List LimitUpdate)

/-- A refresh that has limits to set still. -/
def Call.setting : Call → Bool
  | applying (_ :: _) => true
  | _ => false

/-- The manager, its calls under way and the queue. -/
structure ManagerState where
  queue : JobQueue
  yielded : Bool
  calls : Dict CallId Call
  reclaims : Nat
  /-- A yield has returned that no reclaim was called after. -/
  inForce : Bool

/-- A new manager on a queue. -/
def ManagerState.init (q : JobQueue) : ManagerState := ⟨q, false, Dict.empty, 0, false⟩

/-- The stretches of the calls. -/
inductive ManagerEvent where
  | yieldCalled (id : CallId)
  | reclaimCalled (id : CallId)
  | refreshCalled (id : CallId)
  | probed (id : CallId) (snap : ResourceSnapshot)
  | limitSet (id : CallId)
  | returned (id : CallId)

namespace ManagerState

/-- One stretch. -/
def step (s : ManagerState) : ManagerEvent → Option ManagerState
  | .yieldCalled id =>
    if (s.calls.get? id).isSome then none
    else
      some
        { s with yielded := true, calls := s.calls.set id (.yielding s.reclaims throttled) }
  | .reclaimCalled id =>
    if (s.calls.get? id).isSome then none
    else
      some
        { s with
          yielded := false
          calls := s.calls.set id .probing
          reclaims := s.reclaims + 1
          inForce := false }
  | .refreshCalled id =>
    if (s.calls.get? id).isSome then none
    else some { s with calls := s.calls.set id .probing }
  | .probed id snap =>
    match s.calls.get? id with
    | some .probing =>
      if s.yielded then some { s with calls := s.calls.pop id }
      else some { s with calls := s.calls.set id (.applying (limitUpdates snap)) }
    | _ => none
  | .limitSet id =>
    match s.calls.get? id with
    | some (.yielding reclaims (u :: rest)) =>
      some
        { s with
          queue := s.queue.setLimit u.1 u.2
          calls := s.calls.set id (.yielding reclaims rest) }
    | some (.applying (u :: rest)) =>
      some
        { s with
          queue := s.queue.setLimit u.1 u.2
          calls := s.calls.set id (.applying rest) }
    | _ => none
  | .returned id =>
    match s.calls.get? id with
    | some (.yielding reclaims []) =>
      some
        { s with
          calls := s.calls.pop id
          inForce := s.inForce || reclaims = s.reclaims }
    | some (.applying []) => some { s with calls := s.calls.pop id }
    | _ => none

/-! ## A yield in force -/

/-- Every limit that a yield throttles has its throttled value. -/
def Throttled (s : ManagerState) : Prop :=
  ∀ u ∈ throttled, s.queue.limits.get? u.1 = some u.2

instance (s : ManagerState) : Decidable s.Throttled :=
  inferInstanceAs (Decidable (∀ u ∈ throttled, _))

/-- The user yields only while no refresh is setting limits. -/
def YieldOrderly (s : ManagerState) : ManagerEvent → Prop
  | .yieldCalled _ => ∀ call ∈ s.calls.values, call.setting = false
  | _ => True

instance (s : ManagerState) (e : ManagerEvent) : Decidable (YieldOrderly s e) :=
  match e with
  | .yieldCalled _ => inferInstanceAs (Decidable (∀ call ∈ s.calls.values, call.setting = false))
  | .reclaimCalled _ => isTrue trivial
  | .refreshCalled _ => isTrue trivial
  | .probed _ _ => isTrue trivial
  | .limitSet _ => isTrue trivial
  | .returned _ => isTrue trivial

/-- While the machine is yielded no refresh sets limits; a yield under way has set what it
has not still to set, and one in force has set everything. -/
structure Yielding (s : ManagerState) : Prop where
  refreshes : s.yielded = true → ∀ id rest, s.calls.get? id = some (.applying rest) → rest = []
  calls : ∀ id reclaims rest, s.calls.get? id = some (.yielding reclaims rest) →
    reclaims ≤ s.reclaims ∧ (∀ u ∈ rest, u ∈ throttled) ∧
      (reclaims = s.reclaims → s.yielded = true ∧
        ∀ u ∈ throttled, u ∈ rest ∨ s.queue.limits.get? u.1 = some u.2)
  inForce : s.inForce = true → s.yielded = true ∧ s.Throttled

theorem Yielding.init (q : JobQueue) : Yielding (init q) where
  refreshes := by simp [ManagerState.init]
  calls := by simp [ManagerState.init]
  inForce := by simp [ManagerState.init]

/-- The throttled value of a type is unique. -/
theorem throttled_unique {u v : LimitUpdate} (hu : u ∈ throttled) (hv : v ∈ throttled)
    (heq : u.1 = v.1) : u = v := by
  simp only [throttled, List.mem_cons, List.not_mem_nil, or_false] at hu hv
  rcases hu with rfl | rfl | rfl | rfl <;> rcases hv with rfl | rfl | rfl | rfl <;>
    first | rfl | simp at heq

/-- Setting a throttled limit leaves every limit that is throttled as it is. -/
theorem get?_setLimit_throttled {q : JobQueue} {u v : LimitUpdate} (hu : u ∈ throttled)
    (hv : v ∈ throttled) (hkept : v = u ∨ q.limits.get? v.1 = some v.2) :
    (q.setLimit u.1 u.2).limits.get? v.1 = some v.2 := by
  simp only [JobQueue.setLimit, Dict.get?_set]
  split
  · rename_i heq
    rw [throttled_unique hu hv heq]
  · rename_i hne
    rcases hkept with rfl | hold
    · exact absurd rfl hne
    · exact hold

/-- A call ends, or it goes into a stage of which nothing is asked. -/
theorem Yielding.leave {s : ManagerState} (h : Yielding s) {calls : Dict CallId Call}
    (hcalls : ∀ id call, calls.get? id = some call →
      s.calls.get? id = some call ∨ call = .probing) : Yielding { s with calls := calls } where
  refreshes := by
    intro hyielded id rest hget
    rcases hcalls id _ hget with hold | habsurd
    · exact h.refreshes hyielded id rest hold
    · contradiction
  calls := by
    intro id reclaims rest hget
    rcases hcalls id _ hget with hold | habsurd
    · exact h.calls id reclaims rest hold
    · contradiction
  inForce := h.inForce

theorem Yielding.pop {s : ManagerState} (h : Yielding s) (id : CallId) :
    Yielding { s with calls := s.calls.pop id } := by
  refine h.leave fun id' call hget => ?_
  rw [Dict.get?_pop] at hget
  split at hget
  · contradiction
  · exact .inl hget

theorem Yielding.yieldCalled {s : ManagerState} (h : Yielding s) (id : CallId)
    (hguard : ∀ call ∈ s.calls.values, call.setting = false) :
    Yielding
      { s with yielded := true, calls := s.calls.set id (.yielding s.reclaims throttled) } where
  refreshes := by
    intro _ id' rest hget
    rw [Dict.get?_set] at hget
    split at hget
    · cases hget
    cases rest with
    | nil => rfl
    | cons u rest =>
      have hsetting := hguard _ (Dict.mem_values_iff.mpr ⟨id', hget⟩)
      contradiction
  calls := by
    intro id' reclaims rest hget
    rcases Dict.get?_set_cases hget with ⟨_, hstored⟩ | ⟨_, hget⟩
    · cases hstored
      exact ⟨le_rfl, fun _ hu => hu, fun _ => ⟨rfl, fun _ hu => .inl hu⟩⟩
    · obtain ⟨hle, hrest, hset⟩ := h.calls id' reclaims rest hget
      exact ⟨hle, hrest, fun heq => ⟨rfl, (hset heq).2⟩⟩
  inForce := fun hforce => ⟨rfl, (h.inForce hforce).2⟩

theorem Yielding.reclaimCalled {s : ManagerState} (h : Yielding s) (id : CallId) :
    Yielding
      { s with
        yielded := false
        calls := s.calls.set id .probing
        reclaims := s.reclaims + 1
        inForce := false } where
  refreshes := by simp
  calls := by
    intro id' reclaims rest hget
    rw [Dict.get?_set] at hget
    split at hget
    · cases hget
    obtain ⟨hle, hrest, _⟩ := h.calls id' reclaims rest hget
    refine ⟨Nat.le_succ_of_le hle, hrest, fun heq => ?_⟩
    exact absurd (heq ▸ hle) (Nat.not_succ_le_self _)
  inForce := by simp

theorem Yielding.applying {s : ManagerState} (h : Yielding s) (id : CallId)
    (hyielded : s.yielded = false) (rest : List LimitUpdate) :
    Yielding { s with calls := s.calls.set id (.applying rest) } where
  refreshes := by simp [hyielded]
  calls := by
    intro id' reclaims rest' hget
    rw [Dict.get?_set] at hget
    split at hget
    · cases hget
    · exact h.calls id' reclaims rest' hget
  inForce := h.inForce

/-- A yield sets its next limit. -/
theorem Yielding.throttle {s : ManagerState} (h : Yielding s) {id : CallId} {reclaims : Nat}
    {u : LimitUpdate} {rest : List LimitUpdate}
    (hcall : s.calls.get? id = some (.yielding reclaims (u :: rest))) :
    Yielding
      { s with
        queue := s.queue.setLimit u.1 u.2
        calls := s.calls.set id (.yielding reclaims rest) } := by
  obtain ⟨hle, hrest, hset⟩ := h.calls id reclaims _ hcall
  have hu : u ∈ throttled := hrest u List.mem_cons_self
  refine ⟨?_, ?_, ?_⟩
  · intro hyielded id' rest' hget
    rw [Dict.get?_set] at hget
    split at hget
    · cases hget
    · exact h.refreshes hyielded id' rest' hget
  · intro id' reclaims' rest' hget
    rcases Dict.get?_set_cases hget with ⟨_, hstored⟩ | ⟨_, hget⟩
    · cases hstored
      refine ⟨hle, fun v hv => hrest v (List.mem_cons_of_mem _ hv), fun heq => ?_⟩
      refine ⟨(hset heq).1, fun v hv => ?_⟩
      rcases (hset heq).2 v hv with hmem | hold
      · rcases List.mem_cons.mp hmem with rfl | hmem
        · exact .inr (get?_setLimit_throttled hu hv (.inl rfl))
        · exact .inl hmem
      · exact .inr (get?_setLimit_throttled hu hv (.inr hold))
    · obtain ⟨hle', hrest', hset'⟩ := h.calls id' reclaims' rest' hget
      refine ⟨hle', hrest', fun heq => ⟨(hset' heq).1, fun v hv => ?_⟩⟩
      rcases (hset' heq).2 v hv with hmem | hold
      · exact .inl hmem
      · exact .inr (get?_setLimit_throttled hu hv (.inr hold))
  · intro hforce
    refine ⟨(h.inForce hforce).1, fun v hv => ?_⟩
    exact get?_setLimit_throttled hu hv (.inr ((h.inForce hforce).2 v hv))

/-- A refresh sets its next limit, so the machine is not yielded. -/
theorem Yielding.limitApplied {s : ManagerState} (h : Yielding s) {id : CallId}
    {u : LimitUpdate} {rest : List LimitUpdate}
    (hcall : s.calls.get? id = some (.applying (u :: rest))) :
    Yielding
      { s with
        queue := s.queue.setLimit u.1 u.2
        calls := s.calls.set id (.applying rest) } := by
  have hyielded : s.yielded = false := by
    by_contra htrue
    have hnil := h.refreshes (Bool.eq_true_of_not_eq_false htrue) id _ hcall
    contradiction
  refine ⟨by simp [hyielded], ?_, ?_⟩
  · intro id' reclaims rest' hget
    rw [Dict.get?_set] at hget
    split at hget
    · cases hget
    obtain ⟨hle, hrest, hset⟩ := h.calls id' reclaims rest' hget
    refine ⟨hle, hrest, fun heq => ?_⟩
    have htrue := (hset heq).1
    rw [hyielded] at htrue
    contradiction
  · intro hforce
    have htrue := (h.inForce hforce).1
    rw [hyielded] at htrue
    contradiction

/-- A yield returns. -/
theorem Yielding.returned {s : ManagerState} (h : Yielding s) {id : CallId} {reclaims : Nat}
    (hcall : s.calls.get? id = some (.yielding reclaims [])) :
    Yielding
      { s with calls := s.calls.pop id, inForce := s.inForce || reclaims = s.reclaims } := by
  refine { h.pop id with inForce := ?_ }
  intro hforce
  rw [Bool.or_eq_true, decide_eq_true_eq] at hforce
  rcases hforce with hforce | heq
  · exact h.inForce hforce
  · obtain ⟨_, _, hset⟩ := h.calls id reclaims [] hcall
    refine ⟨(hset heq).1, fun v hv => ?_⟩
    rcases (hset heq).2 v hv with hmem | hold
    · contradiction
    · exact hold

theorem Yielding.step {s s' : ManagerState} {e : ManagerEvent} (h : Yielding s)
    (hguard : YieldOrderly s e) (hstep : s.step e = some s') : Yielding s' := by
  cases e with
  | yieldCalled id =>
    simp only [ManagerState.step, Option.ite_none_left_eq_some] at hstep
    cases hstep.2
    exact h.yieldCalled id hguard
  | reclaimCalled id =>
    simp only [ManagerState.step, Option.ite_none_left_eq_some] at hstep
    cases hstep.2
    exact h.reclaimCalled id
  | refreshCalled id =>
    simp only [ManagerState.step, Option.ite_none_left_eq_some] at hstep
    cases hstep.2
    refine h.leave fun id' call hget => ?_
    rcases Dict.get?_set_cases hget with ⟨_, rfl⟩ | ⟨_, hget⟩
    · exact .inr rfl
    · exact .inl hget
  | probed id snap =>
    simp only [ManagerState.step] at hstep
    split at hstep
    · split at hstep
      · cases hstep
        exact h.pop id
      · rename_i hyielded
        cases hstep
        exact h.applying id (Bool.eq_false_of_not_eq_true hyielded) _
    · contradiction
  | limitSet id =>
    simp only [ManagerState.step] at hstep
    split at hstep
    · rename_i hcall
      cases hstep
      exact h.throttle hcall
    · rename_i hcall
      cases hstep
      exact h.limitApplied hcall
    · contradiction
  | returned id =>
    simp only [ManagerState.step] at hstep
    split at hstep
    · rename_i hcall
      cases hstep
      exact h.returned hcall
    · cases hstep
      exact h.pop id
    · contradiction

/-- In every run in which the user yields only while no refresh is setting limits, the
throttled limits stay from the return of a yield to the next call of reclaim. -/
theorem throttled_of_orderly (q : JobQueue) (events : List ManagerEvent) (s : ManagerState)
    (hguard : Guarded step YieldOrderly (init q) events)
    (hrun : run step (init q) events = some s) (hforce : s.inForce = true) : s.Throttled :=
  ((invariant_of_guarded_run (fun _ _ _ h hg hstep => Yielding.step h hg hstep)
    (Yielding.init q) hguard hrun).inForce hforce).2

/-- The user yields while a refresh is setting limits; both take the queue's lock in turn, and
the refresh sets the limit of the GPU after the yield did. -/
theorem throttle_undone :
    ∃ s, run step (init JobQueue.init)
      [.refreshCalled 0, .probed 0 ⟨8, 3, 1, 16000, 0⟩, .yieldCalled 1, .limitSet 0, .limitSet 1,
        .limitSet 0, .limitSet 1, .limitSet 0, .limitSet 1, .limitSet 0, .limitSet 1,
        .returned 1] = some s ∧
      s.inForce = true ∧ s.queue.limits.get? "gpu" = some 1 ∧ ¬s.Throttled := by
  have hend : (run step (init JobQueue.init)
      [.refreshCalled 0, .probed 0 ⟨8, 3, 1, 16000, 0⟩, .yieldCalled 1, .limitSet 0, .limitSet 1,
        .limitSet 0, .limitSet 1, .limitSet 0, .limitSet 1, .limitSet 0, .limitSet 1,
        .returned 1]).map (fun s => (s.inForce, s.queue.limits.get? "gpu", decide s.Throttled)) =
      some (true, some 1, false) := by
    decide
  obtain ⟨s, hrun, hs⟩ := Option.map_eq_some_iff.mp hend
  rw [Prod.mk.injEq, Prod.mk.injEq] at hs
  exact ⟨s, hrun, hs.1, hs.2.1, of_decide_eq_false hs.2.2⟩

/-- A refresh is at its probes when the user yields. -/
theorem throttled_of_orderly_probing :
    ∃ s, run step (init JobQueue.init)
      [.refreshCalled 0, .yieldCalled 1, .limitSet 1, .limitSet 1, .limitSet 1, .limitSet 1,
        .returned 1, .probed 0 ⟨8, 3, 1, 16000, 0⟩] = some s ∧ s.Throttled := by
  have hend : (run step (init JobQueue.init)
      [.refreshCalled 0, .yieldCalled 1, .limitSet 1, .limitSet 1, .limitSet 1, .limitSet 1,
        .returned 1, .probed 0 ⟨8, 3, 1, 16000, 0⟩]).map (fun s => s.inForce) = some true := by
    decide
  obtain ⟨s, hrun, hs⟩ := Option.map_eq_some_iff.mp hend
  exact ⟨s, hrun, throttled_of_orderly _ _ _ (by decide) hrun hs⟩

end ManagerState

end TinyAgentOS.Scheduling
