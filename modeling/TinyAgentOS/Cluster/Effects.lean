import TinyAgentOS.Cluster.Fleet

/-!
# What a step of the cluster manager does to a record

The monitor only marks records offline and drops leases.  With that, a step
moves the record registered under a name in one of a few ways.

Main results:

- `rounds_move`: what a pass of the monitor leaves as it is.
- `workerStep`: what a step does to the record registered under a name.
-/

namespace TinyAgentOS.Cluster
namespace Fleet

open Collections Transition

variable {p : Wiring} {s s' : Fleet}

/-! ## The monitor -/

/-- The monitor leaves the tables of workers as they are, marks records offline, and drops
leases. -/
structure MonitorMove (s s' : Fleet) : Prop where
  workers : s'.workers = s.workers
  nextRef : s'.nextRef = s.nextRef
  clock : s'.clock = s.clock
  fenced : s'.fenced = s.fenced
  generation : s'.generation = s.generation
  issued : s'.issued = s.issued
  objects : ∀ ref, s'.objects ref = s.objects ref ∨
    s'.objects ref = { s.objects ref with status := .offline }
  leases : ∀ id, s'.leases.get? id = s.leases.get? id ∨ s'.leases.get? id = none

namespace MonitorMove

/-- The monitor may do nothing. -/
theorem refl (s : Fleet) : MonitorMove s s :=
  ⟨rfl, rfl, rfl, rfl, rfl, rfl, fun _ => Or.inl rfl, fun _ => Or.inl rfl⟩

/-- Moves of the monitor follow on one another. -/
theorem trans {s₁ s₂ s₃ : Fleet} (h : MonitorMove s₁ s₂) (h' : MonitorMove s₂ s₃) :
    MonitorMove s₁ s₃ where
  workers := h'.workers.trans h.workers
  nextRef := h'.nextRef.trans h.nextRef
  clock := h'.clock.trans h.clock
  fenced := h'.fenced.trans h.fenced
  generation := h'.generation.trans h.generation
  issued := h'.issued.trans h.issued
  objects := by
    intro ref
    rcases h'.objects ref with heq | heq
    · rw [heq]
      exact h.objects ref
    · right
      rw [heq]
      rcases h.objects ref with heq' | heq' <;> rw [heq']
  leases := by
    intro id
    rcases h'.leases id with heq | heq
    · rw [heq]
      exact h.leases id
    · exact Or.inr heq

/-- Where the monitor is does not matter. -/
theorem monitor (h : MonitorMove s s') (phase : MonitorPhase) :
    MonitorMove s { s' with monitor := phase } :=
  ⟨h.workers, h.nextRef, h.clock, h.fenced, h.generation, h.issued, h.objects, h.leases⟩

end MonitorMove

/-- A worker is put offline. -/
theorem setStatus_offline_move (s : Fleet) (ref : WorkerRef) :
    MonitorMove s (s.setStatus ref .offline) where
  workers := rfl
  nextRef := rfl
  clock := rfl
  fenced := rfl
  generation := rfl
  issued := rfl
  objects := by
    intro ref'
    by_cases href : ref' = ref
    · right
      rw [href]
      exact Function.update_self ref _ _
    · left
      exact Function.update_of_ne href _ _
  leases := fun _ => Or.inl rfl

/-- Leases are dropped. -/
theorem dropLeases_move (s : Fleet) (ids : List LeaseId) : MonitorMove s (s.dropLeases ids) where
  workers := rfl
  nextRef := rfl
  clock := rfl
  fenced := rfl
  generation := rfl
  issued := rfl
  objects := fun _ => Or.inl rfl
  leases := by
    intro id
    simp only [dropLeases, Dict.get?_foldl_pop]
    split
    · exact Or.inr rfl
    · exact Or.inl rfl

/-- The leases of a worker that is put offline are dropped. -/
theorem dropFor_move (p : Wiring) (s : Fleet) (ref : WorkerRef) (phase : MonitorPhase) :
    MonitorMove s (s.dropFor p ref phase).1 :=
  dropLeases_move s _

/-- A worker is visited. -/
theorem visit_move (p : Wiring) (s : Fleet) (now : Instant) (ref : WorkerRef)
    (todo : List WorkerRef) : MonitorMove s (s.visit p now ref todo).1 := by
  have hoffline := setStatus_offline_move s ref
  unfold visit
  split
  · exact MonitorMove.refl s
  · split
    · exact hoffline
    · exact hoffline.trans (dropFor_move p _ ref _)
  · exact hoffline
  · exact hoffline.trans (dropFor_move p _ ref _)

/-- A pass visits the workers. -/
theorem rounds_move (p : Wiring) (now : Instant) (todo : List WorkerRef) (s : Fleet) :
    MonitorMove s (rounds p now todo s) := by
  induction todo generalizing s with
  | nil => exact (dropLeases_move s _).monitor .sleeping
  | cons ref todo ih =>
    have hvisit := visit_move p s now ref todo
    simp only [rounds]
    split
    · rename_i t heq
      rw [heq] at hvisit
      exact hvisit.trans (ih t)
    · rename_i t phase heq
      rw [heq] at hvisit
      exact hvisit.monitor phase

/-- A fenced controller visits a worker. -/
theorem visitFenced_move (p : Wiring) (s : Fleet) (ref : WorkerRef) (todo : List WorkerRef) :
    MonitorMove s (s.visitFenced p ref todo).1 := by
  unfold visitFenced
  simp only
  split
  · exact MonitorMove.refl s
  · split
    · exact (setStatus_offline_move s ref).trans (dropFor_move p _ ref _)
    · exact dropFor_move p s ref _

/-- A fenced controller visits the workers. -/
theorem fencedRounds_move (p : Wiring) (todo : List WorkerRef) (s : Fleet) :
    MonitorMove s (fencedRounds p todo s) := by
  induction todo generalizing s with
  | nil => exact (MonitorMove.refl s).monitor .sleeping
  | cons ref todo ih =>
    have hvisit := visitFenced_move p s ref todo
    simp only [fencedRounds]
    split
    · rename_i t heq
      rw [heq] at hvisit
      exact hvisit.trans (ih t)
    · rename_i t phase heq
      rw [heq] at hvisit
      exact hvisit.monitor phase

/-- A pass begins. -/
theorem beginPass_move (p : Wiring) (s : Fleet) : MonitorMove s (s.beginPass p) := by
  unfold beginPass
  split
  · exact fencedRounds_move p _ s
  · exact rounds_move p _ _ s

/-- The monitor wakes up. -/
theorem wakeUp_move (h : s.wakeUp p = some s') : MonitorMove s s' := by
  unfold wakeUp at h
  split at h
  · split at h
    · cases h
      exact (MonitorMove.refl s).monitor .readingGeneration
    · cases h
      exact beginPass_move p s
  · contradiction

/-- Reading the generation can only fence the controller. -/
theorem generationRead_move {durable : Option Int} (h : s.generationRead p durable = some s') :
    ∃ fenced, (s.fenced = true → fenced = true) ∧
      MonitorMove { s with fenced := fenced } s' := by
  unfold generationRead at h
  split at h
  · cases h
    refine ⟨_, ?_, beginPass_move p _⟩
    intro hfenced
    simp [hfenced]
  · contradiction

/-- A notification is through. -/
theorem notified_move {raises : Bool} (h : s.notified p raises = some s') : MonitorMove s s' := by
  unfold notified at h
  split at h
  · rename_i now ref thenDrop todo hphase
    have hdrop := dropFor_move p s ref (.cancelling now todo)
    split at h
    · cases h
      exact (MonitorMove.refl s).monitor .stopped
    · split at h
      · split at h
        · rename_i t heq
          rw [heq] at hdrop
          cases h
          exact hdrop.trans (rounds_move p now todo t)
        · rename_i t phase heq
          rw [heq] at hdrop
          cases h
          exact hdrop.monitor phase
      · cases h
        exact rounds_move p now todo s
  · contradiction

/-- The monitor is cancelled. -/
theorem cancelled_move (h : s.cancelled p = some s') : MonitorMove s s' := by
  unfold cancelled at h
  split at h
  · cases h
    exact rounds_move p _ _ s
  · cases h
    exact fencedRounds_move p _ s
  · contradiction

/-! ## Well-formed fleets -/

/-- Records are registered under their names, references are handed out once, and leases
are on registered workers. -/
structure Wellformed (s : Fleet) : Prop where
  named : ∀ name ref, s.workers.get? name = some ref → (s.objects ref).name = name
  allocated : ∀ name ref, s.workers.get? name = some ref → ref < s.nextRef
  housed : ∀ id lease, s.leases.get? id = some lease →
    ∃ name rest ref, parseResourceId lease.resourceId = some (name, rest) ∧
      s.workers.get? name = some ref
  issued : ∀ id lease, s.leases.get? id = some lease → id ∈ s.issued

variable {name : String} {ref : WorkerRef}

/-- A worker is the record that its name refers to. -/
theorem worker?_eq_some {w : Worker} :
    s.worker? name = some w ↔ ∃ ref, s.workers.get? name = some ref ∧ s.objects ref = w := by
  rw [worker?, Option.map_eq_some_iff]

/-- A name that refers to a record has a worker. -/
theorem worker?_of_get? (h : s.workers.get? name = some ref) :
    s.worker? name = some (s.objects ref) := by
  rw [worker?, h, Option.map_some]

/-- A change of a registered record is seen under its name only. -/
theorem Wellformed.worker?_setObject (h : Wellformed s)
    (hget : s.workers.get? name = some ref) (w : Worker) (name' : String) :
    (s.setObject ref w).worker? name' = if name = name' then some w else s.worker? name' := by
  split
  · rename_i heq
    simp only [worker?, setObject, ← heq, hget, Option.map_some, Function.update_self]
  · rename_i hne
    simp only [worker?, setObject]
    cases hget' : s.workers.get? name' with
    | none => rfl
    | some ref' =>
      have href : ref' ≠ ref := by
        intro heq
        apply hne
        rw [← h.named name ref hget, ← h.named name' ref' hget', heq]
      rw [Option.map_some, Option.map_some, Function.update_of_ne href]

/-- A new record is seen under its name only. -/
theorem Wellformed.worker?_register (h : Wellformed s) (w : Worker) (key name : String) : ({ s with
        objects := Function.update s.objects s.nextRef w
        nextRef := s.nextRef + 1
        workers := s.workers.set key s.nextRef } : Fleet).worker? name =
      if key = name then some w else s.worker? name := by
  simp only [worker?, Dict.get?_set]
  split
  · rw [Option.map_some, Function.update_self]
  · cases hget : s.workers.get? name with
    | none => rfl
    | some ref =>
      have href := Nat.ne_of_lt (h.allocated name ref hget)
      rw [Option.map_some, Option.map_some, Function.update_of_ne href]

/-- The monitor leaves a worker alone, or puts it offline. -/
theorem MonitorMove.worker? (h : MonitorMove s s') (name : String) :
    s'.worker? name = s.worker? name ∨
      ∃ w, s.worker? name = some w ∧
        s'.worker? name = some { w with status := .offline } := by
  simp only [Fleet.worker?, h.workers]
  cases hget : s.workers.get? name with
  | none => exact Or.inl rfl
  | some ref =>
    rcases h.objects ref with heq | heq
    · left
      rw [Option.map_some, Option.map_some, heq]
    · right
      exact ⟨s.objects ref, rfl, by rw [Option.map_some, heq]⟩

/-! ## Steps that change records only -/

/-- A heartbeat changes records only. -/
theorem heartbeat_objects (s : Fleet) (key : String) (beat : Heartbeat) :
    ∃ objects, s.heartbeat key beat = { s with objects := objects } := by
  unfold heartbeat
  split
  · exact ⟨s.objects, rfl⟩
  · split
    · exact ⟨s.objects, rfl⟩
    · exact ⟨_, rfl⟩

/-- Cancelling a drain changes records only. -/
theorem cancelDrain_objects (s : Fleet) (key : String) :
    ∃ objects, s.cancelDrain key = { s with objects := objects } := by
  unfold cancelDrain
  split
  · exact ⟨s.objects, rfl⟩
  · split
    · exact ⟨_, rfl⟩
    · exact ⟨s.objects, rfl⟩

/-- Putting a worker offline changes records only. -/
theorem setOffline_objects (s : Fleet) (key : String) :
    ∃ objects, s.setOffline key = { s with objects := objects } := by
  unfold setOffline
  split
  · exact ⟨s.objects, rfl⟩
  · split
    · exact ⟨_, rfl⟩
    · exact ⟨s.objects, rfl⟩

/-! ## One record -/

/-- The ways in which a step moves the record under a name. -/
inductive WorkerStep (s : Fleet) (name : String) :
    FleetEvent → Option Worker → Option Worker → Prop where
  | same (e : FleetEvent) (w : Option Worker) : WorkerStep s name e w w
  | registered (info : Worker) (generation : Option Int) (w : Option Worker)
      (hname : info.name = name) (hfence : s.fenced = false)
      (hgeneration : s.staleGeneration generation = false) :
      WorkerStep s name (.registerWorker info generation) w
        (some { info with status := .online, lastHeartbeat := s.clock })
  | heard (beat : Heartbeat) (w : Worker) (hfence : s.fenced = false)
      (hgeneration : s.staleGeneration beat.generation = false) :
      WorkerStep s name (.heartbeat name beat) (some w) (some (w.heard beat s.clock))
  | unregistered (w : Worker) : WorkerStep s name (.unregisterWorker name) (some w) none
  | drained (graceful : Bool) (w : Worker) :
      WorkerStep s name (.drainWorker name graceful) (some w)
        (some { w with status := if graceful then .draining else .offline })
  | undrained (w : Worker) (hstatus : w.status = .draining) :
      WorkerStep s name (.cancelDrain name) (some w) (some { w with status := .online })
  | offline (e : FleetEvent) (w : Worker) :
      WorkerStep s name e (some w) (some { w with status := .offline })

/-- What the monitor does to a worker is a step of it. -/
theorem MonitorMove.workerStep (h : MonitorMove s s') (t : Fleet) (name : String)
    (e : FleetEvent) : WorkerStep t name e (s.worker? name) (s'.worker? name) := by
  rcases h.worker? name with heq | ⟨w, hw, hw'⟩
  · rw [heq]
    exact WorkerStep.same e _
  · rw [hw, hw']
    exact WorkerStep.offline e w

/-- What a registration does to a worker is a step of it. -/
theorem Wellformed.workerStep_registerWorker (h : Wellformed s) (info : Worker)
    (generation : Option Int) (name : String) :
    WorkerStep s name (.registerWorker info generation) (s.worker? name)
      ((s.registerWorker info generation).worker? name) := by
  unfold registerWorker
  split
  · exact WorkerStep.same _ _
  · rename_i hrefused
    rw [h.worker?_register]
    split
    · rename_i hname
      simp only [Bool.or_eq_true, not_or, Bool.not_eq_true] at hrefused
      exact WorkerStep.registered info generation _ hname hrefused.1 hrefused.2
    · exact WorkerStep.same _ _

/-- What a heartbeat does to a worker is a step of it. -/
theorem Wellformed.workerStep_heartbeat (h : Wellformed s) (key : String) (beat : Heartbeat)
    (name : String) :
    WorkerStep s name (.heartbeat key beat) (s.worker? name)
      ((s.heartbeat key beat).worker? name) := by
  unfold heartbeat
  split
  · exact WorkerStep.same _ _
  · rename_i ref hget
    split
    · exact WorkerStep.same _ _
    · rename_i hrefused
      rw [h.worker?_setObject hget]
      split
      · rename_i hname
        subst hname
        rw [worker?_of_get? hget]
        simp only [Bool.or_eq_true, not_or, Bool.not_eq_true] at hrefused
        exact WorkerStep.heard beat _ hrefused.1 hrefused.2
      · exact WorkerStep.same _ _

/-- What a removal does to a worker is a step of it. -/
theorem workerStep_unregisterWorker (s : Fleet) (key name : String) :
    WorkerStep s name (.unregisterWorker key) (s.worker? name)
      ((s.unregisterWorker key).worker? name) := by
  unfold unregisterWorker
  split
  · exact WorkerStep.same _ _
  · rename_i ref hget
    simp only [worker?, dropLeases, Dict.get?_pop]
    split
    · rename_i hname
      subst hname
      rw [hget]
      exact WorkerStep.unregistered _
    · exact WorkerStep.same _ _

/-- A change of status is seen under the record's name only. -/
theorem Wellformed.worker?_setStatus (h : Wellformed s)
    (hget : s.workers.get? name = some ref) (status : WorkerStatus) (name' : String) :
    (s.setStatus ref status).worker? name' =
      if name = name' then some { s.objects ref with status := status } else s.worker? name' :=
  h.worker?_setObject hget _ name'

/-- A drain changes the status of the worker it names. -/
theorem Wellformed.worker?_drainWorker (h : Wellformed s) (key : String) (graceful : Bool)
    (name : String) : (s.drainWorker key graceful).worker? name =
      if key = name then
        (s.worker? name).map fun w =>
          { w with status := if graceful then .draining else .offline }
      else s.worker? name := by
  unfold drainWorker
  cases hget : s.workers.get? key with
  | none =>
    by_cases hname : key = name
    · subst hname
      simp [worker?, hget]
    · simp [hname]
  | some ref =>
    have hstatus := h.worker?_setStatus hget (if graceful then .draining else .offline) name
    have hmap : (if key = name then
          (s.worker? name).map fun w =>
            { w with status := if graceful then .draining else .offline }
        else s.worker? name) =
        if key = name then
          some { s.objects ref with status := if graceful then .draining else .offline }
        else s.worker? name := by
      split
      · rename_i hname
        rw [← hname, worker?_of_get? hget, Option.map_some]
      · rfl
    rw [hmap, ← hstatus]
    cases graceful with
    | true => rfl
    | false =>
      -- The second status overwrites the first, and leases are not part of records.
      simp only [worker?, setStatus, setObject, dropLeases, Function.update_self,
        Function.update_idem, Bool.false_eq_true, if_false]

/-- What a drain does to a worker is a step of it. -/
theorem Wellformed.workerStep_drainWorker (h : Wellformed s) (key : String) (graceful : Bool)
    (name : String) :
    WorkerStep s name (.drainWorker key graceful) (s.worker? name)
      ((s.drainWorker key graceful).worker? name) := by
  rw [h.worker?_drainWorker]
  split
  · rename_i hname
    subst hname
    cases s.worker? key with
    | none => exact WorkerStep.same _ _
    | some w => exact WorkerStep.drained graceful w
  · exact WorkerStep.same _ _

/-- What a cancelled drain does to a worker is a step of it. -/
theorem Wellformed.workerStep_cancelDrain (h : Wellformed s) (key name : String) :
    WorkerStep s name (.cancelDrain key) (s.worker? name)
      ((s.cancelDrain key).worker? name) := by
  unfold cancelDrain
  split
  · exact WorkerStep.same _ _
  · rename_i ref hget
    split
    · rename_i hstatus
      rw [h.worker?_setStatus hget]
      split
      · rename_i hname
        subst hname
        rw [worker?_of_get? hget]
        exact WorkerStep.undrained _ hstatus
      · exact WorkerStep.same _ _
    · exact WorkerStep.same _ _

/-- What going offline does to a worker is a step of it. -/
theorem Wellformed.workerStep_setOffline (h : Wellformed s) (key name : String) :
    WorkerStep s name (.setOffline key) (s.worker? name)
      ((s.setOffline key).worker? name) := by
  unfold setOffline
  split
  · exact WorkerStep.same _ _
  · rename_i ref hget
    split
    · rw [h.worker?_setStatus hget]
      split
      · rename_i hname
        subst hname
        rw [worker?_of_get? hget]
        exact WorkerStep.offline _ _
      · exact WorkerStep.same _ _
    · exact WorkerStep.same _ _

/-- A claim changes no worker. -/
theorem worker?_claimLease (s : Fleet) (resourceId caller : String) (ttl : Seconds)
    (requiredVramMb : Int) (leaseId : LeaseId) (name : String) :
    (s.claimLease resourceId caller ttl requiredVramMb leaseId).worker? name =
      s.worker? name := by
  unfold claimLease
  split <;> rfl

/-- What a step does to the record registered under a name. -/
theorem workerStep {e : FleetEvent} (h : Wellformed s) (hstep : step p s e = some s')
    (name : String) : WorkerStep s name e (s.worker? name) (s'.worker? name) := by
  cases e with
  | tick now =>
    simp only [step] at hstep
    split at hstep
    · cases hstep
      exact WorkerStep.same _ _
    · contradiction
  | registerWorker info generation =>
    cases hstep
    exact h.workerStep_registerWorker info generation name
  | heartbeat key beat =>
    cases hstep
    exact h.workerStep_heartbeat key beat name
  | unregisterWorker key =>
    cases hstep
    exact workerStep_unregisterWorker s key name
  | claimLease resourceId caller ttl requiredVramMb leaseId =>
    simp only [step] at hstep
    split at hstep
    · contradiction
    cases hstep
    rw [worker?_claimLease]
    exact WorkerStep.same _ _
  | releaseLease | renewLease | stop =>
    cases hstep
    exact WorkerStep.same _ _
  | drainWorker key graceful =>
    cases hstep
    exact h.workerStep_drainWorker key graceful name
  | cancelDrain key =>
    cases hstep
    exact h.workerStep_cancelDrain key name
  | setOffline key =>
    cases hstep
    exact h.workerStep_setOffline key name
  | wakeUp => exact (wakeUp_move hstep).workerStep s name _
  | generationRead durable =>
    obtain ⟨fenced, _, hmove⟩ := generationRead_move hstep
    exact hmove.workerStep s name _
  | notified raises => exact (notified_move hstep).workerStep s name _
  | cancelled => exact (cancelled_move hstep).workerStep s name _

end Fleet
end TinyAgentOS.Cluster
