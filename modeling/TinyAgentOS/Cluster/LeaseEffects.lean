import TinyAgentOS.Cluster.Effects

/-!
# What a step of the cluster manager does to a lease

A step grants the lease with an id, renews it, drops it or leaves it.  With the
fate of records and leases, every step keeps the tables consistent.

Main results:

- `leaseStep`: what a step does to the lease with an id.
- `step_advance`: what never goes back.
- `Wellformed.step` and `wellformed_start`: names, references and leases are consistent in every
  run.
-/

namespace TinyAgentOS.Cluster
namespace Fleet

open Collections Transition

variable {p : Wiring} {s s' : Fleet}

/-! ## One lease -/

/-- The ways in which a step moves the lease with an id. -/
inductive LeaseStep (s : Fleet) (id : LeaseId) :
    FleetEvent → Option GpuLease → Option GpuLease → Prop where
  | same (e : FleetEvent) (lease : Option GpuLease) : LeaseStep s id e lease lease
  | granted (resourceId caller : String) (ttl : Seconds) (requiredVramMb : Int) (w : WorkerInfo)
      (hfresh : id ∉ s.issued)
      (hworker : s.cluster.workerForResource resourceId = some w)
      (hexisting : s.cluster.findExistingLease resourceId s.clock = none)
      (hfree : ClusterManager.exceedsFree w requiredVramMb = false) :
      LeaseStep s id (.claimLease resourceId caller ttl requiredVramMb id) (s.leases.get? id)
        (some ⟨id, resourceId, caller, ttl.after s.clock, requiredVramMb⟩)
  | renewed (ttl : Seconds) (lease : GpuLease) (hlive : lease.expired s.clock = false) :
      LeaseStep s id (.renewLease id ttl) (some lease)
        (some { lease with expiresAt := ttl.after s.clock })
  | dropped (e : FleetEvent) (lease : GpuLease) : LeaseStep s id e (some lease) none

variable {id : LeaseId} {e : FleetEvent} {name : String}

/-- Leases that are kept or dropped. -/
theorem leaseStep_of_kept {lease lease' : Option GpuLease}
    (h : lease' = lease ∨ lease' = none) : LeaseStep s id e lease lease' := by
  rcases h with heq | heq
  · rw [heq]
    exact LeaseStep.same e lease
  · rw [heq]
    cases lease with
    | none => exact LeaseStep.same e none
    | some l => exact LeaseStep.dropped e l

theorem get?_dropLeases (s : Fleet) (ids : List LeaseId) (id : LeaseId) :
    (s.dropLeases ids).leases.get? id = if id ∈ ids then none else s.leases.get? id :=
  Dict.get?_foldl_pop ids s.leases id

theorem dropLeases_kept (s : Fleet) (ids : List LeaseId) (id : LeaseId) :
    (s.dropLeases ids).leases.get? id = s.leases.get? id ∨
      (s.dropLeases ids).leases.get? id = none :=
  (dropLeases_move s ids).leases id

/-- A claim is refused, or it puts a lease with the new id into the table. -/
theorem claimLease_cases (s : Fleet) (resourceId caller : String) (ttl : Seconds)
    (requiredVramMb : Int) (leaseId : LeaseId) :
    s.claimLease resourceId caller ttl requiredVramMb leaseId = s ∨
      ∃ w, s.cluster.workerForResource resourceId = some w ∧
        s.cluster.findExistingLease resourceId s.clock = none ∧
        ClusterManager.exceedsFree w requiredVramMb = false ∧
        s.claimLease resourceId caller ttl requiredVramMb leaseId =
          { s with
            leases := s.leases.set leaseId
              ⟨leaseId, resourceId, caller, ttl.after s.clock, requiredVramMb⟩
            issued := leaseId :: s.issued } := by
  unfold claimLease
  split
  · exact Or.inl rfl
  · rename_i c lease hclaim
    have hgranted : (s.cluster.claimLease resourceId caller ttl requiredVramMb leaseId
        s.clock).2 = some lease := by rw [hclaim]
    have hleases := ClusterManager.leases_claimLease hgranted
    obtain ⟨rfl, hexisting, w, hworker, hfree⟩ := ClusterManager.claimLease_eq_some hgranted
    rw [hclaim] at hleases
    refine Or.inr ⟨w, hworker, hexisting, hfree, ?_⟩
    rw [hleases]
    rfl

theorem leaseStep_claimLease (s : Fleet) (resourceId caller : String)
    (ttl : Seconds) (requiredVramMb : Int) {leaseId : LeaseId} (hfresh : leaseId ∉ s.issued)
    (id : LeaseId) : LeaseStep s id (.claimLease resourceId caller ttl requiredVramMb leaseId)
      (s.leases.get? id)
      ((s.claimLease resourceId caller ttl requiredVramMb leaseId).leases.get? id) := by
  rcases claimLease_cases s resourceId caller ttl requiredVramMb leaseId with
    hrefused | ⟨w, hworker, hexisting, hfree, hgranted⟩
  · rw [hrefused]
    exact LeaseStep.same _ _
  · rw [hgranted, Dict.get?_set]
    split
    · rename_i hid
      subst hid
      exact LeaseStep.granted resourceId caller ttl requiredVramMb w hfresh hworker hexisting
        hfree
    · exact LeaseStep.same _ _

theorem leaseStep_renewLease (s : Fleet) (leaseId : LeaseId) (ttl : Seconds) (id : LeaseId) :
    LeaseStep s id (.renewLease leaseId ttl) (s.leases.get? id)
      ((s.renewLease leaseId ttl).leases.get? id) := by
  unfold renewLease ClusterManager.renewLease
  simp only [cluster]
  split
  · exact LeaseStep.same _ _
  · rename_i lease hget
    split
    · simp only [ClusterManager.releaseLease, Dict.get?_pop]
      split
      · exact leaseStep_of_kept (Or.inr rfl)
      · exact LeaseStep.same _ _
    · rename_i hlive
      rw [Dict.get?_set]
      split
      · rename_i hid
        subst hid
        rw [hget]
        exact LeaseStep.renewed ttl lease (Bool.eq_false_of_not_eq_true hlive)
      · exact LeaseStep.same _ _

/-- What a step does to the lease with an id. -/
theorem leaseStep (hstep : step p s e = some s') (id : LeaseId) :
    LeaseStep s id e (s.leases.get? id) (s'.leases.get? id) := by
  cases e with
  | tick now =>
    simp only [step] at hstep
    split at hstep
    · cases hstep
      exact LeaseStep.same _ _
    · contradiction
  | registerWorker info generation =>
    cases hstep
    unfold registerWorker
    split <;> exact LeaseStep.same _ _
  | heartbeat key beat =>
    cases hstep
    obtain ⟨objects, heq⟩ := s.heartbeat_objects key beat
    rw [heq]
    exact LeaseStep.same _ _
  | unregisterWorker key =>
    cases hstep
    unfold unregisterWorker
    split
    · exact LeaseStep.same _ _
    · exact leaseStep_of_kept (dropLeases_kept s _ id)
  | claimLease resourceId caller ttl requiredVramMb leaseId =>
    simp only [step] at hstep
    split at hstep
    · contradiction
    rename_i hfresh
    cases hstep
    exact leaseStep_claimLease s resourceId caller ttl requiredVramMb hfresh id
  | releaseLease leaseId =>
    cases hstep
    apply leaseStep_of_kept
    simp only [releaseLease, ClusterManager.releaseLease, cluster, Dict.get?_pop]
    split
    · exact Or.inr rfl
    · exact Or.inl rfl
  | renewLease leaseId ttl =>
    cases hstep
    exact leaseStep_renewLease s leaseId ttl id
  | drainWorker key graceful =>
    cases hstep
    unfold drainWorker
    split
    · exact LeaseStep.same _ _
    · simp only
      split
      · exact LeaseStep.same _ _
      · exact leaseStep_of_kept (dropLeases_kept _ _ id)
  | cancelDrain key =>
    cases hstep
    obtain ⟨objects, heq⟩ := s.cancelDrain_objects key
    rw [heq]
    exact LeaseStep.same _ _
  | setOffline key =>
    cases hstep
    obtain ⟨objects, heq⟩ := s.setOffline_objects key
    rw [heq]
    exact LeaseStep.same _ _
  | wakeUp => exact leaseStep_of_kept ((wakeUp_move hstep).leases id)
  | generationRead durable =>
    obtain ⟨fenced, _, hmove⟩ := generationRead_move hstep
    exact leaseStep_of_kept (hmove.leases id)
  | notified raises => exact leaseStep_of_kept ((notified_move hstep).leases id)
  | cancelled => exact leaseStep_of_kept ((cancelled_move hstep).leases id)
  | stop =>
    cases hstep
    exact LeaseStep.same _ _

/-! ## The leases of a worker -/

theorem leaseOn_iff {lease : GpuLease} : leaseOn name lease = true ↔
      ∃ rest, parseResourceId lease.resourceId = some (name, rest) := by
  unfold leaseOn
  cases hparse : parseResourceId lease.resourceId with
  | none => simp
  | some parsed =>
    obtain ⟨name', rest⟩ := parsed
    simp

theorem mem_leaseIdsOn : id ∈ s.leaseIdsOn name ↔
      ∃ lease, s.leases.get? id = some lease ∧ leaseOn name lease = true := by
  simp only [leaseIdsOn, List.mem_map, List.mem_filter, Prod.exists, Dict.mem_entries_iff,
    exists_and_right, exists_eq_right]

/-- The leases of a worker are dropped together, and no others. -/
theorem get?_dropLeases_on {lease : GpuLease} :
    (s.dropLeases (s.leaseIdsOn name)).leases.get? id = some lease ↔
      s.leases.get? id = some lease ∧ leaseOn name lease = false := by
  rw [get?_dropLeases]
  constructor
  · intro h
    split at h
    · contradiction
    rename_i hkept
    refine ⟨h, ?_⟩
    cases hon : leaseOn name lease with
    | false => rfl
    | true => exact absurd (mem_leaseIdsOn.mpr ⟨lease, h, hon⟩) hkept
  · rintro ⟨hget, hon⟩
    rw [if_neg, hget]
    intro hmem
    obtain ⟨lease', hget', hon'⟩ := mem_leaseIdsOn.mp hmem
    rw [hget] at hget'
    cases hget'
    rw [hon] at hon'
    contradiction

/-! ## Every step keeps a fleet well formed -/

/-- Time does not run backwards, a fence stays and keeps new records out, and ids and
references are handed out once. -/
structure Advance (s s' : Fleet) : Prop where
  clock : s.clock ≤ s'.clock
  fenced : s.fenced = true → s'.fenced = true
  issued : ∀ id ∈ s.issued, id ∈ s'.issued
  nextRef : s.nextRef ≤ s'.nextRef
  workers : ∀ name ref, s'.workers.get? name = some ref →
    s.workers.get? name = some ref ∨ s.fenced = false ∧ ref < s'.nextRef

/-- A step that leaves these tables as they are. -/
theorem Advance.of_eq (hclock : s'.clock = s.clock) (hfenced : s'.fenced = s.fenced)
    (hissued : s'.issued = s.issued) (hnextRef : s'.nextRef = s.nextRef)
    (hworkers : s'.workers = s.workers) : Advance s s' where
  clock := hclock.ge
  fenced := fun h => hfenced.trans h
  issued := fun _ h => hissued ▸ h
  nextRef := hnextRef.ge
  workers := fun _ _ h => Or.inl (hworkers ▸ h)

theorem Advance.refl (s : Fleet) : Advance s s :=
  Advance.of_eq rfl rfl rfl rfl rfl

theorem MonitorMove.advance (h : MonitorMove s s') : Advance s s' :=
  Advance.of_eq h.clock h.fenced h.issued h.nextRef h.workers

theorem advance_registerWorker (s : Fleet) (info : Worker) (generation : Option Int) :
    Advance s (s.registerWorker info generation) := by
  unfold registerWorker
  split
  · exact Advance.refl s
  · rename_i hrefused
    simp only [Bool.or_eq_true, not_or, Bool.not_eq_true] at hrefused
    refine ⟨le_refl _, fun h => h, fun id h => h, Nat.le_succ _, ?_⟩
    intro name ref hget
    simp only [Dict.get?_set] at hget
    split at hget
    · cases hget
      exact Or.inr ⟨hrefused.1, Nat.lt_succ_self _⟩
    · exact Or.inl hget

theorem advance_unregisterWorker (s : Fleet) (key : String) :
    Advance s (s.unregisterWorker key) := by
  unfold unregisterWorker
  split
  · exact Advance.refl s
  · refine ⟨le_refl _, fun h => h, fun id h => h, le_refl _, ?_⟩
    intro name ref hget
    simp only [Dict.get?_pop] at hget
    split at hget
    · contradiction
    · exact Or.inl hget

theorem advance_claimLease (s : Fleet) (resourceId caller : String)
    (ttl : Seconds) (requiredVramMb : Int) (leaseId : LeaseId) :
    Advance s (s.claimLease resourceId caller ttl requiredVramMb leaseId) := by
  unfold claimLease
  split
  · exact Advance.refl s
  · refine ⟨le_refl _, fun h => h, ?_, le_refl _, fun name ref h => Or.inl h⟩
    intro id hid
    exact List.mem_cons_of_mem _ hid

/-- Every step is an advance. -/
theorem step_advance (hstep : step p s e = some s') : Advance s s' := by
  cases e with
  | tick now =>
    simp only [step] at hstep
    split at hstep
    · rename_i hnow
      cases hstep
      exact ⟨hnow, fun h => h, fun id h => h, le_refl _, fun name ref h => Or.inl h⟩
    · contradiction
  | registerWorker info generation =>
    cases hstep
    exact advance_registerWorker s info generation
  | heartbeat key beat =>
    cases hstep
    obtain ⟨objects, heq⟩ := s.heartbeat_objects key beat
    rw [heq]
    exact Advance.of_eq rfl rfl rfl rfl rfl
  | unregisterWorker key =>
    cases hstep
    exact advance_unregisterWorker s key
  | claimLease resourceId caller ttl requiredVramMb leaseId =>
    simp only [step] at hstep
    split at hstep
    · contradiction
    cases hstep
    exact advance_claimLease s resourceId caller ttl requiredVramMb leaseId
  | releaseLease | renewLease | stop =>
    cases hstep
    exact Advance.of_eq rfl rfl rfl rfl rfl
  | drainWorker key graceful =>
    cases hstep
    unfold drainWorker
    split
    · exact Advance.refl s
    · simp only
      split <;> exact Advance.of_eq rfl rfl rfl rfl rfl
  | cancelDrain key =>
    cases hstep
    obtain ⟨objects, heq⟩ := s.cancelDrain_objects key
    rw [heq]
    exact Advance.of_eq rfl rfl rfl rfl rfl
  | setOffline key =>
    cases hstep
    obtain ⟨objects, heq⟩ := s.setOffline_objects key
    rw [heq]
    exact Advance.of_eq rfl rfl rfl rfl rfl
  | wakeUp => exact (wakeUp_move hstep).advance
  | generationRead durable =>
    obtain ⟨fenced, hfenced, hmove⟩ := generationRead_move hstep
    have hadvance := hmove.advance
    refine ⟨hadvance.clock, fun h => hadvance.fenced (hfenced h), hadvance.issued,
      hadvance.nextRef, ?_⟩
    intro name ref hget
    rw [hmove.workers] at hget
    exact Or.inl hget
  | notified raises => exact (notified_move hstep).advance
  | cancelled => exact (cancelled_move hstep).advance

/-- A worker disappears only when it is unregistered. -/
theorem WorkerStep.registered_of_ne {w w' : Option Worker}
    (h : WorkerStep s name e w w') (hne : e ≠ .unregisterWorker name) (hw : w.isSome) :
    w'.isSome := by
  cases h with
  | same => exact hw
  | unregistered => exact absurd rfl hne
  | registered | heard | drained | undrained | offline => rfl

/-- A record keeps its name. -/
theorem WorkerStep.name_eq {w w' : Option Worker}
    (h : WorkerStep s name e w w') (hw : ∀ v ∈ w, v.name = name) : ∀ v ∈ w', v.name = name := by
  intro v hv
  cases h with
  | same => exact hw v hv
  | unregistered => cases hv
  | registered info generation w hname =>
    cases hv
    exact hname
  | heard beat w | drained graceful w | undrained w | offline _ w =>
    cases hv
    exact hw w rfl

/-- The worker of a resource that takes leases is registered. -/
theorem workerForResource_registered {resourceId : String} {w : WorkerInfo}
    (h : s.cluster.workerForResource resourceId = some w) :
    ∃ name rest ref, parseResourceId resourceId = some (name, rest) ∧
      s.workers.get? name = some ref ∧ (s.objects ref).toWorkerInfo = w ∧
      (s.objects ref).status.claimable = true := by
  unfold ClusterManager.workerForResource at h
  split at h
  · contradiction
  rename_i name rest hparse
  obtain ⟨hget, hstatus⟩ := Option.filter_eq_some_iff.mp h
  simp only [cluster, Dict.get?_mapValues, Option.map_eq_some_iff] at hget
  obtain ⟨ref, href, hobject⟩ := hget
  refine ⟨name, rest, ref, hparse, href, hobject, ?_⟩
  rw [← hobject] at hstatus
  simpa [WorkerStatus.claimable] using hstatus

/-- A lease stays on a registered worker. -/
theorem Wellformed.housed_step (h : Wellformed s)
    (hstep : step p s e = some s') (id : LeaseId) (lease : GpuLease)
    (hget : s'.leases.get? id = some lease) :
    ∃ name rest ref, parseResourceId lease.resourceId = some (name, rest) ∧
      s'.workers.get? name = some ref := by
  have hregistered : ∀ name ref, s.workers.get? name = some ref →
      e ≠ .unregisterWorker name → ∃ ref', s'.workers.get? name = some ref' := by
    intro name ref href hne
    have hworker := workerStep h hstep name
    have hsome := hworker.registered_of_ne hne (by simp [worker?_of_get? href])
    obtain ⟨w, hw⟩ := Option.isSome_iff_exists.mp hsome
    obtain ⟨ref', href', _⟩ := worker?_eq_some.mp hw
    exact ⟨ref', href'⟩
  have hfate := leaseStep hstep id
  rw [hget] at hfate
  generalize hbefore : s.leases.get? id = before at hfate
  cases hfate with
  | same =>
    obtain ⟨name, rest, ref, hparse, href⟩ := h.housed id lease hbefore
    by_cases hunregister : e = .unregisterWorker name
    · subst hunregister
      cases hstep
      simp only [unregisterWorker, href] at hget
      have hon := (get?_dropLeases_on.mp hget).2
      rw [leaseOn_iff.mpr ⟨rest, hparse⟩] at hon
      contradiction
    · obtain ⟨ref', href'⟩ := hregistered name ref href hunregister
      exact ⟨name, rest, ref', hparse, href'⟩
  | granted resourceId caller ttl requiredVramMb w hfresh hworker =>
    obtain ⟨name, rest, ref, hparse, href, _⟩ := workerForResource_registered hworker
    obtain ⟨ref', href'⟩ := hregistered name ref href (by simp)
    exact ⟨name, rest, ref', hparse, href'⟩
  | renewed ttl lease =>
    obtain ⟨name, rest, ref, hparse, href⟩ := h.housed id lease hbefore
    obtain ⟨ref', href'⟩ := hregistered name ref href (by simp)
    exact ⟨name, rest, ref', hparse, href'⟩

/-- The id of a lease was drawn. -/
theorem Wellformed.issued_step (h : Wellformed s)
    (hstep : step p s e = some s') (id : LeaseId) (lease : GpuLease)
    (hget : s'.leases.get? id = some lease) : id ∈ s'.issued := by
  have hadvance := step_advance hstep
  have hfate := leaseStep hstep id
  rw [hget] at hfate
  generalize hbefore : s.leases.get? id = before at hfate
  cases hfate with
  | same | renewed ttl lease => exact hadvance.issued id (h.issued id lease hbefore)
  | granted resourceId caller ttl requiredVramMb w hfresh hworker =>
    have hnone : s.leases.get? id = none := by
      cases hsome : s.leases.get? id with
      | none => rfl
      | some old => exact absurd (h.issued id old hsome) hfresh
    simp only [step, if_neg hfresh, Option.some.injEq] at hstep
    subst hstep
    rcases claimLease_cases s resourceId caller ttl requiredVramMb id with
      hrefused | ⟨_, _, _, _, hgranted⟩
    · rw [hrefused, hnone] at hget
      contradiction
    · rw [hgranted]
      exact List.mem_cons_self

/-- Every step keeps a fleet well formed. -/
theorem Wellformed.step (h : Wellformed s) (hstep : step p s e = some s') : Wellformed s' where
  named := by
    intro name ref href
    have hworker := workerStep h hstep name
    have hnamed : ∀ v ∈ s.worker? name, v.name = name := by
      intro v hv
      obtain ⟨ref', href', hobject⟩ := worker?_eq_some.mp hv
      rw [← hobject]
      exact h.named name ref' href'
    exact hworker.name_eq hnamed _ (worker?_of_get? href)
  allocated := by
    intro name ref href
    have hadvance := step_advance hstep
    rcases hadvance.workers name ref href with hold | ⟨_, hlt⟩
    · exact lt_of_lt_of_le (h.allocated name ref hold) hadvance.nextRef
    · exact hlt
  housed := h.housed_step hstep
  issued := h.issued_step hstep

theorem Wellformed.run {start : Fleet} {es : List FleetEvent} (h : Wellformed start)
    (hrun : run (Fleet.step p) start es = some s) : Wellformed s :=
  invariant_of_run (fun _ _ _ hwf hstep => hwf.step hstep) h hrun

theorem wellformed_blank (generation : Int) (clock : Instant) :
    Wellformed (blank generation clock) where
  named := by
    intro name ref h
    cases h
  allocated := by
    intro name ref h
    cases h
  housed := by
    intro id lease h
    cases h
  issued := by
    intro id lease h
    cases h

/-- A manager starts without leases and without a fence. -/
theorem start_tables (persisted : List Worker) (generation : Int) (clock : Instant) :
    (start persisted generation clock).leases = Dict.empty ∧
      (start persisted generation clock).fenced = false := by
  have hfold : ∀ s : Fleet, (persisted.foldl loadWorker s).leases = s.leases ∧
      (persisted.foldl loadWorker s).fenced = s.fenced := by
    induction persisted with
    | nil =>
      intro s
      exact ⟨rfl, rfl⟩
    | cons info persisted ih =>
      intro s
      rw [List.foldl_cons, (ih _).1, (ih _).2]
      unfold loadWorker
      split <;> exact ⟨rfl, rfl⟩
  exact hfold _

theorem Wellformed.loadWorker (h : Wellformed s) (info : Worker) :
    Wellformed (s.loadWorker info) := by
  unfold Fleet.loadWorker
  split
  · exact h
  · constructor
    · intro name ref href
      simp only [Dict.get?_set] at href
      split at href
      · rename_i hname
        cases href
        simp only [Function.update_self]
        exact hname
      · have hne := Nat.ne_of_lt (h.allocated name ref href)
        simp only [Function.update_of_ne hne]
        exact h.named name ref href
    · intro name ref href
      simp only [Dict.get?_set] at href
      split at href
      · cases href
        exact Nat.lt_succ_self _
      · exact Nat.lt_succ_of_lt (h.allocated name ref href)
    · intro id lease hget
      obtain ⟨name, rest, ref, hparse, href⟩ := h.housed id lease hget
      by_cases hname : info.name = name
      · exact ⟨name, rest, s.nextRef, hparse, by rw [hname, Dict.get?_set_self]⟩
      · exact ⟨name, rest, ref, hparse, by rw [Dict.get?_set_of_ne _ _ hname, href]⟩
    · exact h.issued

/-- A manager starts well formed. -/
theorem wellformed_start (persisted : List Worker) (generation : Int) (clock : Instant) :
    Wellformed (start persisted generation clock) := by
  have hfold : ∀ s : Fleet, Wellformed s → Wellformed (persisted.foldl Fleet.loadWorker s) := by
    induction persisted with
    | nil =>
      intro s h
      exact h
    | cons info persisted ih =>
      intro s h
      exact ih _ (h.loadWorker info)
  exact hfold _ (wellformed_blank generation clock)

/-- What the monitor does keeps a fleet well formed. -/
theorem MonitorMove.wellformed (h : MonitorMove s s') (hwf : Wellformed s) : Wellformed s' where
  named := by
    intro name ref href
    rw [h.workers] at href
    have hnamed := hwf.named name ref href
    rcases h.objects ref with heq | heq <;> rw [heq] <;> exact hnamed
  allocated := by
    intro name ref href
    rw [h.workers] at href
    rw [h.nextRef]
    exact hwf.allocated name ref href
  housed := by
    intro id lease hget
    rcases h.leases id with heq | heq
    · rw [heq] at hget
      rw [h.workers]
      exact hwf.housed id lease hget
    · rw [heq] at hget
      contradiction
  issued := by
    intro id lease hget
    rcases h.leases id with heq | heq
    · rw [heq] at hget
      rw [h.issued]
      exact hwf.issued id lease hget
    · rw [heq] at hget
      contradiction

/-! ## Leases in a run -/

/-- No lease outlives the registration of its worker, and its id was drawn for it. -/
theorem housed_of_run (p : Wiring) (persisted : List Worker) (generation : Int)
    (clock : Instant) {es : List FleetEvent} {s : Fleet}
    (hrun : Transition.run (step p) (start persisted generation clock) es = some s)
    {id : LeaseId} {lease : GpuLease} (hget : s.leases.get? id = some lease) :
    id ∈ s.issued ∧ ∃ name rest w, parseResourceId lease.resourceId = some (name, rest) ∧
      s.worker? name = some w ∧ w.name = name := by
  have hwf := (wellformed_start persisted generation clock).run hrun
  obtain ⟨name, rest, ref, hparse, href⟩ := hwf.housed id lease hget
  exact ⟨hwf.issued id lease hget, name, rest, _, hparse, worker?_of_get? href,
    hwf.named name ref href⟩

/-- One of two workers with a lease is unregistered. -/
def oneUnregistered : List FleetEvent :=
  [.registerWorker (sampleWorker "w1" 8000) none, .registerWorker (sampleWorker "w2" 8000) none,
    .claimLease "w1:gpu-0" "a" 30 5000 "l_1", .claimLease "w2:gpu-0" "a" 30 5000 "l_2",
    .unregisterWorker "w2"]

theorem housed_of_run_unregistered :
    ∃ s lease, Transition.run (step wired) (start [] 1 0) oneUnregistered = some s ∧
      s.leases.get? "l_1" = some lease ∧ "l_1" ∈ s.issued ∧ ∃ name rest w,
        parseResourceId lease.resourceId = some (name, rest) ∧ s.worker? name = some w ∧
          w.name = name := by
  have hend : ((Transition.run (step wired) (start [] 1 0) oneUnregistered).bind fun s =>
      s.leases.get? "l_1").isSome := by
    decide
  obtain ⟨lease, hend⟩ := Option.isSome_iff_exists.mp hend
  obtain ⟨s, hrun, hget⟩ := Option.bind_eq_some_iff.mp hend
  exact ⟨s, lease, hrun, hget, housed_of_run wired [] 1 0 hrun hget⟩

end Fleet
end TinyAgentOS.Cluster
