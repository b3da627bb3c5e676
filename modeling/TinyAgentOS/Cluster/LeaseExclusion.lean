import TinyAgentOS.Cluster.LeaseEffects

/-!
# One lease per resource

A claim looks for an active lease on the resource before it adds one, and every
operation but a renewal leaves expired leases expired.  A renewal refuses a lease
that has expired; one whose expiry is a NaN is not active, but has not expired
either, and comes back to life.

Main results:

- `leaseExclusion_iff`: the runs in which a resource has at most one active lease and a lease that
  is no longer active stays so.
- `not_leaseExclusion`: a renewal for a NaN, a second claim and another renewal.
-/

namespace TinyAgentOS.Cluster
namespace Fleet

open Collections Transition

variable {p : Wiring} {s s' : Fleet} {e : FleetEvent} {id : LeaseId} {lease : GpuLease}

/-- No renewal for a positive time finds a lease whose expiry is a NaN. -/
def revivesNone (s : Fleet) : FleetEvent → Bool
  | .renewLease leaseId ttl =>
    !ttl.positive || (s.leases.get? leaseId).all fun lease => lease.expiresAt ≠ .nan
  | _ => true

/-- At this moment no resource has two active leases. -/
def Exclusive (s : Fleet) : Prop :=
  ∀ id id' lease lease', s.leases.get? id = some lease → s.leases.get? id' = some lease' →
    lease.resourceId = lease'.resourceId → lease.active s.clock = true →
      lease'.active s.clock = true → id = id'

/-- The id was drawn, and the lease with it, if there is one, is not active. -/
def Lapsed (id : LeaseId) (s : Fleet) : Prop :=
  id ∈ s.issued ∧ ∀ lease, s.leases.get? id = some lease → lease.active s.clock = false

/-- A claim finds no active lease on its resource. -/
theorem inactive_of_findExistingLease {resourceId : String}
    (h : s.cluster.findExistingLease resourceId s.clock = none)
    (hget : s.leases.get? id = some lease) (hresource : lease.resourceId = resourceId) :
    lease.active s.clock = false := by
  have hmem : lease ∈ s.cluster.leases.values := Dict.mem_values_iff.mpr ⟨id, hget⟩
  have hnot := List.find?_eq_none.mp h lease hmem
  simpa [hresource] using hnot

/-- Where an active lease comes from: it was active before, for the same resource and VRAM, or
it has just been granted. -/
theorem active_before (hguard : revivesNone s e = true) (hstep : step p s e = some s')
    (hget : s'.leases.get? id = some lease) (hactive : lease.active s'.clock = true) :
    (∃ old, s.leases.get? id = some old ∧ old.resourceId = lease.resourceId ∧
      old.requiredVramMb = lease.requiredVramMb ∧ old.active s.clock = true) ∨
    (∃ caller ttl requiredVramMb, e = .claimLease lease.resourceId caller ttl requiredVramMb id ∧
      id ∉ s.issued ∧ s.cluster.findExistingLease lease.resourceId s.clock = none) := by
  have hbefore := GpuLease.active_of_le (step_advance hstep).clock hactive
  have hfate := leaseStep hstep id
  rw [hget] at hfate
  generalize hold : s.leases.get? id = before at hfate
  cases hfate with
  | same => exact Or.inl ⟨lease, rfl, rfl, rfl, hbefore⟩
  | granted resourceId caller ttl requiredVramMb w hfresh hworker hexisting =>
    exact Or.inr ⟨caller, ttl, requiredVramMb, rfl, hfresh, hexisting⟩
  | renewed ttl old hkept =>
    have hpositive : ttl.positive = true := by
      rw [← hbefore]
      exact (GpuLease.active_after _ _ _ ttl _).symm
    have hnan : old.expiresAt ≠ .nan := by simpa [revivesNone, hpositive, hold] using hguard
    refine Or.inl ⟨old, rfl, rfl, rfl, ?_⟩
    rw [GpuLease.active_eq_not_expired hnan, hkept]
    rfl

/-- One step keeps active leases apart. -/
theorem Exclusive.step (h : Exclusive s) (hguard : revivesNone s e = true)
    (hstep : step p s e = some s') : Exclusive s' := by
  intro id id' lease lease' hget hget' hresource hactive hactive'
  rcases active_before hguard hstep hget hactive with
    ⟨old, hold, holdResource, _, holdActive⟩ | ⟨caller, ttl, vram, hclaim, hfresh, hnone⟩
  · rcases active_before hguard hstep hget' hactive' with
      ⟨old', hold', holdResource', _, holdActive'⟩ | ⟨caller, ttl, vram, hclaim, hfresh, hnone⟩
    · have hsame : old.resourceId = old'.resourceId := by
        rw [holdResource, hresource, holdResource']
      exact h id id' old old' hold hold' hsame holdActive holdActive'
    · rw [← hresource] at hnone
      rw [inactive_of_findExistingLease hnone hold holdResource] at holdActive
      contradiction
  · rcases active_before hguard hstep hget' hactive' with
      ⟨old', hold', holdResource', _, holdActive'⟩ |
      ⟨caller', ttl', vram', hclaim', hfresh', hnone'⟩
    · rw [hresource] at hnone
      rw [inactive_of_findExistingLease hnone hold' holdResource'] at holdActive'
      contradiction
    · rw [hclaim, FleetEvent.claimLease.injEq] at hclaim'
      exact hclaim'.2.2.2.2

/-- A step that revives no lease leaves every lapsed one lapsed. -/
theorem Lapsed.step (h : Lapsed id s) (hguard : revivesNone s e = true)
    (hstep : step p s e = some s') : Lapsed id s' := by
  obtain ⟨hissued, hinactive⟩ := h
  refine ⟨(step_advance hstep).issued id hissued, ?_⟩
  intro lease hget
  by_contra hactive
  rcases active_before hguard hstep hget (Bool.eq_true_of_not_eq_false hactive) with
    ⟨old, hold, _, _, holdActive⟩ | ⟨_, _, _, _, hfresh, _⟩
  · rw [hinactive old hold] at holdActive
    contradiction
  · exact hfresh hissued

/-- A renewal for a positive time makes a lease active whose expiry is a NaN. -/
theorem revivesNone_of_lapsed (hwf : Wellformed s) (hstep : step p s e = some s')
    (hkept : ∀ id, Lapsed id s → Lapsed id s') : revivesNone s e = true := by
  cases e with
  | renewLease leaseId ttl =>
    by_contra hrevives
    simp only [revivesNone, Bool.or_eq_true, Bool.not_eq_true', not_or,
      Bool.not_eq_false] at hrevives
    obtain ⟨hpositive, hnan⟩ := hrevives
    cases hget : s.leases.get? leaseId with
    | none => simp [hget] at hnan
    | some lease =>
      replace hnan : lease.expiresAt = .nan := by simpa [hget] using hnan
      have hlapsed : Lapsed leaseId s := by
        refine ⟨hwf.issued leaseId lease hget, ?_⟩
        intro other hother
        rw [hget] at hother
        cases hother
        simp [GpuLease.active, hnan]
      have hexpired : lease.expired s.clock = false := by simp [GpuLease.expired, hnan]
      cases hstep
      have hrenewed : (s.renewLease leaseId ttl).leases.get? leaseId =
          some { lease with expiresAt := ttl.after s.clock } := by
        simp [renewLease, ClusterManager.renewLease, cluster, hget, hexpired]
      have hinactive := (hkept leaseId hlapsed).2 _ hrenewed
      rw [show (s.renewLease leaseId ttl).clock = s.clock from rfl,
        GpuLease.active_after, hpositive] at hinactive
      contradiction
  | tick | registerWorker | heartbeat | unregisterWorker | claimLease | releaseLease
  | drainWorker | cancelDrain | setOffline | wakeUp | generationRead | notified | cancelled
  | stop => rfl

/-- In every state of the run and at every moment from it on a resource has at most one active
lease, and a lease that is not active is not so later either. -/
structure LeaseExclusion (p : Wiring) (s : Fleet) (es : List FleetEvent) : Prop where
  unique : ∀ pre post t, es = pre ++ post → run (step p) s pre = some t →
    ∀ now, t.clock ≤ now → ∀ id id' lease lease', t.leases.get? id = some lease →
      t.leases.get? id' = some lease' → lease.resourceId = lease'.resourceId →
        lease.active now = true → lease'.active now = true → id = id'
  lapsed : ∀ pre mid post t u, es = pre ++ mid ++ post → run (step p) s pre = some t →
    run (step p) t mid = some u → ∀ id lease lease', t.leases.get? id = some lease →
      lease.active t.clock = false → u.leases.get? id = some lease' →
        lease'.active u.clock = false

/-- The steps that keep lapsed leases lapsed are those that revive none. -/
theorem everyStep_lapsed_iff (persisted : List Worker) (generation : Int) (clock : Instant)
    (es : List FleetEvent) :
    EveryStep (step p) (fun t _ u => ∀ id, Lapsed id t → Lapsed id u)
        (start persisted generation clock) es ↔
      Guarded (step p) (fun t e => revivesNone t e = true) (start persisted generation clock)
        es := by
  apply everyStep_iff_guarded (I := Wellformed)
  · intro s e hnone
    cases e <;> first | rfl | cases hnone
  · intro s e s' hwf _ hstep
    exact hwf.step hstep
  · intro s e s' hwf hstep
    constructor
    · exact revivesNone_of_lapsed hwf hstep
    · intro hguard id h
      exact h.step hguard hstep
  · exact wellformed_start persisted generation clock

/-- In a run a resource has at most one active lease and a lease that is no longer active stays
so, exactly when no renewal for a positive time finds a lease whose expiry is a NaN. -/
theorem leaseExclusion_iff (p : Wiring) (persisted : List Worker) (generation : Int)
    (clock : Instant) (es : List FleetEvent) :
    LeaseExclusion p (start persisted generation clock) es ↔
      Guarded (step p) (fun t e => revivesNone t e = true) (start persisted generation clock)
        es := by
  have hstart := wellformed_start persisted generation clock
  constructor
  · intro h
    refine (everyStep_lapsed_iff persisted generation clock es).mp ?_
    intro pre e post t u heq hrun hstep id hlapsed
    refine ⟨(step_advance hstep).issued id hlapsed.1, ?_⟩
    intro lease' hget'
    cases hget : t.leases.get? id with
    | some lease =>
      exact h.lapsed pre [e] post t u (by simpa using heq) hrun
        (run_cons_eq_some.mpr ⟨u, hstep, rfl⟩) id lease lease' hget (hlapsed.2 lease hget) hget'
    | none =>
      -- Only a claim puts a lease under a free id, and it draws a new one.
      have hfate := leaseStep hstep id
      rw [hget'] at hfate
      generalize hbefore : t.leases.get? id = before at hfate
      cases hfate with
      | same | renewed => simp [hget] at hbefore
      | granted _ _ _ _ _ hfresh => exact absurd hlapsed.1 hfresh
  · intro hguard
    constructor
    · intro pre post t heq hrun now hnow id id' lease lease' hget hget' hresource hactive hactive'
      have hnone : Exclusive (start persisted generation clock) := by
        intro id id' lease lease' hget
        rw [(start_tables persisted generation clock).1] at hget
        cases hget
      rw [heq] at hguard
      have hexclusive : Exclusive t :=
        invariant_of_guarded_run (fun _ _ _ h hg hstep => h.step hg hstep) hnone
          (guarded_of_append hguard) hrun
      exact hexclusive id id' lease lease' hget hget' hresource
        (GpuLease.active_of_le hnow hactive) (GpuLease.active_of_le hnow hactive')
    · intro pre mid post t u heq hrun hmid id lease lease' hget hinactive hget'
      have hstretch := (stretches_iff_everyStep
        (R := fun t u => ∀ id, Lapsed id t → Lapsed id u) (fun _ _ h => h)
        (fun _ _ _ h h' id hid => h' id (h id hid)) _ es).mpr
        ((everyStep_lapsed_iff persisted generation clock es).mpr hguard)
      have hlapsed : Lapsed id t := by
        refine ⟨(hstart.run hrun).issued id lease hget, ?_⟩
        intro other hother
        rw [hget] at hother
        cases hother
        exact hinactive
      exact (hstretch pre mid post t u heq hrun hmid id hlapsed).2 lease' hget'

/-- A lease is renewed for a NaN, its resource is claimed again, and it is renewed once more. -/
theorem not_leaseExclusion : ¬ ∀ es, LeaseExclusion wired (start [] 1 0) es := by
  intro hclaim
  have hall : (run (step wired) (start [] 1 0)
      [.registerWorker (sampleWorker "w1" 8000) none, .claimLease "w1:gpu-0" "a" 30 4000 "l_1",
        .renewLease "l_1" .nan, .claimLease "w1:gpu-0" "b" 30 4000 "l_2",
        .renewLease "l_1" 30]).map (fun s => (s.clock, s.leases.entries)) =
      some (0, [("l_1", ⟨"l_1", "w1:gpu-0", "a", 30, 4000⟩),
        ("l_2", ⟨"l_2", "w1:gpu-0", "b", 30, 4000⟩)]) := by
    decide
  obtain ⟨s, hrun, hend⟩ := Option.map_eq_some_iff.mp hall
  obtain ⟨hclock, hleases⟩ := Prod.mk.inj hend
  have hsame := (hclaim _).unique _ [] s (List.append_nil _).symm hrun 0 (le_of_eq hclock)
    "l_1" "l_2" ⟨"l_1", "w1:gpu-0", "a", 30, 4000⟩ ⟨"l_2", "w1:gpu-0", "b", 30, 4000⟩
    (Dict.mem_entries_iff.mp (by simp [hleases])) (Dict.mem_entries_iff.mp (by simp [hleases]))
    rfl (by decide) (by decide)
  exact absurd hsame (by decide)

end Fleet
end TinyAgentOS.Cluster
