import TinyAgentOS.Gpu.Holdings
import TinyAgentOS.Gpu.Leased
import TinyAgentOS.Gpu.QueueBooks

/-!
# Reservations and leases do not leak

However a task ends, what it was given goes back once: its reservation to the
ledger, its lease to the cluster.  So it is in every run in which no step takes
from the tables what another task has put there under the same id.

Main results:

- `noLeak_of_orderly`: the runs in which nothing leaks.
- `reservation_swept`: a payload outlives its reservation.
-/

namespace TinyAgentOS.Gpu

open Cluster Collections Transition Vram

namespace ArbiterState

/-! ## The property and the condition -/

/-- The tables name an id only while a task under it is about to run or runs; until then its
reservation is held, and afterwards it has been released once, and so has its lease when no
evictor is still about to release it. -/
structure NoLeak (s : ArbiterState) : Prop where
  absent : ∀ taskId,
    (∀ k j, s.jobs.get? k = some j → j.request.taskId = taskId → j.run.active = false) →
    s.running.get? taskId = none ∧ s.pendingReservations.get? taskId = none
  held : ∀ k j rid, s.jobs.get? k = some j → j.reservation = some rid → j.run.active = true →
    (s.manager.pending.get? rid).isSome = true ∧ rid ∉ s.reservationReleases
  released : ∀ k j rid, s.jobs.get? k = some j → j.reservation = some rid →
    j.run.active = false →
    s.manager.pending.get? rid = none ∧ s.reservationReleases.count rid = 1
  leases : ∀ k j leaseId, s.jobs.get? k = some j → j.lease = some leaseId →
    j.run.active = false → (∀ ev, Evicting s ev → ev.job ≠ k) →
    s.leaseReleases.count leaseId = 1

/-- A step takes no reservation and no lease away from the task that holds it. -/
def HoldOrderly (p : ArbiterParams) (s : ArbiterState) (event : ArbiterEvent) : Prop :=
  ReservationOrderly p s event ∧ LeaseOrderly s event

instance (p : ArbiterParams) (s : ArbiterState) (event : ArbiterEvent) :
    Decidable (HoldOrderly p s event) := by
  unfold HoldOrderly
  infer_instance

/-! ## Runs -/

/-- What is in custody does not leak. -/
theorem noLeak_of_holdings {s : ArbiterState} (hplaced : Placed s) (h : Holdings none s)
    (hleased : Leased s) : NoLeak s where
  absent := by
    intro taskId hover
    constructor
    · cases hr : s.running.get? taskId with
      | none => rfl
      | some r =>
        obtain ⟨j, hget, hrun, htask, _⟩ := hplaced.running taskId r hr
        have hinactive := hover r.job j hget htask
        revert hrun hinactive
        cases j.run <;> simp [RunState.registered, RunState.active]
    · cases hlies : s.pendingReservations.get? taskId with
      | none => rfl
      | some rid =>
        obtain ⟨k, j, hget, htask, _, hholds⟩ := h.reservations.holder taskId rid hlies
        rcases hholds with hactive | hgranted
        · rw [hover k j hget htask] at hactive
          contradiction
        · contradiction
  held := by
    intro k j rid hget hrid hactive
    have hholds : j.Holds none k := Or.inl hactive
    exact ⟨(h.reservations.live k j rid hget hrid).mpr hholds,
      h.reservations.custody.kept _ rid (h.reservations.held k j rid hget hrid hholds)⟩
  released := by
    intro k j rid hget hrid hover
    have hfree : ¬j.Holds none k := by
      rw [Job.Holds, hover]
      simp
    have hlive := h.reservations.live k j rid hget hrid
    constructor
    · by_contra hpending
      exact hfree (hlive.mp (Option.isSome_iff_ne_none.mpr hpending))
    · apply h.reservations.custody.gone k rid (reservationOf_eq_some.mpr ⟨j, hget, hrid⟩)
      intro taskId hlies
      obtain ⟨k', j', hget', _, hrid', hholds⟩ := h.reservations.holder taskId rid hlies
      have hk : k' = k := h.reservations.custody.unique k' k rid
        (reservationOf_eq_some.mpr ⟨j', hget', hrid'⟩) (reservationOf_eq_some.mpr ⟨j, hget, hrid⟩)
      subst hk
      cases hget.symm.trans hget'
      exact hfree hholds
  leases := fun _ _ _ hget hlease hover hevicting =>
    hleased.released hplaced hget hlease hover hevicting

/-- In orderly runs no reservation and no lease leaks. -/
theorem noLeak_of_orderly (p : ArbiterParams) (ttlSeconds : Vram.Clock)
    (cluster : Option ClusterManager) (events : List ArbiterEvent) (s : ArbiterState)
    (hrun : run (step p) (init ttlSeconds cluster) events = some s)
    (hguard : Guarded (step p) (HoldOrderly p) (init ttlSeconds cluster) events) : NoLeak s := by
  have hkept := invariant_of_guarded_run (I := fun t => Placed t ∧ Holdings none t ∧ Leased t)
    (fun _ _ _ h horderly hstep =>
      ⟨h.1.step hstep, h.2.1.move h.1 horderly.1 (move_of_step hstep),
        h.2.2.move h.1 horderly.2 (move_of_step hstep)⟩)
    ⟨placed_init ttlSeconds cluster, holdings_init ttlSeconds cluster,
      leased_init ttlSeconds cluster⟩ hguard hrun
  exact noLeak_of_holdings hkept.1 hkept.2.1 hkept.2.2

/-! ### A payload that outlives its reservation -/

/-- A task starts on a free host; it still runs when the ledger is swept an hour later. -/
def sweptWhileRunning : List ArbiterEvent :=
  [.submit 1 (demoRequest "t") "" 0,
    .availableRead (.submit 1) (some (8000, 8000)) "" 0, .acquire (.submit 1) 0,
    .reserved (.submit 1) (some (8000, 8000)) "r1" "" 0, .sweepStale 3601]

/-- The task is in its payload, and the ledger has given its reservation away. -/
theorem reservation_swept :
    ∃ s j, run (step demoParams) (init 3600 none) sweptWhileRunning = some s ∧
      s.jobs.get? 1 = some j ∧ j.run = .payload none ∧ j.reservation = some "r1" ∧
      s.manager.pending.get? "r1" = none ∧ ¬NoLeak s := by
  have hend : (run (step demoParams) (init 3600 none) sweptWhileRunning).map (fun s =>
      ((s.jobs.get? 1).map fun j => (j.run, j.reservation),
        (s.manager.pending.get? "r1").isSome)) =
      some (some (.payload none, some "r1"), false) := by
    decide
  obtain ⟨s, hrun, hs⟩ := Option.map_eq_some_iff.mp hend
  simp only [Prod.mk.injEq, Option.map_eq_some_iff] at hs
  obtain ⟨⟨j, hget, hpayload, hreservation⟩, hpending⟩ := hs
  refine ⟨s, j, hrun, hget, hpayload, hreservation, by simpa using hpending, ?_⟩
  intro hkept
  have hactive : j.run.active = true := by
    rw [hpayload]
    rfl
  have hheld := (hkept.held 1 j "r1" hget hreservation hactive).1
  rw [hpending] at hheld
  contradiction

/-- A task that has claimed a lease is evicted, and its evictor wakes when it has ended. -/
def evictedWithLease : List ArbiterEvent :=
  [.submit 1 { demoRequest "t" with resourceId := some "gpu-a:0" } "" 0,
    .availableRead (.submit 1) (some (8000, 8000)) "" 0, .acquire (.submit 1) 0,
    .reserved (.submit 1) (some (8000, 8000)) "r1" "l1" 0, .evict 0 "t" false,
    .payloadEnds 1 .cancelled, .renewalStops 1, .evicted 0]

/-- A cluster of one worker. -/
def demoCluster : ClusterManager where
  workers := Dict.empty.set "gpu-a" ⟨"gpu-a", .online, "", "", some 8000⟩
  leases := Dict.empty

theorem noLeak_of_orderly_evicted :
    ∃ s, run (step demoParams) (init 3600 (some demoCluster)) evictedWithLease = some s ∧
      s.reservationReleases = ["r1"] ∧ s.leaseReleases = ["l1"] ∧ NoLeak s := by
  have hend : (run (step demoParams) (init 3600 (some demoCluster)) evictedWithLease).map (fun s =>
      (s.reservationReleases, s.leaseReleases)) = some (["r1"], ["l1"]) := by
    decide
  obtain ⟨s, hrun, hs⟩ := Option.map_eq_some_iff.mp hend
  simp only [Prod.mk.injEq] at hs
  exact ⟨s, hrun, hs.1, hs.2, noLeak_of_orderly _ _ _ _ _ hrun (by decide)⟩

end ArbiterState

end TinyAgentOS.Gpu
