import TinyAgentOS.Gpu.Leaks

/-!
# Admissions and the free VRAM

On a host with a probe, a task that needs VRAM runs on a reservation of the
ledger, and the reservations of the tasks fit into what the host last reported.
A cluster snapshot admits without one, so that two tasks are admitted against
the same free VRAM.

Main results:

- `Admitted.move`: what every move of every coroutine keeps.
- `noOverAdmission_of_orderly`: the runs in which what is admitted is free.
- `snapshot_shared`: two tasks are admitted against the same snapshot.
-/

namespace TinyAgentOS.Gpu

open Cluster Collections Transition Vram

namespace Job

/-- What a submission that is about to run or runs takes of the VRAM it was admitted against, of
a worker or of the host. -/
def load (site : Option String) (j : Job) : Int :=
  if j.run.active = true ∧ j.site = site then max 0 j.request.requiredVramMb else 0

/-- No worker's snapshot admitted the submission; if it needs VRAM it runs on a reservation, and
the ledger has it down for that size. -/
structure Sound (m : VramReservationManager) (j : Job) : Prop where
  site : j.site = none
  reserved : 0 < j.request.requiredVramMb → j.run.active = true → j.reservation.isSome = true
  size : ∀ rid res, j.reservation = some rid → m.pending.get? rid = some res →
    res.vramMb = j.request.requiredVramMb

variable {j : Job} {m : VramReservationManager}

/-- A submission goes on, or ends, with what it has. -/
theorem Sound.of_eq {j' : Job} (h : j.Sound m)
    (hrequest : j'.request = j.request) (hreservation : j'.reservation = j.reservation)
    (hsite : j'.site = j.site) (hactive : j'.run.active = true → j.run.active = true) :
    j'.Sound m where
  site := hsite.trans h.site
  reserved := by
    rw [hrequest, hreservation]
    exact fun hpos hrun => h.reserved hpos (hactive hrun)
  size := by
    rw [hrequest, hreservation]
    exact h.size

/-- A submission with a reservation, or without need of one, starts. -/
theorem Sound.start {j' : Job} (h : j.Sound m)
    (hreserved : 0 < j.request.requiredVramMb → j.reservation.isSome = true)
    (hrequest : j'.request = j.request) (hreservation : j'.reservation = j.reservation)
    (hsite : j'.site = j.site) : j'.Sound m where
  site := hsite.trans h.site
  reserved := by
    rw [hrequest, hreservation]
    exact fun hpos _ => hreserved hpos
  size := by
    rw [hrequest, hreservation]
    exact h.size

/-- A new submission has nothing to answer for. -/
theorem Sound.fresh (m : VramReservationManager) (hsite : j.site = none)
    (hreservation : j.reservation = none) (hidle : j.run.active = false) : j.Sound m where
  site := hsite
  reserved := by simp [hidle]
  size := by simp [hreservation]

end Job

namespace ArbiterState

/-! ## The property and the condition -/

/-- A task that needs VRAM and is about to run or runs has a reservation of that size in the
ledger; and the tasks admitted against the host, or against a worker, need no more than it last
reported. -/
structure NoOverAdmission (s : ArbiterState) : Prop where
  reserved : ∀ k j, s.jobs.get? k = some j → 0 < j.request.requiredVramMb →
    j.run.active = true → ∃ rid res, j.reservation = some rid ∧
      s.manager.pending.get? rid = some res ∧ res.vramMb = j.request.requiredVramMb
  host : ∀ freeMb ∈ s.reported, s.jobs.sumBy (Job.load none) ≤ freeMb
  worker : ∀ c ∈ s.cluster, ∀ w ∈ c.getWorkers, ∀ freeMb ∈ w.freeVramMb,
    (∃ k j, s.jobs.get? k = some j ∧ 0 < j.load (some w.name)) →
    s.jobs.sumBy (Job.load (some w.name)) ≤ freeMb

/-- What a reservation counts for, unless it is an outside caller's. -/
def taskVramMb (outside : List ReservationId) (res : VramReservation) : Int :=
  if res.reservationId ∈ outside then 0 else res.vramMb

/-- The VRAM the ledger has reserved for tasks. -/
def tasksVramMb (s : ArbiterState) : Int :=
  s.manager.pending.sumBy (taskVramMb s.outside)

/-- No worker of the snapshot can host a submission that goes to the cluster; one that fails
open is not refused by the ledger; and what the ledger grants without a reading fits into the last
one. -/
def LedgerAdmits (s : ArbiterState) : ArbiterEvent → Prop
  | .availableRead who probe _ now =>
    (s.manager.availableVram now probe).2.2 ≤ 0 → ∀ c ∈ s.cluster, ∀ check ∈ s.checking who,
      hostingWorker c (s.sweep now).manager.reservedVramMb check.2.1.requiredVramMb now = none
  | .reserved who probe _ _ _ =>
    ∀ check ∈ s.checking who,
      (check.2.2 = .probing none → ∀ reading ∈ probe,
        check.2.1.requiredVramMb ≤ s.manager.effectiveFree reading.1) ∧
      (probe = none → ∀ freeMb ∈ s.reported,
        s.tasksVramMb + check.2.1.requiredVramMb ≤ freeMb)
  | _ => True

/-- What is admitted is granted by the ledger, and stays reserved. -/
def AdmitOrderly (p : ArbiterParams) (s : ArbiterState) (event : ArbiterEvent) : Prop :=
  ReservationOrderly p s event ∧ LedgerAdmits s event

instance (s : ArbiterState) (event : ArbiterEvent) : Decidable (LedgerAdmits s event) := by
  apply ArbiterEvent.casesOn (motive := fun e => Decidable (LedgerAdmits s e)) event <;>
    intros <;> unfold LedgerAdmits <;> infer_instance

instance (p : ArbiterParams) (s : ArbiterState) (event : ArbiterEvent) :
    Decidable (AdmitOrderly p s event) := by
  unfold AdmitOrderly
  infer_instance

/-! ## The invariant -/

/-- Every submission is sound, and the tasks' reservations fit into the last reading. -/
structure Admitted (s : ArbiterState) : Prop where
  sound : ∀ k j, s.jobs.get? k = some j → j.Sound s.manager
  keyed : ∀ rid res, s.manager.pending.get? rid = some res → res.reservationId = rid
  fits : ∀ freeMb ∈ s.reported, s.tasksVramMb ≤ freeMb

/-- Nothing is admitted at the start. -/
theorem admitted_init (ttlSeconds : Vram.Clock) (cluster : Option ClusterManager) :
    Admitted (init ttlSeconds cluster) where
  sound := by simp [init]
  keyed := by simp [init, VramReservationManager.init]
  fits := by simp [init]

variable {s s' : ArbiterState} {k : SubId} {j j' : Job}

theorem taskVramMb_nonneg (hbalanced : s.manager.Balanced) :
    ∀ res ∈ s.manager.pending.values, 0 ≤ taskVramMb s.outside res := by
  intro res hres
  obtain ⟨rid, hrid⟩ := Dict.mem_values_iff.mp hres
  unfold taskVramMb
  split
  · rfl
  · exact (hbalanced.positive rid res hrid).le

/-- The tasks' reservations are among the pending ones. -/
theorem tasksVramMb_le_pending (hbalanced : s.manager.Balanced) :
    s.tasksVramMb ≤ s.manager.pendingVramMb := by
  apply Dict.sumBy_le
  · intro res hres
    obtain ⟨rid, hrid⟩ := Dict.mem_values_iff.mp hres
    exact (hbalanced.positive rid res hrid).le
  · intro rid res hrid
    right
    refine ⟨res, hrid, ?_⟩
    unfold taskVramMb
    split
    · exact (hbalanced.positive rid res hrid).le
    · exact le_rfl

/-- What submissions take of the host is what the ledger has reserved for them. -/
theorem Admitted.load_le (h : Admitted s) (hheld : Holdings none s) :
    s.jobs.sumBy (Job.load none) ≤ s.tasksVramMb := by
  apply Dict.sumBy_le_of_place (Job.load none) (taskVramMb s.outside)
    (fun k rid => reservationOf s.jobs k = some rid)
  · intro k k' rid hk hk'
    exact hheld.reservations.custody.unique k k' rid hk hk'
  · exact taskVramMb_nonneg hheld.ledger.balanced
  · intro k j hget
    have hsound := h.sound k j hget
    unfold Job.load
    split
    · rename_i hrun
      by_cases hpos : 0 < j.request.requiredVramMb
      · right
        obtain ⟨rid, hrid⟩ := Option.isSome_iff_exists.mp (hsound.reserved hpos hrun.1)
        have howner : reservationOf s.jobs k = some rid :=
          reservationOf_eq_some.mpr ⟨j, hget, hrid⟩
        have hlive := (hheld.reservations.live k j rid hget hrid).mpr (Or.inl hrun.1)
        obtain ⟨res, hres⟩ := Option.isSome_iff_exists.mp hlive
        refine ⟨rid, res, howner, hres, ?_⟩
        rw [taskVramMb, h.keyed rid res hres, if_neg (hheld.reservations.issued k rid howner).2,
          hsound.size rid res hrid hres]
        omega
      · left
        omega
    · exact Or.inl le_rfl

/-- What was admitted fits. -/
theorem noOverAdmission_of_admitted (hheld : Holdings none s) (h : Admitted s) :
    NoOverAdmission s where
  reserved := by
    intro k j hget hpos hrun
    have hsound := h.sound k j hget
    obtain ⟨rid, hrid⟩ := Option.isSome_iff_exists.mp (hsound.reserved hpos hrun)
    have hlive := (hheld.reservations.live k j rid hget hrid).mpr (Or.inl hrun)
    obtain ⟨res, hres⟩ := Option.isSome_iff_exists.mp hlive
    exact ⟨rid, res, hrid, hres, hsound.size rid res hrid hres⟩
  host := fun freeMb hfree => (h.load_le hheld).trans (h.fits freeMb hfree)
  worker := by
    intro c _ w _ freeMb _ ⟨k, j, hget, hload⟩
    have hsite := (h.sound k j hget).site
    simp [Job.load, hsite] at hload

/-! ## Stretches that grant nothing -/

/-- Reservations are only given back. -/
structure Shrinks (s s' : ArbiterState) : Prop where
  pending : ∀ rid res, s'.manager.pending.get? rid = some res →
    s.manager.pending.get? rid = some res
  outside : s'.outside = s.outside
  reported : s'.reported = s.reported

theorem Shrinks.of_manager (hmanager : s'.manager = s.manager) (houtside : s'.outside = s.outside)
    (hreported : s'.reported = s.reported) : Shrinks s s' :=
  ⟨fun rid res hrid => by rwa [hmanager] at hrid, houtside, hreported⟩

variable {rid : ReservationId} {leaseId : LeaseId} {now : Vram.Clock} {p : ArbiterParams}
  {phase : CheckPhase} {who : Checker} {request : Request} {probe : Probe}

variable {res : VramReservation} {admission : GpuAdmission}

theorem release_pending {m : VramReservationManager} {rid' : ReservationId}
    (h : (m.release rid).1.pending.get? rid' = some res) : m.pending.get? rid' = some res := by
  rw [VramReservationManager.release, VramReservationManager.popReservation_get?] at h
  split at h
  · contradiction
  · exact h

/-- A release leaves no more reserved. -/
theorem Shrinks.releaseReservation (s : ArbiterState) (taskId : TaskId) :
    Shrinks s (s.releaseReservation taskId) := by
  refine ⟨?_, rfl, rfl⟩
  intro rid res hrid
  unfold ArbiterState.releaseReservation at hrid
  cases hlies : s.pendingReservations.get? taskId with
  | none => simpa only [hlies] using hrid
  | some rid' =>
    simp only [hlies] at hrid
    exact release_pending hrid

section

variable (h : Admitted s) (hbalanced : s.manager.Balanced)
include h hbalanced

/-- A stretch that grants nothing, after which every submission is sound by the old ledger. -/
theorem Admitted.shrink (hshrinks : Shrinks s s')
    (hsound : ∀ k j, s'.jobs.get? k = some j → j.Sound s.manager) : Admitted s' where
  sound := by
    intro k j hget
    have hj := hsound k j hget
    exact ⟨hj.site, hj.reserved, fun rid res hrid hres =>
      hj.size rid res hrid (hshrinks.pending rid res hres)⟩
  keyed := fun rid res hres => h.keyed rid res (hshrinks.pending rid res hres)
  fits := by
    intro freeMb hfree
    rw [hshrinks.reported] at hfree
    refine le_trans ?_ (h.fits freeMb hfree)
    rw [tasksVramMb, hshrinks.outside]
    apply Dict.sumBy_le
    · exact taskVramMb_nonneg hbalanced
    · intro rid res hrid
      exact Or.inr ⟨res, hshrinks.pending rid res hrid, le_rfl⟩

/-- The submissions are left alone, and no more is reserved. -/
theorem Admitted.same (hshrinks : Shrinks s s') (hjobs : s'.jobs = s.jobs) : Admitted s' :=
  h.shrink hbalanced hshrinks fun k j hget => h.sound k j (hjobs ▸ hget)

/-- One submission changes. -/
theorem Admitted.put (hshrinks : Shrinks s s')
    (hjobs : s'.jobs = s.jobs.set k j') (hsound : j'.Sound s.manager) : Admitted s' := by
  refine h.shrink hbalanced hshrinks ?_
  intro k' i hi
  rw [hjobs, Dict.get?_set] at hi
  split at hi
  · cases hi
    exact hsound
  · exact h.sound k' i hi

/-- An answer admits nobody. -/
theorem Admitted.resolveFuture (k : SubId) (how : Outcome) : Admitted (s.resolveFuture k how) := by
  refine h.shrink hbalanced (.of_manager rfl rfl rfl) ?_
  intro k' i hi
  simp only [ArbiterState.resolveFuture, Dict.get?_modify] at hi
  split at hi
  · obtain ⟨j, hget, rfl⟩ := Option.map_eq_some_iff.mp hi
    have hsite : (j.resolveFuture how).site = j.site := by
      unfold Job.resolveFuture
      split <;> rfl
    exact (h.sound k' j hget).of_eq (by simp) (by simp) hsite (by simp)
  · exact h.sound k' i hi

/-! ## Runs -/

/-- The end of a run admits nobody. -/
theorem Admitted.finishRun
    (hsound : j.Sound s.manager) (how : Outcome) : Admitted (s.finishRun k j how) := by
  have hreleased := Shrinks.releaseReservation s j.request.taskId
  refine h.put hbalanced ⟨hreleased.pending, rfl, rfl⟩ rfl ?_
  refine hsound.of_eq rfl rfl rfl ?_
  intro hactive
  contradiction

/-- A run starts with its reservation. -/
theorem Admitted.startRun (hsound : j.Sound s.manager)
    (hreserved : 0 < j.request.requiredVramMb → j.reservation.isSome = true)
    {now : Cluster.Instant} : Admitted (s.startRun k j leaseId now) := by
  rcases startRun_cases s k j leaseId now with ⟨_, heq⟩ | ⟨_, c, _, heq⟩ | ⟨_, how, heq⟩
  · rw [heq]
    exact h.put hbalanced (.of_manager rfl rfl rfl) rfl (hsound.start hreserved rfl rfl rfl)
  · rw [heq]
    exact h.put hbalanced (.of_manager rfl rfl rfl) rfl (hsound.start hreserved rfl rfl rfl)
  · rw [heq]
    exact h.finishRun hbalanced hsound how

/-- A submission that is to be checked is not admitted yet. -/
theorem Admitted.submit (request : Request)
    (leaseId : LeaseId) (now : Cluster.Instant) : Admitted (s.submit k request leaseId now) := by
  rcases submit_cases s k request leaseId now with ⟨error, heq⟩ | ⟨_, heq⟩ | ⟨hzero, _, heq⟩
  · rw [heq]
    exact h.put hbalanced (.of_manager rfl rfl rfl) rfl (.fresh _ rfl rfl rfl)
  · rw [heq]
    exact h.put hbalanced (.of_manager rfl rfl rfl) rfl (.fresh _ rfl rfl rfl)
  · rw [heq]
    refine h.startRun hbalanced (.fresh _ rfl rfl rfl) ?_
    intro hpos
    exact absurd hzero (not_le.mpr hpos)

/-! ## Checks -/

/-- A submission that is queued is not admitted. -/
theorem Admitted.enqueue (hsound : j.Sound s.manager) : Admitted (s.enqueue p k j) := by
  have hreleased := Shrinks.releaseReservation s j.request.taskId
  rcases enqueue_cases p s k j with ⟨_, error, heq⟩ | ⟨_, heq⟩
  · rw [heq]
    refine h.put hbalanced ⟨hreleased.pending, rfl, rfl⟩ rfl ?_
    exact hsound.of_eq rfl rfl rfl fun hrun => hrun
  · rw [heq]
    refine h.put hbalanced ⟨hreleased.pending, rfl, rfl⟩ rfl ?_
    exact hsound.of_eq rfl rfl rfl fun hrun => hrun

/-- The drain pass starts what was admitted. -/
theorem Admitted.drainChecked {entry : QueuedGpuTask} {retry : List QueuedGpuTask} {evicted : Bool}
    (hdrain : s.drain = .checking entry retry evicted phase)
    (hreserved : admission.admitted = true → ∀ j, s.jobs.get? entry.job = some j →
      j.reservation.isSome = true) : Admitted (s.drainChecked p admission) := by
  have hreleased := Shrinks.releaseReservation s entry.taskId
  rcases drainChecked_cases hdrain admission with
    ⟨_, _, heq⟩ | ⟨hadmitted, _, heq⟩ | ⟨_, taskId, r, _, heq⟩ | ⟨_, _, heq⟩
  · rw [heq]
    exact h.same hbalanced ⟨hreleased.pending, rfl, rfl⟩ rfl
  · rw [heq]
    refine h.shrink hbalanced (.of_manager rfl rfl rfl) ?_
    intro k' i hi
    simp only [spawn, Dict.get?_modify] at hi
    split at hi
    · rename_i hjob
      obtain ⟨j, hget, rfl⟩ := Option.map_eq_some_iff.mp hi
      refine (h.sound k' j hget).start ?_ rfl rfl rfl
      exact fun _ => hreserved hadmitted j (hjob ▸ hget)
    · exact h.sound k' i hi
  · rw [heq]
    exact h.same hbalanced (.of_manager rfl rfl rfl) rfl
  · rw [heq]
    exact h.same hbalanced ⟨hreleased.pending, rfl, rfl⟩ rfl

/-- A check ends with an admission only when the submission has a reservation. -/
theorem Admitted.checked (hcheck : s.checking who = some (k, request, phase))
    (hreserved : admission.admitted = true → ∀ j, s.jobs.get? k = some j →
      j.reservation.isSome = true) {now : Cluster.Instant} :
    Admitted (s.checked p who admission leaseId now) := by
  cases who with
  | submit k' =>
    obtain ⟨rfl, j, hget, rfl, hphase⟩ := checking_submit hcheck
    have hsound := h.sound k j hget
    simp only [checked, submitChecked, hget]
    cases hverdict : admission.admitted with
    | true =>
      rw [if_pos rfl]
      have hinline : Job.Sound s.manager { j with submitter := .inline } :=
        hsound.of_eq rfl rfl rfl fun hrun => hrun
      exact h.startRun hbalanced hinline fun _ => hreserved hverdict j hget
    | false =>
      rw [if_neg (by simp)]
      exact h.enqueue hbalanced hsound
  | drain =>
    obtain ⟨entry, retry, evicted, hdrain, rfl, rfl⟩ := checking_drain hcheck
    exact h.drainChecked hbalanced hdrain hreserved

/-- A check goes on. -/
theorem Admitted.setPhase (phase : CheckPhase)
    (who : Checker) : Admitted (s.setPhase phase who) := by
  cases who with
  | submit k' =>
    refine h.shrink hbalanced (.of_manager rfl rfl rfl) ?_
    intro k i hi
    simp only [ArbiterState.setPhase, Dict.get?_modify] at hi
    split at hi
    · obtain ⟨j, hget, rfl⟩ := Option.map_eq_some_iff.mp hi
      exact (h.sound k j hget).of_eq rfl rfl rfl fun hrun => hrun
    · exact h.sound k i hi
  | drain =>
    simp only [ArbiterState.setPhase]
    split
    · exact h.same hbalanced (.of_manager rfl rfl rfl) rfl
    · exact h

/-- A sweep leaves no more reserved. -/
theorem Admitted.sweep (now : Vram.Clock) : Admitted (s.sweep now) := by
  refine h.same hbalanced ⟨?_, rfl, rfl⟩ rfl
  intro rid res hrid
  rw [ArbiterState.sweep, hbalanced.sweep_get?] at hrid
  split at hrid
  · contradiction
  · exact hrid

/-- No worker can host the submission, which is noted. -/
theorem Admitted.noteSite (k : SubId) : Admitted (s.noteSite k none) := by
  refine h.shrink hbalanced (.of_manager rfl rfl rfl) ?_
  intro k' i hi
  simp only [ArbiterState.noteSite, Dict.get?_modify] at hi
  split at hi
  · obtain ⟨j, hget, rfl⟩ := Option.map_eq_some_iff.mp hi
    have hsound := h.sound k' j hget
    exact hsound.of_eq rfl rfl hsound.site.symm fun hrun => hrun
  · exact h.sound k' i hi

end

/-- A new reservation for a task fits into the reading, or without one into the last. -/
theorem fits_grant (hbalanced : s.manager.Balanced)
    (hunused : s.manager.pending.get? res.reservationId = none) (hpos : 0 < res.vramMb)
    (hfits : ∀ reading ∈ probe, res.vramMb ≤ s.manager.effectiveFree reading.1)
    (hlast : probe = none → ∀ freeMb ∈ s.reported, s.tasksVramMb + res.vramMb ≤ freeMb)
    (hmanager : s'.manager = s.manager.grant res) (houtside : s'.outside = s.outside)
    (hreported : s'.reported = (probe.map Prod.fst).or s.reported) :
    ∀ freeMb ∈ s'.reported, s'.tasksVramMb ≤ freeMb := by
  intro freeMb hfree
  have hgrant := hbalanced.grant hunused hpos
  rw [hreported] at hfree
  cases probe with
  | some reading =>
    cases hfree
    refine le_trans ?_ (hbalanced.grant_fits hunused hpos (hfits reading rfl))
    rw [← hmanager]
    rw [← hmanager] at hgrant
    exact tasksVramMb_le_pending hgrant
  | none =>
    have hlast' := hlast rfl freeMb hfree
    have hsize : taskVramMb s.outside res ≤ res.vramMb := by
      unfold taskVramMb
      split
      · exact hpos.le
      · exact le_rfl
    have hsum : s'.tasksVramMb = s.tasksVramMb + taskVramMb s.outside res := by
      rw [tasksVramMb, hmanager, houtside, VramReservationManager.grant,
        Dict.sumBy_set_new _ res hunused, tasksVramMb]
    omega

section

variable (h : Admitted s)
include h

/-- The ledger grants a reservation to a submission that is checked. -/
theorem Admitted.grant (hheld : Holdings none s) (hget : s.jobs.get? k = some j)
    (res : VramReservation) (hrid : res.reservationId ∉ s.issued) (hpos : 0 < res.vramMb)
    (hsize : res.vramMb = j.request.requiredVramMb)
    (hfits : ∀ reading ∈ probe, res.vramMb ≤ s.manager.effectiveFree reading.1)
    (hlast : probe = none → ∀ freeMb ∈ s.reported, s.tasksVramMb + res.vramMb ≤ freeMb)
    {taskId : TaskId} :
    Admitted
      ({ s with lock := none, issued := res.reservationId :: s.issued }.noteGrant k taskId
        res.reservationId (s.manager.grant res) probe) where
  sound := by
    intro k' i hi
    simp only [noteGrant, Dict.modify_of_get? hget, Dict.get?_set] at hi
    split at hi
    · cases hi
      refine ⟨(h.sound k j hget).site, fun _ _ => rfl, ?_⟩
      intro rid res' heq hres'
      cases heq
      simp only [noteGrant, VramReservationManager.grant, Dict.get?_set_self] at hres'
      cases hres'
      exact hsize
    · have hsound := h.sound k' i hi
      refine ⟨hsound.site, hsound.reserved, ?_⟩
      intro rid res' heq hres'
      have hissued := (hheld.reservations.issued k' rid
        (reservationOf_eq_some.mpr ⟨i, hi, heq⟩)).1
      have hne : res.reservationId ≠ rid := by
        rintro rfl
        exact hrid hissued
      simp only [noteGrant, VramReservationManager.grant,
        Dict.get?_set_of_ne _ _ hne] at hres'
      exact hsound.size rid res' heq hres'
  keyed := by
    intro rid res' hres'
    simp only [noteGrant, VramReservationManager.grant, Dict.get?_set] at hres'
    split at hres'
    · cases hres'
      assumption
    · exact h.keyed rid res' hres'
  fits :=
    fits_grant hheld.ledger.balanced (hheld.ledger.unused hrid) hpos hfits hlast rfl rfl rfl

/-- The first probe of a check. -/
theorem Admitted.availableRead (hbalanced : s.manager.Balanced)
    (hcheck : s.checking who = some (k, request, phase))
    (hadmits : LedgerAdmits s (.availableRead who probe leaseId now)) :
    Admitted (s.availableRead p who k request probe leaseId now) := by
  have hswept := h.sweep hbalanced now
  have hbalanced' : (s.sweep now).manager.Balanced := hbalanced.sweep now
  have hcheck' : (s.sweep now).checking who = some (k, request, phase) := by
    cases who <;> exact hcheck
  rcases availableRead_cases p s who k request probe leaseId now with
    ⟨effectiveFree, heq⟩ | ⟨c, hcluster, htotal, heq⟩
  · rw [heq]
    exact hswept.setPhase hbalanced' _ _
  · have hnone := hadmits htotal c hcluster (k, request, phase) hcheck
    rw [heq, hnone]
    refine Admitted.checked (hswept.noteSite hbalanced' k) hbalanced'
      ((checking_noteSite _ who k none).trans hcheck') ?_
    intro hadmitted
    simp [checkClusterAdmission, hnone] at hadmitted

/-- The ledger's answer to a check. -/
theorem Admitted.reserved (hheld : Holdings none s)
    (hplaced : Placed s) {effectiveFree : Option Int}
    (hcheck : s.checking who = some (k, request, .probing effectiveFree)) (hrid : rid ∉ s.issued)
    (hadmits : LedgerAdmits s (.reserved who probe rid leaseId now)) :
    Admitted (s.reserved p who k request effectiveFree probe rid leaseId now) := by
  obtain ⟨j, hget, rfl, hunstarted⟩ := hplaced.job_of_checking hcheck
  obtain ⟨hopen, hlast⟩ := hadmits (k, j.request, .probing effectiveFree) hcheck
  have hbalanced := hheld.ledger.balanced
  have hcheck' : { s with lock := none, issued := rid :: s.issued }.checking who =
      some (k, j.request, .probing effectiveFree) := by
    cases who <;> exact hcheck
  rcases reserved_cases p s who k j.request effectiveFree probe rid leaseId now with
    ⟨hdenied, heq⟩ | ⟨hgranted, hfits, heq⟩
  · rw [heq]
    have hissued : Admitted { s with lock := none, issued := rid :: s.issued } :=
      h.same hbalanced (.of_manager rfl rfl rfl) rfl
    refine hissued.checked hbalanced hcheck' ?_
    intro hadmitted
    cases effectiveFree with
    | some freeMb => contradiction
    | none =>
      -- A check that fails open goes on although the ledger has refused it.
      have hgrants := s.manager.reserveDecision_granted ("gpu-task:" ++ j.request.taskId) rid now
        (hopen rfl)
      rw [hdenied] at hgrants
      contradiction
  · rw [heq]
    have hnoted : Admitted ({ s with lock := none, issued := rid :: s.issued }.noteGrant k
        j.request.taskId rid (s.manager.grant
          ⟨rid, j.request.requiredVramMb, "gpu-task:" ++ j.request.taskId, now⟩) probe) :=
      h.grant hheld hget ⟨rid, j.request.requiredVramMb, "gpu-task:" ++ j.request.taskId, now⟩
        hrid hunstarted.2 rfl (fun reading hreading => hfits reading.1 reading.2 hreading) hlast
    refine Admitted.checked hnoted (hbalanced.grant (hheld.ledger.unused hrid) hunstarted.2)
      ((checking_noteGrant _ who k _ rid _ probe).trans hcheck') ?_
    intro _ i hi
    simp only [noteGrant, Dict.modify_of_get? hget, Dict.get?_set_self] at hi
    cases hi
    rfl

/-! ## Evictions and drain passes -/

/-- The end of an eviction admits nobody. -/
theorem Admitted.finishEvict (hbalanced : s.manager.Balanced) (ev : Eviction)
    (running : Dict TaskId RunningEntry) (evictions : Dict Nat Eviction) (drain : Drain) :
    Admitted
      ({ s with running := running, evictions := evictions, drain := drain }.finishEvict ev) := by
  have hreleased := Shrinks.releaseReservation
    { s with running := running, evictions := evictions, drain := drain } ev.taskId
  have hafter : Admitted
      (({ s with
          running := running
          evictions := evictions
          drain := drain }.releaseReservation ev.taskId).releaseLease ev.lease) :=
    h.same hbalanced ⟨hreleased.pending, rfl, rfl⟩ rfl
  refine hafter.resolveFuture ?_ ev.job .cancelled
  simp only [releaseLease, ArbiterState.releaseReservation]
  cases s.pendingReservations.get? ev.taskId with
  | none => exact hbalanced
  | some rid => exact hbalanced.popReservation rid

/-- An eviction admits nobody. -/
theorem Admitted.evictTask (hbalanced : s.manager.Balanced) (evictor : Nat)
    (taskId : TaskId) (bySelf : Bool) : Admitted (s.evictTask evictor taskId bySelf) := by
  unfold ArbiterState.evictTask
  split
  · exact h
  · rename_i r hr
    cases bySelf with
    | true =>
      simp only [if_true]
      exact h.finishEvict hbalanced ⟨r.job, taskId, r.lease⟩ (s.running.pop taskId) s.evictions
        s.drain
    | false =>
      simp only [Bool.false_eq_true, if_false]
      exact h.same hbalanced (.of_manager rfl rfl rfl) rfl

/-- A move of the drain pass admits nobody. -/
theorem Admitted.drainMove (hbalanced : s.manager.Balanced)
    (hmove : DrainMove p s s') : Admitted s' := by
  cases hmove with
  | drained | skip | dequeue | finished | requeueSkip | requeuePut =>
    exact h.same hbalanced (.of_manager rfl rfl rfl) rfl
  | @requeueDrop entry rest _ _ _ =>
    have hdropped : Admitted { s with drain := .requeue rest } :=
      h.same hbalanced (.of_manager rfl rfl rfl) rfl
    exact hdropped.resolveFuture hbalanced _ _

/-! ## Callers other than the arbiter -/

/-- A reservation for another caller fits into the reading with those of the tasks. -/
theorem Admitted.grantOutside (hheld : Holdings none s) {vramMb : Int}
    {caller : String} (hlock : s.lock = some (.outside vramMb caller)) (hrid : rid ∉ s.issued)
    (hgranted : (s.manager.reserveDecision vramMb caller probe rid now).2.isSome = true) :
    Admitted
      { s with
        lock := none
        issued := rid :: s.issued
        manager := (s.manager.reserveDecision vramMb caller probe rid now).1
        reported := (probe.map Prod.fst).or s.reported
        outside := rid :: s.outside } := by
  have hpos := hheld.ledger.lock vramMb caller hlock
  have hbalanced := hheld.ledger.balanced
  have hunused := hheld.ledger.unused hrid
  rcases s.manager.reserveDecision_cases vramMb caller probe rid now with hdenied | ⟨heq, hfits⟩
  · rw [hdenied] at hgranted
    contradiction
  rw [heq]
  refine ⟨?_, ?_, ?_⟩
  · intro k i hi
    have hsound := h.sound k i hi
    refine ⟨hsound.site, hsound.reserved, ?_⟩
    intro rid' res' hmine hres'
    have hissued := (hheld.reservations.issued k rid' (reservationOf_eq_some.mpr ⟨i, hi, hmine⟩)).1
    have hne : rid ≠ rid' := by
      rintro rfl
      exact hrid hissued
    simp only [VramReservationManager.grant, Dict.get?_set_of_ne _ _ hne] at hres'
    exact hsound.size rid' res' hmine hres'
  · intro rid' res' hres'
    simp only [VramReservationManager.grant, Dict.get?_set] at hres'
    split at hres'
    · cases hres'
      assumption
    · exact h.keyed rid' res' hres'
  · intro freeMb hfree
    have hgrant : (s.manager.grant ⟨rid, vramMb, caller, now⟩).Balanced :=
      hbalanced.grant hunused hpos
    cases probe with
    | some reading =>
      cases hfree
      refine le_trans (tasksVramMb_le_pending hgrant) ?_
      exact hbalanced.grant_fits hunused hpos (hfits reading.1 reading.2 rfl)
    | none =>
      refine le_trans ?_ (h.fits freeMb hfree)
      apply Dict.sumBy_le
      · exact taskVramMb_nonneg hbalanced
      · intro rid' res' hres'
        simp only [VramReservationManager.grant, Dict.get?_set] at hres'
        split at hres'
        · cases hres'
          left
          simp [taskVramMb]
        · refine Or.inr ⟨res', hres', ?_⟩
          have hpos' := hbalanced.positive rid' res' hres'
          simp only [taskVramMb, List.mem_cons]
          split
          · split
            · exact le_rfl
            · exact hpos'.le
          · rename_i hnot
            rw [if_neg fun hmem => hnot (Or.inr hmem)]

/-! ## Moves and runs -/

/-- What every orderly move of every coroutine keeps. -/
theorem Admitted.move {event : ArbiterEvent}
    (hheld : Holdings none s) (hplaced : Placed s) (hadmits : LedgerAdmits s event)
    (hmove : Move p s event s') : Admitted s' := by
  have hbalanced := hheld.ledger.balanced
  have hkept : ∀ {k j j' lock queuedEntries cancelledIds}, s.jobs.get? k = some j →
      Job.request j' = j.request → j'.reservation = j.reservation → j'.site = j.site →
      (j'.run.active = true → j.run.active = true) →
      Admitted
        { s with
          lock := lock
          queuedEntries := queuedEntries
          cancelledIds := cancelledIds
          jobs := s.jobs.set k j' } := by
    intro k j j' lock queuedEntries cancelledIds hget hrequest hreservation hsite hactive
    exact h.put hbalanced (.of_manager rfl rfl rfl) rfl
      ((h.sound k j hget).of_eq hrequest hreservation hsite hactive)
  have hresolved : ∀ (j : Job) (how : Outcome), (j.resolveFuture how).site = j.site := by
    intro j how
    unfold Job.resolveFuture
    split <;> rfl
  have hrest : ∀ {lock issued cluster paused drain},
      Admitted
        { s with
          lock := lock
          issued := issued
          cluster := cluster
          paused := paused
          drain := drain } :=
    h.same hbalanced (.of_manager rfl rfl rfl) rfl
  cases hmove with
  | submit _ _ => exact h.submit hbalanced _ _ _
  | availableRead hcheck _ => exact h.availableRead hbalanced hcheck hadmits
  | @acquire who k request effectiveFree now hcheck _ =>
    have hlocked : Admitted { s.sweep now with lock := some (.checker who) } :=
      (h.sweep hbalanced now).same (hbalanced.sweep now) (.of_manager rfl rfl rfl) rfl
    exact hlocked.setPhase (hbalanced.sweep now) _ _
  | reserved hcheck hrid _ => exact h.reserved hheld hplaced hcheck hrid hadmits
  | cancelChecking hget _ _ | wakeCancelled hget _ _ _ | wakeAnswered hget _ _ _ =>
    exact hkept hget rfl rfl rfl fun hrun => hrun
  | @cancelWaiting k j c hget _ =>
    exact hkept hget (by simp) (by simp) (hresolved j .cancelled) (by simp)
  | @runStarts k j leaseId now hget hrun _ =>
    have hsound := h.sound k j hget
    refine h.startRun hbalanced hsound ?_
    exact fun hpos => hsound.reserved hpos (by rw [hrun]; rfl)
  | @payloadEnds k j how hget _ => exact h.finishRun hbalanced (h.sound k j hget) how
  | @payloadStops k j how leaseId hget hrun =>
    exact hkept hget rfl rfl rfl fun _ => by rw [hrun]; rfl
  | @renewalStops k j how leaseId hget _ => exact h.finishRun hbalanced (h.sound k j hget) how
  | renewed | drainBegins | drainRaises | pause | resume | outsideRefused | outsideAborted
  | clusterChanges => exact hrest
  | @leaseLost k j leaseId now c hget _ _ =>
    have hrenewed : Admitted { s with cluster := some c } := hrest
    exact hrenewed.resolveFuture hbalanced _ _
  | @propagate k j j' how hget _ hnext =>
    rcases hnext with rfl | rfl
    · exact hkept hget rfl rfl rfl fun hrun => hrun
    · exact hkept hget (by simp) (by simp) (hresolved j how) (by simp)
  | @cancelQueued evictor taskId bySelf entry _ =>
    have hshrinks := Shrinks.releaseReservation
      { s with
        queuedEntries := s.queuedEntries.pop taskId
        cancelledIds := insert taskId s.cancelledIds } taskId
    have hreleased : Admitted ({ s with
        queuedEntries := s.queuedEntries.pop taskId
        cancelledIds := insert taskId s.cancelledIds }.releaseReservation taskId) :=
      h.same hbalanced ⟨hshrinks.pending, rfl, rfl⟩ rfl
    exact hreleased.resolveFuture (hheld.ledger.releaseReservation taskId).balanced _ _
  | cancelOp | evict => exact h.evictTask hbalanced _ _ _
  | @evicted evictor eviction _ _ =>
    exact h.finishEvict hbalanced eviction s.running (s.evictions.pop evictor) s.drain
  | drainStep hmove => exact h.drainMove hbalanced hmove
  | @drainEvicted entry retry eviction _ _ =>
    exact h.finishEvict hbalanced eviction s.running s.evictions
      (.checking entry retry true .available)
  | sweepStale => exact h.sweep hbalanced _
  | @outsideAcquire vramMb caller now _ =>
    exact (h.sweep hbalanced now).same (hbalanced.sweep now) (.of_manager rfl rfl rfl) rfl
  | outsideGranted hlock hrid hgranted => exact h.grantOutside hheld hlock hrid hgranted
  | outsideRelease _ =>
    exact h.same hbalanced ⟨fun _ _ hrid => release_pending hrid, rfl, rfl⟩ rfl

end

/-- In orderly runs what is admitted was free. -/
theorem noOverAdmission_of_orderly (p : ArbiterParams) (ttlSeconds : Vram.Clock)
    (cluster : Option ClusterManager) (events : List ArbiterEvent) (s : ArbiterState)
    (hrun : run (step p) (init ttlSeconds cluster) events = some s)
    (hguard : Guarded (step p) (AdmitOrderly p) (init ttlSeconds cluster) events) :
    NoOverAdmission s := by
  have hkept := invariant_of_guarded_run (I := fun t => Placed t ∧ Holdings none t ∧ Admitted t)
    (fun _ _ _ h horderly hstep =>
      ⟨h.1.step hstep, h.2.1.move h.1 horderly.1 (move_of_step hstep),
        h.2.2.move h.2.1 h.1 horderly.2 (move_of_step hstep)⟩)
    ⟨placed_init ttlSeconds cluster, holdings_init ttlSeconds cluster,
      admitted_init ttlSeconds cluster⟩ hguard hrun
  exact noOverAdmission_of_admitted hkept.2.1 hkept.2.2

/-! ### Two tasks and one snapshot -/

/-- Two tasks of 8000 MiB on a host without a probe, and a worker with that much free. -/
def sharedSnapshot : List ArbiterEvent :=
  [.submit 1 { demoRequest "t" with requiredVramMb := 8000 } "" 0,
    .submit 2 { demoRequest "u" with requiredVramMb := 8000 } "" 0,
    .availableRead (.submit 1) none "" 0, .availableRead (.submit 2) none "" 0]

/-- Both run against the worker's free VRAM, without a reservation. -/
theorem snapshot_shared :
    ∃ s, run (step demoParams) (init 3600 (some demoCluster)) sharedSnapshot = some s ∧
      s.jobs.sumBy (Job.load (some "gpu-a")) = 16000 ∧ s.manager.reservedVramMb = 0 ∧
      ¬NoOverAdmission s := by
  have hend : (run (step demoParams) (init 3600 (some demoCluster)) sharedSnapshot).map (fun s =>
      (s.jobs.sumBy (Job.load (some "gpu-a")), s.manager.reservedVramMb,
        (s.jobs.get? 1).map fun j =>
          (j.request.requiredVramMb, j.run.active, j.reservation.isSome))) =
      some (16000, 0, some (8000, true, false)) := by
    decide
  obtain ⟨s, hrun, hs⟩ := Option.map_eq_some_iff.mp hend
  simp only [Prod.mk.injEq, Option.map_eq_some_iff] at hs
  obtain ⟨hload, hreserved, j, hget, hsize, hactive, hnone⟩ := hs
  refine ⟨s, hrun, hload, hreserved, ?_⟩
  intro hkept
  obtain ⟨rid, res, hrid, _⟩ := hkept.reserved 1 j hget (by rw [hsize]; decide) hactive
  simp [hrid] at hnone

/-- Two tasks that fit into the free VRAM of the host together, and a third that does not. -/
def sharedHost : List ArbiterEvent :=
  [.submit 1 (demoRequest "t") "" 0, .submit 2 (demoRequest "u") "" 0,
    .submit 3 (demoRequest "v") "" 0, .availableRead (.submit 1) (some (8000, 8000)) "" 0,
    .availableRead (.submit 2) (some (8000, 8000)) "" 0,
    .availableRead (.submit 3) (some (8000, 8000)) "" 0, .acquire (.submit 1) 0,
    .reserved (.submit 1) (some (8000, 8000)) "r1" "" 0, .acquire (.submit 2) 0,
    .reserved (.submit 2) (some (8000, 8000)) "r2" "" 0, .acquire (.submit 3) 0,
    .reserved (.submit 3) (some (8000, 8000)) "r3" "" 0]

theorem noOverAdmission_of_orderly_host :
    ∃ s, run (step demoParams) (init 3600 none) sharedHost = some s ∧
      s.jobs.sumBy (Job.load none) = 8000 ∧ s.reported = some 8000 ∧ NoOverAdmission s := by
  have hend : (run (step demoParams) (init 3600 none) sharedHost).map (fun s =>
      (s.jobs.sumBy (Job.load none), s.reported)) = some (8000, some 8000) := by
    decide
  obtain ⟨s, hrun, hs⟩ := Option.map_eq_some_iff.mp hend
  simp only [Prod.mk.injEq] at hs
  exact ⟨s, hrun, hs.1, hs.2, noOverAdmission_of_orderly _ _ _ _ _ hrun (by decide)⟩

end ArbiterState

end TinyAgentOS.Gpu
