import TinyAgentOS.Gpu.Reserved

/-!
# What submissions hold, move by move

The stretches of the coroutines keep the reservations of the submissions where
they are, unless a step reaches into the table under an id that two live tasks
share, the ledger's sweep takes a reservation that is in use, or a task evicts
itself.

Main results:

- `Holdings.checked` and `Holdings.finishRun`: where reservations begin and end to be held.
- `Holdings.move`: what every move of every coroutine keeps.
-/

namespace TinyAgentOS.Gpu

open Cluster Collections Vram

/-- What a submission holds and whether it runs stay; a check can only go on or end. -/
structure Job.Keeps (j j' : Job) : Prop where
  request : j'.request = j.request
  active : j'.run.active = j.run.active
  reservation : j'.reservation = j.reservation
  checking : ∀ phase, j'.submitter = .checking phase → ∃ before, j.submitter = .checking before

theorem Job.Keeps.setSubmitter (j : Job) {submitter : Submitter}
    (hnext : ∀ phase, submitter ≠ .checking phase) :
    Job.Keeps j { j with submitter := submitter } :=
  ⟨rfl, rfl, rfl, fun phase hphase => absurd hphase (hnext phase)⟩

theorem Job.Keeps.resolveFuture (j : Job) (how : Outcome) : Job.Keeps j (j.resolveFuture how) :=
  ⟨by simp, by simp, by simp, fun phase hphase => ⟨phase, by simpa using hphase⟩⟩

theorem Job.Keeps.setPropagated (j : Job) : Job.Keeps j { j with propagated := true } :=
  ⟨rfl, rfl, rfl, fun phase hphase => ⟨phase, hphase⟩⟩

theorem Job.Keeps.trans {j j' j'' : Job} (h : Job.Keeps j j') (h' : Job.Keeps j' j'') :
    Job.Keeps j j'' where
  request := h'.request.trans h.request
  active := h'.active.trans h.active
  reservation := h'.reservation.trans h.reservation
  checking := by
    intro phase hphase
    obtain ⟨before, hbefore⟩ := h'.checking phase hphase
    exact h.checking before hbefore

namespace ArbiterState

/-! ## The condition -/

/-- No reservation is pending under the id but the submission's own. -/
def OwnsReservation (s : ArbiterState) (k : SubId) (taskId : TaskId) : Prop :=
  ∀ rid ∈ s.pendingReservations.get? taskId, reservationOf s.jobs k = some rid

/-- A task whose claim is refused when it starts releases no reservation but its own. -/
def StartOwns (s : ArbiterState) (k : SubId) (request : Request) (leaseId : LeaseId)
    (now : Cluster.Instant) : Prop :=
  s.claimRefused request leaseId now = true → OwnsReservation s k request.taskId

/-- A check that releases under its id when it ends releases no reservation but its own, and so
does the start of an admitted submission. -/
def EndOwns (p : ArbiterParams) (s : ArbiterState) (leaseId : LeaseId) (now : Cluster.Instant)
    (k : SubId) (request : Request) (admission : GpuAdmission) : Checker → Prop
  | .submit _ =>
    if admission.admitted then StartOwns s k request leaseId now
    else OwnsReservation s k request.taskId
  | .drain =>
    (if admission.admitted then request.taskId ∈ s.cancelledIds else s.evictsFor p = false) →
      OwnsReservation s k request.taskId

/-- A reservation that is granted overwrites none. -/
def GrantOwns (s : ArbiterState) (who : Checker) (probe : Probe) (rid : ReservationId)
    (now : Vram.Clock) : Prop :=
  ∀ check ∈ s.checking who,
    (s.manager.reserveDecision check.2.1.requiredVramMb ("gpu-task:" ++ check.2.1.taskId) probe rid
      now).2.isSome = true → OwnsReservation s check.1 check.2.1.taskId

/-- No sweep takes a reservation of the arbiter, no task with a reservation evicts itself, and a
step that releases or overwrites a reservation under an id finds there none that another task
holds. -/
def ReservationOrderly (p : ArbiterParams) (s : ArbiterState) : ArbiterEvent → Prop
  | .submit k request leaseId now =>
    request.requiredVramMb ≤ 0 → s.submitRefusal request = none →
      StartOwns s k request leaseId now
  | .availableRead who probe leaseId now =>
    SweepKeeps s now ∧
      AtVerdict s (.availableRead who probe leaseId now) (EndOwns p s leaseId now)
  | .reserved who probe rid leaseId now =>
    GrantOwns s who probe rid now ∧
      AtVerdict s (.reserved who probe rid leaseId now) (EndOwns p s leaseId now)
  | .acquire _ now => SweepKeeps s now
  | .sweepStale now => SweepKeeps s now
  | .outsideAcquire _ _ now => SweepKeeps s now
  | .runStarts k leaseId now => ∀ j ∈ s.jobs.get? k, StartOwns s k j.request leaseId now
  | .payloadEnds k _ =>
    ∀ j ∈ s.jobs.get? k, j.run = .payload none → OwnsReservation s k j.request.taskId
  | .renewalStops k => ∀ j ∈ s.jobs.get? k, OwnsReservation s k j.request.taskId
  | .cancelOp _ taskId bySelf =>
    ((s.queuedEntries.get? taskId).isSome = true ∨
      bySelf = true ∧ (s.running.get? taskId).isSome = true) →
    s.pendingReservations.get? taskId = none
  | .evict _ taskId bySelf =>
    bySelf = true ∧ (s.running.get? taskId).isSome = true →
    s.pendingReservations.get? taskId = none
  | .evicted evictor =>
    ∀ eviction ∈ s.evictions.get? evictor, s.pendingReservations.get? eviction.taskId = none
  | .drainEvicted =>
    ∀ eviction ∈ s.drainEviction, s.pendingReservations.get? eviction.taskId = none
  | _ => True

instance (s : ArbiterState) (k : SubId) (taskId : TaskId) :
    Decidable (OwnsReservation s k taskId) := by
  unfold OwnsReservation
  infer_instance

instance (s : ArbiterState) (k : SubId) (request : Request) (leaseId : LeaseId)
    (now : Cluster.Instant) : Decidable (StartOwns s k request leaseId now) := by
  unfold StartOwns
  infer_instance

instance (s : ArbiterState) (now : Vram.Clock) : Decidable (SweepKeeps s now) := by
  unfold SweepKeeps
  infer_instance

instance (p : ArbiterParams) (s : ArbiterState) (leaseId : LeaseId) (now : Cluster.Instant)
    (k : SubId) (request : Request) (admission : GpuAdmission) (who : Checker) :
    Decidable (EndOwns p s leaseId now k request admission who) := by
  cases who <;> unfold EndOwns <;> infer_instance

instance (s : ArbiterState) (who : Checker) (probe : Probe) (rid : ReservationId)
    (now : Vram.Clock) : Decidable (GrantOwns s who probe rid now) := by
  unfold GrantOwns
  infer_instance

instance (p : ArbiterParams) (s : ArbiterState) (event : ArbiterEvent) :
    Decidable (ReservationOrderly p s event) := by
  apply ArbiterEvent.casesOn (motive := fun e => Decidable (ReservationOrderly p s e)) event <;>
    intros <;> unfold ReservationOrderly <;> infer_instance

/-! ## The invariant -/

/-- The ledger is in order, and what submissions were granted is in custody. -/
structure Holdings (granted : Option SubId) (s : ArbiterState) : Prop where
  ledger : LedgerOk s.manager s.lock s.issued s.outside
  reservations : Reserved granted s
  fresh : Fresh granted s

/-- Nobody holds anything at the start. -/
theorem holdings_init (ttlSeconds : Vram.Clock) (cluster : Option ClusterManager) :
    Holdings none (init ttlSeconds cluster) where
  ledger :=
    ⟨VramReservationManager.Balanced.init ttlSeconds, by simp [init],
      by simp [init, VramReservationManager.init], by simp [init]⟩
  reservations :=
    ⟨⟨by simp [init], by simp [init, reservationOf], by simp [init], by simp [init],
        by simp [init, reservationOf], by simp [init]⟩,
      by simp [init], by simp [init], by simp [init], by simp [init, reservationOf]⟩
  fresh := by
    intro k j hget
    simp [init] at hget

variable {granted : Option SubId} {s s' : ArbiterState} {k : SubId} {j j' : Job}

/-! ## Stretches that leave everything where it is -/

/-- Neither the ledger nor the table moves. -/
structure SameHoldings (s s' : ArbiterState) : Prop where
  table : ∀ taskId, s'.pendingReservations.get? taskId = s.pendingReservations.get? taskId
  reservationReleases : s'.reservationReleases = s.reservationReleases
  manager : s'.manager = s.manager
  issued : s'.issued = s.issued
  outside : s'.outside = s.outside
  lock : ∀ vramMb caller, s'.lock = some (.outside vramMb caller) →
    s.lock = some (.outside vramMb caller)

theorem SameHoldings.ledger (hsame : SameHoldings s s')
    (h : LedgerOk s.manager s.lock s.issued s.outside) :
    LedgerOk s'.manager s'.lock s'.issued s'.outside := by
  rw [hsame.manager, hsame.issued, hsame.outside]
  exact h.setLock fun vramMb caller heq => h.lock vramMb caller (hsame.lock vramMb caller heq)

/-- The fields themselves are the same; the lock may be given back. -/
theorem SameHoldings.of_tables (htable : s'.pendingReservations = s.pendingReservations)
    (hreleases : s'.reservationReleases = s.reservationReleases) (hmanager : s'.manager = s.manager)
    (hissued : s'.issued = s.issued) (houtside : s'.outside = s.outside)
    (hlock : s'.lock = none ∨ s'.lock = s.lock) : SameHoldings s s' where
  table := fun _ => by rw [htable]
  reservationReleases := hreleases
  manager := hmanager
  issued := hissued
  outside := houtside
  lock := by
    intro vramMb caller heq
    rcases hlock with hnone | hsame
    · rw [hnone] at heq
      contradiction
    · exact hsame.symm.trans heq

/-- The submissions are left alone. -/
theorem Holdings.same (h : Holdings granted s) (hsame : SameHoldings s s')
    (hjobs : s'.jobs = s.jobs) (hpresent : ∀ e ∈ present s', e ∈ present s) :
    Holdings granted s' where
  ledger := hsame.ledger h.ledger
  reservations :=
    h.reservations.same hjobs hsame.table hsame.reservationReleases
      (fun _ _ _ => by rw [hsame.manager]) (fun _ hrid => hsame.issued ▸ hrid)
      (fun _ _ _ hmem => hsame.outside ▸ hmem)
  fresh := h.fresh.same hjobs hpresent

theorem reservationOf_of_get? (hget : s.jobs.get? k = some j) :
    reservationOf s.jobs k = j.reservation := by
  rw [reservationOf, hget, Option.bind_some]

/-- Under the id of a submission without a reservation there is none. -/
theorem OwnsReservation.none {taskId : TaskId} (h : OwnsReservation s k taskId)
    (hnone : reservationOf s.jobs k = none) : s.pendingReservations.get? taskId = none := by
  cases hlies : s.pendingReservations.get? taskId with
  | none => rfl
  | some rid =>
    have hmine := h rid hlies
    rw [hnone] at hmine
    contradiction

/-- One submission goes on with what it has. -/
theorem Holdings.follow (h : Holdings granted s) (hsame : SameHoldings s s')
    (hget : s.jobs.get? k = some j) (j' : Job) (hkeeps : j.Keeps j')
    (hjobs : s'.jobs = s.jobs.set k j') (hpresent : ∀ e ∈ present s', e ∈ present s) :
    Holdings granted s' := by
  have hset : ∀ k', s'.jobs.get? k' = (s.jobs.set k j').get? k' := fun _ => by rw [hjobs]
  have hreservation := (reservationOf_of_get? hget).trans hkeeps.reservation.symm
  refine ⟨hsame.ledger h.ledger, ?_, ?_⟩
  · refine h.reservations.put hset hreservation ?_ (fun _ _ => Iff.rfl) hsame.table
      hsame.reservationReleases hsame.manager hsame.issued hsame.outside
    intro i rid hi _
    cases hget.symm.trans hi
    exact ⟨by rw [hkeeps.request], by rw [Job.Holds, Job.Holds, hkeeps.active]⟩
  · intro k' i hi hgranted hwhere
    rw [hjobs, Dict.get?_set] at hi
    split at hi
    · rename_i heq
      subst heq
      cases hi
      rw [hkeeps.reservation]
      apply h.fresh k j hget hgranted
      rcases hwhere with ⟨phase, hphase⟩ | ⟨e, he, heq⟩
      · exact Or.inl (hkeeps.checking phase hphase)
      · exact Or.inr ⟨e, hpresent e he, heq⟩
    · apply h.fresh k' i hi hgranted
      rcases hwhere with hchecking | ⟨e, he, heq⟩
      · exact Or.inl hchecking
      · exact Or.inr ⟨e, hpresent e he, heq⟩

/-- A submission without a reservation arrives, ends or queues. -/
theorem Holdings.put (h : Holdings none s) (hsame : SameHoldings s s')
    (hjobs : s'.jobs = s.jobs.set k j') (hbefore : reservationOf s.jobs k = none)
    (hnone : j'.reservation = none) (hpresent : ∀ e ∈ present s', e.job = k ∨ e ∈ present s) :
    Holdings none s' := by
  have hset : ∀ k', s'.jobs.get? k' = (s.jobs.set k j').get? k' := fun _ => by rw [hjobs]
  refine ⟨hsame.ledger h.ledger, ?_, ?_⟩
  · refine h.reservations.put hset (hbefore.trans hnone.symm) ?_ (fun _ _ => Iff.rfl) hsame.table
      hsame.reservationReleases hsame.manager hsame.issued hsame.outside
    intro i rid hi hrid
    rw [reservationOf_eq_some.mpr ⟨i, hi, hrid⟩] at hbefore
    contradiction
  · exact h.fresh.put _ hset hpresent (fun _ _ hgranted => hgranted) fun _ => hnone

/-- A new submission has nothing yet. -/
theorem Holdings.arrive (h : Holdings none s) (hfresh : s.jobs.get? k = none)
    (hreservation : j'.reservation = none) : Holdings none { s with jobs := s.jobs.set k j' } := by
  refine h.put (.of_tables rfl rfl rfl rfl rfl (Or.inr rfl)) rfl ?_ hreservation
    fun _ he => Or.inr he
  rw [reservationOf, hfresh, Option.bind_none]

theorem Holdings.resolveFuture (h : Holdings granted s) (k : SubId) (how : Outcome) :
    Holdings granted (s.resolveFuture k how) := by
  have hsame : SameHoldings s (s.resolveFuture k how) :=
    .of_tables rfl rfl rfl rfl rfl (Or.inr rfl)
  cases hget : s.jobs.get? k with
  | none =>
    exact h.same hsame (by simp [ArbiterState.resolveFuture, Dict.modify, hget]) fun _ he => he
  | some j =>
    exact h.follow hsame hget _ (Job.Keeps.resolveFuture j how) (Dict.modify_of_get? hget _)
      fun _ he => he

/-! ## Runs -/

/-- A run ends, and its reservation goes back. -/
theorem Holdings.finishRun (h : Holdings granted s) (hresume : Resumes granted s k j)
    (howns : OwnsReservation s k j.request.taskId) (hqueued : ∀ e ∈ present s, e.job ≠ k)
    (hsubmitter : ∀ phase, j.submitter ≠ .checking phase) (how : Outcome) :
    Holdings none (s.finishRun k j how) where
  ledger := h.ledger.releaseReservation j.request.taskId
  reservations :=
    h.reservations.settle hresume howns (j.finish how) (fun _ => rfl) rfl rfl rfl rfl rfl rfl rfl
  fresh := by
    refine h.fresh.put (j.finish how) (fun _ => rfl) (fun _ he => Or.inr he) ?_ ?_
    · intro k' hne hgranted
      exact absurd (hresume.only k' hgranted) hne
    · rintro (⟨phase, hphase⟩ | ⟨e, he, heq⟩)
      · simp only [Job.finish] at hphase
        split at hphase
        · contradiction
        · exact absurd hphase (hsubmitter phase)
      · exact absurd heq (hqueued e he)

/-- A task is registered and goes into its payload. -/
theorem Holdings.register (h : Holdings granted s) (hresume : Resumes granted s k j)
    (hqueued : ∀ e ∈ present s, e.job ≠ k) (hsubmitter : ∀ phase, j.submitter ≠ .checking phase)
    (lease : Option LeaseId) (cluster : Option ClusterManager) (leaseIds : List LeaseId) :
    Holdings none ({ s with cluster := cluster, leaseIds := leaseIds }.register k j lease) where
  ledger := h.ledger
  reservations :=
    h.reservations.resume hresume { j with run := .payload lease, lease := lease }
      (fun _ => rfl) rfl rfl rfl rfl rfl rfl rfl rfl
  fresh := by
    refine h.fresh.put { j with run := .payload lease, lease := lease } (fun _ => rfl)
      (fun _ he => Or.inr he) ?_ ?_
    · intro k' hne hgranted
      exact absurd (hresume.only k' hgranted) hne
    · rintro (⟨phase, hphase⟩ | ⟨e, he, heq⟩)
      · exact absurd hphase (hsubmitter phase)
      · exact absurd heq (hqueued e he)

variable {leaseId : LeaseId} {now : Cluster.Instant} {request : Request} {p : ArbiterParams}
  {entry : QueuedGpuTask} {evicted : Bool} {retry : List QueuedGpuTask} {phase : CheckPhase}
  {admission : GpuAdmission} {who : Checker} {rid : ReservationId} {probe : Probe}

/-- A run starts with what it was granted. -/
theorem Holdings.startRun (h : Holdings granted s) (hresume : Resumes granted s k j)
    (hstart : StartOwns s k j.request leaseId now)
    (hqueued : ∀ e ∈ present s, e.job ≠ k) (hsubmitter : ∀ phase, j.submitter ≠ .checking phase) :
    Holdings none (s.startRun k j leaseId now) := by
  rcases startRun_cases s k j leaseId now with ⟨_, heq⟩ | ⟨_, c, _, heq⟩ | ⟨hclaim, how, heq⟩
  · rw [heq]
    exact h.register hresume hqueued hsubmitter none s.cluster s.leaseIds
  · rw [heq]
    exact h.register hresume hqueued hsubmitter _ _ _
  · rw [heq]
    exact h.finishRun hresume (hstart hclaim) hqueued hsubmitter how

/-- What a submission under way holds is its own. -/
theorem Resumes.of_get? (hget : s.jobs.get? k = some j)
    (hholds : j.reservation = none ∨ j.run.active = true) : Resumes none s k j where
  reservation := reservationOf_of_get? hget
  held := by
    intro i rid hi hrid
    cases hget.symm.trans hi
    refine ⟨rfl, ?_⟩
    rcases hholds with hnone | hactive
    · rw [hnone] at hrid
      contradiction
    · exact Or.inl hactive
  only := by
    intro k' hnone
    contradiction

/-- A submission arrives. -/
theorem Holdings.submit (h : Holdings none s) (hplaced : Placed s) (hfresh : s.jobs.get? k = none)
    (horderly : ReservationOrderly p s (.submit k request leaseId now)) :
    Holdings none (s.submit k request leaseId now) := by
  rcases submit_cases s k request leaseId now with
    ⟨error, heq⟩ | ⟨_, heq⟩ | ⟨hzero, hrefusal, heq⟩
  · rw [heq]
    exact h.arrive hfresh rfl
  · rw [heq]
    exact h.arrive hfresh rfl
  · rw [heq]
    have hresume : Resumes none s k { Job.init request with submitter := .inline } := by
      refine ⟨?_, ?_, ?_⟩
      · rw [reservationOf, hfresh]
        rfl
      · intro i rid hi
        rw [hfresh] at hi
        contradiction
      · intro k' hnone
        contradiction
    exact h.startRun hresume (horderly hzero hrefusal) (hplaced.free_of_none hfresh).queued
      (by simp)

/-! ## Checks -/

/-- A submission is queued without a reservation. -/
theorem Holdings.enqueue (h : Holdings none s)
    (hget : s.jobs.get? k = some j) (hnone : j.reservation = none)
    (hempty : s.pendingReservations.get? j.request.taskId = none) :
    Holdings none (s.enqueue p k j) := by
  obtain ⟨hmanager, hreleases, htable⟩ := releaseReservation_none hempty
  have hbefore := (reservationOf_of_get? hget).trans hnone
  rcases enqueue_cases p s k j with ⟨_, error, heq⟩ | ⟨_, heq⟩
  · rw [heq]
    refine h.put ?_ rfl hbefore hnone fun _ he => Or.inr he
    exact ⟨htable, hreleases, hmanager, rfl, rfl, fun _ _ hlock => hlock⟩
  · rw [heq]
    refine h.put ?_ rfl hbefore hnone ?_
    · exact ⟨htable, hreleases, hmanager, rfl, rfl, fun _ _ hlock => hlock⟩
    · intro e he
      have hperm : (putEntry ⟨s.seq + 1, k, j.request⟩ s.queue ++ s.drain.held).Perm
          (⟨s.seq + 1, k, j.request⟩ :: present s) :=
        (putEntry_perm _ s.queue).append_right s.drain.held
      rcases List.mem_cons.mp (hperm.subset he) with rfl | hold
      · exact Or.inl rfl
      · exact Or.inr hold

section

variable (h : Holdings granted s)
include h

/-- The submission of a checked entry has what it was just granted, or nothing. -/
theorem Holdings.resumes_entry
    (hentry : entry ∈ present s) (honly : ∀ k', granted = some k' → k' = entry.job)
    (hget : s.jobs.get? entry.job = some j) : Resumes granted s entry.job j where
  reservation := reservationOf_of_get? hget
  held := by
    intro i rid hi hrid
    cases hget.symm.trans hi
    refine ⟨rfl, ?_⟩
    by_cases hgranted : granted = some entry.job
    · exact Or.inr hgranted
    · have hnone := h.fresh entry.job j hget hgranted (Or.inr ⟨entry, hentry, rfl⟩)
      rw [hnone] at hrid
      contradiction
  only := honly

/-- An entry leaves: its submission waits for the run, and is in no list any more. -/
theorem Holdings.fresh_leave (hplaced : Placed s) {j' : Job}
    (hleft : (present s).Perm (entry :: present s'))
    (honly : ∀ k', granted = some k' → k' = entry.job)
    (hset : ∀ k', s'.jobs.get? k' = (s.jobs.set entry.job j').get? k') (hwaits : j'.Waits) :
    Fresh none s' := by
  refine h.fresh.put _ hset ?_ ?_ ?_
  · intro e he
    exact Or.inr (hleft.symm.subset (List.mem_cons_of_mem _ he))
  · intro k' hne hgranted
    exact absurd (honly k' hgranted) hne
  · rintro (⟨phase', hphase⟩ | ⟨e, he, heq⟩)
    · rcases hwaits with ⟨c, hc⟩ | ⟨how, hhow⟩
      · simp [hc] at hphase
      · simp [hhow] at hphase
    · have hnodup := (hleft.map QueuedGpuTask.job).nodup_iff.mp hplaced.nodup
      exact absurd (heq ▸ List.mem_map_of_mem he) (List.nodup_cons.mp hnodup).1

/-- The drain pass starts an entry. -/
theorem Holdings.spawn (hplaced : Placed s) (hdrain : s.drain = .checking entry retry evicted phase)
    (honly : ∀ k', granted = some k' → k' = entry.job) : Holdings none (s.spawn entry retry) := by
  have hentry : entry ∈ present s := by simp [present, hdrain, Drain.held]
  obtain ⟨j, hget, _, _, hwaits⟩ := hplaced.queued entry hentry
  have hresume := h.resumes_entry hentry honly hget
  have hjobs : (s.spawn entry retry).jobs = s.jobs.set entry.job { j with run := .spawned } :=
    Dict.modify_of_get? hget _
  have hset : ∀ k', (s.spawn entry retry).jobs.get? k' =
      (s.jobs.set entry.job { j with run := .spawned }).get? k' := fun _ => by rw [hjobs]
  have hleft : (present s).Perm (entry :: present (s.spawn entry retry)) := by
    simp only [present, hdrain, Drain.held]
    exact List.perm_middle
  refine ⟨h.ledger, ?_, ?_⟩
  · exact h.reservations.resume hresume _ hset rfl rfl rfl rfl rfl rfl rfl rfl
  · exact h.fresh_leave hplaced hleft honly hset hwaits

/-- An entry that was cancelled during its check is dropped. -/
theorem Holdings.drop (hplaced : Placed s) (hdrain : s.drain = .checking entry retry evicted phase)
    (honly : ∀ k', granted = some k' → k' = entry.job)
    (howns : OwnsReservation s entry.job entry.taskId) :
    Holdings none
      ({ s with
        cancelledIds := s.cancelledIds.erase entry.taskId
        drain := .loop retry }.releaseReservation entry.taskId) := by
  have hentry : entry ∈ present s := by simp [present, hdrain, Drain.held]
  obtain ⟨j, hget, hrequest, hunstarted, hwaits⟩ := hplaced.queued entry hentry
  have hresume := h.resumes_entry hentry honly hget
  have htask : entry.taskId = j.request.taskId := by
    rw [hrequest]
    rfl
  rw [htask] at howns ⊢
  have hset : ∀ k', s.jobs.get? k' = (s.jobs.set entry.job j).get? k' := by
    intro k'
    rw [Dict.get?_set]
    split
    · rename_i heq
      rw [← heq, hget]
    · rfl
  have hleft : (present s).Perm (entry :: (s.queue ++ retry)) := by
    simp only [present, hdrain, Drain.held]
    exact List.perm_middle
  refine ⟨h.ledger.releaseReservation j.request.taskId, ?_, ?_⟩
  · refine h.reservations.settle hresume howns j hset rfl ?_ rfl rfl rfl rfl rfl
    rw [hunstarted.1]
    rfl
  · exact h.fresh_leave hplaced hleft honly hset hwaits

/-- A check of the drain pass ends. -/
theorem Holdings.drainChecked (hplaced : Placed s)
    (hdrain : s.drain = .checking entry retry evicted phase)
    (honly : ∀ k', granted = some k' → k' = entry.job)
    (hadmitted : granted ≠ none → admission.admitted = true)
    (hend : EndOwns p s leaseId now entry.job entry.request admission .drain) :
    Holdings none (s.drainChecked p admission) := by
  have hentry : entry ∈ present s := by simp [present, hdrain, Drain.held]
  have hnone : admission.admitted = false → granted = none := by
    intro hrefused
    by_contra hsome
    rw [hadmitted hsome] at hrefused
    contradiction
  rcases drainChecked_cases hdrain admission with
    ⟨hverdict, hcancelled, heq⟩ | ⟨_, _, heq⟩ | ⟨hrefused, taskId, r, hr, heq⟩ |
      ⟨hrefused, hstays, heq⟩
  · rw [heq]
    exact h.drop hplaced hdrain honly (hend (by rwa [if_pos hverdict]))
  · rw [heq]
    exact h.spawn hplaced hdrain honly
  · cases hnone hrefused
    rw [heq]
    refine h.same (.of_tables rfl rfl rfl rfl rfl (Or.inr rfl)) rfl ?_
    intro e he
    simpa only [present, hdrain, Drain.held] using he
  · cases hnone hrefused
    rw [heq]
    obtain ⟨j, hget, _, _⟩ := hplaced.queued entry hentry
    have hfree := h.fresh entry.job j hget (by simp) (Or.inr ⟨entry, hentry, rfl⟩)
    have howns := hend (by rwa [hrefused, if_neg (by simp)])
    obtain ⟨hmanager, hreleases, htable⟩ :=
      releaseReservation_none (howns.none ((reservationOf_of_get? hget).trans hfree))
    refine h.same ?_ rfl ?_
    · exact ⟨htable, hreleases, hmanager, rfl, rfl, fun _ _ hlock => hlock⟩
    · intro e he
      simp only [present, hdrain, Drain.held]
      exact ((List.perm_append_singleton entry retry).append_left s.queue).subset he

/-- The end of a check: of a submission that was just granted a reservation, or has none. -/
theorem Holdings.checked (hplaced : Placed s)
    (hcheck : s.checking who = some (k, request, phase)) (honly : ∀ k', granted = some k' → k' = k)
    (hadmitted : granted ≠ none → admission.admitted = true)
    (hend : EndOwns p s leaseId now k request admission who) :
    Holdings none (s.checked p who admission leaseId now) := by
  cases who with
  | submit k' =>
    obtain ⟨rfl, j, hget, rfl, hphase⟩ := checking_submit hcheck
    have hfree := hplaced.free_of_checking hget hphase
    have hfresh : granted ≠ some k → j.reservation = none := fun hgranted =>
      h.fresh k j hget hgranted (Or.inl ⟨phase, hphase⟩)
    simp only [checked, submitChecked, hget]
    cases hverdict : admission.admitted with
    | true =>
      rw [if_pos rfl]
      rw [EndOwns, if_pos hverdict] at hend
      have hresume : Resumes granted s k { j with submitter := .inline } := by
        refine ⟨by rw [reservationOf_of_get? hget], ?_, honly⟩
        intro i rid hi hrid
        cases hget.symm.trans hi
        refine ⟨rfl, ?_⟩
        by_cases hgranted : granted = some k
        · exact Or.inr hgranted
        · rw [hfresh hgranted] at hrid
          contradiction
      exact h.startRun hresume hend hfree.queued (by simp)
    | false =>
      have hnone : granted = none := by
        by_contra hsome
        rw [hadmitted hsome] at hverdict
        contradiction
      subst hnone
      have hfree' := hfresh (by simp)
      rw [EndOwns, hverdict, if_neg (by simp)] at hend
      rw [if_neg (by simp)]
      exact h.enqueue hget hfree' (hend.none ((reservationOf_of_get? hget).trans hfree'))
  | drain =>
    obtain ⟨entry, retry, evicted, hdrain, rfl, rfl⟩ := checking_drain hcheck
    exact h.drainChecked hplaced hdrain honly hadmitted hend

end

theorem Holdings.setPhase (h : Holdings none s)
    {before : CheckPhase} (hcheck : s.checking who = some (k, request, before))
    (phase : CheckPhase) : Holdings none (s.setPhase phase who) := by
  cases who with
  | submit k' =>
    obtain ⟨rfl, j, hget, _, hphase⟩ := checking_submit hcheck
    refine h.follow (.of_tables rfl rfl rfl rfl rfl (Or.inr rfl)) hget
      { j with submitter := .checking phase } ?_ (Dict.modify_of_get? hget _) fun _ he => he
    exact ⟨rfl, rfl, rfl, fun _ _ => ⟨before, hphase⟩⟩
  | drain =>
    obtain ⟨entry, retry, evicted, hdrain, _, _⟩ := checking_drain hcheck
    simp only [setPhase, hdrain]
    refine h.same (.of_tables rfl rfl rfl rfl rfl (Or.inr rfl)) rfl ?_
    intro e he
    simpa only [present, hdrain, Drain.held] using he

theorem Holdings.sweep (h : Holdings none s) {now : Vram.Clock} (hkeeps : SweepKeeps s now) :
    Holdings none (s.sweep now) where
  ledger := h.ledger.sweep now
  reservations := h.reservations.sweep h.ledger.balanced hkeeps
  fresh := h.fresh.same rfl fun _ he => he

/-- The lock of the ledger goes to a check, or to a caller with a positive size, or back. -/
theorem Holdings.setLock (h : Holdings granted s) {lock : Option LockHolder}
    (hlock : ∀ vramMb caller, lock = some (.outside vramMb caller) → 0 < vramMb) :
    Holdings granted { s with lock := lock } where
  ledger := h.ledger.setLock hlock
  reservations :=
    h.reservations.same rfl (fun _ => rfl) rfl (fun _ _ _ => rfl) (fun _ hrid => hrid)
      fun _ _ _ hmem => hmem
  fresh := h.fresh.same rfl fun _ he => he

/-- A reservation id is drawn, and the lock given back. -/
theorem Holdings.issue (h : Holdings none s) (rid : ReservationId) :
    Holdings none { s with lock := none, issued := rid :: s.issued } where
  ledger := h.ledger.issue rid
  reservations :=
    h.reservations.same rfl (fun _ => rfl) rfl (fun _ _ _ => rfl)
      (fun _ hrid => List.mem_cons_of_mem _ hrid) fun _ _ _ hmem => hmem
  fresh := h.fresh.same rfl fun _ he => he

/-- The ledger grants a reservation to a submission that is checked. -/
theorem Holdings.grant (h : Holdings none s) (hget : s.jobs.get? k = some j)
    (hnone : j.reservation = none) (hempty : s.pendingReservations.get? j.request.taskId = none)
    (hrid : rid ∉ s.issued) {res : VramReservation} (hres : res.reservationId = rid)
    (hpos : 0 < res.vramMb) (probe : Probe) :
    Holdings (some k)
      ({ s with lock := none, issued := rid :: s.issued }.noteGrant k j.request.taskId rid
        (s.manager.grant res) probe) := by
  subst hres
  have hjobs : ({ s with
        lock := none
        issued := res.reservationId :: s.issued }.noteGrant k j.request.taskId res.reservationId
          (s.manager.grant res) probe).jobs =
      s.jobs.set k { j with reservation := some res.reservationId } := Dict.modify_of_get? hget _
  refine ⟨?_, ?_, ?_⟩
  · exact h.ledger.grant hrid hpos fun _ hmem => Or.inr hmem
  · exact h.reservations.grant hget hnone hempty hrid h.ledger.outside rfl hjobs rfl rfl rfl rfl rfl
  · intro k' i hi hgranted hwhere
    rw [hjobs, Dict.get?_set_of_ne _ _ (fun heq => hgranted (by rw [heq]))] at hi
    exact h.fresh k' i hi (by simp) hwhere

theorem ledgerAdmission_granted (effectiveFree : Option Int) (requiredVramMb : Int) :
    (ledgerAdmission effectiveFree true requiredVramMb).admitted = true := by
  cases effectiveFree <;> rfl

/-- A check ends in a state with the same tables, or with a reservation of its own. -/
theorem EndOwns.congr (h : EndOwns p s leaseId now k request admission who)
    (hcluster : s'.cluster = s.cluster)
    (hrunning : s'.running = s.running) (hcancelled : s'.cancelledIds = s.cancelledIds)
    (hdrain : s'.drain = s.drain)
    (howns : OwnsReservation s k request.taskId → OwnsReservation s' k request.taskId) :
    EndOwns p s' leaseId now k request admission who := by
  have hclaim : s'.claimRefused request leaseId now = s.claimRefused request leaseId now := by
    rw [claimRefused, claimRefused, hcluster]
  have hevicts : s'.evictsFor p = s.evictsFor p := by
    rw [evictsFor, evictsFor, hdrain, hrunning]
  cases who with
  | submit k' =>
    simp only [EndOwns, StartOwns, hclaim] at h ⊢
    split
    · rename_i hadmitted
      rw [if_pos hadmitted] at h
      exact fun hrefused => howns (h hrefused)
    · rename_i hrefused
      rw [if_neg hrefused] at h
      exact howns h
  | drain =>
    simp only [EndOwns, hevicts, hcancelled] at h ⊢
    exact fun hreleases => howns (h hreleases)

section

variable (h : Holdings none s)
include h

/-- A submission that is checked has no reservation yet. -/
theorem Holdings.job_of_checking (hplaced : Placed s)
    (hcheck : s.checking who = some (k, request, phase)) :
    ∃ j, s.jobs.get? k = some j ∧ j.request = request ∧ j.Unstarted ∧ j.reservation = none := by
  obtain ⟨j, hget, hrequest, hunstarted⟩ := hplaced.job_of_checking hcheck
  refine ⟨j, hget, hrequest, hunstarted, h.fresh k j hget (by simp) ?_⟩
  cases who with
  | submit k' =>
    obtain ⟨rfl, i, hi, _, hphase⟩ := checking_submit hcheck
    cases hget.symm.trans hi
    exact Or.inl ⟨phase, hphase⟩
  | drain =>
    obtain ⟨entry, retry, evicted, hdrain, rfl, _⟩ := checking_drain hcheck
    exact Or.inr ⟨entry, by simp [present, hdrain, Drain.held], rfl⟩

theorem Holdings.noteSite (hget : s.jobs.get? k = some j)
    (site : Option String) : Holdings none (s.noteSite k site) := by
  refine h.follow (.of_tables rfl rfl rfl rfl rfl (Or.inr rfl)) hget { j with site := site } ?_
    (Dict.modify_of_get? hget _) fun _ he => he
  exact ⟨rfl, rfl, rfl, fun phase hphase => ⟨phase, hphase⟩⟩

/-- The first probe of a check. -/
theorem Holdings.availableRead (hplaced : Placed s)
    (hcheck : s.checking who = some (k, request, phase))
    {now : Vram.Clock} (horderly : ReservationOrderly p s (.availableRead who probe leaseId now)) :
    Holdings none (s.availableRead p who k request probe leaseId now) := by
  obtain ⟨hkeeps, hverdict⟩ := horderly
  obtain ⟨j, hget, _⟩ := hplaced.job_of_checking hcheck
  have hswept := h.sweep hkeeps
  have hplaced' : Placed (s.sweep now) := hplaced.same ⟨rfl, rfl, rfl, rfl⟩ rfl
  have hcheck' : (s.sweep now).checking who = some (k, request, phase) := by
    cases who <;> exact hcheck
  rcases availableRead_cases p s who k request probe leaseId now with
    ⟨effectiveFree, heq⟩ | ⟨c, hcluster, htotal, heq⟩
  · rw [heq]
    exact hswept.setPhase hcheck' _
  · rw [heq]
    have hend := hverdict.check (verdict_availableRead hcheck leaseId hcluster htotal) hcheck
    refine Holdings.checked (hswept.noteSite hget _) (hplaced'.noteSite hget _)
      ((checking_noteSite _ who k _).trans hcheck') ?_ ?_ (hend.congr rfl rfl rfl rfl ?_)
    · intro k' hnone
      contradiction
    · intro hsome
      contradiction
    · intro howns rid hrid
      have hsame : (s.sweep now).jobs = s.jobs := rfl
      rw [ArbiterState.noteSite, Dict.modify_of_get? (hsame ▸ hget), reservationOf_set, if_pos rfl]
      exact (reservationOf_of_get? hget).symm.trans (howns rid hrid)

/-- The ledger's answer to a check. -/
theorem Holdings.reserved (hplaced : Placed s) {effectiveFree : Option Int}
    (hcheck : s.checking who = some (k, request, .probing effectiveFree)) (hrid : rid ∉ s.issued)
    {now : Vram.Clock} (horderly : ReservationOrderly p s (.reserved who probe rid leaseId now)) :
    Holdings none (s.reserved p who k request effectiveFree probe rid leaseId now) := by
  obtain ⟨j, hget, rfl, hunstarted, hnone⟩ := h.job_of_checking hplaced hcheck
  obtain ⟨hgrant, hverdict⟩ := horderly
  have hend := hverdict.check (verdict_reserved hcheck probe rid leaseId now) hcheck
  have hplaced' : Placed { s with lock := none, issued := rid :: s.issued } :=
    hplaced.same ⟨rfl, rfl, rfl, rfl⟩ rfl
  have hcheck' : { s with lock := none, issued := rid :: s.issued }.checking who =
      some (k, j.request, .probing effectiveFree) := by
    cases who <;> exact hcheck
  rcases reserved_cases p s who k j.request effectiveFree probe rid leaseId now with
    ⟨hdenied, heq⟩ | ⟨hgranted, _, heq⟩
  · rw [heq]
    rw [hdenied] at hend
    refine Holdings.checked (h.issue rid) hplaced' hcheck' ?_ ?_
      (hend.congr rfl rfl rfl rfl fun howns => howns)
    · intro k' hsome
      contradiction
    · intro hsome
      contradiction
  · rw [heq]
    have howns := hgrant (k, j.request, .probing effectiveFree) hcheck hgranted
    have hempty := howns.none ((reservationOf_of_get? hget).trans hnone)
    rw [hgranted] at hend
    refine Holdings.checked (h.grant hget hnone hempty hrid rfl hunstarted.2 probe)
      (hplaced'.noteGrant hget _ _ _ _) ((checking_noteGrant _ who k _ rid _ probe).trans hcheck')
      ?_ (fun _ => ledgerAdmission_granted effectiveFree _) (hend.congr rfl rfl rfl rfl ?_)
    · intro k' hsome
      cases hsome
      rfl
    · -- What lies under the id is what was just granted.
      intro _ rid' hrid'
      have hself : reservationOf ({ s with lock := none, issued := rid :: s.issued }.noteGrant k
          j.request.taskId rid (s.manager.grant
            ⟨rid, j.request.requiredVramMb, "gpu-task:" ++ j.request.taskId, now⟩) probe).jobs k =
          some rid := by
        simp only [noteGrant, Dict.modify_of_get? hget, reservationOf_set, if_true]
      simp only [noteGrant, Option.mem_def, Dict.get?_set_self] at hrid'
      cases hrid'
      exact hself

/-! ## Evictions -/

/-- An evictor has waited for its victim, or is the victim; no reservation is left under the id. -/
theorem Holdings.finishEvict (ev : Eviction)
    (hempty : s.pendingReservations.get? ev.taskId = none) (running : Dict TaskId RunningEntry)
    (evictions : Dict Nat Eviction) (drain : Drain)
    (hpresent : ∀ e ∈ s.queue ++ drain.held, e ∈ present s) :
    Holdings none
      ({ s with running := running, evictions := evictions, drain := drain }.finishEvict ev) := by
  obtain ⟨hmanager, hreleases, htable⟩ := releaseReservation_none hempty
  have hreleased : Holdings none
      (({ s with
          running := running
          evictions := evictions
          drain := drain }.releaseReservation ev.taskId).releaseLease ev.lease) := by
    refine h.same ?_ rfl hpresent
    exact ⟨htable, hreleases, hmanager, rfl, rfl, fun _ _ hlock => hlock⟩
  exact hreleased.resolveFuture ev.job .cancelled

/-- An eviction gives the reservation back. -/
theorem Holdings.evictTask (evictor : Nat) {taskId : TaskId} {bySelf : Bool}
    (hself : bySelf = true ∧ (s.running.get? taskId).isSome = true →
      s.pendingReservations.get? taskId = none) :
    Holdings none (s.evictTask evictor taskId bySelf) := by
  unfold ArbiterState.evictTask
  split
  · exact h
  · rename_i r hr
    cases bySelf with
    | true =>
      simp only [if_true]
      exact h.finishEvict ⟨r.job, taskId, r.lease⟩ (hself ⟨rfl, by rw [hr]; rfl⟩)
        (s.running.pop taskId) s.evictions s.drain fun _ he => he
    | false =>
      simp only [Bool.false_eq_true, if_false]
      exact h.same (.of_tables rfl rfl rfl rfl rfl (Or.inr rfl)) rfl fun _ he => he

/-! ## The drain pass -/

theorem Holdings.moveDrain {queue : List QueuedGpuTask} {drain : Drain}
    {queuedEntries : Dict TaskId QueuedGpuTask} {cancelledIds : Finset TaskId}
    (hpresent : ∀ e ∈ queue ++ drain.held, e ∈ present s) :
    Holdings none
      { s with
        queue := queue
        drain := drain
        queuedEntries := queuedEntries
        cancelledIds := cancelledIds } :=
  h.same (.of_tables rfl rfl rfl rfl rfl (Or.inr rfl)) rfl hpresent

/-- A move of the drain pass keeps what is held. -/
theorem Holdings.drainMove (hmove : DrainMove p s s') : Holdings none s' := by
  cases hmove with
  | drained hdrain hqueue | finished hdrain =>
    refine h.moveDrain ?_
    simp only [present, hdrain, Drain.held]
    exact fun _ he => he
  | skip hdrain hqueue hcancelled =>
    refine h.moveDrain ?_
    simp only [present, hqueue, List.cons_append]
    exact fun _ he => List.mem_cons_of_mem _ he
  | dequeue hdrain hqueue hcancelled =>
    refine h.moveDrain ?_
    simp only [present, hdrain, hqueue, Drain.held]
    exact List.perm_middle.subset
  | requeueSkip hdrain hcancelled =>
    refine h.moveDrain ?_
    simp only [present, hdrain, Drain.held]
    exact ((List.sublist_cons_self _ _).append_left _).subset
  | @requeueDrop entry rest hdrain hcancelled hfull =>
    have hdropped : Holdings none { s with drain := .requeue rest } := by
      refine h.moveDrain ?_
      simp only [present, hdrain, Drain.held]
      exact ((List.sublist_cons_self _ _).append_left _).subset
    exact hdropped.resolveFuture _ _
  | @requeuePut entry rest hdrain hcancelled hfull =>
    refine h.moveDrain ?_
    simp only [present, hdrain, Drain.held]
    exact (((putEntry_perm entry s.queue).append_right rest).trans List.perm_middle.symm).subset

/-! ## The move -/

/-- The ledger grants a reservation to a caller other than the arbiter. -/
theorem Holdings.grantOutside {vramMb : Int} {caller : String}
    (hlock : s.lock = some (.outside vramMb caller)) (hrid : rid ∉ s.issued) {now : Vram.Clock}
    (hgranted : (s.manager.reserveDecision vramMb caller probe rid now).2.isSome = true) :
    Holdings none
      { s with
        lock := none
        issued := rid :: s.issued
        manager := (s.manager.reserveDecision vramMb caller probe rid now).1
        reported := (probe.map Prod.fst).or s.reported
        outside := rid :: s.outside } := by
  have hpos := h.ledger.lock vramMb caller hlock
  have hmanager : (s.manager.reserveDecision vramMb caller probe rid now).1 =
      s.manager.grant ⟨rid, vramMb, caller, now⟩ := by
    rcases s.manager.reserveDecision_cases vramMb caller probe rid now with hdenied | ⟨heq, _⟩
    · rw [hdenied] at hgranted
      contradiction
    · rw [heq]
  rw [hmanager]
  have hother : ∀ k rid', reservationOf s.jobs k = some rid' → rid ≠ rid' := by
    rintro k rid' hrid' rfl
    exact hrid (h.reservations.issued k rid hrid').1
  refine ⟨?_, ?_, h.fresh.same rfl fun _ he => he⟩
  · exact h.ledger.grant hrid hpos fun _ hmem => List.mem_cons.mp hmem
  · refine h.reservations.same rfl (fun _ => rfl) rfl ?_
      (fun _ hmem => List.mem_cons_of_mem _ hmem) ?_
    · intro k rid' hrid'
      exact Dict.get?_set_of_ne _ _ (hother k rid' hrid')
    · intro k rid' hrid' hmem
      rcases List.mem_cons.mp hmem with heq | hold
      · exact absurd heq.symm (hother k rid' hrid')
      · exact hold

theorem Holdings.releaseOutside
    (hrid : rid ∈ s.outside) : Holdings none { s with manager := (s.manager.release rid).1 } := by
  refine ⟨h.ledger.release rid, ?_, h.fresh.same rfl fun _ he => he⟩
  refine h.reservations.same rfl (fun _ => rfl) rfl ?_ (fun _ hmem => hmem) fun _ _ _ hmem => hmem
  intro k rid' hrid'
  rw [VramReservationManager.release, VramReservationManager.popReservation_get?, if_neg]
  rintro rfl
  exact (h.reservations.issued k rid hrid').2 hrid

/-- What every orderly move of every coroutine keeps. -/
theorem Holdings.move {event : ArbiterEvent}
    (hplaced : Placed s) (horderly : ReservationOrderly p s event) (hmove : Move p s event s') :
    Holdings none s' := by
  have hkept : ∀ {k j j'}, s.jobs.get? k = some j → Job.Keeps j j' →
      Holdings none { s with jobs := s.jobs.set k j' } := by
    intro k j j' hget hkeeps
    exact h.follow (.of_tables rfl rfl rfl rfl rfl (Or.inr rfl)) hget j' hkeeps rfl fun _ he => he
  have hchecked : ∀ {k j}, s.jobs.get? k = some j → j.run ≠ .absent →
      ∀ phase, j.submitter ≠ .checking phase := by
    intro k j hget hrun phase hphase
    exact hrun (hplaced.checking k j phase hget hphase).1
  have hrest : ∀ {cluster paused}, Holdings none { s with cluster := cluster, paused := paused } :=
    h.same (.of_tables rfl rfl rfl rfl rfl (Or.inr rfl)) rfl fun _ he => he
  cases hmove with
  | submit hfresh _ => exact h.submit hplaced hfresh horderly
  | availableRead hcheck _ => exact h.availableRead hplaced hcheck horderly
  | @acquire who k request effectiveFree now hcheck _ =>
    have hlocked : Holdings none { s.sweep now with lock := some (.checker who) } :=
      (h.sweep horderly).setLock (by simp)
    exact hlocked.setPhase (checking_locked hcheck now) _
  | reserved hcheck hrid _ => exact h.reserved hplaced hcheck hrid horderly
  | cancelChecking hget _ hlock =>
    exact h.follow (.of_tables rfl rfl rfl rfl rfl hlock) hget _
      (Job.Keeps.setSubmitter _ (by simp)) rfl fun _ he => he
  | @cancelWaiting k j c hget _ =>
    exact hkept hget ((Job.Keeps.resolveFuture j .cancelled).trans
      (Job.Keeps.setSubmitter _ (by simp)))
  | @wakeCancelled k j c how hget _ _ _ =>
    have hended : j.Keeps { j with submitter := .ended .cancelled } :=
      Job.Keeps.setSubmitter j (by simp)
    exact h.follow (.of_tables rfl rfl rfl rfl rfl (Or.inr rfl)) hget _ hended rfl fun _ he => he
  | wakeAnswered hget _ _ _ => exact hkept hget (Job.Keeps.setSubmitter _ (by simp))
  | @runStarts k j leaseId now hget hrun _ =>
    exact h.startRun (Resumes.of_get? hget (Or.inr (by rw [hrun]; rfl))) (horderly j hget)
      (hplaced.free_of_spawned hget hrun).queued (hchecked hget (by simp [hrun]))
  | @payloadEnds k j how hget hrun =>
    have habsent : j.run ≠ .absent := by simp [hrun]
    exact h.finishRun (Resumes.of_get? hget (Or.inr (by rw [hrun]; rfl))) (horderly j hget hrun)
      (hplaced.not_present hget habsent) (hchecked hget habsent) how
  | @payloadStops k j how leaseId hget hrun =>
    have hactive : (RunState.stopping leaseId how).active = j.run.active := by
      rw [hrun]
      rfl
    exact hkept hget ⟨rfl, hactive, rfl, fun phase hphase => ⟨phase, hphase⟩⟩
  | @renewalStops k j how leaseId hget hrun =>
    have habsent : j.run ≠ .absent := by simp [hrun]
    exact h.finishRun (Resumes.of_get? hget (Or.inr (by rw [hrun]; rfl))) (horderly j hget)
      (hplaced.not_present hget habsent) (hchecked hget habsent) how
  | renewed | pause | resume | clusterChanges => exact hrest
  | @leaseLost k j leaseId now c hget hrun _ =>
    have hrenewed : Holdings none { s with cluster := some c } := hrest
    exact hrenewed.resolveFuture _ _
  | @propagate k j j' how hget hrun hnext =>
    rcases hnext with rfl | rfl
    · exact hkept hget (Job.Keeps.setPropagated j')
    · exact hkept hget ((Job.Keeps.resolveFuture j how).trans (Job.Keeps.setPropagated _))
  | @cancelQueued evictor taskId bySelf entry hentry =>
    have hempty : s.pendingReservations.get? taskId = none :=
      horderly (Or.inl (by rw [hentry]; rfl))
    obtain ⟨hmanager, hreleases, htable⟩ := releaseReservation_none hempty
    have hreleased : Holdings none ({ s with
        queuedEntries := s.queuedEntries.pop taskId
        cancelledIds := insert taskId s.cancelledIds }.releaseReservation taskId) := by
      refine h.same ?_ rfl fun _ he => he
      exact ⟨htable, hreleases, hmanager, rfl, rfl, fun _ _ hlock => hlock⟩
    exact hreleased.resolveFuture _ _
  | cancelOp _ => exact h.evictTask _ fun hself => horderly (Or.inr hself)
  | evict _ => exact h.evictTask _ horderly
  | @evicted evictor eviction hget _ =>
    exact h.finishEvict eviction (horderly eviction hget) s.running (s.evictions.pop evictor)
      s.drain fun _ he => he
  | drainBegins hdrain =>
    refine h.moveDrain ?_
    simp only [present, hdrain, Drain.held]
    exact fun _ he => he
  | drainStep hmove => exact h.drainMove hmove
  | @drainEvicted entry retry eviction hdrain _ =>
    have hempty := horderly eviction (by rw [drainEviction, hdrain]; rfl)
    refine h.finishEvict eviction hempty s.running s.evictions
      (.checking entry retry true .available) ?_
    simp only [present, hdrain, Drain.held]
    exact fun _ he => he
  | @drainRaises entry retry evicted phase lock hdrain hlock =>
    have hidle : Holdings none { s with drain := .idle } := by
      refine h.moveDrain ?_
      simp only [present, hdrain, Drain.held, List.append_nil]
      exact fun _ he => List.mem_append_left _ he
    refine hidle.setLock ?_
    intro vramMb caller heq
    rcases hlock with rfl | rfl
    · contradiction
    · exact h.ledger.lock vramMb caller heq
  | sweepStale => exact h.sweep horderly
  | outsideAcquire hpos =>
    refine (h.sweep horderly).setLock ?_
    intro vramMb caller heq
    cases heq
    exact hpos
  | outsideRefused => exact h.issue _
  | outsideGranted hlock hrid hgranted => exact h.grantOutside hlock hrid hgranted
  | outsideAborted => exact h.setLock (by simp)
  | outsideRelease hrid => exact h.releaseOutside hrid

end

end ArbiterState

end TinyAgentOS.Gpu
