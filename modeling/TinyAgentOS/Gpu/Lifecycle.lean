import TinyAgentOS.Gpu.Moves

/-!
# Where a submission is

A submission checks, waits in the queue or with a drain pass, runs, or is over.
The tables of the arbiter name submissions by their task ids only; here each of
their entries is traced back to the one submission it stands for, in every run.

Main results:

- `Placed.step`: every table entry keeps pointing at its submission.
-/

namespace TinyAgentOS.Gpu

open Cluster Collections Vram

/-! ## The invariant -/

namespace RunState

/-- Registered in `_running`, unless an evictor has taken the entry. -/
def registered : RunState → Bool
  | payload _ => true
  | stopping _ _ => true
  | _ => false

/-- Registered now or before. -/
def begun : RunState → Bool
  | payload _ => true
  | stopping _ _ => true
  | ended _ => true
  | _ => false

/-- A registered run has begun. -/
theorem begun_of_registered {run : RunState} (h : run.registered = true) : run.begun = true := by
  cases run <;> first | rfl | contradiction

end RunState

namespace Job

/-- Not started, and in need of VRAM. -/
def Unstarted (j : Job) : Prop := j.run = .absent ∧ 0 < j.request.requiredVramMb

/-- The submitter waits for its future, or has been cancelled there. -/
def Waits (j : Job) : Prop := (∃ c, j.submitter = .waiting c) ∨ ∃ how, j.submitter = .ended how

/-- The run and the lease agree. -/
def LeaseOk (j : Job) : Prop :=
  match j.run with
  | .absent => j.lease = none
  | .spawned => j.lease = none
  | .payload lease => j.lease = lease
  | .stopping lease _ => j.lease = some lease
  | .ended _ => True

/-- What may happen to a submission while the tables that name it stay. -/
structure Follows (j j' : Job) : Prop where
  request : j'.request = j.request
  unstarted : j.Unstarted → j'.Unstarted
  waits : j.Unstarted → j.Waits → j'.Waits
  checking : ∀ phase, j'.submitter = .checking phase → ∃ before, j.submitter = .checking before
  leaseOk : j.LeaseOk → j'.LeaseOk
  lease : j'.lease = j.lease
  registered : j.run.registered = true → j'.run.registered = true
  begun : j.run.begun = true → j'.run.begun = true

/-- Only the submitter, the future, the history or the callback flag changes. -/
theorem Follows.of_run {j j' : Job} (hrequest : j'.request = j.request) (hrun : j'.run = j.run)
    (hlease : j'.lease = j.lease) (hwaits : j.Waits → j'.Waits)
    (hchecking : ∀ phase, j'.submitter = .checking phase →
      ∃ before, j.submitter = .checking before) : Follows j j' where
  request := hrequest
  unstarted := by
    unfold Unstarted
    rw [hrequest, hrun]
    exact id
  waits := fun _ => hwaits
  checking := hchecking
  leaseOk := by
    unfold LeaseOk
    rw [hrun, hlease]
    exact id
  lease := hlease
  registered := by
    rw [hrun]
    exact id
  begun := by
    rw [hrun]
    exact id

section

variable (j : Job) (how : Outcome)
include j how

@[simp]
theorem resolveFuture_request : (j.resolveFuture how).request = j.request := by
  unfold resolveFuture
  split <;> rfl

@[simp]
theorem resolveFuture_submitter : (j.resolveFuture how).submitter = j.submitter := by
  unfold resolveFuture
  split <;> rfl

@[simp]
theorem resolveFuture_run : (j.resolveFuture how).run = j.run := by
  unfold resolveFuture
  split <;> rfl

@[simp]
theorem resolveFuture_lease : (j.resolveFuture how).lease = j.lease := by
  unfold resolveFuture
  split <;> rfl

@[simp]
theorem resolveFuture_reservation : (j.resolveFuture how).reservation = j.reservation := by
  unfold resolveFuture
  split <;> rfl

/-- A future is resolved once. -/
theorem resolveFuture_future :
    (j.resolveFuture how).future = if j.future = .pending then .resolved how else j.future := by
  unfold resolveFuture
  split <;> rfl

/-- The future may be resolved. -/
theorem Follows.resolveFuture : Follows j (j.resolveFuture how) :=
  .of_run (by simp) (by simp) (by simp) (by simp [Waits]) fun phase h =>
    ⟨phase, by simpa using h⟩

end

/-- The submitter waits on, or ends. -/
theorem Follows.setSubmitter (j : Job) {next : Submitter}
    (hnext : (∃ c, next = .waiting c) ∨ ∃ how, next = .ended how) :
    Follows j { j with submitter := next } := by
  refine .of_run rfl rfl rfl (fun _ => hnext) ?_
  intro phase hphase
  rcases hnext with ⟨c, hc⟩ | ⟨how, hhow⟩
  · simp [hc] at hphase
  · simp [hhow] at hphase

/-- The reservation may be noted. -/
theorem Follows.setReservation (j : Job) (rid : Option ReservationId) :
    Follows j { j with reservation := rid } :=
  .of_run rfl rfl rfl id fun phase hphase => ⟨phase, hphase⟩

/-- The site may be noted. -/
theorem Follows.setSite (j : Job) (site : Option String) : Follows j { j with site := site } :=
  .of_run rfl rfl rfl id fun phase hphase => ⟨phase, hphase⟩

/-- The result may be passed on. -/
theorem Follows.setPropagated (j : Job) : Follows j { j with propagated := true } :=
  .of_run rfl rfl rfl id fun phase hphase => ⟨phase, hphase⟩

/-- What may happen may happen one after the other. -/
theorem Follows.trans {j j' j'' : Job} (h : Follows j j') (h' : Follows j' j'') :
    Follows j j'' where
  request := h'.request.trans h.request
  unstarted := fun hj => h'.unstarted (h.unstarted hj)
  waits := fun hj hwaits => h'.waits (h.unstarted hj) (h.waits hj hwaits)
  checking := by
    intro phase hphase
    obtain ⟨before, hbefore⟩ := h'.checking phase hphase
    exact h.checking before hbefore
  leaseOk := fun hj => h'.leaseOk (h.leaseOk hj)
  lease := h'.lease.trans h.lease
  registered := fun hj => h'.registered (h.registered hj)
  begun := fun hj => h'.begun (h.begun hj)

end Job

namespace ArbiterState

/-- The entries in the queue or with a drain pass. -/
def present (s : ArbiterState) : List QueuedGpuTask := s.queue ++ s.drain.held

/-- An eviction awaits its victim. -/
def Evicting (s : ArbiterState) (eviction : Eviction) : Prop :=
  (∃ evictor, s.evictions.get? evictor = some eviction) ∨
    ∃ entry retry, s.drain = .evicting entry retry eviction

/-- Every table entry stands for one submission, which is where the table says. -/
structure Placed (s : ArbiterState) : Prop where
  nodup : ((present s).map QueuedGpuTask.job).Nodup
  queued : ∀ e ∈ present s, ∃ j, s.jobs.get? e.job = some j ∧ j.request = e.request ∧
    j.Unstarted ∧ j.Waits
  checking : ∀ k j phase, s.jobs.get? k = some j → j.submitter = .checking phase → j.Unstarted
  leases : ∀ k j, s.jobs.get? k = some j → j.LeaseOk
  running : ∀ taskId r, s.running.get? taskId = some r → ∃ j, s.jobs.get? r.job = some j ∧
    j.run.registered = true ∧ j.request.taskId = taskId ∧ r.lease = j.lease
  evictions : ∀ ev, Evicting s ev → ∃ j, s.jobs.get? ev.job = some j ∧
    j.run.begun = true ∧ j.request.taskId = ev.taskId ∧ ev.lease = j.lease

/-- At first no table has an entry. -/
theorem placed_init (ttlSeconds : Vram.Clock) (cluster : Option ClusterManager) :
    Placed (init ttlSeconds cluster) where
  nodup := List.nodup_nil
  queued := by simp [init, present, Drain.held]
  checking := by simp [init]
  leases := by simp [init]
  running := by simp [init]
  evictions := by simp [init, Evicting]

/-- Neither the queue nor the drain pass nor the tables of running tasks move. -/
structure SameTables (s s' : ArbiterState) : Prop where
  queue : s'.queue = s.queue
  drain : s'.drain = s.drain
  running : s'.running = s.running
  evictions : s'.evictions = s.evictions

variable {s s' : ArbiterState} {j' j : Job} {k : SubId} {phase : CheckPhase} {p : ArbiterParams}
  {who : Checker} {request : Request}

/-- The same tables have the same entries queued. -/
theorem SameTables.present (h : SameTables s s') : present s' = present s := by
  rw [ArbiterState.present, ArbiterState.present, h.queue, h.drain]

/-- The same tables have the same evictions. -/
theorem SameTables.evicting (h : SameTables s s') {ev : Eviction} :
    Evicting s' ev ↔ Evicting s ev := by
  rw [Evicting, Evicting, h.drain, h.evictions]

/-- Only the tables and the submissions count. -/
theorem Placed.same (h : Placed s) (htables : SameTables s s')
    (hjobs : s'.jobs = s.jobs) : Placed s' where
  nodup := htables.present ▸ h.nodup
  queued := by rw [htables.present, hjobs]; exact h.queued
  checking := by rw [hjobs]; exact h.checking
  leases := by rw [hjobs]; exact h.leases
  running := by rw [htables.running, hjobs]; exact h.running
  evictions := by
    intro ev hev
    rw [hjobs]
    exact h.evictions ev (htables.evicting.mp hev)

/-- One submission changes, in a way that every table which names it can take. -/
theorem Placed.replace (h : Placed s) (htables : SameTables s s')
    (hjobs : s'.jobs = s.jobs.set k j')
    (hqueued : ∀ e ∈ present s, e.job = k → j'.request = e.request ∧ j'.Unstarted ∧ j'.Waits)
    (hchecking : ∀ phase, j'.submitter = .checking phase → j'.Unstarted) (hlease : j'.LeaseOk)
    (hrunning : ∀ taskId r, s.running.get? taskId = some r → r.job = k →
      j'.run.registered = true ∧ j'.request.taskId = taskId ∧ r.lease = j'.lease)
    (hevicting : ∀ ev, Evicting s ev → ev.job = k →
      j'.run.begun = true ∧ j'.request.taskId = ev.taskId ∧ ev.lease = j'.lease) : Placed s' := by
  have hother : ∀ k', k' ≠ k → s'.jobs.get? k' = s.jobs.get? k' := by
    intro k' hne
    rw [hjobs, Dict.get?_set_of_ne _ _ (Ne.symm hne)]
  have hself : s'.jobs.get? k = some j' := by
    rw [hjobs, Dict.get?_set_self]
  refine
    { nodup := htables.present ▸ h.nodup
      queued := ?_
      checking := ?_
      leases := ?_
      running := ?_
      evictions := ?_ }
  · intro e he
    rw [htables.present] at he
    by_cases heq : e.job = k
    · exact ⟨j', heq ▸ hself, hqueued e he heq⟩
    · obtain ⟨i, hi, hrest⟩ := h.queued e he
      exact ⟨i, (hother _ heq).trans hi, hrest⟩
  · intro k' i phase hi hphase
    by_cases heq : k' = k
    · subst heq
      cases hself.symm.trans hi
      exact hchecking phase hphase
    · exact h.checking k' i phase ((hother _ heq).symm.trans hi) hphase
  · intro k' i hi
    by_cases heq : k' = k
    · subst heq
      cases hself.symm.trans hi
      exact hlease
    · exact h.leases k' i ((hother _ heq).symm.trans hi)
  · intro taskId r hr
    rw [htables.running] at hr
    by_cases heq : r.job = k
    · exact ⟨j', heq ▸ hself, hrunning taskId r hr heq⟩
    · obtain ⟨i, hi, hrest⟩ := h.running taskId r hr
      exact ⟨i, (hother _ heq).trans hi, hrest⟩
  · intro ev hev
    have hold := htables.evicting.mp hev
    by_cases heq : ev.job = k
    · exact ⟨j', heq ▸ hself, hevicting ev hold heq⟩
    · obtain ⟨i, hi, hrest⟩ := h.evictions ev hold
      exact ⟨i, (hother _ heq).trans hi, hrest⟩

/-- One submission goes on where it is. -/
theorem Placed.follow (h : Placed s) (htables : SameTables s s') (hget : s.jobs.get? k = some j)
    (hfollows : j.Follows j') (hjobs : s'.jobs = s.jobs.set k j') : Placed s' := by
  refine h.replace htables hjobs ?_ ?_ (hfollows.leaseOk (h.leases k j hget)) ?_ ?_
  · intro e he heq
    obtain ⟨i, hi, hrequest, hunstarted, hwaits⟩ := h.queued e he
    cases hget.symm.trans (heq ▸ hi)
    exact ⟨hfollows.request.trans hrequest, hfollows.unstarted hunstarted,
      hfollows.waits hunstarted hwaits⟩
  · intro phase hphase
    obtain ⟨before, hbefore⟩ := hfollows.checking phase hphase
    exact hfollows.unstarted (h.checking k j before hget hbefore)
  · intro taskId r hr heq
    obtain ⟨i, hi, hrun, htask, hlease⟩ := h.running taskId r hr
    cases hget.symm.trans (heq ▸ hi)
    exact ⟨hfollows.registered hrun, by rw [hfollows.request]; exact htask,
      hlease.trans hfollows.lease.symm⟩
  · intro ev hev heq
    obtain ⟨i, hi, hrun, htask, hlease⟩ := h.evictions ev hev
    cases hget.symm.trans (heq ▸ hi)
    exact ⟨hfollows.begun hrun, by rw [hfollows.request]; exact htask,
      hlease.trans hfollows.lease.symm⟩

/-- No table names the submission. -/
structure Free (s : ArbiterState) (k : SubId) : Prop where
  queued : ∀ e ∈ present s, e.job ≠ k
  running : ∀ taskId r, s.running.get? taskId = some r → r.job ≠ k
  evicting : ∀ ev, Evicting s ev → ev.job ≠ k

section

variable (h : Placed s)
include h

/-- No table names a submission that has not arrived. -/
theorem Placed.free_of_none (hget : s.jobs.get? k = none) : Free s k where
  queued := by
    intro e he heq
    obtain ⟨i, hi, _⟩ := h.queued e he
    rw [heq, hget] at hi
    contradiction
  running := by
    intro taskId r hr heq
    obtain ⟨i, hi, _⟩ := h.running taskId r hr
    rw [heq, hget] at hi
    contradiction
  evicting := by
    intro ev hev heq
    obtain ⟨i, hi, _⟩ := h.evictions ev hev
    rw [heq, hget] at hi
    contradiction

/-- A submission that has not begun and does not wait in the queue. -/
theorem Placed.free_of_not_begun (hget : s.jobs.get? k = some j) (hbegun : j.run.begun = false)
    (hqueued : ¬(j.Unstarted ∧ j.Waits)) : Free s k where
  queued := by
    intro e he heq
    obtain ⟨i, hi, _, hrest⟩ := h.queued e he
    cases hget.symm.trans (heq ▸ hi)
    exact hqueued hrest
  running := by
    intro taskId r hr heq
    obtain ⟨i, hi, hrun, _⟩ := h.running taskId r hr
    cases hget.symm.trans (heq ▸ hi)
    simp [RunState.begun_of_registered hrun] at hbegun
  evicting := by
    intro ev hev heq
    obtain ⟨i, hi, hrun, _⟩ := h.evictions ev hev
    cases hget.symm.trans (heq ▸ hi)
    simp [hrun] at hbegun

/-- What has started is not present. -/
theorem Placed.not_present
    (hget : s.jobs.get? k = some j) (hrun : j.run ≠ .absent) : ∀ e ∈ present s, e.job ≠ k := by
  intro e he heq
  obtain ⟨i, hi, _, hunstarted, _⟩ := h.queued e he
  cases hget.symm.trans (heq ▸ hi)
  exact hrun hunstarted.1

/-- No table names a submission that is being checked. -/
theorem Placed.free_of_checking (hget : s.jobs.get? k = some j)
    (hchecking : j.submitter = .checking phase) : Free s k := by
  have hrun := (h.checking k j phase hget hchecking).1
  refine h.free_of_not_begun hget (by simp [hrun, RunState.begun]) ?_
  simp [Job.Waits, hchecking]

/-- No table names a submission whose run is spawned. -/
theorem Placed.free_of_spawned
    (hget : s.jobs.get? k = some j) (hrun : j.run = .spawned) : Free s k := by
  refine h.free_of_not_begun hget (by simp [hrun, RunState.begun]) ?_
  simp [Job.Unstarted, hrun]

/-- Nothing names the submission yet. -/
theorem Placed.arrive (htables : SameTables s s') (hfree : Free s k)
    (hjobs : s'.jobs = s.jobs.set k j')
    (hchecking : ∀ phase, j'.submitter = .checking phase → j'.Unstarted) (hlease : j'.LeaseOk) :
    Placed s' :=
  h.replace htables hjobs (fun e he heq => absurd heq (hfree.queued e he)) hchecking hlease
    (fun taskId r hr heq => absurd heq (hfree.running taskId r hr))
    fun ev hev heq => absurd heq (hfree.evicting ev hev)

/-! ### Runs -/

/-- A free submission is registered as running. -/
theorem Placed.register (hfree : Free s k) (hsubmitter : ∀ phase, j.submitter ≠ .checking phase)
    (lease : Option LeaseId) : Placed (s.register k j lease) := by
  have hjob : Placed
      { s with jobs := s.jobs.set k { j with run := .payload lease, lease := lease } } :=
    h.arrive ⟨rfl, rfl, rfl, rfl⟩ hfree rfl
      (fun phase hphase => absurd hphase (hsubmitter phase)) rfl
  refine { hjob with running := ?_ }
  intro taskId r hr
  rcases Dict.get?_set_cases hr with ⟨heq, rfl⟩ | ⟨_, hr⟩
  · exact ⟨_, Dict.get?_set_self _ _ _, rfl, heq, rfl⟩
  · exact hjob.running taskId r hr

/-- A run that no entry names is finished. -/
theorem Placed.finishRun
    (hqueued : ∀ e ∈ present s, e.job ≠ k) (hsubmitter : ∀ phase, j.submitter ≠ .checking phase)
    (hsame : ∀ i, s.jobs.get? k = some i → j.request = i.request ∧ j.lease = i.lease)
    (how : Outcome) : Placed (s.finishRun k j how) := by
  -- First the entry leaves the table of running tasks, then the submission ends.
  have hpop : Placed { s with running := s.running.pop j.request.taskId } := by
    refine { h with running := ?_ }
    intro taskId r hr
    rw [Dict.get?_pop] at hr
    split at hr
    · contradiction
    · exact h.running taskId r hr
  have hfinish : ∀ phase, (j.finish how).submitter ≠ .checking phase := by
    intro phase
    unfold Job.finish
    split
    · simp
    · exact hsubmitter phase
  refine hpop.replace ⟨rfl, rfl, rfl, rfl⟩ rfl (fun e he heq => absurd heq (hqueued e he))
    (fun phase hphase => absurd hphase (hfinish phase)) trivial ?_ ?_
  · intro taskId r hr heq
    simp only [Dict.get?_pop] at hr
    split at hr
    · contradiction
    rename_i hne
    obtain ⟨i, hi, _, htask, _⟩ := h.running taskId r hr
    rw [heq] at hi
    rw [(hsame i hi).1] at hne
    exact absurd htask hne
  · intro ev hev heq
    obtain ⟨i, hi, _, htask, hlease⟩ := h.evictions ev hev
    rw [heq] at hi
    refine ⟨rfl, ?_, ?_⟩
    · simpa [Job.finish, (hsame i hi).1] using htask
    · exact hlease.trans (hsame i hi).2.symm

/-- A free submission is started. -/
theorem Placed.startRun (hfree : Free s k) (hsubmitter : ∀ phase, j.submitter ≠ .checking phase)
    (hsame : ∀ i, s.jobs.get? k = some i → j.request = i.request ∧ j.lease = i.lease)
    (leaseId : LeaseId) (now : Cluster.Instant) : Placed (s.startRun k j leaseId now) := by
  rcases startRun_cases s k j leaseId now with ⟨_, heq⟩ | ⟨_, c, _, heq⟩ | ⟨_, how, heq⟩
  · rw [heq]
    exact h.register hfree hsubmitter none
  · rw [heq]
    have hclaimed : Placed { s with cluster := some c, leaseIds := leaseId :: s.leaseIds } :=
      h.same ⟨rfl, rfl, rfl, rfl⟩ rfl
    exact hclaimed.register ⟨hfree.queued, hfree.running, hfree.evicting⟩ hsubmitter _
  · rw [heq]
    exact h.finishRun hfree.queued hsubmitter hsame how

/-- A registered run is finished. -/
theorem Placed.finishRegistered
    (hget : s.jobs.get? k = some j) (hrun : j.run.registered = true) (how : Outcome) :
    Placed (s.finishRun k j how) := by
  have habsent : j.run ≠ .absent := by
    intro heq
    simp [heq, RunState.registered] at hrun
  refine h.finishRun ?_ ?_ ?_ how
  · intro e he heq
    obtain ⟨i, hi, _, hunstarted, _⟩ := h.queued e he
    cases hget.symm.trans (heq ▸ hi)
    exact habsent hunstarted.1
  · intro phase hphase
    exact habsent (h.checking k j phase hget hphase).1
  · intro i hi
    cases hget.symm.trans hi
    exact ⟨rfl, rfl⟩

/-! ### Evictions and futures -/

/-- A future is resolved. -/
theorem Placed.resolveFuture (k : SubId) (how : Outcome) : Placed (s.resolveFuture k how) := by
  cases hget : s.jobs.get? k with
  | none =>
    have hsame : (s.resolveFuture k how).jobs = s.jobs := by
      simp [ArbiterState.resolveFuture, Dict.modify, hget]
    exact h.same ⟨rfl, rfl, rfl, rfl⟩ hsame
  | some j =>
    exact h.follow ⟨rfl, rfl, rfl, rfl⟩ hget (Job.Follows.resolveFuture j how)
      (Dict.modify_of_get? hget _)

/-- An eviction is finished. -/
theorem Placed.finishEvict (ev : Eviction) : Placed (s.finishEvict ev) := by
  have hreleased : Placed ((s.releaseReservation ev.taskId).releaseLease ev.lease) :=
    h.same ⟨rfl, rfl, rfl, rfl⟩ rfl
  exact hreleased.resolveFuture ev.job .cancelled

/-- Entries leave the tables; a new eviction takes its victim from the running tasks. -/
theorem Placed.shrink (hjobs : s'.jobs = s.jobs) (hpresent : (present s').Subperm (present s))
    (hrunning : ∀ taskId r, s'.running.get? taskId = some r → s.running.get? taskId = some r)
    (hevicting : ∀ ev, Evicting s' ev → Evicting s ev ∨
      ∃ r, s.running.get? ev.taskId = some r ∧ ev.job = r.job ∧ ev.lease = r.lease) :
    Placed s' where
  nodup := by
    rcases hpresent with ⟨l, hperm, hsub⟩
    exact (hperm.map _).nodup_iff.mp (h.nodup.sublist (hsub.map _))
  queued := by
    intro e he
    rw [hjobs]
    exact h.queued e (hpresent.subset he)
  checking := by rw [hjobs]; exact h.checking
  leases := by rw [hjobs]; exact h.leases
  running := by
    intro taskId r hr
    rw [hjobs]
    exact h.running taskId r (hrunning taskId r hr)
  evictions := by
    intro ev hev
    rw [hjobs]
    rcases hevicting ev hev with hold | ⟨r, hr, hjob, hlease⟩
    · exact h.evictions ev hold
    · obtain ⟨j, hget, hrun, htask, hsame⟩ := h.running ev.taskId r hr
      exact ⟨j, hjob ▸ hget, RunState.begun_of_registered hrun, htask, hlease.trans hsame⟩

end

/-- What is left was there. -/
theorem get?_of_pop {κ ν : Type} [DecidableEq κ] {d : Dict κ ν} {k k' : κ} {v : ν}
    (h : (d.pop k).get? k' = some v) : d.get? k' = some v := by
  rw [Dict.get?_pop] at h
  split at h
  · contradiction
  · exact h

/-- A task is evicted, or is to be. -/
theorem Placed.evictTask (h : Placed s) (evictor : Nat) (taskId : TaskId)
    (bySelf : Bool) : Placed (s.evictTask evictor taskId bySelf) := by
  unfold ArbiterState.evictTask
  split
  · exact h
  · rename_i r hr
    simp only
    split
    · have hpop : Placed { s with running := s.running.pop taskId } :=
        h.shrink rfl (List.Subperm.refl _) (fun _ _ hget => get?_of_pop hget) fun _ hev => .inl hev
      exact hpop.finishEvict _
    · refine h.shrink rfl (List.Subperm.refl _) (fun _ _ hget => get?_of_pop hget) ?_
      intro ev hev
      rcases hev with ⟨i, hi⟩ | hdrain
      · rcases Dict.get?_set_cases hi with ⟨_, rfl⟩ | ⟨_, hi⟩
        · exact .inr ⟨r, hr, rfl, rfl⟩
        · exact .inl (.inl ⟨i, hi⟩)
      · exact .inl (.inr hdrain)

/-- An eviction of a submission is over. -/
theorem Placed.evicted (h : Placed s) (evictor : Nat) (ev : Eviction) :
    Placed ({ s with evictions := s.evictions.pop evictor }.finishEvict ev) := by
  have hpop : Placed { s with evictions := s.evictions.pop evictor } := by
    refine h.shrink rfl (List.Subperm.refl _) (fun _ _ hget => hget) ?_
    intro ev hev
    rcases hev with ⟨i, hi⟩ | hdrain
    · exact .inl (.inl ⟨i, get?_of_pop hi⟩)
    · exact .inl (.inr hdrain)
  exact hpop.finishEvict ev

/-! ### The queue and the drain pass -/

/-- Queueing an entry keeps the others. -/
theorem putEntry_perm (e : QueuedGpuTask) (queue : List QueuedGpuTask) :
    (putEntry e queue).Perm (e :: queue) := by
  induction queue with
  | nil => exact List.Perm.refl _
  | cons f fs ih =>
    simp only [putEntry]
    split
    · exact List.Perm.refl _
    · exact (ih.cons f).trans (List.Perm.swap e f fs)

/-- A drain pass moves on, without a victim. -/
theorem Placed.drainMoves (h : Placed s) (hjobs : s'.jobs = s.jobs)
    (hpresent : (present s').Subperm (present s)) (hrunning : s'.running = s.running)
    (hevictions : s'.evictions = s.evictions)
    (hdrain : ∀ entry retry ev, s'.drain ≠ .evicting entry retry ev) : Placed s' := by
  refine h.shrink hjobs hpresent (by rw [hrunning]; exact fun _ _ hget => hget) ?_
  intro ev hev
  rcases hev with ⟨i, hi⟩ | ⟨entry, retry, heq⟩
  · exact .inl (.inl ⟨i, hevictions ▸ hi⟩)
  · exact absurd heq (hdrain entry retry ev)

/-- The drain pass goes on. -/
theorem Placed.drainMove (h : Placed s) (hmove : DrainMove p s s') : Placed s' := by
  cases hmove with
  | drained hdrain hqueue | finished hdrain =>
    refine h.drainMoves rfl ?_ rfl rfl (by simp)
    simp only [present, hdrain, Drain.held]
    exact List.Subperm.refl _
  | skip hdrain hqueue hcancelled =>
    refine h.drainMoves rfl ?_ rfl rfl (by simp [hdrain])
    simp only [present, hqueue, List.cons_append]
    exact (List.sublist_cons_self _ _).subperm
  | dequeue hdrain hqueue hcancelled =>
    refine h.drainMoves rfl ?_ rfl rfl (by simp)
    simp only [present, hdrain, hqueue, Drain.held]
    exact List.perm_middle.subperm
  | requeueSkip hdrain hcancelled =>
    refine h.drainMoves rfl ?_ rfl rfl (by simp)
    simp only [present, hdrain, Drain.held]
    exact ((List.sublist_cons_self _ _).append_left _).subperm
  | @requeueDrop entry rest hdrain hcancelled hfull =>
    have hdropped : Placed { s with drain := .requeue rest } := by
      refine h.drainMoves rfl ?_ rfl rfl (by simp)
      simp only [present, hdrain, Drain.held]
      exact ((List.sublist_cons_self _ _).append_left _).subperm
    exact hdropped.resolveFuture _ _
  | @requeuePut entry rest hdrain hcancelled hfull =>
    refine h.drainMoves rfl ?_ rfl rfl (by simp)
    simp only [present, hdrain, Drain.held]
    exact (((putEntry_perm entry s.queue).append_right rest).trans
      List.perm_middle.symm).subperm

variable {retry : List QueuedGpuTask} {entry : QueuedGpuTask} {evicted : Bool} {e : ArbiterEvent}

section

variable (h : Placed s)
include h

/-- The drain pass spawns the entry that it holds. -/
theorem Placed.spawn
    (hdrain : s.drain = .checking entry retry evicted phase) : Placed (s.spawn entry retry) := by
  have hentry : entry ∈ present s := by simp [present, hdrain, Drain.held]
  obtain ⟨j, hget, hrequest, hunstarted, hwaits⟩ := h.queued entry hentry
  have hleft : Placed { s with drain := .requeue retry } := by
    refine h.drainMoves rfl ?_ rfl rfl (by simp)
    simp only [present, hdrain, Drain.held]
    exact ((List.sublist_cons_self _ _).append_left _).subperm
  have hfree : Free { s with drain := .requeue retry } entry.job := by
    have hnodup : (entry.job :: (s.queue ++ retry).map QueuedGpuTask.job).Nodup := by
      have hperm : (present s).Perm (entry :: (s.queue ++ retry)) := by
        simp only [present, hdrain, Drain.held]
        exact List.perm_middle
      exact (hperm.map _).nodup_iff.mp h.nodup
    have hbegun : j.run.begun = false := by simp [hunstarted.1, RunState.begun]
    refine ⟨?_, ?_, ?_⟩
    · intro e he heq
      exact (List.nodup_cons.mp hnodup).1 (heq ▸ List.mem_map_of_mem he)
    · intro taskId r hr heq
      obtain ⟨i, hi, hrun, _⟩ := hleft.running taskId r hr
      cases hget.symm.trans (heq ▸ hi)
      simp [RunState.begun_of_registered hrun] at hbegun
    · intro ev hev heq
      obtain ⟨i, hi, hrun, _⟩ := hleft.evictions ev hev
      cases hget.symm.trans (heq ▸ hi)
      simp [hrun] at hbegun
  have hlease : j.lease = none := by
    have hok := h.leases entry.job j hget
    rwa [Job.LeaseOk, hunstarted.1] at hok
  refine hleft.arrive ⟨rfl, rfl, rfl, rfl⟩ hfree (Dict.modify_of_get? hget _) ?_ hlease
  intro phase hphase
  rcases hwaits with ⟨c, hc⟩ | ⟨how, hhow⟩
  · simp [hc] at hphase
  · simp [hhow] at hphase

/-- The check of the drain pass is answered. -/
theorem Placed.drainChecked
    (hdrain : s.drain = .checking entry retry evicted phase) (admission : GpuAdmission) :
    Placed (s.drainChecked p admission) := by
  rcases drainChecked_cases hdrain admission with
    ⟨_, _, heq⟩ | ⟨_, _, heq⟩ | ⟨_, taskId, r, hr, heq⟩ | ⟨_, _, heq⟩
  · rw [heq]
    refine h.drainMoves rfl ?_ rfl rfl (by simp [releaseReservation])
    simp only [present, hdrain, Drain.held, releaseReservation]
    exact ((List.sublist_cons_self _ _).append_left _).subperm
  · rw [heq]
    exact h.spawn hdrain
  · rw [heq]
    refine h.shrink rfl ?_ (fun _ _ hget => get?_of_pop hget) ?_
    · simp only [present, hdrain, Drain.held]
      exact List.Subperm.refl _
    · intro ev hev
      rcases hev with hold | ⟨entry', retry', heq'⟩
      · exact .inl (.inl hold)
      · cases heq'
        exact .inr ⟨r, hr, rfl, rfl⟩
  · rw [heq]
    refine h.drainMoves rfl ?_ rfl rfl (by simp [releaseReservation])
    simp only [present, hdrain, Drain.held, releaseReservation]
    exact ((List.perm_append_singleton entry retry).append_left _).subperm

/-- A checked submission is queued. -/
theorem Placed.enqueue (hget : s.jobs.get? k = some j)
    (hchecking : j.submitter = .checking phase) : Placed (s.enqueue p k j) := by
  have hfree := h.free_of_checking hget hchecking
  have hunstarted := h.checking k j phase hget hchecking
  have hlease : j.LeaseOk := h.leases k j hget
  rcases enqueue_cases p s k j with ⟨_, error, heq⟩ | ⟨_, heq⟩
  · rw [heq]
    exact h.arrive ⟨rfl, rfl, rfl, rfl⟩ hfree rfl (by simp) hlease
  · rw [heq]
    have hjob : Placed { s.releaseReservation j.request.taskId with
        jobs := s.jobs.set k { j with submitter := .waiting false, future := .pending } } :=
      h.arrive ⟨rfl, rfl, rfl, rfl⟩ hfree rfl (by simp) hlease
    have hperm : (putEntry ⟨s.seq + 1, k, j.request⟩ s.queue ++ s.drain.held).Perm
        (⟨s.seq + 1, k, j.request⟩ :: present s) :=
      (putEntry_perm _ s.queue).append_right s.drain.held
    refine { hjob with nodup := ?_, queued := ?_ }
    · refine (hperm.map _).nodup_iff.mpr (List.nodup_cons.mpr ⟨?_, h.nodup⟩)
      intro hmem
      obtain ⟨e, he, heq⟩ := List.mem_map.mp hmem
      exact hfree.queued e he heq
    · intro e he
      rcases List.mem_cons.mp (hperm.subset he) with rfl | hold
      · exact ⟨_, Dict.get?_set_self _ _ _, rfl, hunstarted, .inl ⟨false, rfl⟩⟩
      · exact hjob.queued e hold

/-! ### Checks -/

/-- A check is of a submission that has not started. -/
theorem Placed.job_of_checking (hcheck : s.checking who = some (k, request, phase)) :
    ∃ j, s.jobs.get? k = some j ∧ j.request = request ∧ j.Unstarted := by
  cases who with
  | submit k' =>
    obtain ⟨rfl, j, hget, hrequest, hphase⟩ := checking_submit hcheck
    exact ⟨j, hget, hrequest, h.checking k j phase hget hphase⟩
  | drain =>
    obtain ⟨entry, retry, evicted, hdrain, rfl, rfl⟩ := checking_drain hcheck
    obtain ⟨j, hget, hrequest, hunstarted, _⟩ :=
      h.queued entry (by simp [present, hdrain, Drain.held])
    exact ⟨j, hget, hrequest, hunstarted⟩

/-- A check enters its next phase. -/
theorem Placed.setPhase {before : CheckPhase} (hcheck : s.checking who = some (k, request, before))
    (phase : CheckPhase) : Placed (s.setPhase phase who) := by
  cases who with
  | submit k' =>
    obtain ⟨rfl, j, hget, _, hphase⟩ := checking_submit hcheck
    have hjobs : (s.setPhase phase (.submit k)).jobs =
        s.jobs.set k { j with submitter := .checking phase } := Dict.modify_of_get? hget _
    have hfollows : j.Follows { j with submitter := .checking phase } := by
      refine .of_run rfl rfl rfl ?_ fun _ _ => ⟨before, hphase⟩
      simp [Job.Waits, hphase]
    exact h.follow ⟨rfl, rfl, rfl, rfl⟩ hget hfollows hjobs
  | drain =>
    obtain ⟨entry, retry, evicted, hdrain, _, _⟩ := checking_drain hcheck
    simp only [ArbiterState.setPhase, hdrain]
    refine h.drainMoves rfl ?_ rfl rfl (by simp)
    simp only [present, hdrain, Drain.held]
    exact List.Subperm.refl _

/-- A check is answered. -/
theorem Placed.checked
    (hcheck : s.checking who = some (k, request, phase)) (admission : GpuAdmission)
    (leaseId : LeaseId) (now : Cluster.Instant) :
    Placed (s.checked p who admission leaseId now) := by
  cases who with
  | submit k' =>
    obtain ⟨rfl, j, hget, _, hphase⟩ := checking_submit hcheck
    simp only [ArbiterState.checked, submitChecked, hget]
    split
    · refine h.startRun (h.free_of_checking hget hphase) (by simp) ?_ leaseId now
      intro i hi
      cases hget.symm.trans hi
      exact ⟨rfl, rfl⟩
    · exact h.enqueue hget hphase
  | drain =>
    obtain ⟨entry, retry, evicted, hdrain, _, _⟩ := checking_drain hcheck
    exact h.drainChecked hdrain admission

/-- A reservation is granted and noted. -/
theorem Placed.noteGrant (hget : s.jobs.get? k = some j) (taskId : TaskId) (rid : ReservationId)
    (manager : VramReservationManager) (probe : Probe) :
    Placed (s.noteGrant k taskId rid manager probe) := by
  have hjobs : (s.noteGrant k taskId rid manager probe).jobs =
      s.jobs.set k { j with reservation := some rid } := Dict.modify_of_get? hget _
  exact h.follow ⟨rfl, rfl, rfl, rfl⟩ hget (Job.Follows.setReservation j (some rid)) hjobs

/-- The site of a submission is noted. -/
theorem Placed.noteSite
    (hget : s.jobs.get? k = some j) (site : Option String) : Placed (s.noteSite k site) := by
  have hjobs : (s.noteSite k site).jobs = s.jobs.set k { j with site := site } :=
    Dict.modify_of_get? hget _
  exact h.follow ⟨rfl, rfl, rfl, rfl⟩ hget (Job.Follows.setSite j site) hjobs

/-- The free VRAM is read. -/
theorem Placed.availableRead
    (hcheck : s.checking who = some (k, request, phase)) (probe : Probe) (leaseId : LeaseId)
    (now : Vram.Clock) : Placed (s.availableRead p who k request probe leaseId now) := by
  obtain ⟨j, hget, _⟩ := h.job_of_checking hcheck
  have hswept : Placed (s.sweep now) := h.same ⟨rfl, rfl, rfl, rfl⟩ rfl
  have hcheck' : (s.sweep now).checking who = some (k, request, phase) := by
    cases who <;> exact hcheck
  rcases availableRead_cases p s who k request probe leaseId now with ⟨eff, heq⟩ | ⟨c, _, _, heq⟩
  · rw [heq]
    exact hswept.setPhase hcheck' _
  · rw [heq]
    exact
      (hswept.noteSite hget _).checked ((checking_noteSite _ who k _).trans hcheck') _ leaseId now

/-- The ledger answers. -/
theorem Placed.reserved
    (hcheck : s.checking who = some (k, request, phase)) (effectiveFree : Option Int)
    (probe : Probe) (rid : ReservationId) (leaseId : LeaseId) (now : Vram.Clock) :
    Placed (s.reserved p who k request effectiveFree probe rid leaseId now) := by
  have hnoted : Placed { s with lock := none, issued := rid :: s.issued } :=
    h.same ⟨rfl, rfl, rfl, rfl⟩ rfl
  have hcheck' : { s with lock := none, issued := rid :: s.issued }.checking who =
      some (k, request, phase) := by
    cases who <;> exact hcheck
  obtain ⟨j, hget, _⟩ := h.job_of_checking hcheck
  rcases reserved_cases p s who k request effectiveFree probe rid leaseId now with
    ⟨_, heq⟩ | ⟨_, _, heq⟩
  · rw [heq]
    exact hnoted.checked hcheck' _ leaseId now
  · rw [heq]
    have hchecked := (checking_noteGrant _ who k request.taskId rid
      (s.manager.grant ⟨rid, request.requiredVramMb, "gpu-task:" ++ request.taskId, now⟩)
      probe).trans hcheck'
    exact (hnoted.noteGrant hget _ _ _ _).checked hchecked _ leaseId now

/-! ### Steps and runs -/

/-- A submission arrives. -/
theorem Placed.submit (hfresh : s.jobs.get? k = none) (request : Request) (leaseId : LeaseId)
    (now : Cluster.Instant) : Placed (s.submit k request leaseId now) := by
  have hfree := h.free_of_none hfresh
  rcases submit_cases s k request leaseId now with ⟨error, heq⟩ | ⟨hpos, heq⟩ | ⟨_, _, heq⟩
  · rw [heq]
    exact h.arrive ⟨rfl, rfl, rfl, rfl⟩ hfree rfl (by simp) rfl
  · rw [heq]
    exact h.arrive ⟨rfl, rfl, rfl, rfl⟩ hfree rfl (fun _ _ => ⟨rfl, hpos⟩) rfl
  · rw [heq]
    refine h.startRun hfree (by simp) ?_ leaseId now
    intro i hi
    simp [hfresh] at hi

/-- Every move keeps the tables placed. -/
theorem Placed.move (hmove : Move p s e s') : Placed s' := by
  cases hmove with
  | submit hfresh _ => exact h.submit hfresh _ _ _
  | availableRead hcheck _ => exact h.availableRead hcheck _ _ _
  | @acquire who k request effectiveFree now hcheck _ =>
    have hswept : Placed { s.sweep now with lock := some (.checker who) } :=
      h.same ⟨rfl, rfl, rfl, rfl⟩ rfl
    exact hswept.setPhase (checking_locked hcheck now) _
  | reserved hcheck _ _ => exact h.reserved hcheck _ _ _ _ _
  | cancelChecking hget _ _ | wakeCancelled hget _ _ _ | wakeAnswered hget _ _ _ =>
    exact h.follow ⟨rfl, rfl, rfl, rfl⟩ hget (Job.Follows.setSubmitter _ (.inr ⟨_, rfl⟩)) rfl
  | @cancelWaiting k j c hget _ =>
    have hfollows := (Job.Follows.resolveFuture j .cancelled).trans
      (Job.Follows.setSubmitter _ (.inl ⟨true, rfl⟩))
    exact h.follow ⟨rfl, rfl, rfl, rfl⟩ hget hfollows rfl
  | @runStarts k j leaseId now hget hrun _ =>
    refine h.startRun (h.free_of_spawned hget hrun) ?_ ?_ leaseId now
    · intro phase hphase
      simp [(h.checking k j phase hget hphase).1] at hrun
    · intro i hi
      cases hget.symm.trans hi
      exact ⟨rfl, rfl⟩
  | payloadEnds hget hrun | renewalStops hget hrun =>
    exact h.finishRegistered hget (by rw [hrun]; rfl) _
  | @payloadStops k j how leaseId hget hrun =>
    refine h.follow ⟨rfl, rfl, rfl, rfl⟩ hget ?_ rfl
    have hok := h.leases k j hget
    rw [Job.LeaseOk, hrun] at hok
    exact
      { request := rfl
        unstarted := fun hun => by simp [hun.1] at hrun
        waits := fun hun => by simp [hun.1] at hrun
        checking := fun phase hphase => ⟨phase, hphase⟩
        leaseOk := fun _ => hok
        lease := rfl
        registered := fun _ => rfl
        begun := fun _ => rfl }
  | renewed _ => exact h.same ⟨rfl, rfl, rfl, rfl⟩ rfl
  | @leaseLost k j leaseId now c hget hrun _ =>
    have hrenewed : Placed { s with cluster := some c } := h.same ⟨rfl, rfl, rfl, rfl⟩ rfl
    exact hrenewed.resolveFuture _ _
  | @propagate k j j' how hget hrun hnext =>
    refine h.follow ⟨rfl, rfl, rfl, rfl⟩ hget ?_ rfl
    rcases hnext with rfl | rfl
    · exact Job.Follows.setPropagated j'
    · exact (Job.Follows.resolveFuture j how).trans (Job.Follows.setPropagated _)
  | @cancelQueued evictor taskId bySelf entry hget =>
    have hreleased : Placed ({ s with
        queuedEntries := s.queuedEntries.pop taskId
        cancelledIds := insert taskId s.cancelledIds }.releaseReservation taskId) :=
      h.same ⟨rfl, rfl, rfl, rfl⟩ rfl
    exact hreleased.resolveFuture _ _
  | cancelOp | evict => exact h.evictTask _ _ _
  | evicted _ _ => exact h.evicted _ _
  | drainBegins hdrain =>
    refine h.drainMoves rfl ?_ rfl rfl (by simp)
    simp only [present, hdrain, Drain.held]
    exact List.Subperm.refl _
  | drainStep hmove => exact h.drainMove hmove
  | @drainEvicted entry retry eviction hdrain _ =>
    refine (h.finishEvict eviction).drainMoves rfl ?_ rfl rfl (by simp)
    have hheld : (s.finishEvict eviction).drain = s.drain := rfl
    simp only [present, hheld, hdrain, Drain.held]
    exact List.Subperm.refl _
  | drainRaises hdrain _ =>
    refine h.drainMoves rfl ?_ rfl rfl (by simp)
    simp only [present, hdrain, Drain.held, List.append_nil]
    exact (List.sublist_append_left _ _).subperm
  | _ => exact h.same ⟨rfl, rfl, rfl, rfl⟩ rfl

/-- Every table entry keeps pointing at its submission. -/
theorem Placed.step (hstep : s.step p e = some s') : Placed s' :=
  h.move (move_of_step hstep)

end

end ArbiterState

end TinyAgentOS.Gpu
