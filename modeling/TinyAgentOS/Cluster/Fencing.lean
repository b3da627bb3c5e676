import TinyAgentOS.Cluster.LeaseEffects

/-!
# The fence of a superseded controller

A controller that finds a newer generation in the store fences itself: it takes
heartbeats and registrations no more, and every pass of its monitor takes the
workers offline and drops their leases.  Cancelling a drain does not look at
the fence.

Main results:

- `fencedRounds_quiet`: what a pass of a fenced controller has done so far.
- `run_quiet`: after such a pass no other worker is online or leased, unless a drain is cancelled.
- `fence_reopened`: a cancelled drain puts a worker back online.
-/

namespace TinyAgentOS.Cluster
namespace Fleet

open Collections Transition

variable {p : Wiring} {s s' : Fleet}

/-! ## Quiet fleets -/

/-- Apart from the controller's own worker and the records still to be visited, no worker
takes leases, and none has one. -/
structure QuietExcept (s : Fleet) (todo : List WorkerRef) : Prop where
  unclaimable : ∀ name ref, s.workers.get? name = some ref → name ≠ "local" → ref ∉ todo →
    (s.objects ref).status.claimable = false
  leaseless : ∀ id lease name ref, s.leases.get? id = some lease → leaseOn name lease = true →
    s.workers.get? name = some ref → name ≠ "local" → ref ∈ todo

/-- No worker but the controller's own is online, or has a lease. -/
structure Quiet (s : Fleet) : Prop where
  offline : ∀ name, ∀ w ∈ s.worker? name, name ≠ "local" →
    w.status ≠ .online ∧ w.status ≠ .updateAvailable
  leaseless : ∀ id lease name, s.leases.get? id = some lease → leaseOn name lease = true →
    name = "local"

/-- Nothing is left to be visited. -/
theorem QuietExcept.quiet (h : QuietExcept s []) (hwf : Wellformed s) : Quiet s where
  offline := by
    intro name w hw hlocal
    obtain ⟨ref, href, rfl⟩ := worker?_eq_some.mp hw
    have hstatus := h.unclaimable name ref href hlocal List.not_mem_nil
    constructor
    · intro honline
      rw [honline] at hstatus
      contradiction
    · intro hupdate
      rw [hupdate] at hstatus
      contradiction
  leaseless := by
    intro id lease name hget hon
    by_contra hlocal
    obtain ⟨name', rest, ref, hparse, href⟩ := hwf.housed id lease hget
    obtain ⟨rest', hparse'⟩ := leaseOn_iff.mp hon
    rw [hparse] at hparse'
    cases hparse'
    exact List.not_mem_nil (h.leaseless id lease name ref hget hon href hlocal)

/-! ## A pass of a fenced controller -/

/-- At its beginning every worker is still to be visited. -/
theorem quietExcept_values (s : Fleet) : QuietExcept s s.workers.values where
  unclaimable := by
    intro name ref href hlocal hnot
    exact absurd (Dict.mem_values_iff.mpr ⟨name, href⟩) hnot
  leaseless := by
    intro id lease name ref hget hon href hlocal
    exact Dict.mem_values_iff.mpr ⟨name, href⟩

variable {todo : List WorkerRef} {ref : WorkerRef} {e : FleetEvent}

/-- The monitor does not wake anyone up. -/
theorem MonitorMove.quietExcept (h : MonitorMove s s')
    (hquiet : QuietExcept s todo) : QuietExcept s' todo where
  unclaimable := by
    intro name ref href hlocal hnot
    rw [h.workers] at href
    rcases h.objects ref with heq | heq
    · rw [heq]
      exact hquiet.unclaimable name ref href hlocal hnot
    · rw [heq]
      rfl
  leaseless := by
    intro id lease name ref hget hon href hlocal
    rw [h.workers] at href
    rcases h.leases id with heq | heq
    · rw [heq] at hget
      exact hquiet.leaseless id lease name ref hget hon href hlocal
    · rw [heq] at hget
      contradiction

/-- A visited record is offline, or was not claimable before. -/
theorem visitFenced_status (todo : List WorkerRef) (hlocal : (s.objects ref).name ≠ "local") :
    ((s.visitFenced p ref todo).1.objects ref).status.claimable = false := by
  unfold visitFenced
  simp only [if_neg hlocal]
  split
  · simp only [dropFor, dropLeases, setStatus, setObject, Function.update_self]
    rfl
  · rename_i hstatus
    simpa [dropFor, dropLeases] using hstatus

/-- A visited worker has no lease. -/
theorem visitFenced_leases (todo : List WorkerRef)
    (hlocal : (s.objects ref).name ≠ "local") {id : LeaseId} {lease : GpuLease}
    (hget : (s.visitFenced p ref todo).1.leases.get? id = some lease) :
    leaseOn (s.objects ref).name lease = false := by
  unfold visitFenced at hget
  simp only [if_neg hlocal] at hget
  split at hget
  · have hname : ((s.setStatus ref .offline).objects ref).name = (s.objects ref).name := by
      simp only [setStatus, setObject, Function.update_self]
    simp only [dropFor, hname] at hget
    exact (get?_dropLeases_on.mp hget).2
  · exact (get?_dropLeases_on.mp hget).2

theorem dropFor_phase {phase phase' : MonitorPhase}
    (h : (s.dropFor p ref phase).2 = some phase') : phase' = phase := by
  simp only [dropFor] at h
  split at h
  · exact (Option.some.inj h).symm
  · contradiction

/-- A visit can only be suspended to have tasks cancelled. -/
theorem visitFenced_phase {phase : MonitorPhase}
    (h : (s.visitFenced p ref todo).2 = some phase) : phase = .cancellingFenced todo := by
  unfold visitFenced at h
  simp only at h
  split at h
  · contradiction
  · exact dropFor_phase h

/-- A visit takes a record off the list. -/
theorem visitFenced_quiet (hwf : Wellformed s) (hquiet : QuietExcept s (ref :: todo)) :
    QuietExcept (s.visitFenced p ref todo).1 todo := by
  have hmove := visitFenced_move p s ref todo
  have hkept := hmove.quietExcept hquiet
  have hnamed : ∀ name, (s.visitFenced p ref todo).1.workers.get? name = some ref →
      (s.objects ref).name = name := by
    intro name href
    rw [hmove.workers] at href
    exact hwf.named name ref href
  constructor
  · intro name ref' href hlocal hnot
    by_cases hsame : ref' = ref
    · subst hsame
      rw [← hnamed name href] at hlocal
      exact visitFenced_status todo hlocal
    · apply hkept.unclaimable name ref' href hlocal
      rw [List.mem_cons, not_or]
      exact ⟨hsame, hnot⟩
  · intro id lease name ref' hget hon href hlocal
    rcases List.mem_cons.mp (hkept.leaseless id lease name ref' hget hon href hlocal) with
      hsame | hmem
    · subst hsame
      have hname := hnamed name href
      rw [← hname] at hlocal hon
      rw [visitFenced_leases todo hlocal hget] at hon
      contradiction
    · exact hmem

/-- What a monitor that is in a fenced pass, or between two, has done so far. -/
def PassQuiet (s : Fleet) : Prop :=
  match s.monitor with
  | .sleeping => QuietExcept s []
  | .cancellingFenced todo => QuietExcept s todo
  | .stopped => True
  | .readingGeneration | .notifying _ _ _ _ | .cancelling _ _ => False

theorem fencedRounds_quiet (hwf : Wellformed s)
    (hquiet : QuietExcept s todo) : PassQuiet (fencedRounds p todo s) := by
  induction todo generalizing s with
  | nil =>
    have hmove := (MonitorMove.refl s).monitor .sleeping
    exact hmove.quietExcept hquiet
  | cons ref todo ih =>
    have hvisit := visitFenced_quiet (p := p) hwf hquiet
    have hmove := visitFenced_move p s ref todo
    simp only [fencedRounds]
    split
    · rename_i t heq
      rw [heq] at hvisit hmove
      exact ih (hmove.wellformed hwf) hvisit
    · rename_i t phase heq
      rw [heq] at hvisit
      have hphase : phase = .cancellingFenced todo := visitFenced_phase (by rw [heq])
      subst hphase
      exact ((MonitorMove.refl t).monitor _).quietExcept hvisit

/-! ## Steps of a fenced controller -/

/-- No drain of another worker is cancelled behind the fence. -/
def keepsFence (s : Fleet) : FleetEvent → Bool
  | .cancelDrain key =>
    key = "local" || !s.fenced || (s.worker? key).all fun w => w.status ≠ .draining
  | _ => true

/-- Behind the fence a step wakes no other worker up, unless it cancels a drain. -/
theorem QuietExcept.step (h : QuietExcept s todo)
    (hwf : Wellformed s) (hfenced : s.fenced = true) (hkeeps : keepsFence s e = true)
    (hstep : step p s e = some s') : QuietExcept s' todo := by
  have hregistered : ∀ name ref, s'.workers.get? name = some ref →
      s.workers.get? name = some ref := by
    intro name ref href
    rcases (step_advance hstep).workers name ref href with hold | ⟨hopen, _⟩
    · exact hold
    · rw [hfenced] at hopen
      contradiction
  constructor
  · intro name ref href hlocal hnot
    have hbefore := hregistered name ref href
    have hstatus := h.unclaimable name ref hbefore hlocal hnot
    have hfate := workerStep hwf hstep name
    rw [worker?_of_get? href, worker?_of_get? hbefore] at hfate
    generalize s'.objects ref = w' at hfate ⊢
    generalize hw : s.objects ref = w at hfate hstatus
    cases hfate with
    | same => exact hstatus
    | registered info generation _ hname hopen | heard beat _ hopen =>
      rw [hfenced] at hopen
      contradiction
    | drained graceful =>
      cases graceful with
      | true => rfl
      | false => rfl
    | undrained _ hdraining =>
      simp [keepsFence, hlocal, hfenced, worker?_of_get? hbefore, hw, hdraining] at hkeeps
    | offline => rfl
  · intro id lease name ref hget hon href hlocal
    have hbefore := hregistered name ref href
    have hfate := leaseStep hstep id
    rw [hget] at hfate
    generalize hlease : s.leases.get? id = before at hfate
    cases hfate with
    | same => exact h.leaseless id lease name ref hlease hon hbefore hlocal
    | renewed ttl old =>
      exact h.leaseless id old name ref hlease hon hbefore hlocal
    | granted resourceId caller ttl requiredVramMb w hfresh hworker =>
      by_contra hnot
      have hstatus := h.unclaimable name ref hbefore hlocal hnot
      obtain ⟨name', rest', ref', hparse', href', _, hclaimable⟩ :=
        workerForResource_registered hworker
      obtain ⟨rest, hparse⟩ := leaseOn_iff.mp hon
      rw [hparse] at hparse'
      cases hparse'
      rw [hbefore] at href'
      cases href'
      rw [hstatus] at hclaimable
      contradiction

/-- Only the monitor's own steps move the monitor or the fence. -/
theorem monitor_eq (hstep : step p s e = some s')
    (hcaller : e ≠ .wakeUp ∧ (∀ durable, e ≠ .generationRead durable) ∧
      (∀ raises, e ≠ .notified raises) ∧ e ≠ .cancelled ∧ e ≠ .stop) :
    s'.monitor = s.monitor ∧ s'.fenced = s.fenced := by
  obtain ⟨hwake, hread, hnotified, hcancelled, hstop⟩ := hcaller
  cases e with
  | tick now =>
    simp only [step] at hstep
    split at hstep
    · cases hstep
      exact ⟨rfl, rfl⟩
    · contradiction
  | registerWorker info generation =>
    cases hstep
    unfold registerWorker
    split <;> exact ⟨rfl, rfl⟩
  | heartbeat key beat =>
    cases hstep
    obtain ⟨objects, heq⟩ := s.heartbeat_objects key beat
    rw [heq]
    exact ⟨rfl, rfl⟩
  | unregisterWorker key =>
    cases hstep
    unfold unregisterWorker
    split <;> exact ⟨rfl, rfl⟩
  | claimLease resourceId caller ttl requiredVramMb leaseId =>
    simp only [step] at hstep
    split at hstep
    · contradiction
    cases hstep
    unfold claimLease
    split <;> exact ⟨rfl, rfl⟩
  | releaseLease | renewLease =>
    cases hstep
    exact ⟨rfl, rfl⟩
  | drainWorker key graceful =>
    cases hstep
    unfold drainWorker
    split
    · exact ⟨rfl, rfl⟩
    · simp only
      split <;> exact ⟨rfl, rfl⟩
  | cancelDrain key =>
    cases hstep
    obtain ⟨objects, heq⟩ := s.cancelDrain_objects key
    rw [heq]
    exact ⟨rfl, rfl⟩
  | setOffline key =>
    cases hstep
    obtain ⟨objects, heq⟩ := s.setOffline_objects key
    rw [heq]
    exact ⟨rfl, rfl⟩
  | wakeUp => exact absurd rfl hwake
  | generationRead durable => exact absurd rfl (hread durable)
  | notified raises => exact absurd rfl (hnotified raises)
  | cancelled => exact absurd rfl hcancelled
  | stop => exact absurd rfl hstop

theorem Wellformed.fence (hwf : Wellformed s) (fenced : Bool) :
    Wellformed { s with fenced := fenced } :=
  ⟨hwf.named, hwf.allocated, hwf.housed, hwf.issued⟩

/-- A pass that begins behind the fence. -/
theorem beginPass_quiet (hwf : Wellformed s) (hfenced : s.fenced = true) :
    PassQuiet (s.beginPass p) := by
  unfold beginPass
  rw [if_pos hfenced]
  exact fencedRounds_quiet hwf (quietExcept_values s)

/-- Whoever calls, a pass behind the fence loses no ground. -/
theorem PassQuiet.step_of_caller (h : PassQuiet s) (hwf : Wellformed s)
    (hfenced : s.fenced = true) (hkeeps : keepsFence s e = true)
    (hstep : step p s e = some s') (hmonitor : s'.monitor = s.monitor) : PassQuiet s' := by
  unfold PassQuiet at h ⊢
  rw [hmonitor]
  split at h
  · exact h.step hwf hfenced hkeeps hstep
  · exact h.step hwf hfenced hkeeps hstep
  · trivial
  · exact h.elim
  · exact h.elim
  · exact h.elim

/-- Every step keeps what a pass behind the fence has done so far. -/
theorem passQuiet_step (h : s.fenced = true → PassQuiet s)
    (hwf : Wellformed s) (hkeeps : keepsFence s e = true) (hstep : step p s e = some s') :
    s'.fenced = true → PassQuiet s' := by
  intro hfenced'
  by_cases hcaller : e ≠ .wakeUp ∧ (∀ durable, e ≠ .generationRead durable) ∧
      (∀ raises, e ≠ .notified raises) ∧ e ≠ .cancelled ∧ e ≠ .stop
  · obtain ⟨hmonitor, hfence⟩ := monitor_eq hstep hcaller
    rw [hfence] at hfenced'
    exact (h hfenced').step_of_caller hwf hfenced' hkeeps hstep hmonitor
  · cases e with
    | wakeUp =>
      have hfenced : s.fenced = true := by
        rw [← (wakeUp_move hstep).fenced, hfenced']
      simp only [step, wakeUp, hfenced, Bool.not_true, Bool.false_and] at hstep
      split at hstep
      · cases hstep
        exact beginPass_quiet hwf hfenced
      · contradiction
    | generationRead durable =>
      simp only [step, generationRead] at hstep
      split at hstep
      · cases hstep
        rw [(beginPass_move p _).fenced] at hfenced'
        exact beginPass_quiet (hwf.fence _) hfenced'
      · contradiction
    | notified raises =>
      have hfenced : s.fenced = true := by
        rw [← (notified_move hstep).fenced, hfenced']
      have hpass := h hfenced
      simp only [step, notified] at hstep
      split at hstep
      · rename_i hphase
        simp only [PassQuiet, hphase] at hpass
      · contradiction
    | cancelled =>
      have hfenced : s.fenced = true := by
        rw [← (cancelled_move hstep).fenced, hfenced']
      have hpass := h hfenced
      simp only [step, cancelled] at hstep
      split at hstep
      · rename_i hphase
        simp only [PassQuiet, hphase] at hpass
      · rename_i todo hphase
        cases hstep
        simp only [PassQuiet, hphase] at hpass
        exact fencedRounds_quiet hwf hpass
      · contradiction
    | stop =>
      cases hstep
      trivial
    | tick | registerWorker | heartbeat | unregisterWorker | claimLease | releaseLease
    | renewLease | drainWorker | cancelDrain | setOffline => simp at hcaller

/-- In every run that cancels no drain of another worker behind the fence: once the
controller is fenced and its monitor sleeps, so that a pass made while fenced has been
completed, no other worker is online or has a lease, ever after. -/
theorem run_quiet (p : Wiring) (persisted : List Worker) (generation : Int) (clock : Instant)
    {es fs : List FleetEvent} {passed s : Fleet}
    (hkeeps : Guarded (step p) (fun t e => keepsFence t e = true)
      (start persisted generation clock) es)
    (hrun : run (step p) (start persisted generation clock) es = some passed)
    (hfenced : passed.fenced = true) (hpassed : passed.monitor = .sleeping)
    (hkeeps' : Guarded (step p) (fun t e => keepsFence t e = true) passed fs)
    (hrest : run (step p) passed fs = some s) : Quiet s := by
  have hstart : (start persisted generation clock).fenced = true →
      PassQuiet (start persisted generation clock) := by
    intro hfence
    rw [(start_tables persisted generation clock).2] at hfence
    contradiction
  have hpass : (passed.fenced = true → PassQuiet passed) ∧ Wellformed passed := by
    apply invariant_of_guarded_run _ ⟨hstart, wellformed_start persisted generation clock⟩
      hkeeps hrun
    intro t e t' h hguard hstep
    exact ⟨passQuiet_step h.1 h.2 hguard hstep, h.2.step hstep⟩
  have hquiet : QuietExcept passed [] := by
    have hdone := hpass.1 hfenced
    simp only [PassQuiet, hpassed] at hdone
    exact hdone
  have hlater : (QuietExcept s [] ∧ s.fenced = true) ∧ Wellformed s := by
    apply invariant_of_guarded_run _ ⟨⟨hquiet, hfenced⟩, hpass.2⟩ hkeeps' hrest
    intro t e t' h hguard hstep
    exact ⟨⟨h.1.1.step h.2 h.1.2 hguard hstep, (step_advance hstep).fenced h.1.2⟩,
      h.2.step hstep⟩
  exact hlater.1.1.quiet hlater.2

/-- A controller is fenced while a worker has a lease; the worker's heartbeat and its second
claim are refused. -/
theorem run_quiet_heartbeat :
    ∃ passed s,
      run (step wired) (start [] 1 0)
        [.registerWorker (sampleWorker "w1" 8000) none,
          .claimLease "w1:gpu-0" "a" 30 4000 "l_1", .wakeUp, .generationRead (some 2),
          .cancelled] = some passed ∧
      run (step wired) passed
        [.heartbeat "w1" {}, .claimLease "w1:gpu-0" "b" 30 4000 "l_2"] = some s ∧
      Quiet s := by
  have hall : ((run (step wired) (start [] 1 0)
        [.registerWorker (sampleWorker "w1" 8000) none,
          .claimLease "w1:gpu-0" "a" 30 4000 "l_1", .wakeUp, .generationRead (some 2),
          .cancelled]).bind fun passed =>
      if passed.fenced = true ∧ passed.monitor = .sleeping ∧
          Guarded (step wired) (fun t e => keepsFence t e = true) passed
            [.heartbeat "w1" {}, .claimLease "w1:gpu-0" "b" 30 4000 "l_2"] then
        run (step wired) passed
          [.heartbeat "w1" {}, .claimLease "w1:gpu-0" "b" 30 4000 "l_2"]
      else none).isSome := by
    decide
  obtain ⟨s, hall⟩ := Option.isSome_iff_exists.mp hall
  obtain ⟨passed, hrun, hall⟩ := Option.bind_eq_some_iff.mp hall
  split at hall
  · rename_i hpassed
    exact ⟨passed, s, hrun, hall, run_quiet wired [] 1 0 (by decide) hrun hpassed.1
      hpassed.2.1 hpassed.2.2 hall⟩
  · cases hall

/-- The cancelled drain of a worker puts it back online behind the fence. -/
theorem fence_reopened :
    ¬ ∀ (es fs : List FleetEvent) (passed s : Fleet),
      run (step wired) (start [] 1 0) es = some passed →
      passed.fenced = true → passed.monitor = .sleeping →
      run (step wired) passed fs = some s → Quiet s := by
  intro hclaim
  have hall : ((run (step wired) (start [] 1 0)
        [.registerWorker (sampleWorker "w1" 8000) none, .drainWorker "w1" true, .wakeUp,
          .generationRead (some 2)]).bind fun passed =>
      if passed.fenced = true ∧ passed.monitor = .sleeping then
        (run (step wired) passed [.cancelDrain "w1"]).bind fun s =>
          (s.worker? "w1").filter fun w => w.status = .online
      else none).isSome := by
    decide
  obtain ⟨w, hall⟩ := Option.isSome_iff_exists.mp hall
  obtain ⟨passed, hrun, hall⟩ := Option.bind_eq_some_iff.mp hall
  split at hall
  · rename_i hpassed
    obtain ⟨s, hrest, honline⟩ := Option.bind_eq_some_iff.mp hall
    have hquiet := hclaim _ _ passed s hrun hpassed.1 hpassed.2 hrest
    obtain ⟨hworker, hstatus⟩ := Option.filter_eq_some_iff.mp honline
    exact (hquiet.offline "w1" w hworker (by decide)).1 (of_decide_eq_true hstatus)
  · cases hall

end Fleet
end TinyAgentOS.Cluster
