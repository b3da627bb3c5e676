import TinyAgentOS.Cluster.LeaseEffects

/-!
# Why a lease disappears

The monitor drops the leases of a worker it takes offline.  It does so by name,
after it has sent a notification, and from a list of records made when the pass
began, so the worker registered under the name may be online again by then.

Main results:

- `rounds_justDrops`: what a pass drops is expired or of an offline worker, if it drops nothing of
  a worker that is back.
- `run_droppedForCause`: in a run of such passes every lease is dropped for cause.
- `dropped_after_return`: a worker comes back before the notification about it is sent, takes a
  lease, and loses it.
-/

namespace TinyAgentOS.Cluster
namespace Fleet

open Collections Transition

variable {p : Wiring} {s s' : Fleet}

/-! ## Causes -/

/-- A lease is released, has expired, or is on a worker that is removed or drained in this
step, or is offline after it. -/
def DroppedForCause (s : Fleet) (e : FleetEvent) (s' : Fleet) (id : LeaseId)
    (lease : GpuLease) : Prop :=
  e = .releaseLease id ∨ lease.expired s.clock = true ∨
    ∃ name, leaseOn name lease = true ∧
      (e = .unregisterWorker name ∨ (∃ graceful, e = .drainWorker name graceful) ∨
        ∃ w ∈ s'.worker? name, w.status = .offline)

/-- The leases under a name have expired, or the worker registered there is offline. -/
def mayDrop (s : Fleet) (name : String) : Bool :=
  (s.leases.values.all fun lease => !leaseOn name lease || lease.expired s.clock) ||
    (s.worker? name).any fun w => w.status = .offline

/-- The record is the one registered under its name. -/
def attached (s : Fleet) (ref : WorkerRef) : Bool :=
  s.workers.get? (s.objects ref).name = some ref

/-- A visit that drops leases at once visits the worker registered under the name, or one
whose leases may be dropped. -/
def visitSafe (p : Wiring) (s : Fleet) (now : Instant) (ref : WorkerRef) : Bool :=
  match s.verdict now ref with
  | .keep | .drained => true
  | .timedOut => p.notifications || s.attached ref || s.mayDrop (s.objects ref).name
  | .forceDrained => s.attached ref || s.mayDrop (s.objects ref).name

/-- The visits up to the next suspension are safe. -/
def roundsSafe (p : Wiring) (now : Instant) : List WorkerRef → Fleet → Bool
  | [], _ => true
  | ref :: todo, s =>
    s.visitSafe p now ref &&
      match s.visit p now ref todo with
      | (s, none) => roundsSafe p now todo s
      | (_, some _) => true

/-- Behind the fence leases are dropped whatever the status of the worker. -/
def visitFencedSafe (s : Fleet) (ref : WorkerRef) : Bool :=
  (s.objects ref).name = "local" || (s.objects ref).status.claimable && s.attached ref ||
    s.mayDrop (s.objects ref).name

def fencedRoundsSafe (p : Wiring) : List WorkerRef → Fleet → Bool
  | [], _ => true
  | ref :: todo, s =>
    s.visitFencedSafe ref &&
      match s.visitFenced p ref todo with
      | (s, none) => fencedRoundsSafe p todo s
      | (_, some _) => true

def beginPassSafe (p : Wiring) (s : Fleet) : Bool :=
  if s.fenced then fencedRoundsSafe p s.workers.values s
  else roundsSafe p s.clock s.workers.values s

/-- After the notification the worker registered under the name is offline, or its leases
have expired; and so is every visit that follows. -/
def dropsSafely (p : Wiring) (s : Fleet) : FleetEvent → Bool
  | .wakeUp => !s.fenced && p.registryStore || s.beginPassSafe p
  | .generationRead durable =>
    beginPassSafe p { s with fenced := s.fenced || durable.any fun g => s.generation < g }
  | .notified raises =>
    match s.monitor with
    | .notifying now ref true todo =>
      raises ||
        s.mayDrop (s.objects ref).name &&
          match s.dropFor p ref (.cancelling now todo) with
          | (s, none) => roundsSafe p now todo s
          | (_, some _) => true
    | .notifying now _ false todo => raises || roundsSafe p now todo s
    | _ => true
  | .cancelled =>
    match s.monitor with
    | .cancelling now todo => roundsSafe p now todo s
    | .cancellingFenced todo => fencedRoundsSafe p todo s
    | _ => true
  | _ => true

/-! ## What the monitor drops -/

/-- A move of the monitor that drops a lease only when it has expired or its worker is
offline afterwards. -/
structure JustDrops (s s' : Fleet) : Prop extends MonitorMove s s' where
  just : ∀ id lease, s.leases.get? id = some lease → s'.leases.get? id = none →
    lease.expired s.clock = true ∨
      ∃ name, leaseOn name lease = true ∧ ∃ w ∈ s'.worker? name, w.status = .offline

/-- A move that drops nothing. -/
theorem MonitorMove.justDrops (h : MonitorMove s s') (hkept : s'.leases = s.leases) :
    JustDrops s s' where
  toMonitorMove := h
  just := by
    intro id lease hget hnone
    rw [hkept, hget] at hnone
    contradiction

variable {name : String} {now : Instant} {todo : List WorkerRef} {ttl : Seconds} {leaseId : LeaseId}

/-- The monitor leaves an offline worker offline. -/
theorem MonitorMove.offline (h : MonitorMove s s')
    (hoffline : ∃ w ∈ s.worker? name, w.status = .offline) :
    ∃ w ∈ s'.worker? name, w.status = .offline := by
  obtain ⟨w, hw, hstatus⟩ := hoffline
  rcases h.worker? name with heq | ⟨v, _, hv⟩
  · exact ⟨w, heq ▸ hw, hstatus⟩
  · exact ⟨_, hv, rfl⟩

theorem JustDrops.trans {s₁ s₂ s₃ : Fleet} (h : JustDrops s₁ s₂) (h' : JustDrops s₂ s₃) :
    JustDrops s₁ s₃ where
  toMonitorMove := h.toMonitorMove.trans h'.toMonitorMove
  just := by
    intro id lease hget hnone
    rcases h.leases id with heq | heq
    · rw [hget] at heq
      have hlater := h'.just id lease heq hnone
      rw [h.clock] at hlater
      exact hlater
    · rcases h.just id lease hget heq with hexpired | ⟨name, hon, hoffline⟩
      · exact Or.inl hexpired
      · exact Or.inr ⟨name, hon, h'.toMonitorMove.offline hoffline⟩

/-- Where the monitor is does not matter. -/
theorem JustDrops.monitor (h : JustDrops s s') (phase : MonitorPhase) :
    JustDrops s { s' with monitor := phase } where
  toMonitorMove := h.toMonitorMove.monitor phase
  just := h.just

/-- The sweep drops expired leases. -/
theorem sweepExpiredLeases_justDrops (s : Fleet) : JustDrops s s.sweepExpiredLeases where
  toMonitorMove := dropLeases_move s _
  just := by
    intro id lease hget hnone
    left
    simp only [sweepExpiredLeases, get?_dropLeases] at hnone
    split at hnone
    · rename_i hmem
      obtain ⟨entry, hentry, rfl⟩ := List.mem_map.mp hmem
      obtain ⟨hlisted, hexpired⟩ := List.mem_filter.mp hentry
      have hsame := Dict.mem_entries_iff.mp hlisted
      rw [hget] at hsame
      cases hsame
      exact hexpired
    · rw [hget] at hnone
      contradiction

variable {ref : WorkerRef} {lease : GpuLease} {id : LeaseId}

/-- What may be dropped. -/
theorem dropFor_justDrops (phase : MonitorPhase)
    (hmay : s.mayDrop (s.objects ref).name = true) : JustDrops s (s.dropFor p ref phase).1 where
  toMonitorMove := dropFor_move p s ref phase
  just := by
    intro id lease hget hnone
    simp only [dropFor, get?_dropLeases] at hnone
    split at hnone
    · rename_i hmem
      obtain ⟨lease', hget', hon⟩ := mem_leaseIdsOn.mp hmem
      rw [hget] at hget'
      cases hget'
      rcases Bool.or_eq_true_iff.mp hmay with hexpired | hoffline
      · left
        have hlease := List.all_eq_true.mp hexpired lease (Dict.mem_values_iff.mpr ⟨id, hget⟩)
        simpa [hon] using hlease
      · right
        obtain ⟨w, hw, hstatus⟩ := (Option.any_eq_true _ _).mp hoffline
        exact ⟨_, hon, w, hw, of_decide_eq_true hstatus⟩
    · rw [hget] at hnone
      contradiction

/-- A worker whose record is marked offline may lose its leases. -/
theorem mayDrop_setStatus (h : s.attached ref = true ∨ s.mayDrop (s.objects ref).name = true) :
    (s.setStatus ref .offline).mayDrop ((s.setStatus ref .offline).objects ref).name = true := by
  have hname : ((s.setStatus ref .offline).objects ref).name = (s.objects ref).name := by
    simp only [setStatus, setObject, Function.update_self]
  rw [hname]
  rcases h with hattached | hmay
  · apply Bool.or_eq_true_iff.mpr
    right
    apply (Option.any_eq_true _ _).mpr
    have href := of_decide_eq_true hattached
    refine ⟨(s.setStatus ref .offline).objects ref, worker?_of_get? href, ?_⟩
    simp only [setStatus, setObject, Function.update_self, decide_true]
  · rcases Bool.or_eq_true_iff.mp hmay with hexpired | hoffline
    · exact Bool.or_eq_true_iff.mpr (Or.inl hexpired)
    · apply Bool.or_eq_true_iff.mpr
      right
      obtain ⟨w, hw, hstatus⟩ := (Option.any_eq_true _ _).mp hoffline
      obtain ⟨v, hv, hlater⟩ :=
        (setStatus_offline_move s ref).offline ⟨w, hw, of_decide_eq_true hstatus⟩
      exact (Option.any_eq_true _ _).mpr ⟨v, hv, decide_eq_true hlater⟩

theorem setStatus_offline_justDrops (s : Fleet) (ref : WorkerRef) :
    JustDrops s (s.setStatus ref .offline) :=
  (setStatus_offline_move s ref).justDrops rfl

/-- A safe visit. -/
theorem visit_justDrops (todo : List WorkerRef)
    (hsafe : s.visitSafe p now ref = true) : JustDrops s (s.visit p now ref todo).1 := by
  have hoffline := setStatus_offline_justDrops s ref
  unfold visitSafe at hsafe
  unfold visit
  split
  · exact (MonitorMove.refl s).justDrops rfl
  · rename_i hverdict
    simp only [hverdict] at hsafe
    split
    · exact hoffline
    · rename_i hnotifications
      rw [Bool.not_eq_true] at hnotifications
      rw [hnotifications, Bool.false_or] at hsafe
      have hmay := mayDrop_setStatus (Bool.or_eq_true_iff.mp hsafe)
      exact hoffline.trans (dropFor_justDrops _ hmay)
  · exact hoffline
  · rename_i hverdict
    simp only [hverdict] at hsafe
    have hmay := mayDrop_setStatus (Bool.or_eq_true_iff.mp hsafe)
    exact hoffline.trans (dropFor_justDrops _ hmay)

/-- Safe visits up to a suspension. -/
theorem rounds_justDrops
    (hsafe : roundsSafe p now todo s = true) : JustDrops s (rounds p now todo s) := by
  induction todo generalizing s with
  | nil => exact (sweepExpiredLeases_justDrops s).monitor .sleeping
  | cons ref todo ih =>
    simp only [roundsSafe, Bool.and_eq_true] at hsafe
    have hvisit := visit_justDrops todo hsafe.1
    have hrest := hsafe.2
    simp only [rounds]
    split
    · rename_i t heq
      rw [heq] at hvisit hrest
      exact hvisit.trans (ih hrest)
    · rename_i t phase heq
      rw [heq] at hvisit
      exact hvisit.monitor phase

/-- A safe visit behind the fence. -/
theorem visitFenced_justDrops (todo : List WorkerRef)
    (hsafe : s.visitFencedSafe ref = true) : JustDrops s (s.visitFenced p ref todo).1 := by
  simp only [visitFencedSafe, Bool.or_eq_true, Bool.and_eq_true, decide_eq_true_eq] at hsafe
  unfold visitFenced
  simp only
  split
  · exact (MonitorMove.refl s).justDrops rfl
  · rename_i hlocal
    split
    · have hmay : s.attached ref = true ∨ s.mayDrop (s.objects ref).name = true := by
        rcases hsafe with (hname | hclaimable) | hmay
        · exact absurd hname hlocal
        · exact Or.inl hclaimable.2
        · exact Or.inr hmay
      exact (setStatus_offline_justDrops s ref).trans
        (dropFor_justDrops _ (mayDrop_setStatus hmay))
    · rename_i hstatus
      rcases hsafe with (hname | hclaimable) | hmay
      · exact absurd hname hlocal
      · exact absurd hclaimable.1 hstatus
      · exact dropFor_justDrops _ hmay

/-- Safe visits behind the fence. -/
theorem fencedRounds_justDrops
    (hsafe : fencedRoundsSafe p todo s = true) : JustDrops s (fencedRounds p todo s) := by
  induction todo generalizing s with
  | nil => exact ((MonitorMove.refl s).justDrops rfl).monitor .sleeping
  | cons ref todo ih =>
    simp only [fencedRoundsSafe, Bool.and_eq_true] at hsafe
    have hvisit := visitFenced_justDrops (p := p) todo hsafe.1
    have hrest := hsafe.2
    simp only [fencedRounds]
    split
    · rename_i t heq
      rw [heq] at hvisit hrest
      exact hvisit.trans (ih hrest)
    · rename_i t phase heq
      rw [heq] at hvisit
      exact hvisit.monitor phase

theorem beginPass_justDrops (hsafe : s.beginPassSafe p = true) : JustDrops s (s.beginPass p) := by
  unfold beginPassSafe at hsafe
  unfold beginPass
  split
  · rename_i hfenced
    rw [if_pos hfenced] at hsafe
    exact fencedRounds_justDrops hsafe
  · rename_i hopen
    rw [if_neg hopen] at hsafe
    exact rounds_justDrops hsafe

/-! ## Steps -/

theorem JustDrops.droppedForCause (h : JustDrops s s') (e : FleetEvent)
    (hget : s.leases.get? id = some lease)
    (hnone : s'.leases.get? id = none) : DroppedForCause s e s' id lease := by
  rcases h.just id lease hget hnone with hexpired | ⟨name, hon, hoffline⟩
  · exact Or.inr (Or.inl hexpired)
  · exact Or.inr (Or.inr ⟨name, hon, Or.inr (Or.inr hoffline)⟩)

theorem notified_justDrops {raises : Bool} (hsafe : dropsSafely p s (.notified raises) = true)
    (hstep : s.notified p raises = some s') : JustDrops s s' := by
  unfold notified at hstep
  split at hstep
  · rename_i now ref thenDrop todo hphase
    simp only [dropsSafely, hphase] at hsafe
    cases raises with
    | true =>
      cases hstep
      exact ((MonitorMove.refl s).justDrops rfl).monitor .stopped
    | false =>
      cases thenDrop with
      | false =>
        cases hstep
        exact rounds_justDrops hsafe
      | true =>
        simp only [Bool.false_or, Bool.and_eq_true] at hsafe
        have hdrop := dropFor_justDrops (p := p) (.cancelling now todo) hsafe.1
        have hrest := hsafe.2
        simp only [Bool.false_eq_true, if_false, if_true] at hstep
        split at hstep
        · rename_i t heq
          rw [heq] at hdrop hrest
          cases hstep
          exact hdrop.trans (rounds_justDrops hrest)
        · rename_i t phase heq
          rw [heq] at hdrop
          cases hstep
          exact hdrop.monitor phase
  · contradiction

theorem wakeUp_justDrops (hsafe : dropsSafely p s .wakeUp = true)
    (hstep : s.wakeUp p = some s') : JustDrops s s' := by
  unfold wakeUp at hstep
  split at hstep
  · split at hstep
    · cases hstep
      exact ((MonitorMove.refl s).justDrops rfl).monitor .readingGeneration
    · rename_i hopen
      cases hstep
      apply beginPass_justDrops
      rcases Bool.or_eq_true_iff.mp hsafe with hread | hpass
      · exact absurd hread hopen
      · exact hpass
  · contradiction

theorem cancelled_justDrops (hsafe : dropsSafely p s .cancelled = true)
    (hstep : s.cancelled p = some s') : JustDrops s s' := by
  unfold cancelled at hstep
  split at hstep
  · rename_i hphase
    simp only [dropsSafely, hphase] at hsafe
    cases hstep
    exact rounds_justDrops hsafe
  · rename_i hphase
    simp only [dropsSafely, hphase] at hsafe
    cases hstep
    exact fencedRounds_justDrops hsafe
  · contradiction

/-- A lease that goes when the leases under a name are dropped was one of them. -/
theorem on_of_dropLeases_on (hget : s.leases.get? id = some lease)
    (hnone : (s.dropLeases (s.leaseIdsOn name)).leases.get? id = none) :
    leaseOn name lease = true := by
  cases hon : leaseOn name lease with
  | true => rfl
  | false =>
    rw [get?_dropLeases_on.mpr ⟨hget, hon⟩] at hnone
    contradiction

/-- A claim removes no lease. -/
theorem claimLease_keeps {resourceId caller : String}
    {requiredVramMb : Int} (hget : s.leases.get? id = some lease) :
    (s.claimLease resourceId caller ttl requiredVramMb leaseId).leases.get? id ≠ none := by
  intro hnone
  rcases claimLease_cases s resourceId caller ttl requiredVramMb leaseId with
    hrefused | ⟨_, _, _, _, hgranted⟩
  · rw [hrefused, hget] at hnone
    contradiction
  · rw [hgranted, Dict.get?_set] at hnone
    split at hnone
    · contradiction
    rw [hget] at hnone
    contradiction

/-- A renewal removes its lease only when that has expired. -/
theorem renewLease_drops (hget : s.leases.get? id = some lease)
    (hnone : (s.renewLease leaseId ttl).leases.get? id = none) : lease.expired s.clock = true := by
  unfold renewLease ClusterManager.renewLease at hnone
  simp only [cluster] at hnone
  split at hnone
  · rw [hget] at hnone
    contradiction
  · rename_i found hfound
    split at hnone
    · rename_i hexpired
      simp only [ClusterManager.releaseLease, Dict.get?_pop] at hnone
      split at hnone
      · rename_i hid
        rw [hid, hget] at hfound
        cases hfound
        exact hexpired
      · rw [hget] at hnone
        contradiction
    · rw [Dict.get?_set] at hnone
      split at hnone
      · contradiction
      rw [hget] at hnone
      contradiction

/-- A step that drops safely drops for cause. -/
theorem droppedForCause_step {e : FleetEvent} (hsafe : dropsSafely p s e = true)
    (hstep : step p s e = some s')
    (hget : s.leases.get? id = some lease) (hnone : s'.leases.get? id = none) :
    DroppedForCause s e s' id lease := by
  have hcontra : s'.leases.get? id = s.leases.get? id → DroppedForCause s e s' id lease := by
    intro heq
    rw [heq, hget] at hnone
    contradiction
  cases e with
  | wakeUp => exact (wakeUp_justDrops hsafe hstep).droppedForCause _ hget hnone
  | generationRead durable =>
    simp only [step, generationRead] at hstep
    split at hstep
    · cases hstep
      have hpass := beginPass_justDrops hsafe
      rcases hpass.just id lease hget hnone with hexpired | ⟨name, hon, hoffline⟩
      · exact Or.inr (Or.inl hexpired)
      · exact Or.inr (Or.inr ⟨name, hon, Or.inr (Or.inr hoffline)⟩)
    · contradiction
  | notified raises => exact (notified_justDrops hsafe hstep).droppedForCause _ hget hnone
  | cancelled => exact (cancelled_justDrops hsafe hstep).droppedForCause _ hget hnone
  | stop =>
    cases hstep
    exact hcontra rfl
  | tick now =>
    simp only [step] at hstep
    split at hstep
    · cases hstep
      exact hcontra rfl
    · contradiction
  | registerWorker info generation =>
    cases hstep
    apply hcontra
    unfold registerWorker
    split <;> rfl
  | heartbeat key beat =>
    cases hstep
    apply hcontra
    obtain ⟨objects, heq⟩ := s.heartbeat_objects key beat
    rw [heq]
  | cancelDrain key =>
    cases hstep
    apply hcontra
    obtain ⟨objects, heq⟩ := s.cancelDrain_objects key
    rw [heq]
  | setOffline key =>
    cases hstep
    apply hcontra
    obtain ⟨objects, heq⟩ := s.setOffline_objects key
    rw [heq]
  | unregisterWorker key =>
    cases hstep
    unfold unregisterWorker at hnone
    split at hnone
    · rw [hget] at hnone
      contradiction
    · rcases on_of_dropLeases_on hget hnone with hon
      exact Or.inr (Or.inr ⟨key, hon, Or.inl rfl⟩)
  | drainWorker key graceful =>
    cases hstep
    unfold drainWorker at hnone
    split at hnone
    · rw [hget] at hnone
      contradiction
    · simp only at hnone
      split at hnone
      · rw [show (s.setStatus _ _).leases = s.leases from rfl, hget] at hnone
        contradiction
      · have hon : leaseOn key lease = true := on_of_dropLeases_on hget hnone
        exact Or.inr (Or.inr ⟨key, hon, Or.inr (Or.inl ⟨graceful, rfl⟩)⟩)
  | releaseLease leaseId =>
    cases hstep
    simp only [releaseLease, ClusterManager.releaseLease, cluster, Dict.get?_pop] at hnone
    split at hnone
    · rename_i hid
      exact Or.inl (by rw [hid])
    · rw [hget] at hnone
      contradiction
  | renewLease leaseId ttl =>
    cases hstep
    exact Or.inr (Or.inl (renewLease_drops hget hnone))
  | claimLease resourceId caller ttl requiredVramMb leaseId =>
    simp only [step] at hstep
    split at hstep
    · contradiction
    cases hstep
    exact absurd hnone (claimLease_keeps hget)

/-- In every run whose monitor drops safely, every lease that disappears does so for
cause. -/
theorem run_droppedForCause (p : Wiring) (persisted : List Worker) (generation : Int)
    (clock : Instant) {es : List FleetEvent}
    (hsafe : Guarded (step p) (fun t e => dropsSafely p t e = true)
      (start persisted generation clock) es) :
    Guarded (step p)
      (fun t e => ∀ t', step p t e = some t' → ∀ id lease, t.leases.get? id = some lease →
        t'.leases.get? id = none → DroppedForCause t e t' id lease)
      (start persisted generation clock) es := by
  apply guarded_imp _ hsafe
  intro t e hguard t' hstep id lease hget hnone
  exact droppedForCause_step hguard hstep hget hnone

/-- A worker times out and does not come back. -/
theorem run_droppedForCause_timeout :
    (run (step wired) (start [] 1 0)
      [.registerWorker (sampleWorker "w1" 8000) none, .claimLease "w1:gpu-0" "a" 90 4000 "l_1",
        .tick 40, .wakeUp, .generationRead (some 1), .notified false, .cancelled]).isSome ∧
    Guarded (step wired)
      (fun t e => ∀ t', step wired t e = some t' → ∀ id lease,
        t.leases.get? id = some lease → t'.leases.get? id = none →
          DroppedForCause t e t' id lease)
      (start [] 1 0)
      [.registerWorker (sampleWorker "w1" 8000) none, .claimLease "w1:gpu-0" "a" 90 4000 "l_1",
        .tick 40, .wakeUp, .generationRead (some 1), .notified false, .cancelled] :=
  ⟨by decide, run_droppedForCause wired [] 1 0 (by decide)⟩

/-- A worker times out, is heard from and takes a lease before the notification about it is
sent, and loses the lease while it is online. -/
theorem dropped_after_return :
    ¬ ∀ es : List FleetEvent,
      Guarded (step wired)
        (fun t e => ∀ t', step wired t e = some t' → ∀ id lease,
          t.leases.get? id = some lease → t'.leases.get? id = none →
            DroppedForCause t e t' id lease)
        (start [] 1 0) es := by
  intro hclaim
  have hall : ((run (step wired) (start [] 1 0)
        [.registerWorker (sampleWorker "w1" 8000) none, .tick 40, .wakeUp,
          .generationRead (some 1), .heartbeat "w1" {},
          .claimLease "w1:gpu-0" "a" 90 4000 "l_1"]).bind fun t =>
      (step wired t (.notified false)).bind fun t' =>
        (t.leases.get? "l_1").bind fun lease =>
          if t'.leases.get? "l_1" = none ∧ lease.expired t.clock = false ∧
              parseResourceId lease.resourceId = some ("w1", "gpu-0") ∧
              (t'.worker? "w1").all (fun w => w.status ≠ .offline) then
            some lease
          else none).isSome := by
    decide
  obtain ⟨lease, hall⟩ := Option.isSome_iff_exists.mp hall
  obtain ⟨t, hrun, hall⟩ := Option.bind_eq_some_iff.mp hall
  obtain ⟨t', hstep, hall⟩ := Option.bind_eq_some_iff.mp hall
  obtain ⟨lease', hget, hall⟩ := Option.bind_eq_some_iff.mp hall
  split at hall
  · rename_i hdropped
    obtain ⟨hnone, hlive, hparse, honline⟩ := hdropped
    have hcause := guard_of_guarded_append (hclaim _) hrun t' hstep "l_1" lease' hget hnone
    rcases hcause with hrelease | hexpired | ⟨name, hon, hunregister | ⟨_, hdrain⟩ | hoffline⟩
    · cases hrelease
    · exact absurd hexpired (by simp [hlive])
    · cases hunregister
    · cases hdrain
    · obtain ⟨rest, hparse'⟩ := leaseOn_iff.mp hon
      rw [hparse] at hparse'
      cases hparse'
      obtain ⟨w, hw, hstatus⟩ := hoffline
      rw [Option.mem_def.mp hw] at honline
      simp [hstatus] at honline
  · cases hall

end Fleet
end TinyAgentOS.Cluster
