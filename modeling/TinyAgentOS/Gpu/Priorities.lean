import TinyAgentOS.Gpu.QueueBooks

/-!
# Priorities in the drain pass

A drain pass takes the entries of its queue in order, and makes room for one that was refused at
the expense of a running task that counts less.

Main results:

- `lowestPriority_max`: the victim of an eviction.
- `respectsPriority_of_run`: in every run, what a drain pass takes and evicts.
-/

namespace TinyAgentOS.Gpu

open Cluster Collections Transition

namespace ArbiterState

/-! ## The property -/

/-- A step takes the first entry of the queue; it evicts at most once for an entry, when the check
that it ends has refused the entry, and no running task counts less than the victim; then the
entry is checked again. -/
structure RespectsPriority (s : ArbiterState) (event : ArbiterEvent) (s' : ArbiterState) :
    Prop where
  first : ∀ retry entry, s.drain = .loop retry → s'.drain = .checking entry retry false .available →
    entry ∈ s.queue ∧ ∀ other ∈ s.queue, other.before entry = false
  once : ∀ entry retry eviction, s'.drain = .evicting entry retry eviction →
    s.drain = s'.drain ∨ ∃ phase, s.drain = .checking entry retry false phase
  refused : ∀ entry retry eviction, s'.drain = .evicting entry retry eviction →
    s.drain = s'.drain ∨
      ∃ admission, s.verdict event = some (.drain, admission) ∧ admission.admitted = false
  victim : ∀ entry retry eviction, s'.drain = .evicting entry retry eviction →
    s.drain = s'.drain ∨ ∃ r, s.running.get? eviction.taskId = some r ∧
      entry.request.priority < r.priority ∧
        ∀ taskId other, s.running.get? taskId = some other → other.priority ≤ r.priority
  recheck : ∀ entry retry eviction, s.drain = .evicting entry retry eviction →
    s'.drain = s.drain ∨ s'.drain = .checking entry retry true .available

/-! ## The victim -/

/-- The victim is less important than the beneficiary, and no running task is less important. -/
theorem lowestPriority_max {running : Dict TaskId RunningEntry} {minPriority : Int}
    {taskId : TaskId} {r : RunningEntry}
    (h : lowestPriority running minPriority = some (taskId, r)) :
    minPriority < r.priority ∧ ∀ e ∈ running.entries, e.2.priority ≤ r.priority := by
  have hfold : ∀ (es : List (TaskId × RunningEntry))
      (victim : Option (TaskId × RunningEntry) × Int),
      (∀ v ∈ victim.1, minPriority < v.2.priority ∧ victim.2 = v.2.priority) →
      ∀ v ∈ (es.foldl
        (fun victim e =>
          if e.2.priority ≤ minPriority then victim
          else if victim.2 < e.2.priority then (some e, e.2.priority)
          else victim)
        victim).1, minPriority < v.2.priority ∧ victim.2 ≤ v.2.priority ∧
          ∀ e ∈ es, e.2.priority ≤ v.2.priority := by
    intro es
    induction es with
    | nil =>
      intro victim hvictim v hv
      obtain ⟨hmin, heq⟩ := hvictim v hv
      exact ⟨hmin, heq.le, by simp⟩
    | cons e es ih =>
      intro victim hvictim v hv
      rw [List.foldl_cons] at hv
      split at hv
      · rename_i hskip
        obtain ⟨hmin, hle, hall⟩ := ih victim hvictim v hv
        exact ⟨hmin, hle, List.forall_mem_cons.mpr ⟨hskip.trans hmin.le, hall⟩⟩
      · rename_i hlower
        split at hv
        · rename_i hlarger
          obtain ⟨hmin, hle, hall⟩ := ih (some e, e.2.priority) (by
            rintro _ ⟨⟩
            exact ⟨not_le.mp hlower, rfl⟩) v hv
          exact ⟨hmin, hlarger.le.trans hle, List.forall_mem_cons.mpr ⟨hle, hall⟩⟩
        · rename_i hsmaller
          obtain ⟨hmin, hle, hall⟩ := ih victim hvictim v hv
          exact ⟨hmin, hle, List.forall_mem_cons.mpr ⟨(not_lt.mp hsmaller).trans hle, hall⟩⟩
  obtain ⟨hmin, -, hall⟩ := hfold running.entries (none, -1) (by simp) (taskId, r) h
  exact ⟨hmin, hall⟩

/-! ## The queue -/

/-- No entry stands behind one that it goes before. -/
def InOrder (queue : List QueuedGpuTask) : Prop := queue.Pairwise fun e f => f.before e = false

/-- What comes behind an entry does not precede those before it. -/
theorem not_before_of_before {e f g : QueuedGpuTask} (h : e.before f = true)
    (hfg : g.before f = false) : g.before e = false := by
  simp only [QueuedGpuTask.before, Bool.or_eq_true, Bool.and_eq_true, Bool.or_eq_false_iff,
    Bool.and_eq_false_iff, decide_eq_true_eq, decide_eq_false_iff_not] at h hfg ⊢
  omega

/-- An entry is put in its place. -/
theorem InOrder.putEntry {queue : List QueuedGpuTask} (h : InOrder queue) (entry : QueuedGpuTask) :
    InOrder (putEntry entry queue) := by
  induction queue with
  | nil => exact List.pairwise_singleton _ _
  | cons f fs ih =>
    obtain ⟨hfirst, hrest⟩ := List.pairwise_cons.mp h
    rw [Gpu.putEntry]
    split
    · rename_i hbefore
      refine List.pairwise_cons.mpr ⟨List.forall_mem_cons.mpr ⟨?_, ?_⟩, h⟩
      · simp only [QueuedGpuTask.before, Bool.or_eq_true, Bool.and_eq_true, Bool.or_eq_false_iff,
          Bool.and_eq_false_iff, decide_eq_true_eq, decide_eq_false_iff_not] at hbefore ⊢
        omega
      · exact fun g hg => not_before_of_before hbefore (hfirst g hg)
    · rename_i hbehind
      refine List.pairwise_cons.mpr ⟨?_, ih hrest⟩
      intro g hg
      rcases List.mem_cons.mp ((putEntry_perm entry fs).subset hg) with rfl | hg
      · exact Bool.eq_false_of_not_eq_true hbehind
      · exact hfirst g hg

/-! ## Steps -/

variable {s s₁ s' : ArbiterState} {p : ArbiterParams} {e : ArbiterEvent} {entry : QueuedGpuTask}
  {retry : List QueuedGpuTask} {evicted : Bool} {phase : CheckPhase}

/-- A step that leaves the pass where it was. -/
theorem RespectsPriority.same (hdrain : s'.drain = s.drain) : RespectsPriority s e s' where
  first := by
    intro retry entry hloop hchecking
    rw [hdrain, hloop] at hchecking
    contradiction
  once := fun _ _ _ _ => .inl hdrain.symm
  refused := fun _ _ _ _ => .inl hdrain.symm
  victim := fun _ _ _ _ => .inl hdrain.symm
  recheck := fun _ _ _ _ => .inl hdrain

/-- A step out of a check that evicts nothing. -/
theorem RespectsPriority.ofChecking (hdrain : s.drain = .checking entry retry evicted phase)
    (hnext : ∀ entry retry eviction, s'.drain ≠ .evicting entry retry eviction) :
    RespectsPriority s e s' where
  first := by simp [hdrain]
  once := fun entry retry eviction h => absurd h (hnext entry retry eviction)
  refused := fun entry retry eviction h => absurd h (hnext entry retry eviction)
  victim := fun entry retry eviction h => absurd h (hnext entry retry eviction)
  recheck := by simp [hdrain]

variable {admission : GpuAdmission} {who : Checker} {request : Request}

/-- A refused entry evicts the victim of lowest priority, or it goes to the retries. -/
theorem RespectsPriority.drainChecked (hchecking : s₁.drain = .checking entry retry evicted phase)
    (hdrain : s₁.drain = s.drain) (hrunning : s₁.running = s.running)
    (hverdict : s.verdict e = some (.drain, admission)) :
    RespectsPriority s e (s₁.drainChecked p admission) := by
  have hbefore : s.drain = .checking entry retry evicted phase := hdrain.symm.trans hchecking
  unfold ArbiterState.drainChecked
  simp only [hchecking]
  split
  · split
    · exact .ofChecking hbefore fun _ _ _ => by simp [releaseReservation]
    · exact .ofChecking hbefore fun _ _ _ => by simp [spawn]
  · rename_i hrefused
    split
    · rename_i taskId r hvictim
      rw [Option.ite_none_right_eq_some, hrunning] at hvictim
      obtain ⟨hlower, hlargest⟩ := lowestPriority_max hvictim.2
      constructor
      · simp [hbefore]
      · rintro _ _ _ ⟨⟩
        exact .inr ⟨phase, hbefore⟩
      · rintro _ _ _ ⟨⟩
        exact .inr ⟨admission, hverdict, Bool.eq_false_of_not_eq_true hrefused⟩
      · rintro _ _ _ ⟨⟩
        refine .inr ⟨r, get?_of_lowestPriority hvictim.2, hlower, ?_⟩
        exact fun taskId other hget => hlargest (taskId, other) (Dict.mem_entries_iff.mpr hget)
      · simp [hbefore]
    · exact .ofChecking hbefore fun _ _ _ => by simp [releaseReservation]

/-- The queue keeps its order, and the pass respects the priorities. -/
def Orderly (s : ArbiterState) (e : ArbiterEvent) (s' : ArbiterState) : Prop :=
  RespectsPriority s e s' ∧ InOrder s'.queue

section

variable (h : InOrder s.queue)
include h

/-- A step that leaves the queue and the pass alone. -/
theorem orderly_same (hdrain : s'.drain = s.drain) (hqueue : s'.queue = s.queue) : Orderly s e s' :=
  ⟨.same hdrain, hqueue ▸ h⟩

/-- A step that puts an entry into the queue. -/
theorem orderly_put (hdrain : s'.drain = s.drain)
    (hqueue : s'.queue = putEntry entry s.queue) : Orderly s e s' :=
  ⟨.same hdrain, hqueue ▸ h.putEntry entry⟩

/-- A run starts. -/
theorem orderly_startRun (hqueue : s₁.queue = s.queue)
    (hdrain : s₁.drain = s.drain) (k : SubId) (j : Job) (leaseId : LeaseId)
    (now : Cluster.Instant) : Orderly s e (s₁.startRun k j leaseId now) := by
  rcases startRun_cases s₁ k j leaseId now with ⟨-, heq⟩ | ⟨-, c, -, heq⟩ | ⟨-, how, heq⟩
  all_goals
    rw [heq]
    exact orderly_same h hdrain hqueue

/-- An eviction begins. -/
theorem orderly_evictTask (evictor : Nat) (taskId : TaskId)
    (bySelf : Bool) : Orderly s e (s.evictTask evictor taskId bySelf) := by
  unfold evictTask
  split
  · exact orderly_same h rfl rfl
  · split <;> exact orderly_same h rfl rfl

/-- After a check, a submission runs or is put into the queue and a drain pass goes on. -/
theorem orderly_checked {k : SubId}
    (hcheck : s₁.checking who = some (k, request, phase)) (hqueue : s₁.queue = s.queue)
    (hdrain : s₁.drain = s.drain) (hrunning : s₁.running = s.running)
    (hverdict : s.verdict e = some (who, admission)) (leaseId : LeaseId) (now : Cluster.Instant) :
    Orderly s e (s₁.checked p who admission leaseId now) := by
  cases who with
  | submit k' =>
    obtain ⟨-, j, hget, -, -⟩ := checking_submit hcheck
    simp only [checked, submitChecked, hget]
    split
    · exact orderly_startRun h hqueue hdrain k' _ leaseId now
    · rcases enqueue_cases p s₁ k' j with ⟨-, error, heq⟩ | ⟨-, heq⟩
      all_goals rw [heq]
      · exact orderly_same h hdrain hqueue
      · exact orderly_put h hdrain (congrArg (putEntry _) hqueue)
  | drain =>
    obtain ⟨entry, retry, evicted, hchecking, -, -⟩ := checking_drain hcheck
    refine ⟨.drainChecked hchecking hdrain hrunning hverdict, ?_⟩
    have hkept : (s₁.drainChecked p admission).queue = s₁.queue := by
      rcases drainChecked_cases hchecking admission with
        ⟨-, -, heq⟩ | ⟨-, -, heq⟩ | ⟨-, _, _, -, heq⟩ | ⟨-, -, heq⟩
      all_goals exact (congrArg queue heq).trans rfl
    change InOrder (s₁.drainChecked p admission).queue
    rw [hkept, hqueue]
    exact h

/-- A check goes on. -/
theorem orderly_setPhase {k : SubId}
    (hcheck : s₁.checking who = some (k, request, phase)) (hqueue : s₁.queue = s.queue)
    (hdrain : s₁.drain = s.drain) (next : CheckPhase) : Orderly s e (s₁.setPhase next who) := by
  cases who with
  | submit k' => exact orderly_same h hdrain hqueue
  | drain =>
    obtain ⟨entry, retry, evicted, hchecking, -, -⟩ := checking_drain hcheck
    simp only [setPhase, hchecking]
    exact ⟨.ofChecking (hdrain.symm.trans hchecking) fun _ _ _ => by simp, hqueue.symm ▸ h⟩

/-- A move of the drain pass respects the priorities. -/
theorem orderly_drainMove (hmove : DrainMove p s s') : Orderly s e s' := by
  cases hmove with
  | drained hdrain hqueue | finished hdrain | requeueSkip hdrain hcancelled =>
    exact ⟨⟨by simp, by simp, by simp, by simp, by simp [hdrain]⟩, h⟩
  | skip hdrain hqueue hcancelled =>
    rw [hqueue] at h
    exact ⟨.same rfl, (List.pairwise_cons.mp h).2⟩
  | @dequeue retry entry rest hdrain hqueue hcancelled =>
    rw [hqueue] at h
    obtain ⟨hfirst, hrest⟩ := List.pairwise_cons.mp h
    refine ⟨⟨?_, by simp, by simp, by simp, by simp [hdrain]⟩, hrest⟩
    rintro _ _ - ⟨⟩
    rw [hqueue]
    refine ⟨List.mem_cons_self, List.forall_mem_cons.mpr ⟨?_, hfirst⟩⟩
    simp [QueuedGpuTask.before]
  | requeueDrop hdrain hcancelled hfull =>
    exact ⟨⟨by simp [hdrain], by simp [resolveFuture], by simp [resolveFuture],
      by simp [resolveFuture], by simp [hdrain]⟩, h⟩
  | requeuePut hdrain hcancelled hfull =>
    exact ⟨⟨by simp, by simp, by simp, by simp, by simp [hdrain]⟩, h.putEntry _⟩

/-- Every move respects the priorities. -/
theorem orderly_move (hmove : Move p s e s') : Orderly s e s' := by
  cases hmove with
  | @submit k request leaseId now _ _ =>
    rcases submit_cases s k request leaseId now with ⟨error, heq⟩ | ⟨-, heq⟩ | ⟨-, -, heq⟩
    all_goals rw [heq]
    · exact orderly_same h rfl rfl
    · exact orderly_same h rfl rfl
    · exact orderly_startRun h rfl rfl k _ leaseId now
  | @availableRead who k request probe leaseId now hcheck _ =>
    have hswept : (s.sweep now).checking who = some (k, request, .available) := by
      cases who <;> exact hcheck
    rcases availableRead_cases p s who k request probe leaseId now with
      ⟨effectiveFree, heq⟩ | ⟨c, hcluster, htotal, heq⟩
    all_goals rw [heq]
    · exact orderly_setPhase h hswept rfl rfl _
    · exact orderly_checked h ((checking_noteSite _ _ _ _).trans hswept) rfl rfl rfl
        (verdict_availableRead hcheck leaseId hcluster htotal) _ _
  | @acquire who k request effectiveFree now hcheck _ =>
    exact orderly_setPhase h (checking_locked hcheck now) rfl rfl _
  | @reserved who k request effectiveFree probe rid leaseId now hcheck _ _ =>
    have hverdict := verdict_reserved hcheck probe rid leaseId now
    have hissued : { s with lock := none, issued := rid :: s.issued }.checking who =
        some (k, request, .probing effectiveFree) := by
      cases who <;> exact hcheck
    rcases reserved_cases p s who k request effectiveFree probe rid leaseId now with
      ⟨hnone, heq⟩ | ⟨hsome, -, heq⟩
    all_goals rw [heq]
    · rw [hnone] at hverdict
      exact orderly_checked h hissued rfl rfl rfl hverdict _ _
    · rw [hsome] at hverdict
      exact orderly_checked h ((checking_noteGrant _ _ _ _ _ _ _).trans hissued) rfl rfl rfl
        hverdict _ _
  | runStarts _ _ _ => exact orderly_startRun h rfl rfl _ _ _ _
  | cancelOp | evict => exact orderly_evictTask h _ _ _
  | drainBegins hdrain => exact ⟨⟨by simp, by simp, by simp, by simp, by simp [hdrain]⟩, h⟩
  | drainStep hmove => exact orderly_drainMove h hmove
  | drainEvicted hdrain _ =>
    refine ⟨⟨by simp [hdrain], by simp, by simp, by simp, ?_⟩, h⟩
    rintro entry retry eviction hbefore
    cases hdrain.symm.trans hbefore
    exact .inr rfl
  | drainRaises hdrain _ => exact ⟨.ofChecking hdrain fun _ _ _ => by simp, h⟩
  | _ => exact orderly_same h rfl rfl

end

/-! ## Runs -/

/-- A drain pass respects the priorities, in every run. -/
theorem respectsPriority_of_run (p : ArbiterParams) (ttlSeconds : Vram.Clock)
    (cluster : Option ClusterManager) (events : List ArbiterEvent) (event : ArbiterEvent)
    (s s' : ArbiterState) (hrun : run (step p) (init ttlSeconds cluster) events = some s)
    (hstep : s.step p event = some s') : RespectsPriority s event s' := by
  have hempty : InOrder (init ttlSeconds cluster).queue := List.Pairwise.nil
  have hsorted : InOrder s.queue :=
    invariant_of_run (I := fun t : ArbiterState => InOrder t.queue)
      (fun _ _ _ h hmove => (orderly_move h (move_of_step hmove)).2) hempty hrun
  exact (orderly_move hsorted (move_of_step hstep)).1

/-- A task of priority 20 runs when one of priority 10 is refused by a drain pass. -/
def refusedWhileRunning : List ArbiterEvent :=
  [ArbiterEvent.submit 1 (demoRequest "t") "" 0] ++ demoCheck (.submit 1) 8000 "r1" ++
    [ArbiterEvent.submit 2 { demoRequest "u" with priority := 10 } "" 0] ++
    demoCheck (.submit 2) 1000 "r2" ++
    [ArbiterEvent.drainBegins, .drainStep, .availableRead .drain (some (1000, 8000)) "" 0,
      .acquire .drain 0]

theorem respectsPriority_of_run_refused :
    ∃ s s' entry, run (step demoParams) (init 3600 none) refusedWhileRunning = some s ∧
      s.step demoParams (.reserved .drain (some (1000, 8000)) "r3" "" 0) = some s' ∧
      s'.drain = .evicting entry [] ⟨1, "t", none⟩ ∧
        RespectsPriority s (.reserved .drain (some (1000, 8000)) "r3" "" 0) s' := by
  have hend : ((run (step demoParams) (init 3600 none) refusedWhileRunning).bind fun s =>
      s.step demoParams (.reserved .drain (some (1000, 8000)) "r3" "" 0)).map (·.drain) =
      some (.evicting ⟨1, 2, { demoRequest "u" with priority := 10 }⟩ [] ⟨1, "t", none⟩) := by
    decide
  obtain ⟨s', hs', hdrain⟩ := Option.map_eq_some_iff.mp hend
  obtain ⟨s, hrun, hstep⟩ := Option.bind_eq_some_iff.mp hs'
  exact ⟨s, s', _, hrun, hstep, hdrain, respectsPriority_of_run _ _ _ _ _ _ _ hrun hstep⟩

end ArbiterState

end TinyAgentOS.Gpu
