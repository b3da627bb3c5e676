import TinyAgentOS.Gpu.Lifecycle

/-!
# The books of the admission queue

Two side tables shadow the priority queue: `_queued_entries` lists the
entries by task id, `_cancelled_ids` marks those to be skipped.  An entry
that is present, in the queue or with a drain pass, is either listed and its
submitter waits, or it is marked and its submitter's future is cancelled.

Main results:

- `Books.move`: what every move of every coroutine keeps.
- `queueKept_of_orderly`: the runs in which the side tables agree with the queue.
- `resubmission_skipped`: an evicted task's id makes a later submission wait forever.
-/

namespace TinyAgentOS.Gpu

open Cluster Collections Transition Vram

namespace ArbiterState

/-! ## The property and the condition -/

/-- The submitter's future is unresolved. -/
def Unresolved (s : ArbiterState) (e : QueuedGpuTask) : Prop :=
  ∃ j, s.jobs.get? e.job = some j ∧ j.future = .pending

/-- The future is resolved and the submitter, still suspended on it, is about to wake. -/
def Waking (s : ArbiterState) (e : QueuedGpuTask) : Prop :=
  ∃ j c how, s.jobs.get? e.job = some j ∧ j.submitter = .waiting c ∧ j.future = .resolved how

/-- An id is listed exactly while an entry under it is present with its submitter's future
unresolved, unless that submitter is just about to wake; only present entries are marked; what
is listed has not started; and no entry whose submitter waits is skipped. -/
structure QueueKept (s : ArbiterState) : Prop where
  listed : ∀ taskId, (∀ e ∈ present s, e.taskId = taskId → ¬Waking s e) →
    ((s.queuedEntries.get? taskId).isSome = true ↔
      ∃ e ∈ present s, e.taskId = taskId ∧ Unresolved s e)
  marked : ∀ taskId ∈ s.cancelledIds, ∃ e ∈ present s, e.taskId = taskId
  notStarted : ∀ taskId e, s.queuedEntries.get? taskId = some e → e ∈ present s ∧
    ∃ j, s.jobs.get? e.job = some j ∧ j.run = .absent
  notSkipped : ∀ e ∈ present s, e.taskId ∈ s.cancelledIds → ¬Unresolved s e

/-- A refused submission queues only under an id that is not present; a submitter is told of a
cancellation only while its entry is present; a drain pass has room to put its entries back, and
nothing ends it early. -/
def QueueOrderly (p : ArbiterParams) (s : ArbiterState) : ArbiterEvent → Prop
  | .wake k =>
    ∀ j ∈ s.jobs.get? k, j.submitter = .waiting true ∨ j.future = .resolved .cancelled →
      ∃ e ∈ present s, e.job = k
  | .drainStep =>
    match s.drain with
    | .requeue (entry :: _) => entry.taskId ∈ s.cancelledIds ∨ s.queueFull p = false
    | _ => True
  | .drainRaises => False
  | event =>
    match s.verdict event with
    | some (.submit k, admission) =>
      admission.admitted = true ∨ s.queueFull p = true ∨
        ∀ j ∈ s.jobs.get? k, ∀ e ∈ present s, e.taskId ≠ j.request.taskId
    | _ => True

instance (p : ArbiterParams) (s : ArbiterState) (event : ArbiterEvent) :
    Decidable (QueueOrderly p s event) := by
  unfold QueueOrderly
  split
  · infer_instance
  · split <;> infer_instance
  · infer_instance
  · split <;> infer_instance

/-! ## The invariant -/

/-- A marked entry's submitter has been cancelled; an unmarked entry's waits. -/
def EntryOk (s : ArbiterState) (e : QueuedGpuTask) (j : Job) : Prop :=
  if e.taskId ∈ s.cancelledIds then j.future = .resolved .cancelled
  else (∃ c, j.submitter = .waiting c) ∧ (j.future = .pending ∨ j.future = .resolved .cancelled)

structure Books (s : ArbiterState) : Prop where
  ids : ((present s).map QueuedGpuTask.taskId).Nodup
  entries : ∀ e ∈ present s, ∀ j, s.jobs.get? e.job = some j → EntryOk s e j
  listed : ∀ taskId e, s.queuedEntries.get? taskId = some e ↔
    e ∈ present s ∧ e.taskId = taskId ∧ taskId ∉ s.cancelledIds
  marked : ∀ taskId ∈ s.cancelledIds, ∃ e ∈ present s, e.taskId = taskId

/-- The queue is empty at the start. -/
theorem books_init (ttlSeconds : Vram.Clock) (cluster : Option ClusterManager) :
    Books (init ttlSeconds cluster) where
  ids := List.nodup_nil
  entries := by simp [init, present, Drain.held]
  listed := by simp [init, present, Drain.held]
  marked := by simp [init]

variable {e : QueuedGpuTask} {s s' : ArbiterState} {k : SubId} {j : Job} {who : Checker}
  {request : Request} {p : ArbiterParams} {phase : CheckPhase} {admission : GpuAdmission}

variable {e' entry : QueuedGpuTask} {event : ArbiterEvent} {f : Job → Job} {now : Vram.Clock}
  {probe : Probe} {leaseId : LeaseId}

section

variable (h : Books s)
include h

/-- A task id is queued once. -/
theorem Books.eq_of_taskId
    (he : e ∈ present s) (he' : e' ∈ present s) (heq : e.taskId = e'.taskId) : e = e' :=
  List.inj_on_of_nodup_map h.ids he he' heq

/-- The books say what the claim says. -/
theorem Books.queueKept (hplaced : Placed s) : QueueKept s where
  listed := by
    intro taskId hawake
    constructor
    · intro hsome
      obtain ⟨e, he⟩ := Option.isSome_iff_exists.mp hsome
      obtain ⟨hmem, hid, hunmarked⟩ := (h.listed taskId e).mp he
      obtain ⟨j, hget, _⟩ := hplaced.queued e hmem
      have hok := h.entries e hmem j hget
      rw [EntryOk, if_neg (hid ▸ hunmarked)] at hok
      rcases hok with ⟨⟨c, hwaiting⟩, hpending | hcancelled⟩
      · exact ⟨e, hmem, hid, j, hget, hpending⟩
      · exact absurd ⟨j, c, _, hget, hwaiting, hcancelled⟩ (hawake e hmem hid)
    · intro hpresent
      rcases hpresent with ⟨e, hmem, hid, j, hget, hpending⟩
      have hunmarked : taskId ∉ s.cancelledIds := by
        intro hmarked
        have hok := h.entries e hmem j hget
        rw [EntryOk, if_pos (hid ▸ hmarked), hpending] at hok
        contradiction
      rw [(h.listed taskId e).mpr ⟨hmem, hid, hunmarked⟩]
      rfl
  marked := h.marked
  notStarted := by
    intro taskId e he
    have hmem := ((h.listed taskId e).mp he).1
    obtain ⟨j, hget, _, hunstarted, _⟩ := hplaced.queued e hmem
    exact ⟨hmem, j, hget, hunstarted.1⟩
  notSkipped := by
    intro e hmem hmarked hunresolved
    rcases hunresolved with ⟨j, hget, hpending⟩
    have hok := h.entries e hmem j hget
    rw [EntryOk, if_pos hmarked, hpending] at hok
    contradiction

/-! ### Changes of the books -/

/-- The present entries and the side tables are as they were, the submitters still as they
have to be. -/
theorem Books.keep (hpresent : (present s').Perm (present s))
    (hqueued : ∀ taskId, s'.queuedEntries.get? taskId = s.queuedEntries.get? taskId)
    (hcancelled : s'.cancelledIds = s.cancelledIds)
    (hentries : ∀ e ∈ present s, ∀ j, s'.jobs.get? e.job = some j → EntryOk s e j) : Books s' where
  ids := (hpresent.map _).nodup_iff.mpr h.ids
  entries := by
    intro e he j hget
    unfold EntryOk
    rw [hcancelled]
    exact hentries e (hpresent.subset he) j hget
  listed := by
    intro taskId e
    rw [hqueued, hcancelled, hpresent.mem_iff]
    exact h.listed taskId e
  marked := by
    intro taskId hmem
    rw [hcancelled] at hmem
    obtain ⟨e, he, hid⟩ := h.marked taskId hmem
    exact ⟨e, hpresent.symm.subset he, hid⟩

/-- Neither the queue nor the submissions move. -/
theorem Books.same (hpresent : (present s').Perm (present s))
    (hqueued : s'.queuedEntries = s.queuedEntries) (hcancelled : s'.cancelledIds = s.cancelledIds)
    (hjobs : s'.jobs = s.jobs) : Books s' := by
  refine h.keep hpresent (fun taskId => by rw [hqueued]) hcancelled ?_
  rw [hjobs]
  exact h.entries

/-- A submission that is not present goes on. -/
theorem Books.elsewhere {j' : Job}
    (hk : ∀ e ∈ present s, e.job ≠ k) (hpresent : present s' = present s)
    (hqueued : s'.queuedEntries = s.queuedEntries) (hcancelled : s'.cancelledIds = s.cancelledIds)
    (hjobs : s'.jobs = s.jobs.set k j') : Books s' := by
  refine h.keep (hpresent ▸ List.Perm.refl _) (fun taskId => by rw [hqueued]) hcancelled ?_
  intro e he j hget
  rw [hjobs, Dict.get?_set_of_ne _ _ (Ne.symm (hk e he))] at hget
  exact h.entries e he j hget

/-- A new entry queues under an id of its own. -/
theorem Books.add (hpresent : (present s').Perm (e :: present s))
    (hqueued : s'.queuedEntries = s.queuedEntries.set e.taskId e)
    (hcancelled : s'.cancelledIds = s.cancelledIds) (hnew : ∀ e' ∈ present s, e'.taskId ≠ e.taskId)
    (hself : ∀ j, s'.jobs.get? e.job = some j →
      (∃ c, j.submitter = .waiting c) ∧ j.future = .pending)
    (hjobs : ∀ e' ∈ present s, s'.jobs.get? e'.job = s.jobs.get? e'.job) : Books s' := by
  have hunmarked : e.taskId ∉ s.cancelledIds := by
    intro hmem
    obtain ⟨e', he', hid⟩ := h.marked e.taskId hmem
    exact hnew e' he' hid
  have hsplit : ∀ e', e' ∈ present s' ↔ e' = e ∨ e' ∈ present s := by
    intro e'
    rw [hpresent.mem_iff, List.mem_cons]
  refine ⟨?_, ?_, ?_, ?_⟩
  · refine (hpresent.map _).nodup_iff.mpr (List.nodup_cons.mpr ⟨?_, h.ids⟩)
    intro hmem
    obtain ⟨e', he', hid⟩ := List.mem_map.mp hmem
    exact hnew e' he' hid
  · intro e' he' j hget
    unfold EntryOk
    rw [hcancelled]
    rcases (hsplit e').mp he' with rfl | hold
    · rw [if_neg hunmarked]
      exact ⟨(hself j hget).1, .inl (hself j hget).2⟩
    · rw [hjobs e' hold] at hget
      exact h.entries e' hold j hget
  · intro taskId e'
    rw [hqueued, hcancelled, Dict.get?_set, hsplit]
    by_cases hid : e.taskId = taskId
    · rw [if_pos hid, Option.some.injEq]
      constructor
      · rintro rfl
        exact ⟨.inl rfl, hid, hid ▸ hunmarked⟩
      · rintro ⟨hmem, hid', _⟩
        rcases hmem with rfl | hold
        · rfl
        · exact absurd (hid'.trans hid.symm) (hnew e' hold)
    · rw [if_neg hid, h.listed]
      constructor
      · rintro ⟨hold, hrest⟩
        exact ⟨.inr hold, hrest⟩
      · rintro ⟨hmem, hid', hrest⟩
        rcases hmem with rfl | hold
        · exact absurd hid' hid
        · exact ⟨hold, hid', hrest⟩
  · intro taskId hmem
    rw [hcancelled] at hmem
    obtain ⟨e', he', hid⟩ := h.marked taskId hmem
    exact ⟨e', (hsplit e').mpr (.inr he'), hid⟩

/-- A present entry is marked, and its submitter cancelled. -/
theorem Books.mark (he : e ∈ present s) (hpresent : present s' = present s)
    (hqueued : s'.queuedEntries = s.queuedEntries.pop e.taskId)
    (hcancelled : s'.cancelledIds = insert e.taskId s.cancelledIds)
    (hself : ∀ j, s'.jobs.get? e.job = some j → j.future = .resolved .cancelled)
    (hjobs : ∀ e' ∈ present s, e' ≠ e → s'.jobs.get? e'.job = s.jobs.get? e'.job) : Books s' := by
  refine ⟨hpresent ▸ h.ids, ?_, ?_, ?_⟩
  · intro e' he' j hget
    rw [hpresent] at he'
    unfold EntryOk
    rw [hcancelled]
    by_cases heq : e' = e
    · subst heq
      rw [if_pos (Finset.mem_insert_self _ _)]
      exact hself j hget
    · have hid : e'.taskId ≠ e.taskId := fun hid => heq (h.eq_of_taskId he' he hid)
      rw [hjobs e' he' heq] at hget
      simp only [Finset.mem_insert, hid, false_or]
      exact h.entries e' he' j hget
  · intro taskId e'
    rw [hqueued, hcancelled, hpresent, Dict.get?_pop, Finset.mem_insert, not_or]
    by_cases hid : e.taskId = taskId
    · simp [hid]
    · rw [if_neg hid, h.listed]
      simp [Ne.symm hid]
  · intro taskId hmem
    rw [hpresent]
    rw [hcancelled, Finset.mem_insert] at hmem
    rcases hmem with rfl | hold
    · exact ⟨e, he, rfl⟩
    · exact h.marked taskId hold

/-- An entry that leaves leaves none of its task id. -/
theorem Books.not_mem_rest (hpresent : (present s).Perm (e :: present s')) :
    ∀ e' ∈ present s', e'.taskId ≠ e.taskId := by
  have hnodup := (hpresent.map QueuedGpuTask.taskId).nodup_iff.mp h.ids
  intro e' he' hid
  exact (List.nodup_cons.mp hnodup).1 (hid ▸ List.mem_map_of_mem he')

/-- A marked entry is skipped, and its mark goes. -/
theorem Books.skip
    (hpresent : (present s).Perm (e :: present s')) (hmarked : e.taskId ∈ s.cancelledIds)
    (hqueued : s'.queuedEntries = s.queuedEntries)
    (hcancelled : s'.cancelledIds = s.cancelledIds.erase e.taskId)
    (hjobs : s'.jobs = s.jobs) : Books s' := by
  have hrest := h.not_mem_rest hpresent
  have hsplit : ∀ e', e' ∈ present s ↔ e' = e ∨ e' ∈ present s' := by
    intro e'
    rw [hpresent.mem_iff, List.mem_cons]
  refine ⟨?_, ?_, ?_, ?_⟩
  · exact (List.nodup_cons.mp ((hpresent.map QueuedGpuTask.taskId).nodup_iff.mp h.ids)).2
  · intro e' he' j hget
    rw [hjobs] at hget
    have hok := h.entries e' ((hsplit e').mpr (.inr he')) j hget
    simpa only [EntryOk, hcancelled, Finset.mem_erase, ne_eq, hrest e' he', not_false_eq_true,
      true_and] using hok
  · intro taskId e'
    rw [hqueued, hcancelled, h.listed, hsplit, Finset.mem_erase]
    constructor
    · rintro ⟨hmem, hid, hunmarked⟩
      rcases hmem with rfl | hold
      · exact absurd (hid ▸ hmarked) hunmarked
      · exact ⟨hold, hid, fun hboth => hunmarked hboth.2⟩
    · rintro ⟨hmem, hid, hunmarked⟩
      refine ⟨.inr hmem, hid, fun hin => hunmarked ⟨?_, hin⟩⟩
      exact hid ▸ hrest e' hmem
  · intro taskId hmem
    rw [hcancelled, Finset.mem_erase] at hmem
    obtain ⟨e', he', hid⟩ := h.marked taskId hmem.2
    rcases (hsplit e').mp he' with rfl | hold
    · exact absurd hid.symm hmem.1
    · exact ⟨e', hold, hid⟩

/-- An unmarked entry starts. -/
theorem Books.leave
    (hpresent : (present s).Perm (e :: present s')) (hunmarked : e.taskId ∉ s.cancelledIds)
    (hqueued : s'.queuedEntries = s.queuedEntries.pop e.taskId)
    (hcancelled : s'.cancelledIds = s.cancelledIds)
    (hjobs : ∀ e' ∈ present s', s'.jobs.get? e'.job = s.jobs.get? e'.job) : Books s' := by
  have hrest := h.not_mem_rest hpresent
  have hsplit : ∀ e', e' ∈ present s ↔ e' = e ∨ e' ∈ present s' := by
    intro e'
    rw [hpresent.mem_iff, List.mem_cons]
  refine ⟨?_, ?_, ?_, ?_⟩
  · exact (List.nodup_cons.mp ((hpresent.map QueuedGpuTask.taskId).nodup_iff.mp h.ids)).2
  · intro e' he' j hget
    rw [hjobs e' he'] at hget
    unfold EntryOk
    rw [hcancelled]
    exact h.entries e' ((hsplit e').mpr (.inr he')) j hget
  · intro taskId e'
    rw [hqueued, hcancelled, Dict.get?_pop]
    by_cases hid : e.taskId = taskId
    · rw [if_pos hid]
      constructor
      · intro hnone
        contradiction
      · rintro ⟨hmem, hid', _⟩
        exact absurd (hid'.trans hid.symm) (hrest e' hmem)
    · rw [if_neg hid, h.listed, hsplit]
      constructor
      · rintro ⟨hmem, hid', hrest'⟩
        rcases hmem with rfl | hold
        · exact absurd hid' hid
        · exact ⟨hold, hid', hrest'⟩
      · rintro ⟨hmem, hid', hrest'⟩
        exact ⟨.inr hmem, hid', hrest'⟩
  · intro taskId hmem
    rw [hcancelled] at hmem
    obtain ⟨e', he', hid⟩ := h.marked taskId hmem
    rcases (hsplit e').mp he' with rfl | hold
    · exact absurd (hid ▸ hmem) hunmarked
    · exact ⟨e', hold, hid⟩

end

/-! ### The moves -/

/-- A submission that has begun is not queued. -/
theorem Placed.not_present_of_begun (h : Placed s)
    (hget : s.jobs.get? k = some j) (hbegun : j.run.begun = true) : ∀ e ∈ present s, e.job ≠ k := by
  refine h.not_present hget ?_
  intro hrun
  simp [hrun, RunState.begun] at hbegun

/-- A submission is queued once. -/
theorem Placed.eq_of_job (h : Placed s)
    (he : e ∈ present s) (he' : e' ∈ present s) (heq : e.job = e'.job) : e = e' :=
  List.inj_on_of_nodup_map h.nodup he he' heq

/-- The end of a run leaves the queue alone. -/
theorem Books.finishRun (h : Books s)
    (hk : ∀ e ∈ present s, e.job ≠ k) (j : Job) (how : Outcome) : Books (s.finishRun k j how) :=
  h.elsewhere hk rfl rfl rfl rfl

/-- The start of a run leaves the queue alone. -/
theorem Books.startRun (h : Books s)
    (hk : ∀ e ∈ present s, e.job ≠ k) (j : Job) (leaseId : LeaseId) (now : Cluster.Instant) :
    Books (s.startRun k j leaseId now) := by
  rcases startRun_cases s k j leaseId now with ⟨_, heq⟩ | ⟨_, c, _, heq⟩ | ⟨_, how, heq⟩
  · rw [heq]
    exact h.elsewhere hk rfl rfl rfl rfl
  · rw [heq]
    exact h.elsewhere hk rfl rfl rfl rfl
  · rw [heq]
    exact h.finishRun hk j how

theorem Books.resolveFuture (h : Books s)
    (hk : ∀ e ∈ present s, e.job ≠ k) (how : Outcome) : Books (s.resolveFuture k how) := by
  refine h.keep (List.Perm.refl _) (fun _ => rfl) rfl ?_
  intro e he j hget
  simp only [ArbiterState.resolveFuture, Dict.get?_modify, if_neg (Ne.symm (hk e he))] at hget
  exact h.entries e he j hget

theorem Books.finishEvict (h : Books s) {ev : Eviction}
    (hk : ∀ e ∈ present s, e.job ≠ ev.job) : Books (s.finishEvict ev) := by
  have hreleased : Books ((s.releaseReservation ev.taskId).releaseLease ev.lease) :=
    h.same (List.Perm.refl _) rfl rfl rfl
  exact hreleased.resolveFuture hk .cancelled

/-- An eviction leaves the queue alone. -/
theorem Books.evictTask (h : Books s) (hplaced : Placed s) (evictor : Nat)
    (taskId : TaskId) (bySelf : Bool) : Books (s.evictTask evictor taskId bySelf) := by
  unfold ArbiterState.evictTask
  split
  · exact h
  · rename_i r hr
    simp only
    split
    · obtain ⟨j, hget, hrun, _⟩ := hplaced.running taskId r hr
      have hk := hplaced.not_present_of_begun hget (RunState.begun_of_registered hrun)
      have hpop : Books { s with running := s.running.pop taskId } :=
        h.same (List.Perm.refl _) rfl rfl rfl
      exact hpop.finishEvict hk
    · exact h.same (List.Perm.refl _) rfl rfl rfl

/-- A check goes on. -/
theorem Books.setPhase (h : Books s) (hplaced : Placed s) {before : CheckPhase}
    (hcheck : s.checking who = some (k, request, before)) (phase : CheckPhase) :
    Books (s.setPhase phase who) := by
  cases who with
  | submit k' =>
    obtain ⟨rfl, j, hget, _, hphase⟩ := checking_submit hcheck
    have hjobs : (s.setPhase phase (.submit k)).jobs =
        s.jobs.set k { j with submitter := .checking phase } := Dict.modify_of_get? hget _
    exact h.elsewhere (hplaced.free_of_checking hget hphase).queued rfl rfl rfl hjobs
  | drain =>
    obtain ⟨entry, retry, evicted, hdrain, _, _⟩ := checking_drain hcheck
    simp only [ArbiterState.setPhase, hdrain]
    refine h.same ?_ rfl rfl rfl
    simp only [present, hdrain, Drain.held]
    exact List.Perm.refl _

/-- A submission is queued, unless the queue is full. -/
theorem Books.enqueue (h : Books s) (hk : ∀ e ∈ present s, e.job ≠ k)
    (hnew : s.queueFull p = false → ∀ e ∈ present s, e.taskId ≠ j.request.taskId) :
    Books (s.enqueue p k j) := by
  rcases enqueue_cases p s k j with ⟨_, error, heq⟩ | ⟨hroom, heq⟩
  · rw [heq]
    exact h.elsewhere hk rfl rfl rfl rfl
  · rw [heq]
    have hperm : (putEntry ⟨s.seq + 1, k, j.request⟩ s.queue ++ s.drain.held).Perm
        (⟨s.seq + 1, k, j.request⟩ :: present s) :=
      (putEntry_perm _ s.queue).append_right s.drain.held
    refine h.add hperm rfl rfl (hnew hroom) ?_ ?_
    · intro j' hget
      cases (Dict.get?_set_self _ _ _).symm.trans hget
      exact ⟨⟨false, rfl⟩, rfl⟩
    · intro e he
      exact Dict.get?_set_of_ne _ _ (Ne.symm (hk e he))

/-- The drain pass starts an entry or puts it back. -/
theorem Books.drainChecked (h : Books s)
    (hplaced : Placed s) {retry : List QueuedGpuTask} {evicted : Bool}
    (hdrain : s.drain = .checking entry retry evicted phase)
    (admission : GpuAdmission) : Books (s.drainChecked p admission) := by
  have hleft : (present s).Perm (entry :: (s.queue ++ retry)) := by
    simp only [present, hdrain, Drain.held]
    exact List.perm_middle
  rcases drainChecked_cases hdrain admission with
    ⟨_, hmarked, heq⟩ | ⟨_, hunmarked, heq⟩ | ⟨_, taskId, r, _, heq⟩ | ⟨_, _, heq⟩
  · rw [heq]
    exact h.skip hleft hmarked rfl rfl rfl
  · rw [heq]
    refine h.leave hleft hunmarked rfl rfl ?_
    intro e he
    have hne : e.job ≠ entry.job := by
      intro hjob
      have hmem : e ∈ present s := hleft.symm.subset (List.mem_cons_of_mem _ he)
      have hentry : entry ∈ present s := hleft.symm.subset List.mem_cons_self
      have hsame := hplaced.eq_of_job hmem hentry hjob
      exact h.not_mem_rest hleft e he (congrArg QueuedGpuTask.taskId hsame)
    simp [spawn, Dict.get?_modify, Ne.symm hne]
  · rw [heq]
    refine h.same ?_ rfl rfl rfl
    simp only [present, hdrain, Drain.held]
    exact List.Perm.refl _
  · rw [heq]
    refine h.same ?_ rfl rfl rfl
    simp only [present, hdrain, Drain.held, releaseReservation]
    exact (List.perm_append_singleton entry retry).append_left _

/-- A check ends. -/
theorem Books.checked (h : Books s) (hplaced : Placed s)
    (hcheck : s.checking who = some (k, request, phase))
    (hnew : ∀ k, who = .submit k → admission.admitted = true ∨ s.queueFull p = true ∨
      ∀ j ∈ s.jobs.get? k, ∀ e ∈ present s, e.taskId ≠ j.request.taskId)
    (leaseId : LeaseId) (now : Cluster.Instant) :
    Books (s.checked p who admission leaseId now) := by
  cases who with
  | submit k' =>
    obtain ⟨rfl, j, hget, _, hphase⟩ := checking_submit hcheck
    have hk := (hplaced.free_of_checking hget hphase).queued
    simp only [ArbiterState.checked, submitChecked, hget]
    split
    · exact h.startRun hk _ leaseId now
    · rename_i hrefused
      refine h.enqueue hk ?_
      intro hroom
      rcases hnew k rfl with hadmitted | hfull | hids
      · exact absurd hadmitted hrefused
      · simp [hfull] at hroom
      · exact hids j hget
  | drain =>
    obtain ⟨entry, retry, evicted, hdrain, _, _⟩ := checking_drain hcheck
    exact h.drainChecked hplaced hdrain admission

/-- The condition on a verdict, for the checks of submissions. -/
theorem queueOrderly_verdict (horderly : QueueOrderly p s event)
    (hevent : (∃ probe leaseId now, event = .availableRead who probe leaseId now) ∨
      ∃ probe rid leaseId now, event = .reserved who probe rid leaseId now)
    (hverdict : s.verdict event = some (who, admission)) :
    ∀ k, who = .submit k → admission.admitted = true ∨ s.queueFull p = true ∨
      ∀ j ∈ s.jobs.get? k, ∀ e ∈ present s, e.taskId ≠ j.request.taskId := by
  rintro k rfl
  rcases hevent with ⟨probe, leaseId, now, rfl⟩ | ⟨probe, rid, leaseId, now, rfl⟩
  · simpa only [QueueOrderly, hverdict] using horderly
  · simpa only [QueueOrderly, hverdict] using horderly

/-- A note about a submission is no change of the books. -/
theorem Books.note (h : Books s)
    (hjobs : s'.jobs = s.jobs.modify k f) (hpresent : present s' = present s)
    (hqueued : s'.queuedEntries = s.queuedEntries) (hcancelled : s'.cancelledIds = s.cancelledIds)
    (hf : ∀ j, (f j).submitter = j.submitter ∧ (f j).future = j.future) : Books s' := by
  refine h.keep (hpresent ▸ List.Perm.refl _) (fun taskId => by rw [hqueued]) hcancelled ?_
  intro e he j hget
  rw [hjobs, Dict.get?_modify] at hget
  split at hget
  · obtain ⟨i, hi, rfl⟩ := Option.map_eq_some_iff.mp hget
    unfold EntryOk
    rw [(hf i).1, (hf i).2]
    exact h.entries e he i hi
  · exact h.entries e he j hget

theorem note_verdict (hjobs : s'.jobs = s.jobs.modify k f)
    (hpresent : present s' = present s) (hqueue : s'.queue = s.queue)
    (hf : ∀ j, (f j).request = j.request)
    (hnew : ∀ k, who = .submit k → admission.admitted = true ∨ s.queueFull p = true ∨
      ∀ j ∈ s.jobs.get? k, ∀ e ∈ present s, e.taskId ≠ j.request.taskId) :
    ∀ k, who = .submit k → admission.admitted = true ∨ s'.queueFull p = true ∨
      ∀ j ∈ s'.jobs.get? k, ∀ e ∈ present s', e.taskId ≠ j.request.taskId := by
  intro k' heq
  rcases hnew k' heq with hadmitted | hfull | hids
  · exact .inl hadmitted
  · exact .inr (.inl (by rwa [queueFull, hqueue]))
  · refine .inr (.inr ?_)
    intro i hi e he
    rw [hjobs, Dict.get?_modify, Option.mem_def] at hi
    rw [hpresent] at he
    split at hi
    · obtain ⟨i', hi', rfl⟩ := Option.map_eq_some_iff.mp hi
      rw [hf]
      exact hids i' hi' e he
    · exact hids i hi e he

/-- The first probe of a check. -/
theorem Books.availableRead (h : Books s) (hplaced : Placed s)
    (hcheck : s.checking who = some (k, request, phase))
    (horderly : QueueOrderly p s (.availableRead who probe leaseId now)) :
    Books (s.availableRead p who k request probe leaseId now) := by
  obtain ⟨j, hget, _⟩ := hplaced.job_of_checking hcheck
  have hswept : Books (s.sweep now) := h.same (List.Perm.refl _) rfl rfl rfl
  have hplaced' : Placed (s.sweep now) := hplaced.same ⟨rfl, rfl, rfl, rfl⟩ rfl
  have hcheck' : (s.sweep now).checking who = some (k, request, phase) := by
    cases who <;> exact hcheck
  rcases availableRead_cases p s who k request probe leaseId now with
    ⟨eff, heq⟩ | ⟨c, hcluster, htotal, heq⟩
  · rw [heq]
    exact hswept.setPhase hplaced' hcheck' _
  · rw [heq]
    have hnew := queueOrderly_verdict horderly (.inl ⟨probe, leaseId, now, rfl⟩)
      (verdict_availableRead hcheck leaseId hcluster htotal)
    have hchecked := fun site => (checking_noteSite (s.sweep now) who k site).trans hcheck'
    refine Books.checked ?_ (hplaced'.noteSite hget _) (hchecked _) ?_ leaseId now
    · exact hswept.note rfl rfl rfl rfl fun _ => ⟨rfl, rfl⟩
    · exact note_verdict rfl rfl rfl (fun _ => rfl) hnew

/-- The ledger's answer to a check. -/
theorem Books.reserved (h : Books s) (hplaced : Placed s) {effectiveFree : Option Int}
    (hcheck : s.checking who = some (k, request, .probing effectiveFree)) {rid : ReservationId}
    (horderly : QueueOrderly p s (.reserved who probe rid leaseId now)) :
    Books (s.reserved p who k request effectiveFree probe rid leaseId now) := by
  have hnoted : Books { s with lock := none, issued := rid :: s.issued } :=
    h.same (List.Perm.refl _) rfl rfl rfl
  have hplaced' : Placed { s with lock := none, issued := rid :: s.issued } :=
    hplaced.same ⟨rfl, rfl, rfl, rfl⟩ rfl
  have hcheck' : { s with lock := none, issued := rid :: s.issued }.checking who =
      some (k, request, .probing effectiveFree) := by
    cases who <;> exact hcheck
  obtain ⟨j, hget, _⟩ := hplaced.job_of_checking hcheck
  have hnew := queueOrderly_verdict horderly (.inr ⟨probe, rid, leaseId, now, rfl⟩)
    (verdict_reserved hcheck probe rid leaseId now)
  rcases reserved_cases p s who k request effectiveFree probe rid leaseId now with
    ⟨hdenied, heq⟩ | ⟨hgranted, _, heq⟩
  · rw [heq]
    rw [hdenied] at hnew
    exact hnoted.checked hplaced' hcheck' hnew leaseId now
  · rw [heq]
    rw [hgranted] at hnew
    have hchecked := (checking_noteGrant _ who k request.taskId rid
      (s.manager.grant ⟨rid, request.requiredVramMb, "gpu-task:" ++ request.taskId, now⟩)
      probe).trans hcheck'
    refine Books.checked ?_ (hplaced'.noteGrant hget _ _ _ _) hchecked ?_ leaseId now
    · exact hnoted.note rfl rfl rfl rfl fun _ => ⟨rfl, rfl⟩
    · exact note_verdict rfl rfl rfl (fun _ => rfl) hnew

/-- A move of the drain pass keeps the books. -/
theorem Books.drainMove (h : Books s)
    (horderly : QueueOrderly p s .drainStep) (hmove : DrainMove p s s') : Books s' := by
  cases hmove with
  | drained hdrain hqueue | finished hdrain =>
    refine h.same ?_ rfl rfl rfl
    simp only [present, hdrain, Drain.held]
    exact List.Perm.refl _
  | @skip retry entry rest hdrain hqueue hmarked =>
    refine h.skip ?_ hmarked rfl rfl rfl
    simp only [present, hqueue, List.cons_append]
    exact List.Perm.refl _
  | dequeue hdrain hqueue hunmarked =>
    refine h.same ?_ rfl rfl rfl
    simp only [present, hdrain, hqueue, Drain.held]
    exact List.perm_middle
  | @requeueSkip entry rest hdrain hmarked =>
    refine h.skip ?_ hmarked rfl rfl rfl
    simp only [present, hdrain, Drain.held]
    exact List.perm_middle
  | requeueDrop hdrain hunmarked hfull =>
    simp only [QueueOrderly, hdrain, hfull] at horderly
    rcases horderly with hmarked | hroom
    · exact absurd hmarked hunmarked
    · contradiction
  | @requeuePut entry rest hdrain hunmarked hroom =>
    have hmem : entry ∈ present s := by simp [present, hdrain, Drain.held]
    have hlisted := (h.listed entry.taskId entry).mpr ⟨hmem, rfl, hunmarked⟩
    refine h.keep ?_ ?_ rfl h.entries
    · simp only [present, hdrain, Drain.held]
      exact ((putEntry_perm entry s.queue).append_right rest).trans List.perm_middle.symm
    · intro taskId
      simp only [Dict.get?_set]
      split
      · rename_i heq
        rw [← heq, hlisted]
      · rfl

/-- A submitter is told of a cancellation while its entry is present. -/
theorem Books.wakeCancelled (h : Books s) (hplaced : Placed s) {how : Outcome}
    (hget : s.jobs.get? k = some j)
    (hfuture : j.future = .resolved how) (hpresent : ∃ e ∈ present s, e.job = k) :
    Books
      { s with
        queuedEntries := s.queuedEntries.pop j.request.taskId
        cancelledIds := insert j.request.taskId s.cancelledIds
        jobs := s.jobs.set k { j with submitter := .ended .cancelled } } := by
  rcases hpresent with ⟨e, he, rfl⟩
  obtain ⟨i, hi, hrequest, _⟩ := hplaced.queued e he
  cases hget.symm.trans hi
  have hid : j.request.taskId = e.taskId := by rw [hrequest]; rfl
  have hcancelled : j.future = .resolved .cancelled := by
    have hok := h.entries e he j hget
    unfold EntryOk at hok
    split at hok
    · exact hok
    · rcases hok.2 with hpending | hdone
      · simp [hfuture] at hpending
      · exact hdone
  refine h.mark he rfl (by rw [hid]) (by rw [hid]) ?_ ?_
  · intro i hi
    cases (Dict.get?_set_self _ _ _).symm.trans hi
    exact hcancelled
  · intro e' he' hne
    refine Dict.get?_set_of_ne _ _ ?_
    intro hjob
    exact hne (hplaced.eq_of_job he' he hjob.symm)

/-- A submitter that waits gives up. -/
theorem Books.cancelWaiting (h : Books s) (hget : s.jobs.get? k = some j) : Books { s with
        jobs := s.jobs.set k { j.resolveFuture .cancelled with submitter := .waiting true } } := by
  refine h.keep (List.Perm.refl _) (fun _ => rfl) rfl ?_
  intro e he i hi
  rcases Dict.get?_set_cases hi with ⟨heq, rfl⟩ | ⟨_, hi⟩
  · have hok := h.entries e he j (heq ▸ hget)
    unfold EntryOk at hok ⊢
    simp only [Job.resolveFuture_future]
    split
    · rename_i hmarked
      rw [if_pos hmarked] at hok
      simp [hok]
    · rename_i hunmarked
      rw [if_neg hunmarked] at hok
      refine ⟨⟨true, rfl⟩, ?_⟩
      rcases hok.2 with hpending | hdone
      · simp [hpending]
      · simp [hdone]
  · exact h.entries e he i hi

/-- A listed entry is cancelled through `cancel_op`. -/
theorem Books.cancelQueued (h : Books s) (hplaced : Placed s) {taskId : TaskId}
    (hentry : s.queuedEntries.get? taskId = some entry) :
    Books
      (({ s with
          queuedEntries := s.queuedEntries.pop taskId
          cancelledIds := insert taskId s.cancelledIds }.releaseReservation taskId).resolveFuture
        entry.job .cancelled) := by
  obtain ⟨he, rfl, hunmarked⟩ := (h.listed taskId entry).mp hentry
  refine h.mark he rfl rfl rfl ?_ ?_
  · intro i hi
    simp only [ArbiterState.resolveFuture, releaseReservation, Dict.get?_modify, if_true] at hi
    obtain ⟨j, hget, rfl⟩ := Option.map_eq_some_iff.mp hi
    have hok := h.entries entry he j hget
    rw [EntryOk, if_neg hunmarked] at hok
    rw [Job.resolveFuture_future]
    rcases hok.2 with hpending | hdone
    · simp [hpending]
    · simp [hdone]
  · intro e' he' hne
    have hjob : entry.job ≠ e'.job := fun heq => hne (hplaced.eq_of_job he' he heq.symm)
    simp [ArbiterState.resolveFuture, releaseReservation, Dict.get?_modify, hjob]

/-- What every orderly move of every coroutine keeps. -/
theorem Books.move (h : Books s)
    (hplaced : Placed s) (horderly : QueueOrderly p s event) (hmove : Move p s event s') :
    Books s' := by
  cases hmove with
  | @submit k request leaseId now hfresh _ =>
    have hk := (hplaced.free_of_none hfresh).queued
    rcases submit_cases s k request leaseId now with ⟨error, heq⟩ | ⟨_, heq⟩ | ⟨_, _, heq⟩
    · rw [heq]
      exact h.elsewhere hk rfl rfl rfl rfl
    · rw [heq]
      exact h.elsewhere hk rfl rfl rfl rfl
    · rw [heq]
      exact h.startRun hk _ leaseId now
  | availableRead hcheck _ => exact h.availableRead hplaced hcheck horderly
  | @acquire who k request effectiveFree now hcheck _ =>
    have hswept : Books { s.sweep now with lock := some (.checker who) } :=
      h.same (List.Perm.refl _) rfl rfl rfl
    have hplaced' : Placed { s.sweep now with lock := some (.checker who) } :=
      hplaced.same ⟨rfl, rfl, rfl, rfl⟩ rfl
    exact hswept.setPhase hplaced' (checking_locked hcheck now) _
  | reserved hcheck _ _ => exact h.reserved hplaced hcheck horderly
  | cancelChecking hget hchecking _ =>
    exact h.elsewhere (hplaced.free_of_checking hget hchecking).queued rfl rfl rfl rfl
  | cancelWaiting hget _ => exact h.cancelWaiting hget
  | @wakeCancelled k j c how hget hwaiting hfuture hcancelled =>
    refine h.wakeCancelled hplaced hget hfuture (horderly j hget ?_)
    rcases hcancelled with rfl | rfl
    · exact .inl hwaiting
    · exact .inr hfuture
  | @wakeAnswered k j c how hget _ hfuture hanswered =>
    refine h.elsewhere ?_ rfl rfl rfl rfl
    rintro e he rfl
    have hok := h.entries e he j hget
    unfold EntryOk at hok
    rw [hfuture] at hok
    split at hok
    · cases hok
      exact hanswered rfl
    · rcases hok.2 with hpending | hdone
      · contradiction
      · cases hdone
        exact hanswered rfl
  | runStarts hget hrun _ => exact h.startRun (hplaced.free_of_spawned hget hrun).queued _ _ _
  | payloadEnds hget hrun | renewalStops hget hrun =>
    exact h.finishRun (hplaced.not_present hget (by simp [hrun])) _ _
  | payloadStops hget hrun | propagate hget hrun _ =>
    exact h.elsewhere (hplaced.not_present hget (by simp [hrun])) rfl rfl rfl rfl
  | @leaseLost k j leaseId now c hget hrun _ =>
    have hrenewed : Books { s with cluster := some c } := h.same (List.Perm.refl _) rfl rfl rfl
    exact hrenewed.resolveFuture (hplaced.not_present hget (by simp [hrun])) _
  | cancelQueued hentry => exact h.cancelQueued hplaced hentry
  | cancelOp | evict => exact h.evictTask hplaced _ _ _
  | @evicted evictor eviction hget _ =>
    obtain ⟨j, hj, hbegun, _⟩ := hplaced.evictions eviction (.inl ⟨evictor, hget⟩)
    have hpop : Books { s with evictions := s.evictions.pop evictor } :=
      h.same (List.Perm.refl _) rfl rfl rfl
    exact hpop.finishEvict (hplaced.not_present_of_begun hj hbegun)
  | drainBegins hdrain =>
    refine h.same ?_ rfl rfl rfl
    simp only [present, hdrain, Drain.held]
    exact List.Perm.refl _
  | drainStep hmove => exact h.drainMove horderly hmove
  | @drainEvicted entry retry eviction hdrain _ =>
    obtain ⟨j, hj, hbegun, _⟩ := hplaced.evictions eviction (.inr ⟨entry, retry, hdrain⟩)
    refine (h.finishEvict (hplaced.not_present_of_begun hj hbegun)).same ?_ rfl rfl rfl
    have hheld : (s.finishEvict eviction).drain = s.drain := rfl
    simp only [present, hheld, hdrain, Drain.held]
    exact List.Perm.refl _
  | drainRaises _ _ => exact horderly.elim
  | _ => exact h.same (List.Perm.refl _) rfl rfl rfl

/-! ## Runs -/

/-- In orderly runs the side tables agree with the queue. -/
theorem queueKept_of_orderly (p : ArbiterParams) (ttlSeconds : Vram.Clock)
    (cluster : Option ClusterManager) (events : List ArbiterEvent) (s : ArbiterState)
    (hrun : run (step p) (init ttlSeconds cluster) events = some s)
    (hguard : Guarded (step p) (QueueOrderly p) (init ttlSeconds cluster) events) :
    QueueKept s := by
  have hkept := invariant_of_guarded_run (I := fun t => Placed t ∧ Books t)
    (fun _ _ _ h horderly hstep =>
      ⟨h.1.step hstep, h.2.move h.1 horderly (move_of_step hstep)⟩)
    ⟨placed_init ttlSeconds cluster, books_init ttlSeconds cluster⟩ hguard hrun
  exact hkept.2.queueKept hkept.1

/-! ### A submission under the id of an evicted task -/

def demoParams : ArbiterParams := ⟨100, true⟩

def demoRequest (taskId : TaskId) : Request := ⟨taskId, 20, "agent", 4000, none, "inference", none⟩

/-- A check of a host with this much VRAM free. -/
def demoCheck (who : Checker) (freeMb : Int) (rid : ReservationId) : List ArbiterEvent :=
  [.availableRead who (some (freeMb, 8000)) "" 0, .acquire who 0,
    .reserved who (some (freeMb, 8000)) rid "" 0]

/-- A task is queued, started by a drain pass and evicted; the same id is submitted again and
queued, and the next drain pass comes. -/
def evictedAndResubmitted : List ArbiterEvent :=
  [ArbiterEvent.submit 1 (demoRequest "t") "" 0] ++ demoCheck (.submit 1) 1000 "r1" ++
    [ArbiterEvent.drainBegins, .drainStep] ++ demoCheck .drain 8000 "r2" ++
    [ArbiterEvent.drainStep, .runStarts 1 "" 0, .evict 0 "t" false, .payloadEnds 1 .cancelled,
      .propagate 1, .evicted 0, .wake 1, .submit 2 (demoRequest "t") "" 0] ++
    demoCheck (.submit 2) 1000 "r3" ++
    [ArbiterEvent.drainBegins, .drainStep, .drainStep, .drainStep]

/-- The second submission is gone from the queue and still listed, and its submitter waits. -/
theorem resubmission_skipped :
    ∃ s, run (step demoParams) (init 3600 none) evictedAndResubmitted = some s ∧
      present s = [] ∧ (s.queuedEntries.get? "t").isSome = true ∧
      (s.jobs.get? 2).map (fun j => (j.submitter, j.future)) = some (.waiting false, .pending) ∧
      ¬QueueKept s := by
  have hend : (run (step demoParams) (init 3600 none) evictedAndResubmitted).map (fun s =>
      (present s, (s.queuedEntries.get? "t").isSome,
        (s.jobs.get? 2).map fun j => (j.submitter, j.future))) =
      some ([], true, some (.waiting false, .pending)) := by
    decide
  obtain ⟨s, hrun, hs⟩ := Option.map_eq_some_iff.mp hend
  simp only [Prod.mk.injEq] at hs
  obtain ⟨hpresent, hlisted, hjob⟩ := hs
  refine ⟨s, hrun, hpresent, hlisted, hjob, ?_⟩
  intro hkept
  have hiff := hkept.listed "t" (by simp [hpresent])
  simp [hpresent, hlisted] at hiff

/-- Two queued tasks; the submitter of one is cancelled, a drain pass starts the other. -/
def cancelledWhileQueued : List ArbiterEvent :=
  [ArbiterEvent.submit 1 (demoRequest "t") "" 0] ++ demoCheck (.submit 1) 1000 "r1" ++
    [ArbiterEvent.submit 2 (demoRequest "u") "" 0] ++ demoCheck (.submit 2) 1000 "r2" ++
    [ArbiterEvent.cancelSubmitter 1, .drainBegins, .drainStep, .wake 1] ++
    demoCheck .drain 1000 "r3" ++ [ArbiterEvent.drainStep] ++ demoCheck .drain 8000 "r4" ++
    [ArbiterEvent.drainStep, .drainStep, .runStarts 2 "" 0, .payloadEnds 2 .returned,
      .propagate 2, .wake 2]

theorem queueKept_of_orderly_cancelled :
    ∃ s, run (step demoParams) (init 3600 none) cancelledWhileQueued = some s ∧ QueueKept s := by
  obtain ⟨s, hrun⟩ := Option.isSome_iff_exists.mp
    (by decide +kernel : (run (step demoParams) (init 3600 none) cancelledWhileQueued).isSome)
  exact ⟨s, hrun, queueKept_of_orderly _ _ _ _ _ hrun (by decide)⟩

/-- Each submission is where the tables say, in every run. -/
theorem placed_of_run (p : ArbiterParams) (ttlSeconds : Vram.Clock)
    (cluster : Option ClusterManager) (events : List ArbiterEvent) (s : ArbiterState)
    (hrun : run (step p) (init ttlSeconds cluster) events = some s) : Placed s :=
  invariant_of_run (fun _ _ _ h hstep => h.step hstep) (placed_init ttlSeconds cluster) hrun

theorem placed_of_run_resubmitted :
    ∃ s, run (step demoParams) (init 3600 none) evictedAndResubmitted = some s ∧ Placed s := by
  obtain ⟨s, hrun⟩ := Option.isSome_iff_exists.mp
    (by decide : (run (step demoParams) (init 3600 none) evictedAndResubmitted).isSome)
  exact ⟨s, hrun, placed_of_run _ _ _ _ _ hrun⟩

end ArbiterState

end TinyAgentOS.Gpu
