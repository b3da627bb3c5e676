import TinyAgentOS.Library.Dict
import Mathlib.Algebra.Order.Ring.Rat
import Mathlib.Data.List.DropRight
import Mathlib.Tactic

/-!
# The failure tracker

The times at which a worker has failed stand in a queue, the oldest first.  What has left the
window is taken out when somebody asks for the worker; a success and a reset take out everything.
The router asks before each worker that it tries.

Main results:

- `Tracks.step`: a queue is what is left of the failures since the last success.
- `routed_routeRequest`: whom the router contacts, and in what order.
- `tracker_refines`: the tracker, and the router over it, go by the history.
- `not_tripped_of_zero`: a threshold of zero needs a failure.
-/

namespace TinyAgentOS.Cluster

open Collections

/-! ## The tracker -/

structure TrackerConfig where
  failureThreshold : Int := 3
  windowSeconds : Rat := 60

/-- `_records`. -/
abbrev FailureTracker := Dict String (List Rat)

/-- The calls of the tracker that others make. -/
inductive TrackerCall where
  | recordFailure (worker : String)
  | recordSuccess (worker : String)
  | isTripped (worker : String)
  | reset (worker : String)
  | resetAll
deriving DecidableEq

/-- A call, and the time that it reads. -/
abbrev TimedCall := Rat × TrackerCall

namespace FailureTracker

variable (cfg : TrackerConfig)

/-- The queue of a worker, empty where there is none. -/
def queue (s : FailureTracker) (worker : String) : List Rat := (s.get? worker).getD []

/-- `record_failure`. -/
def recordFailure (s : FailureTracker) (worker : String) (now : Rat) : FailureTracker :=
  s.set worker (queue s worker ++ [now])

/-- `_prune`. -/
def prune (s : FailureTracker) (worker : String) (now : Rat) : FailureTracker :=
  match s.get? worker with
  | none => s
  | some q =>
    let kept := q.dropWhile fun at_ => at_ ≤ now - cfg.windowSeconds
    if kept = [] then s.pop worker else s.set worker kept

/-- `is_tripped`. -/
def isTripped (s : FailureTracker) (worker : String) (now : Rat) : Bool × FailureTracker :=
  match s.get? worker with
  | none => (false, s)
  | some _ =>
    let pruned := prune cfg s worker now
    match pruned.get? worker with
    | none => (false, pruned)
    | some q => (cfg.failureThreshold ≤ q.length, pruned)

def step (s : FailureTracker) (c : TimedCall) : FailureTracker :=
  match c.2 with
  | .recordFailure worker => recordFailure s worker c.1
  | .recordSuccess worker => s.pop worker
  | .isTripped worker => (isTripped cfg s worker c.1).2
  | .reset worker => s.pop worker
  | .resetAll => Dict.empty

theorem queue_set (s : FailureTracker) (worker other : String) (q : List Rat) :
    queue (s.set worker q) other = if worker = other then q else queue s other := by
  simp only [queue, Dict.get?_set]
  split
  · rfl
  · rfl

theorem queue_pop (s : FailureTracker) (worker other : String) :
    queue (s.pop worker) other = if worker = other then [] else queue s other := by
  simp only [queue, Dict.get?_pop]
  split
  · rfl
  · rfl

/-- Only the queue of the worker is pruned. -/
theorem queue_prune (s : FailureTracker) (worker other : String) (now : Rat) :
    queue (prune cfg s worker now) other =
      if worker = other then (queue s worker).dropWhile fun at_ => at_ ≤ now - cfg.windowSeconds
      else queue s other := by
  unfold prune
  cases hget : s.get? worker with
  | none =>
    have hempty : queue s worker = [] := by simp [queue, hget]
    by_cases hworker : worker = other
    · subst hworker
      simp [hempty]
    · simp [hworker]
  | some q =>
    have hqueue : queue s worker = q := by simp [queue, hget]
    simp only [hqueue]
    split
    · rename_i hkept
      rw [queue_pop, hkept]
    · rw [queue_set]

theorem snd_isTripped (s : FailureTracker) (worker : String) (now : Rat) :
    (isTripped cfg s worker now).2 = prune cfg s worker now := by
  cases hget : s.get? worker with
  | none => simp [isTripped, prune, hget]
  | some q =>
    cases hpruned : (prune cfg s worker now).get? worker with
    | none | some => simp [isTripped, hget, hpruned]

/-- What the tracker answers is read off the pruned queue. -/
theorem isTripped_eq (s : FailureTracker) (worker : String) (now : Rat) :
    (isTripped cfg s worker now).1 =
      decide (queue (prune cfg s worker now) worker ≠ [] ∧
        cfg.failureThreshold ≤ (queue (prune cfg s worker now) worker).length) := by
  unfold isTripped
  cases hget : s.get? worker with
  | none => simp [prune, queue, hget]
  | some q =>
    simp only
    by_cases hkept : (q.dropWhile fun at_ => at_ ≤ now - cfg.windowSeconds) = []
    · have hprune : prune cfg s worker now = s.pop worker := by simp [prune, hget, hkept]
      simp [hprune, queue]
    · have hprune : prune cfg s worker now =
          s.set worker (q.dropWhile fun at_ => at_ ≤ now - cfg.windowSeconds) := by
        simp [prune, hget, hkept]
      simp [hprune, queue, hkept]

end FailureTracker

/-! ## The history -/

/-- The call takes out all failures of the worker. -/
def TrackerCall.clears (worker : String) : TrackerCall → Bool
  | .recordSuccess other => other = worker
  | .reset other => other = worker
  | .resetAll => true
  | .recordFailure _ => false
  | .isTripped _ => false

/-- The times of the failures of a worker since its last success or reset. -/
def failuresSince (worker : String) (calls : List TimedCall) : List Rat :=
  (calls.rtakeWhile fun c => !c.2.clears worker).filterMap fun c =>
    if c.2 = .recordFailure worker then some c.1 else none

/-- How many of them are in the window. -/
def recentFailures (cfg : TrackerConfig) (calls : List TimedCall) (worker : String) (now : Rat) :
    Nat :=
  (failuresSince worker calls).countP fun at_ => now - cfg.windowSeconds < at_

/-- At least the threshold, and at least one. -/
def Tripped (cfg : TrackerConfig) (calls : List TimedCall) (worker : String) (now : Rat) : Prop :=
  0 < recentFailures cfg calls worker now ∧
    cfg.failureThreshold ≤ recentFailures cfg calls worker now

instance (cfg : TrackerConfig) (calls : List TimedCall) (worker : String) (now : Rat) :
    Decidable (Tripped cfg calls worker now) :=
  inferInstanceAs (Decidable (_ ∧ _))

theorem failuresSince_append (worker : String) (calls : List TimedCall) (c : TimedCall) :
    failuresSince worker (calls ++ [c]) =
      if c.2.clears worker then []
      else if c.2 = .recordFailure worker then failuresSince worker calls ++ [c.1]
      else failuresSince worker calls := by
  unfold failuresSince
  cases hclears : c.2.clears worker with
  | true => simp [List.rtakeWhile_concat_neg, hclears]
  | false =>
    rw [List.rtakeWhile_concat_pos _ _ _ (by simp [hclears]), List.filterMap_append]
    by_cases hfailure : c.2 = .recordFailure worker
    · simp [hfailure]
    · simp [hfailure]

theorem failuresSince_sorted {worker : String} {calls : List TimedCall}
    (h : (calls.map Prod.fst).Pairwise (· ≤ ·)) :
    (failuresSince worker calls).Pairwise (· ≤ ·) := by
  rw [List.pairwise_map] at h
  refine List.Pairwise.filterMap _ ?_ (h.sublist (List.rtakeWhile_suffix _ _).sublist)
  intro c d hcd at_ hat at' hat'
  split at hat
  · split at hat'
    · cases hat
      cases hat'
      exact hcd
    · cases hat'
  · cases hat

/-- In a sorted list, dropping what is old leaves what is not. -/
theorem dropWhile_eq_filter {times : List Rat} (h : times.Pairwise (· ≤ ·)) (cutoff : Rat) :
    times.dropWhile (fun at_ => at_ ≤ cutoff) = times.filter fun at_ => cutoff < at_ := by
  induction times with
  | nil => rfl
  | cons at_ times ih =>
    obtain ⟨hhead, htail⟩ := List.pairwise_cons.mp h
    by_cases hold : at_ ≤ cutoff
    · simp [hold, ih htail]
    · have hall : ∀ t ∈ at_ :: times, cutoff < t := by
        intro t ht
        rcases List.mem_cons.mp ht with rfl | ht
        · exact not_le.mp hold
        · exact (not_le.mp hold).trans_le (hhead t ht)
      rw [List.dropWhile_cons_of_neg (by simpa using hold), List.filter_eq_self.mpr]
      simpa using hall

/-- The queues hold what is left of the failures when some that are old by now have gone. -/
structure Tracks (cfg : TrackerConfig) (calls : List TimedCall) (now : Rat) (s : FailureTracker) :
    Prop where
  sorted : (calls.map Prod.fst).Pairwise (· ≤ ·)
  past : ∀ c ∈ calls, c.1 ≤ now
  queue : ∀ worker, ∃ old, failuresSince worker calls = old ++ s.queue worker ∧
    ∀ at_ ∈ old, at_ ≤ now - cfg.windowSeconds

namespace Tracks

variable {cfg : TrackerConfig} {calls : List TimedCall} {now next : Rat} {s : FailureTracker}

theorem init (now : Rat) : Tracks cfg [] now Dict.empty :=
  ⟨List.Pairwise.nil, fun _ hc => (List.not_mem_nil hc).elim,
    fun _ => ⟨[], rfl, fun _ hat => (List.not_mem_nil hat).elim⟩⟩

section

variable (h : Tracks cfg calls now s)
include h

theorem later (hle : now ≤ next) : Tracks cfg calls next s := by
  refine ⟨h.sorted, fun c hc => (h.past c hc).trans hle, ?_⟩
  intro worker
  obtain ⟨old, hsplit, hold⟩ := h.queue worker
  refine ⟨old, hsplit, fun at_ hat => (hold at_ hat).trans ?_⟩
  linarith

/-- The pruned queue is the window. -/
theorem queue_prune (worker : String) : (FailureTracker.prune cfg s worker now).queue worker =
      (failuresSince worker calls).filter fun at_ => now - cfg.windowSeconds < at_ := by
  obtain ⟨old, hsplit, hold⟩ := h.queue worker
  have hsorted : (failuresSince worker calls).Pairwise (· ≤ ·) := failuresSince_sorted h.sorted
  rw [hsplit] at hsorted ⊢
  have hnone : old.filter (fun at_ => now - cfg.windowSeconds < at_) = [] := by
    rw [List.filter_eq_nil_iff]
    intro at_ hat
    simpa using hold at_ hat
  rw [FailureTracker.queue_prune, if_pos rfl,
    dropWhile_eq_filter (List.pairwise_append.mp hsorted).2.1, List.filter_append, hnone,
    List.nil_append]

/-- The tracker answers as the history says. -/
theorem isTripped (worker : String) :
    (FailureTracker.isTripped cfg s worker now).1 = decide (Tripped cfg calls worker now) := by
  rw [FailureTracker.isTripped_eq, h.queue_prune]
  simp only [Tripped, recentFailures, List.countP_eq_length_filter, List.length_pos_iff]

/-- A call keeps the queues in step with the history. -/
theorem step (call : TrackerCall) :
    Tracks cfg (calls ++ [(now, call)]) now (FailureTracker.step cfg s (now, call)) := by
  refine ⟨?_, ?_, ?_⟩
  · rw [List.map_append, List.pairwise_append]
    refine ⟨h.sorted, List.pairwise_singleton _ _, ?_⟩
    intro at_ hat t ht
    obtain ⟨c, hc, rfl⟩ := List.mem_map.mp hat
    rw [List.mem_singleton.mp ht]
    exact h.past c hc
  · intro c hc
    rcases List.mem_append.mp hc with hc | hc
    · exact h.past c hc
    · rw [List.mem_singleton.mp hc]
  · intro worker
    obtain ⟨old, hsplit, hold⟩ := h.queue worker
    rw [failuresSince_append]
    cases call with
    | recordFailure other =>
      refine ⟨old, ?_, hold⟩
      by_cases hother : other = worker
      · subst hother
        simp [TrackerCall.clears, FailureTracker.step, FailureTracker.recordFailure,
          FailureTracker.queue_set, hsplit]
      · simp [TrackerCall.clears, FailureTracker.step, FailureTracker.recordFailure,
          FailureTracker.queue_set, hsplit, hother]
    | recordSuccess other | reset other =>
      by_cases hother : other = worker
      · exact ⟨[], by simp [TrackerCall.clears, FailureTracker.step, FailureTracker.queue_pop,
          hother], by simp⟩
      · exact ⟨old, by simp [TrackerCall.clears, FailureTracker.step, FailureTracker.queue_pop,
          hother, hsplit], hold⟩
    | isTripped other =>
      simp only [TrackerCall.clears, FailureTracker.step, FailureTracker.snd_isTripped]
      by_cases hother : other = worker
      · subst hother
        have hwindow := h.queue_prune other
        rw [FailureTracker.queue_prune, if_pos rfl] at hwindow ⊢
        refine ⟨old ++ (s.queue other).takeWhile fun at_ => at_ ≤ now - cfg.windowSeconds, ?_, ?_⟩
        · simp [hsplit]
        · intro at_ hat
          rcases List.mem_append.mp hat with hat | hat
          · exact hold at_ hat
          · simpa using List.mem_takeWhile_imp hat
      · exact ⟨old, by simp [FailureTracker.queue_prune, hother, hsplit], hold⟩
    | resetAll =>
      exact ⟨[], by simp [TrackerCall.clears, FailureTracker.step, FailureTracker.queue], by simp⟩

/-- A run of calls at times in order. -/
theorem run (more : List TimedCall) (hsorted : (now :: more.map Prod.fst).Pairwise (· ≤ ·)) :
    Tracks cfg (calls ++ more) ((now :: more.map Prod.fst).getLast (List.cons_ne_nil _ _))
      (more.foldl (FailureTracker.step cfg) s) := by
  induction more generalizing calls now s with
  | nil => simpa using h
  | cons c more ih =>
    obtain ⟨hhead, htail⟩ := List.pairwise_cons.mp hsorted
    have hstep := (h.later (hhead c.1 List.mem_cons_self)).step c.2
    simpa using ih hstep htail

end

/-- The tracker after calls in order, from the start. -/
theorem of_calls (calls : List TimedCall) (hsorted : (calls.map Prod.fst).Pairwise (· ≤ ·))
    (hpast : ∀ c ∈ calls, c.1 ≤ now) :
    Tracks cfg calls now (calls.foldl (FailureTracker.step cfg) Dict.empty) := by
  cases calls with
  | nil => exact init now
  | cons c calls =>
    have hfirst : Tracks cfg [] c.1 Dict.empty := init c.1
    have hrun := hfirst.run (c :: calls) (by
      refine List.pairwise_cons.mpr ⟨?_, hsorted⟩
      intro t ht
      rcases List.mem_cons.mp ht with rfl | ht
      · exact le_rfl
      · exact (List.pairwise_cons.mp hsorted).1 t ht)
    refine hrun.later ?_
    rcases List.mem_cons.mp (List.getLast_mem (List.cons_ne_nil c.1 _)) with hlast | hlast
    · rw [hlast]
      exact hpast c List.mem_cons_self
    · obtain ⟨d, hd, hlast⟩ := List.mem_map.mp hlast
      rw [← hlast]
      exact hpast d hd

end Tracks

/-! ## The router -/

/-- What comes of a request: a body, a body that is no JSON, a status that is no success, or no
response. -/
inductive WorkerAnswer where
  | ok
  | unreadable
  | status (code : Nat)
  | failed
deriving DecidableEq

/-- What the router records.  The success is recorded before the body is read. -/
def WorkerAnswer.calls (worker : String) : WorkerAnswer → List TrackerCall
  | .ok => [.recordSuccess worker]
  | .unreadable => [.recordSuccess worker, .recordFailure worker]
  | .status code => if 500 ≤ code then [.recordFailure worker] else []
  | .failed => [.recordFailure worker]

/-- A worker of `get_workers_for_capability`, what its request would give, and what others
call while it is waited for. -/
structure Visit where
  worker : String
  checkedAt : Rat
  meanwhile : List TimedCall
  answer : WorkerAnswer
  answeredAt : Rat

namespace Visit

def calls (v : Visit) : List TimedCall :=
  v.meanwhile ++ (v.answer.calls v.worker).map fun c => (v.answeredAt, c)

def times (v : Visit) : List Rat := v.checkedAt :: (v.meanwhile.map Prod.fst ++ [v.answeredAt])

end Visit

/-- `route_request`: the tracker, if there is one, which workers it was asked about and whether
each was contacted, and who answered. -/
def routeRequest (cfg : TrackerConfig) : Option FailureTracker → List Visit →
    Option FailureTracker × List (String × Bool) × Option String
  | ft, [] => (ft, [], none)
  | ft, v :: vs =>
    let asked := ft.map fun s => FailureTracker.isTripped cfg s v.worker v.checkedAt
    if asked.any Prod.fst then
      let rest := routeRequest cfg (asked.map Prod.snd) vs
      (rest.1, (v.worker, false) :: rest.2.1, rest.2.2)
    else
      let ft := asked.map fun a => v.calls.foldl (FailureTracker.step cfg) a.2
      if v.answer = .ok then (ft, [(v.worker, true)], some v.worker)
      else
        let rest := routeRequest cfg ft vs
        (rest.1, (v.worker, true) :: rest.2.1, rest.2.2)

variable {visits : List Visit}

/-- Without a tracker nobody is skipped. -/
theorem contacted_of_no_tracker {cfg : TrackerConfig} :
    ∀ entry ∈ (routeRequest cfg none visits).2.1, entry.2 = true := by
  induction visits with
  | nil => simp [routeRequest]
  | cons v visits ih =>
    by_cases hok : v.answer = .ok
    · simp [routeRequest, hok]
    · simpa [routeRequest, hok] using ih

/-- The calls of the tracker for a worker that the router comes to. -/
def Visit.heard (v : Visit) (contacted : Bool) : List TimedCall :=
  (v.checkedAt, .isTripped v.worker) :: if contacted then v.calls else []

/-- The calls of the tracker until the router comes to its next worker. -/
def heardBefore (calls : List TimedCall) (visits : List Visit) (log : List (String × Bool))
    (k : Nat) : List TimedCall :=
  calls ++ ((visits.zip log).take k).flatMap fun e => e.1.heard e.2.2

/-- The workers are gone through in order; one is contacted exactly if the failures until then
do not trip it; the first that is contacted and answers is the last; and if nobody answers,
everybody was gone through. -/
structure Routed (cfg : TrackerConfig) (calls : List TimedCall) (visits : List Visit)
    (log : List (String × Bool)) (answered : Option String) : Prop where
  asked : ∀ (k : Nat) entry, log[k]? = some entry → ∃ v : Visit, visits[k]? = some v ∧
    entry.1 = v.worker ∧ (entry.2 = true ↔
      ¬ Tripped cfg (heardBefore calls visits log k) v.worker v.checkedAt)
  stops : ∀ (k : Nat) (v : Visit), visits[k]? = some v → log[k]? = some (v.worker, true) →
    v.answer = .ok → log.length = k + 1 ∧ answered = some v.worker
  answers : ∀ worker, answered = some worker → ∃ (k : Nat) (v : Visit), visits[k]? = some v ∧
    v.worker = worker ∧ log[k]? = some (worker, true) ∧ v.answer = .ok
  exhausts : answered = none → log.length = visits.length

variable {cfg : TrackerConfig} {calls : List TimedCall} {now : Rat} {s : FailureTracker}

/-- The calls of a visit are at times in order, when its times are. -/
theorem Visit.calls_sorted (v : Visit) (h : v.times.Pairwise (· ≤ ·)) :
    (v.checkedAt :: v.calls.map Prod.fst).Pairwise (· ≤ ·) ∧
      ∀ t ∈ v.checkedAt :: v.calls.map Prod.fst, t ≤ v.answeredAt := by
  rw [times, ← List.cons_append, List.pairwise_append] at h
  obtain ⟨hfront, -, hcross⟩ := h
  have hlast : ∀ t ∈ (v.answer.calls v.worker).map fun _ => v.answeredAt, t = v.answeredAt := by
    simp
  have htimes : v.checkedAt :: v.calls.map Prod.fst =
      (v.checkedAt :: v.meanwhile.map Prod.fst) ++
        (v.answer.calls v.worker).map fun _ => v.answeredAt := by
    simp [Visit.calls, Function.comp_def]
  have hbound : ∀ t ∈ v.checkedAt :: v.meanwhile.map Prod.fst, t ≤ v.answeredAt :=
    fun t ht => hcross t ht v.answeredAt (List.mem_singleton_self _)
  rw [htimes, List.pairwise_append]
  refine ⟨⟨hfront, ?_, ?_⟩, ?_⟩
  · rw [List.pairwise_map]
    exact List.pairwise_of_forall fun _ _ => le_rfl
  · intro t ht u hu
    rw [hlast u hu]
    exact hbound t ht
  · intro t ht
    rcases List.mem_append.mp ht with ht | ht
    · exact hbound t ht
    · exact (hlast t ht).le

/-- The calls of a contacted worker. -/
theorem Tracks.visit (h : Tracks cfg calls now s) (v : Visit)
    (hsorted : (now :: v.times).Pairwise (· ≤ ·)) :
    Tracks cfg (calls ++ [(v.checkedAt, .isTripped v.worker)] ++ v.calls) v.answeredAt
      (v.calls.foldl (FailureTracker.step cfg)
        (FailureTracker.isTripped cfg s v.worker v.checkedAt).2) := by
  obtain ⟨hhead, htimes⟩ := List.pairwise_cons.mp hsorted
  obtain ⟨hcalls, hbound⟩ := v.calls_sorted htimes
  have hasked := (h.later (hhead v.checkedAt List.mem_cons_self)).step (.isTripped v.worker)
  exact (hasked.run v.calls hcalls).later (hbound _ (List.getLast_mem _))

/-- A worker that is skipped, or contacted without an answer, before the others. -/
theorem Routed.cons {v : Visit} {contacted : Bool}
    {log : List (String × Bool)} {answered : Option String}
    (h : Routed cfg (calls ++ v.heard contacted) visits log answered)
    (hcontacted : contacted = true ↔ ¬ Tripped cfg calls v.worker v.checkedAt)
    (hanswer : contacted = true → v.answer ≠ .ok) :
    Routed cfg calls (v :: visits) ((v.worker, contacted) :: log) answered where
  asked := by
    intro k entry hentry
    cases k with
    | zero =>
      cases hentry
      exact ⟨v, rfl, rfl, by simpa [heardBefore] using hcontacted⟩
    | succ k => simpa [heardBefore] using h.asked k entry (by simpa using hentry)
  stops := by
    intro k w hw hlog hok
    cases k with
    | zero =>
      cases hw
      obtain rfl : contacted = true := by simpa using hlog
      exact absurd hok (hanswer rfl)
    | succ k => simpa using h.stops k w (by simpa using hw) (by simpa using hlog) hok
  answers := by
    intro worker hworker
    obtain ⟨k, w, hw⟩ := h.answers worker hworker
    exact ⟨k + 1, w, by simpa using hw⟩
  exhausts := fun hnone => by simpa using h.exhausts hnone

/-- A worker that is contacted and answers ends the request. -/
theorem routed_answered {v : Visit}
    (hnot : ¬ Tripped cfg calls v.worker v.checkedAt) (hok : v.answer = .ok) :
    Routed cfg calls (v :: visits) [(v.worker, true)] (some v.worker) where
  asked := by
    intro k entry hentry
    obtain ⟨rfl, rfl⟩ : k = 0 ∧ (v.worker, true) = entry := by
      simpa [List.getElem?_singleton] using hentry
    exact ⟨v, rfl, rfl, by simpa [heardBefore] using hnot⟩
  stops := by
    intro k w hw hlog _
    obtain ⟨rfl, _⟩ : k = 0 ∧ v.worker = w.worker := by
      simpa [List.getElem?_singleton] using hlog
    cases hw
    exact ⟨rfl, rfl⟩
  answers := by
    rintro worker ⟨⟩
    exact ⟨0, v, rfl, rfl, rfl, hok⟩
  exhausts := nofun

/-- The router over a tracker that agrees with the history contacts whom the history says. -/
theorem routed_routeRequest (h : Tracks cfg calls now s) (visits : List Visit)
    (hsorted : (now :: visits.flatMap Visit.times).Pairwise (· ≤ ·)) :
    Routed cfg calls visits (routeRequest cfg (some s) visits).2.1
      (routeRequest cfg (some s) visits).2.2 := by
  induction visits generalizing calls now s with
  | nil => exact ⟨by simp [routeRequest], by simp, by simp [routeRequest], fun _ => rfl⟩
  | cons v visits ih =>
    rw [List.flatMap_cons] at hsorted
    have hle : now ≤ v.checkedAt :=
      (List.pairwise_cons.mp hsorted).1 _ (by simp [Visit.times])
    have hvisit := h.visit v (hsorted.sublist (by simp))
    have hrest : (v.checkedAt :: visits.flatMap Visit.times).Pairwise (· ≤ ·) ∧
        (v.answeredAt :: visits.flatMap Visit.times).Pairwise (· ≤ ·) := by
      simp only [Visit.times, List.cons_append, List.append_assoc, List.nil_append,
        List.pairwise_cons, List.pairwise_append, List.mem_append, List.mem_cons] at hsorted ⊢
      grind
    have htripped := (h.later hle).isTripped v.worker
    by_cases hskip : Tripped cfg calls v.worker v.checkedAt
    · have hasked := ih ((h.later hle).step (.isTripped v.worker)) hrest.1
      simp only [routeRequest, Option.map_some, Option.any_some, htripped, hskip, decide_true,
        if_true]
      exact Routed.cons hasked (by simpa using hskip) nofun
    · simp only [routeRequest, Option.map_some, Option.any_some, htripped, hskip, decide_false,
        Bool.false_eq_true, if_false]
      by_cases hok : v.answer = .ok
      · rw [if_pos hok]
        exact routed_answered hskip hok
      · rw [if_neg hok]
        have htold := ih hvisit hrest.2
        rw [List.append_assoc] at htold
        exact Routed.cons htold (by simpa using hskip) fun _ => hok

/-- The tracker answers as the failures since the last success say, and the router goes through
the workers in order and skips one exactly if they trip it, until one answers. -/
theorem tracker_refines (cfg : TrackerConfig) (calls : List TimedCall)
    (hsorted : (calls.map Prod.fst).Pairwise (· ≤ ·)) :
    (∀ worker now, (∀ c ∈ calls, c.1 ≤ now) →
      (FailureTracker.isTripped cfg (calls.foldl (FailureTracker.step cfg) Dict.empty) worker
        now).1 = decide (Tripped cfg calls worker now)) ∧
    ∀ (visits : List Visit) log answered,
      (calls.map Prod.fst ++ visits.flatMap Visit.times).Pairwise (· ≤ ·) →
      (routeRequest cfg (some (calls.foldl (FailureTracker.step cfg) Dict.empty)) visits).2 =
        (log, answered) → Routed cfg calls visits log answered := by
  constructor
  · intro worker now hpast
    exact (Tracks.of_calls calls hsorted hpast).isTripped worker
  · intro visits log answered hvisits hrouted
    obtain ⟨rfl, rfl⟩ := Prod.mk.inj hrouted
    cases visits with
    | nil => exact ⟨by simp [routeRequest], by simp, by simp [routeRequest], fun _ => rfl⟩
    | cons v visits =>
      obtain ⟨-, htimes, hcross⟩ := List.pairwise_append.mp hvisits
      have hpast : ∀ c ∈ calls, c.1 ≤ v.checkedAt := by
        intro c hc
        exact hcross c.1 (List.mem_map_of_mem hc) v.checkedAt (by simp [Visit.times])
      refine routed_routeRequest (Tracks.of_calls calls hsorted hpast) _ ?_
      refine List.pairwise_cons.mpr ⟨?_, htimes⟩
      intro t ht
      simp only [List.flatMap_cons, Visit.times, List.cons_append, List.mem_cons] at ht htimes
      rcases ht with rfl | ht
      · exact le_rfl
      · exact (List.pairwise_cons.mp htimes).1 t ht

/-- Three failures of a worker in a minute. -/
def threeFailures : List TimedCall :=
  [(10, .recordFailure "gpu"), (40, .recordFailure "gpu"), (60, .recordFailure "gpu")]

/-- A worker with three failures is skipped; the next fails, and the third answers. -/
def threeVisits : List Visit :=
  [⟨"gpu", 65, [], .ok, 65⟩, ⟨"cpu", 65, [(66, .recordSuccess "gpu")], .failed, 67⟩,
    ⟨"npu", 67, [], .ok, 68⟩]

/-- Three failures in time, and two; and the router where there are three. -/
theorem tracker_refines_three :
    (FailureTracker.isTripped {} (threeFailures.foldl (FailureTracker.step {}) Dict.empty) "gpu"
        65).1 = true ∧
      (FailureTracker.isTripped {} (threeFailures.foldl (FailureTracker.step {}) Dict.empty) "gpu"
        70).1 = false ∧
      Routed {} threeFailures threeVisits [("gpu", false), ("cpu", true), ("npu", true)]
        (some "npu") := by
  have hrefines := tracker_refines {} threeFailures (by decide)
  refine ⟨?_, ?_, ?_⟩
  · rw [hrefines.1 "gpu" 65 (by decide)]
    decide +kernel
  · rw [hrefines.1 "gpu" 70 (by decide)]
    decide +kernel
  · exact hrefines.2 threeVisits _ _ (by decide) (by decide +kernel)

/-- With a threshold of zero, at least none have failed, and the worker is not tripped. -/
theorem not_tripped_of_zero :
    (({ failureThreshold := 0 } : TrackerConfig).failureThreshold ≤
        recentFailures { failureThreshold := 0 } [] "gpu" 5) ∧
      (FailureTracker.isTripped { failureThreshold := 0 }
        (([] : List TimedCall).foldl (FailureTracker.step { failureThreshold := 0 }) Dict.empty)
        "gpu" 5).1 = false := by
  decide

end TinyAgentOS.Cluster
