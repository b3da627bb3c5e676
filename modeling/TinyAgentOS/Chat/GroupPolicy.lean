import TinyAgentOS.Library.Dict
import TinyAgentOS.Library.Transition
import Mathlib.Data.Rat.Defs
import Mathlib.Tactic

/-!
# The group policy

An agent may send to a channel when its own last send is a cooldown ago and the channel has
had fewer sends in the last minute than its cap.  Asking and recording are two calls; a
window of sends holds 256 times at most, and is not looked at when it is empty.

Main results:

- `GroupPolicy.maySend_cases`: what an answer says, and what asking changes.
- `SendWindow.countP_append`: a full window loses an entry only when all are late.
- `PolicyRun.Books.step`: every allowed send that was recorded is counted.
- `PolicyRun.rateLaw_of_run`: the cap and the cooldown, where every allowed send is recorded
  before the next question.
- `PolicyRun.not_rateLaw`: a cap of zero, and two questions before a record.
- `PolicyRun.rateLaw_of_acquired`: calls that ask and record at once.
-/

namespace TinyAgentOS.Chat

open Collections Transition

/-! ## Windows -/

def maxlen : Nat :=
  256

theorem maxlen_pos : 0 < maxlen := by
  decide

/-- The times of the last sends of a channel, the oldest first. -/
structure SendWindow where
  times : List Rat
  bounded : times.length ≤ maxlen

namespace SendWindow

def empty : SendWindow :=
  ⟨[], Nat.zero_le maxlen⟩

theorem length_drop_append (w : SendWindow) (now : Rat) :
    ((w.times ++ [now]).drop (w.times.length + 1 - maxlen)).length ≤ maxlen := by
  rw [List.length_drop, List.length_append, List.length_singleton]
  omega

/-- `append`, which drops the oldest of a full window. -/
def append (w : SendWindow) (now : Rat) : SendWindow :=
  ⟨(w.times ++ [now]).drop (w.times.length + 1 - maxlen), length_drop_append w now⟩

/-- `popleft` while the oldest is over a minute ago. -/
def expire (w : SendWindow) (now : Rat) : SendWindow :=
  ⟨w.times.dropWhile fun t => 60 < now - t,
    ((List.dropWhile_sublist _).length_le).trans w.bounded⟩

theorem expire_sublist (w : SendWindow) (now : Rat) : (w.expire now).times.Sublist w.times :=
  List.dropWhile_sublist _

theorem times_append (w : SendWindow) (now : Rat) :
    (w.append now).times = (w.times ++ [now]).drop (w.times.length + 1 - maxlen) := by
  rw [append]

theorem append_sublist (w : SendWindow) (now : Rat) :
    (w.append now).times.Sublist (w.times ++ [now]) := by
  rw [times_append]
  exact List.drop_sublist _ _

/-- What is not over a minute ago is kept. -/
theorem countP_expire (w : SendWindow) {now a : Rat} (ha : now - 60 ≤ a) :
    (w.expire now).times.countP (fun t => a ≤ t) = w.times.countP fun t => a ≤ t := by
  obtain ⟨times, hbounded⟩ := w
  show (times.dropWhile fun t => 60 < now - t).countP _ = times.countP _
  clear hbounded
  induction times with
  | nil => rfl
  | cons t times ih =>
    rw [List.dropWhile_cons]
    split
    · rename_i hlate
      have hnot : ¬ a ≤ t := by
        have hlate' := of_decide_eq_true hlate
        linarith
      rw [ih, List.countP_cons_of_neg (by simpa using hnot)]
    · rfl

/-- A full window loses an entry only when that is late, or all the others are not. -/
theorem countP_append (w : SendWindow) {now : Rat} (a : Rat)
    (hsorted : w.times.Pairwise (· ≤ ·)) (hpast : ∀ t ∈ w.times, t ≤ now) :
    min maxlen (w.times.countP (fun t => a ≤ t) + if a ≤ now then 1 else 0) ≤
      (w.append now).times.countP fun t => a ≤ t := by
  rw [times_append]
  obtain ⟨times, hbounded⟩ := w
  have hsingle : [now].countP (fun t => a ≤ t) = if a ≤ now then 1 else 0 := by
    by_cases hnow : a ≤ now
    · simp [hnow]
    · simp [hnow]
  simp only at hsorted hpast hbounded ⊢
  by_cases hfull : times.length < maxlen
  · have hzero : times.length + 1 - maxlen = 0 := by omega
    rw [hzero, List.drop_zero, List.countP_append, hsingle]
    exact min_le_right _ _
  · have hone : times.length + 1 - maxlen = 1 := by omega
    rw [hone]
    cases times with
    | nil => exact absurd maxlen_pos hfull
    | cons t times =>
      rw [List.cons_append, List.drop_one, List.tail_cons, List.countP_append, hsingle]
      by_cases ht : a ≤ t
      · have hall : ∀ u ∈ times, a ≤ u := fun u hu =>
          ht.trans (List.rel_of_pairwise_cons hsorted hu)
        have hnow : a ≤ now := ht.trans (hpast t List.mem_cons_self)
        have hcount : times.countP (fun u => decide (a ≤ u)) = times.length := by
          rw [List.countP_eq_length]
          intro u hu
          exact decide_eq_true (hall u hu)
        rw [hcount, if_pos hnow]
        rw [List.length_cons] at hfull
        omega
      · rw [List.countP_cons_of_neg (by simpa using ht)]
        exact min_le_right _ _

end SendWindow

/-! ## The policy -/

section Policy

variable {V : Type} (int : V → Option Int)

/-- `int(settings.get("cooldown_seconds", 5))`, which may raise. -/
def cooldownSeconds (settings : Dict String V) : Option Int :=
  (settings.get? "cooldown_seconds").elim (some 5) int

/-- `int(settings.get("rate_cap_per_minute", 20))`. -/
def rateCapPerMinute (settings : Dict String V) : Option Int :=
  (settings.get? "rate_cap_per_minute").elim (some 20) int

structure GroupPolicy where
  lastSendAt : Dict (String × String) Rat
  recentSends : Dict String SendWindow

namespace GroupPolicy

/-- The agent's last send is less than the cooldown ago. -/
def coolingDown (p : GroupPolicy) (channelId agent : String) (cooldown : Int) (now : Rat) : Bool :=
  (p.lastSendAt.get? (channelId, agent)).any fun last => now - last < cooldown

/-- `may_send`, unless a setting is no number. -/
def maySend (p : GroupPolicy) (channelId agent : String) (settings : Dict String V) (now : Rat) :
    Option (Bool × GroupPolicy) := do
  let cooldown ← cooldownSeconds int settings
  let cap ← rateCapPerMinute int settings
  if p.coolingDown channelId agent cooldown now then
    return (false, p)
  match p.recentSends.get? channelId with
  | none => return (true, p)
  | some window =>
    if window.times = [] then
      return (true, p)
    else
      let window := window.expire now
      let recentSends := p.recentSends.set channelId window
      return (decide ((window.times.length : Int) < cap), { p with recentSends := recentSends })

/-- `record_send`. -/
def recordSend (p : GroupPolicy) (channelId agent : String) (now : Rat) : GroupPolicy where
  lastSendAt := p.lastSendAt.set (channelId, agent) now
  recentSends :=
    let window := (p.recentSends.get? channelId).getD SendWindow.empty
    p.recentSends.set channelId (window.append now)

/-- `try_acquire`, which asks and records without a break. -/
def tryAcquire (p : GroupPolicy) (channelId agent : String) (settings : Dict String V)
    (now recordedAt : Rat) : Option (Bool × GroupPolicy) := do
  let (ok, p) ← p.maySend int channelId agent settings now
  if ok then
    return (true, p.recordSend channelId agent recordedAt)
  else
    return (false, p)

/-- The times in the window of a channel. -/
def times (p : GroupPolicy) (channelId : String) : List Rat :=
  ((p.recentSends.get? channelId).getD SendWindow.empty).times

/-- What an answer says, and what asking changes. -/
theorem maySend_cases {p p' : GroupPolicy} {channelId agent : String} {settings : Dict String V}
    {now : Rat} {ok : Bool} (h : p.maySend int channelId agent settings now = some (ok, p')) :
    p'.lastSendAt = p.lastSendAt ∧
      (∀ c, (p'.times c).Sublist (p.times c)) ∧
      (∀ c a, now - 60 ≤ a →
        (p'.times c).countP (fun t => a ≤ t) = (p.times c).countP fun t => a ≤ t) ∧
      (ok = true → ∃ cooldown cap, cooldownSeconds int settings = some cooldown ∧
        rateCapPerMinute int settings = some cap ∧
        (∀ last, p.lastSendAt.get? (channelId, agent) = some last → cooldown ≤ now - last) ∧
        (p'.times channelId ≠ [] → ((p'.times channelId).length : Int) < cap)) := by
  unfold maySend at h
  cases hcooldown : cooldownSeconds int settings with
  | none => simp [hcooldown] at h
  | some cooldown =>
    cases hcap : rateCapPerMinute int settings with
    | none => simp [hcooldown, hcap] at h
    | some cap =>
      simp only [hcooldown, hcap, Option.bind_eq_bind, Option.bind_some, Option.pure_def] at h
      split at h
      · cases h
        refine ⟨rfl, fun c => List.Sublist.refl _, fun c a _ => rfl, fun hok => ?_⟩
        contradiction
      · rename_i hcold
        have hlast : ∀ last, p.lastSendAt.get? (channelId, agent) = some last →
            (cooldown : Rat) ≤ now - last := by
          intro last hget
          simpa [coolingDown, hget] using hcold
        split at h
        · rename_i hnone
          cases h
          refine ⟨rfl, fun c => List.Sublist.refl _, fun c a _ => rfl, fun _ => ?_⟩
          refine ⟨cooldown, cap, rfl, rfl, hlast, fun hne => ?_⟩
          simp [times, hnone, SendWindow.empty] at hne
        · rename_i window hwindow
          split at h
          · rename_i hempty
            cases h
            refine ⟨rfl, fun c => List.Sublist.refl _, fun c a _ => rfl, fun _ => ?_⟩
            refine ⟨cooldown, cap, rfl, rfl, hlast, fun hne => ?_⟩
            simp [times, hwindow, hempty] at hne
          · rename_i hne
            obtain ⟨rfl, rfl⟩ := Prod.mk.inj (Option.some.inj h)
            have htimes : ∀ c, GroupPolicy.times { p with
                recentSends := p.recentSends.set channelId (window.expire now) } c =
                if channelId = c then (window.expire now).times else p.times c := by
              intro c
              simp only [times, Dict.get?_set]
              split
              · rfl
              · rfl
            have hold : p.times channelId = window.times := by
              rw [times, hwindow]
              rfl
            refine ⟨rfl, fun c => ?_, fun c a ha => ?_, fun hok => ?_⟩
            · rw [htimes]
              split
              · rename_i hc
                rw [← hc, hold]
                exact window.expire_sublist now
              · exact List.Sublist.refl _
            · rw [htimes]
              split
              · rename_i hc
                rw [← hc, hold]
                exact window.countP_expire ha
              · rfl
            · refine ⟨cooldown, cap, rfl, rfl, hlast, fun _ => ?_⟩
              rw [htimes, if_pos rfl]
              exact of_decide_eq_true hok

theorem times_recordSend (p : GroupPolicy) (channelId agent : String) (now : Rat) (c : String) :
    (p.recordSend channelId agent now).times c =
      if channelId = c then
        (((p.recentSends.get? channelId).getD SendWindow.empty).append now).times
      else p.times c := by
  simp only [times, recordSend, Dict.get?_set]
  split
  · rfl
  · rfl

end GroupPolicy

/-! ## Runs -/

/-- A send that was allowed. -/
structure Send (V : Type) where
  channelId : String
  agent : String
  settings : Dict String V
  time : Rat

/-- A policy with the time, the sends it has allowed and, for each channel, one that is still to
be recorded. -/
structure PolicyRun (V : Type) where
  policy : GroupPolicy
  now : Rat
  allowed : List (Send V)
  awaiting : Dict String (Send V)

inductive PolicyEvent (V : Type) where
  | maySend (channelId agent : String) (settings : Dict String V) (now : Rat)
  | recordSend (channelId agent : String) (now : Rat)

def PolicyEvent.time : PolicyEvent V → Rat
  | .maySend _ _ _ now => now
  | .recordSend _ _ now => now

namespace PolicyRun

def init (start : Rat) : PolicyRun V :=
  ⟨⟨Dict.empty, Dict.empty⟩, start, [], Dict.empty⟩

/-- The send of that channel and agent is recorded. -/
def settle (awaiting : Dict String (Send V)) (channelId agent : String) : Dict String (Send V) :=
  if (awaiting.get? channelId).any fun x => x.agent = agent then awaiting.pop channelId
  else awaiting

/-- A call at its time; the times do not decrease. -/
def step (s : PolicyRun V) (e : PolicyEvent V) : Option (PolicyRun V) :=
  if e.time < s.now then none
  else
    match e with
    | .maySend channelId agent settings now =>
      match s.policy.maySend int channelId agent settings now with
      | none => some { s with now := now }
      | some (false, policy) => some { s with policy := policy, now := now }
      | some (true, policy) =>
        let send : Send V := ⟨channelId, agent, settings, now⟩
        some ⟨policy, now, s.allowed ++ [send], s.awaiting.set channelId send⟩
    | .recordSend channelId agent now =>
      some { s with
        policy := s.policy.recordSend channelId agent now
        now := now
        awaiting := settle s.awaiting channelId agent }

/-- No question about a channel while a send that was allowed in it is still to be recorded. -/
def RecordedFirst (s : PolicyRun V) : PolicyEvent V → Prop
  | .maySend channelId _ _ _ => (s.awaiting.get? channelId).isNone = true
  | .recordSend _ _ _ => True

end PolicyRun

/-- The send is one in the channel within a minute from a time on. -/
def Send.inWindow (channelId : String) (since : Rat) (x : Send V) : Bool :=
  x.channelId = channelId && since ≤ x.time && x.time ≤ since + 60

/-- In every minute the sends of a channel are no more than their cap, or one, and the sends of an
agent in a channel are the cooldown apart. -/
structure RateLaw (allowed : List (Send V)) : Prop where
  capped : ∀ channelId since cap, cap ≤ (maxlen : Int) →
    (∀ x ∈ allowed, x.inWindow channelId since = true →
      ∀ c, rateCapPerMinute int x.settings = some c → c ≤ cap) →
    (allowed.countP (Send.inWindow channelId since) : Int) ≤ max 1 cap
  spaced : allowed.Pairwise fun x y => x.channelId = y.channelId → x.agent = y.agent →
    ∀ cooldown, cooldownSeconds int y.settings = some cooldown →
      (cooldown : Rat) ≤ y.time - x.time

/-! ## Books -/

/-- The cap and the cooldown allow a send after those of a log. -/
def Admissible (log : List (Send V)) (y : Send V) : Prop :=
  ∃ cooldown cap, cooldownSeconds int y.settings = some cooldown ∧
    rateCapPerMinute int y.settings = some cap ∧
    (cap ≤ (maxlen : Int) →
      (log.countP (fun x => x.channelId = y.channelId && y.time - 60 ≤ x.time) : Int) + 1 ≤
        max 1 cap) ∧
    ∀ x ∈ log, x.channelId = y.channelId → x.agent = y.agent → (cooldown : Rat) ≤ y.time - x.time

/-- Every send of a log is allowed after those before it. -/
def Lawful (log : List (Send V)) : Prop :=
  ∀ pre y post, log = pre ++ y :: post → Admissible int pre y

section Logs

variable {int}

variable {y : Send V} {log : List (Send V)}

theorem lawful_append_iff : Lawful int (log ++ [y]) ↔ Lawful int log ∧ Admissible int log y := by
  constructor
  · intro h
    refine ⟨fun pre z post heq => ?_, h log y [] rfl⟩
    apply h pre z (post ++ [y])
    rw [heq, List.append_assoc, List.cons_append]
  · rintro ⟨h, hy⟩ pre z post heq
    rcases List.eq_nil_or_concat post with rfl | ⟨post', w, rfl⟩
    · obtain ⟨rfl, hlast⟩ := List.append_inj' heq rfl
      obtain rfl := (List.cons.inj hlast).1
      exact hy
    · rw [List.concat_eq_append, ← List.cons_append, ← List.append_assoc] at heq
      obtain ⟨rfl, -⟩ := List.append_inj' heq rfl
      exact h pre z post' rfl

/-- The last send of a minute counts the others. -/
theorem countP_inWindow_le (log : List (Send V)) {channelId : String} {since : Rat}
    (hy : y.inWindow channelId since = true) :
    log.countP (Send.inWindow channelId since) ≤
      log.countP fun x => x.channelId = y.channelId && y.time - 60 ≤ x.time := by
  simp only [Send.inWindow, Bool.and_eq_true, decide_eq_true_eq] at hy
  obtain ⟨⟨hchannel, _⟩, hyend⟩ := hy
  apply List.countP_mono_left
  intro x _ hx
  simp only [Send.inWindow, Bool.and_eq_true, decide_eq_true_eq] at hx ⊢
  obtain ⟨⟨hxchannel, hxstart⟩, _⟩ := hx
  exact ⟨hxchannel.trans hchannel.symm, by linarith⟩

/-- Of a lawful log the rate law is true. -/
theorem Lawful.rateLaw (h : Lawful int log) : RateLaw int log := by
  induction log using List.reverseRecOn with
  | nil =>
    refine ⟨fun channelId since cap _ _ => ?_, List.Pairwise.nil⟩
    rw [List.countP_nil]
    exact le_max_of_le_left zero_le_one
  | append_singleton log y ih =>
    obtain ⟨hlog, cooldown, cap, hcooldown, hcap, hcount, hspaced⟩ := lawful_append_iff.mp h
    have hlaw := ih hlog
    constructor
    · intro channelId since bound hbound hcaps
      rw [List.countP_append, List.countP_singleton]
      split
      · rename_i hy
        have hle : cap ≤ bound :=
          hcaps y (List.mem_append_right log List.mem_cons_self) hy cap hcap
        have hothers := countP_inWindow_le log hy
        have hsent := hcount (hle.trans hbound)
        omega
      · rw [add_zero]
        refine hlaw.capped channelId since bound hbound fun x hx => ?_
        exact hcaps x (List.mem_append_left [y] hx)
    · refine List.pairwise_append.mpr ⟨hlaw.spaced, List.pairwise_singleton _ _, ?_⟩
      intro x hx z hz hchannel hagent cooldown' hcooldown'
      obtain rfl := List.mem_singleton.mp hz
      obtain rfl := Option.some.inj (hcooldown.symm.trans hcooldown')
      exact hspaced x hx hchannel hagent

end Logs

namespace PolicyRun

/-- The books of a channel: its allowed sends but the one that is awaited are behind the last send
of their agent, and counted in the window, as far as that goes. -/
structure ChannelBooks (s : PolicyRun V) (channelId : String) (done : List (Send V)) : Prop where
  log : s.allowed.filter (fun x => x.channelId = channelId) =
    done ++ (s.awaiting.get? channelId).toList
  last : ∀ x ∈ done, ∃ last, s.policy.lastSendAt.get? (channelId, x.agent) = some last ∧
    x.time ≤ last
  counted : ∀ a, s.now - 60 ≤ a →
    min maxlen (done.countP fun x => a ≤ x.time) ≤
      (s.policy.times channelId).countP fun t => a ≤ t

/-- What is true of a policy whose allowed sends are recorded in time. -/
structure Books (s : PolicyRun V) : Prop where
  sorted : ∀ c, (s.policy.times c).Pairwise (· ≤ ·)
  past : ∀ c, ∀ t ∈ s.policy.times c, t ≤ s.now
  lastPast : ∀ key last, s.policy.lastSendAt.get? key = some last → last ≤ s.now
  waiting : ∀ c x, s.awaiting.get? c = some x → x.time ≤ s.now
  channels : ∀ c, ∃ done, s.ChannelBooks c done
  lawful : Lawful int s.allowed

variable {int} {s s' : PolicyRun V}

theorem Books.init (start : Rat) : Books int (init start : PolicyRun V) := by
  refine ⟨fun c => ?_, fun c t ht => ?_, ?_, ?_, fun c => ⟨[], ?_, ?_, ?_⟩, ?_⟩
  · exact List.Pairwise.nil
  · contradiction
  · intro key last hget
    contradiction
  · intro c x hget
    contradiction
  · rfl
  · intro x hx
    contradiction
  · intro a _
    exact Nat.min_le_right _ _
  · intro pre y post heq
    have hnil := congrArg List.length heq
    simp [PolicyRun.init] at hnil

variable {settings : Dict String V} {agent channelId : String} {policy : GroupPolicy} {now : Rat}

/-- What is said of a send that is asked for. -/
theorem Books.admissible (h : Books int s) (hnow : s.now ≤ now)
    (hmay : s.policy.maySend int channelId agent settings now = some (true, policy))
    (hfirst : s.awaiting.get? channelId = none) :
    Admissible int s.allowed ⟨channelId, agent, settings, now⟩ := by
  obtain ⟨done, hdone⟩ := h.channels channelId
  obtain ⟨hsame, -, hcount, hok⟩ := GroupPolicy.maySend_cases int hmay
  obtain ⟨cooldown, cap, hcooldown, hcap, hlast, hlength⟩ := hok rfl
  have hlog : s.allowed.filter (fun x => x.channelId = channelId) = done := by
    rw [hdone.log, hfirst, Option.toList_none, List.append_nil]
  refine ⟨cooldown, cap, hcooldown, hcap, ?_, ?_⟩
  · intro hmax
    have hsent : s.allowed.countP (fun x => x.channelId = channelId && now - 60 ≤ x.time) =
        done.countP fun x => now - 60 ≤ x.time := by
      rw [← hlog, List.countP_filter]
      apply List.countP_congr
      intro x _
      simp [and_comm]
    show ((s.allowed.countP fun x => x.channelId = channelId && now - 60 ≤ x.time : Nat) : Int) + 1
      ≤ max 1 cap
    have hwindow := hdone.counted (now - 60) (by linarith)
    rw [← hcount channelId (now - 60) (le_refl _)] at hwindow
    rw [hsent]
    by_cases hne : policy.times channelId = []
    · rw [hne, List.countP_nil] at hwindow
      have hpos := maxlen_pos
      omega
    · have hlen := hlength hne
      have hle : (policy.times channelId).countP (fun t => now - 60 ≤ t) ≤
          (policy.times channelId).length := List.countP_le_length
      omega
  · intro x hx hchannel hagent
    have hmem : x ∈ done := by
      rw [← hlog, List.mem_filter]
      exact ⟨hx, decide_eq_true hchannel⟩
    obtain ⟨last, hget, hle⟩ := hdone.last x hmem
    rw [show x.agent = agent from hagent] at hget
    have hapart := hlast last hget
    show (cooldown : Rat) ≤ now - x.time
    linarith

/-- Asking changes no book. -/
theorem Books.asked (h : Books int s) {ok : Bool} (hnow : s.now ≤ now)
    (hmay : s.policy.maySend int channelId agent settings now = some (ok, policy)) :
    Books int { s with policy := policy, now := now } := by
  obtain ⟨hsame, hsub, hcount, -⟩ := GroupPolicy.maySend_cases int hmay
  refine ⟨fun c => ?_, fun c t ht => ?_, ?_, ?_, fun c => ?_, h.lawful⟩
  · exact (h.sorted c).sublist (hsub c)
  · exact (h.past c t ((hsub c).subset ht)).trans hnow
  · intro key last hget
    rw [hsame] at hget
    exact (h.lastPast key last hget).trans hnow
  · intro c x hget
    exact (h.waiting c x hget).trans hnow
  · obtain ⟨done, hdone⟩ := h.channels c
    refine ⟨done, hdone.log, ?_, ?_⟩
    · intro x hx
      obtain ⟨last, hget, hle⟩ := hdone.last x hx
      exact ⟨last, hsame ▸ hget, hle⟩
    · intro a ha
      have ha' : now - 60 ≤ a := ha
      rw [hcount c a ha']
      exact hdone.counted a (by linarith)

/-- An allowed send is noted. -/
theorem Books.allowed (h : Books int s) {y : Send V} (hy : Admissible int s.allowed y)
    (htime : y.time = s.now) (hfirst : s.awaiting.get? y.channelId = none) :
    Books int { s with
      allowed := s.allowed ++ [y]
      awaiting := s.awaiting.set y.channelId y } := by
  refine ⟨h.sorted, h.past, h.lastPast, ?_, fun c => ?_, lawful_append_iff.mpr ⟨h.lawful, hy⟩⟩
  · intro c x hget
    rcases Dict.get?_set_cases hget with ⟨_, rfl⟩ | ⟨_, hget⟩
    · exact le_of_eq htime
    · exact h.waiting c x hget
  · obtain ⟨done, hdone⟩ := h.channels c
    refine ⟨done, ?_, hdone.last, hdone.counted⟩
    have hlog := hdone.log
    show (s.allowed ++ [y]).filter _ = done ++ ((s.awaiting.set y.channelId y).get? c).toList
    rw [List.filter_append, hlog]
    by_cases hc : y.channelId = c
    · subst hc
      rw [hfirst, Dict.get?_set_self]
      simp
    · rw [Dict.get?_set_of_ne _ _ hc]
      simp [hc]

theorem settle_cases (awaiting : Dict String (Send V)) (channelId agent c : String) :
    (∃ y, channelId = c ∧ awaiting.get? c = some y ∧ y.agent = agent ∧
        (settle awaiting channelId agent).get? c = none) ∨
      (settle awaiting channelId agent).get? c = awaiting.get? c := by
  unfold settle
  split
  · rename_i hany
    by_cases hc : channelId = c
    · subst hc
      obtain ⟨y, hy, hagent⟩ := (Option.any_eq_true _ _).mp hany
      refine Or.inl ⟨y, rfl, hy, of_decide_eq_true hagent, ?_⟩
      exact Dict.get?_pop_self _ _
    · exact Or.inr (Dict.get?_pop_of_ne _ hc)
  · exact Or.inr rfl

/-- What the window of a channel counts after a send was recorded. -/
theorem Books.counted_recordSend (h : Books int s) (channelId agent : String)
    (hnow : s.now ≤ now) (c : String) (a : Rat) :
    min maxlen ((s.policy.times c).countP (fun t => a ≤ t) +
        if channelId = c ∧ a ≤ now then 1 else 0) ≤
      ((s.policy.recordSend channelId agent now).times c).countP fun t => a ≤ t := by
  rw [GroupPolicy.times_recordSend]
  by_cases hc : channelId = c
  · subst hc
    have hpast : ∀ t ∈ (s.policy.times channelId), t ≤ now := fun t ht =>
      (h.past channelId t ht).trans hnow
    simp only [true_and, if_true]
    exact SendWindow.countP_append _ a (h.sorted channelId) hpast
  · simp only [hc, false_and, if_false, add_zero]
    exact min_le_right _ _

variable {x : Send V}

/-- A recorded send leaves the last sends no earlier. -/
theorem Books.last_recordSend (h : Books int s) (hnow : s.now ≤ now) {c : String}
    (hx : ∃ last, s.policy.lastSendAt.get? (c, x.agent) = some last ∧ x.time ≤ last) :
    ∃ last, (s.policy.recordSend channelId agent now).lastSendAt.get? (c, x.agent) = some last ∧
      x.time ≤ last := by
  obtain ⟨last, hget, hle⟩ := hx
  by_cases hkey : (channelId, agent) = (c, x.agent)
  · refine ⟨now, ?_, hle.trans ((h.lastPast _ last hget).trans hnow)⟩
    rw [← hkey]
    exact Dict.get?_set_self _ _ _
  · refine ⟨last, ?_, hle⟩
    rw [← hget]
    exact Dict.get?_set_of_ne _ _ hkey

/-- The books of a channel after a send was recorded; an awaited one joins the others. -/
theorem Books.channels_recordSend (h : Books int s) (hnow : s.now ≤ now) (c : String) :
    ∃ done, ChannelBooks { s with
      policy := s.policy.recordSend channelId agent now
      now := now
      awaiting := settle s.awaiting channelId agent } c done := by
  obtain ⟨done, hdone⟩ := h.channels c
  have hcounted := h.counted_recordSend channelId agent hnow c
  have hbefore : ∀ a, now - 60 ≤ a → s.now - 60 ≤ a := by
    intro a ha
    linarith
  rcases settle_cases s.awaiting channelId agent c with ⟨y, hc, hy, hagent, hnone⟩ | hsame
  · refine ⟨done ++ [y], ?_, ?_, ?_⟩
    · have hlog := hdone.log
      rw [hy] at hlog
      show s.allowed.filter _ = done ++ [y] ++ ((settle s.awaiting channelId agent).get? c).toList
      rw [hlog, hnone]
      simp
    · intro x hx
      rcases List.mem_append.mp hx with hx | hx
      · exact h.last_recordSend hnow (hdone.last x hx)
      · obtain rfl := List.mem_singleton.mp hx
        refine ⟨now, ?_, (h.waiting c x hy).trans hnow⟩
        rw [← hc, hagent]
        exact Dict.get?_set_self _ _ _
    · intro a ha
      have hold := hdone.counted a (hbefore a ha)
      have hnew := hcounted a
      have hytime := (h.waiting c y hy).trans hnow
      rw [List.countP_append, List.countP_singleton]
      show min maxlen _ ≤ ((s.policy.recordSend channelId agent now).times c).countP _
      by_cases hay : a ≤ y.time
      · rw [if_pos ⟨hc, hay.trans hytime⟩] at hnew
        simp only [hay, decide_true, if_true]
        omega
      · simp only [hay, decide_false, Bool.false_eq_true, if_false]
        omega
  · refine ⟨done, ?_, fun x hx => h.last_recordSend hnow (hdone.last x hx), ?_⟩
    · show s.allowed.filter _ = done ++ ((settle s.awaiting channelId agent).get? c).toList
      rw [hsame, hdone.log]
    · intro a ha
      have hold := hdone.counted a (hbefore a ha)
      have hnew := hcounted a
      show min maxlen _ ≤ ((s.policy.recordSend channelId agent now).times c).countP _
      omega

/-- A send is recorded. -/
theorem Books.recorded (h : Books int s) (hnow : s.now ≤ now) : Books int { s with
      policy := s.policy.recordSend channelId agent now
      now := now
      awaiting := settle s.awaiting channelId agent } := by
  have hsub : ∀ c, ((s.policy.recordSend channelId agent now).times c).Sublist
      (s.policy.times c ++ [now]) := by
    intro c
    rw [GroupPolicy.times_recordSend]
    split
    · rename_i hc
      subst hc
      exact SendWindow.append_sublist _ now
    · exact List.sublist_append_left _ _
  have hpast : ∀ c, ∀ t ∈ s.policy.times c, t ≤ now := fun c t ht => (h.past c t ht).trans hnow
  refine ⟨fun c => ?_, fun c t ht => ?_, ?_, ?_, h.channels_recordSend hnow, h.lawful⟩
  · refine List.Pairwise.sublist (hsub c) (List.pairwise_append.mpr ⟨h.sorted c, ?_, ?_⟩)
    · exact List.pairwise_singleton _ _
    · intro t ht u hu
      rw [List.mem_singleton.mp hu]
      exact hpast c t ht
  · rcases List.mem_append.mp ((hsub c).subset ht) with ht | ht
    · exact hpast c t ht
    · exact le_of_eq (List.mem_singleton.mp ht)
  · intro key last hget
    rcases Dict.get?_set_cases hget with ⟨_, rfl⟩ | ⟨_, hget⟩
    · exact le_refl _
    · exact (h.lastPast key last hget).trans hnow
  · intro c x hget
    rcases settle_cases s.awaiting channelId agent c with ⟨_, _, _, _, hnone⟩ | hsame
    · rw [hnone] at hget
      contradiction
    · rw [hsame] at hget
      exact (h.waiting c x hget).trans hnow

theorem Books.step {e : PolicyEvent V} (h : Books int s) (hfirst : s.RecordedFirst e)
    (hstep : s.step int e = some s') : Books int s' := by
  unfold PolicyRun.step at hstep
  split at hstep
  · contradiction
  rename_i hlate
  have hnow : s.now ≤ e.time := not_lt.mp hlate
  cases e with
  | maySend channelId agent settings now =>
    simp only at hstep
    split at hstep
    · cases hstep
      refine ⟨h.sorted, fun c t ht => (h.past c t ht).trans hnow,
        fun key last hget => (h.lastPast key last hget).trans hnow,
        fun c x hget => (h.waiting c x hget).trans hnow, fun c => ?_, h.lawful⟩
      obtain ⟨done, hdone⟩ := h.channels c
      refine ⟨done, hdone.log, hdone.last, fun a ha => hdone.counted a ?_⟩
      have ha' : now - 60 ≤ a := ha
      have hnow' : s.now ≤ now := hnow
      linarith
    · rename_i policy hmay
      cases hstep
      exact h.asked hnow hmay
    · rename_i policy hmay
      cases hstep
      have hnone : s.awaiting.get? channelId = none := Option.isNone_iff_eq_none.mp hfirst
      exact (h.asked hnow hmay).allowed (h.admissible hnow hmay hnone) rfl hnone
  | recordSend channelId agent now =>
    cases hstep
    exact h.recorded hnow

/-- The cap and the cooldown, in every run in which an allowed send is recorded before the next
question about its channel. -/
theorem rateLaw_of_run (start : Rat) (es : List (PolicyEvent V))
    (hfirst : Guarded (PolicyRun.step int) RecordedFirst (PolicyRun.init start) es)
    (hrun : run (PolicyRun.step int) (PolicyRun.init start) es = some s) : RateLaw int s.allowed :=
  (invariant_of_guarded_run (I := Books int) (fun _ _ _ h hfirst hstep => h.step hfirst hstep)
    (Books.init start) hfirst hrun).lawful.rateLaw

instance (s : PolicyRun V) (e : PolicyEvent V) : Decidable (s.RecordedFirst e) :=
  match e with
  | .maySend channelId _ _ _ =>
    inferInstanceAs (Decidable ((s.awaiting.get? channelId).isNone = true))
  | .recordSend _ _ _ => isTrue trivial

/-- Settings with a cooldown and a cap. -/
def limits (cooldown cap : Int) : Dict String Int :=
  (Dict.empty.set "cooldown_seconds" cooldown).set "rate_cap_per_minute" cap

def everyFiveSeconds : List (PolicyEvent Int) :=
  [.maySend "ch1" "tom" (limits 5 2) 0, .recordSend "ch1" "tom" 0,
    .maySend "ch1" "tom" (limits 5 2) 4, .maySend "ch1" "tom" (limits 5 2) 5,
    .recordSend "ch1" "tom" 5, .maySend "ch1" "don" (limits 5 2) 60]

theorem rateLaw_of_run_everyFiveSeconds :
    ∃ s, run (PolicyRun.step some) (PolicyRun.init 0) everyFiveSeconds = some s ∧
      s.allowed.map (fun x => (x.agent, x.time)) = [("tom", 0), ("tom", 5)] ∧
      RateLaw some s.allowed := by
  have hsome : (run (PolicyRun.step some) (PolicyRun.init 0) everyFiveSeconds).map (fun s =>
      s.allowed.map fun x => (x.agent, x.time)) = some [("tom", 0), ("tom", 5)] := by
    decide +kernel
  obtain ⟨s, hrun, hallowed⟩ := Option.map_eq_some_iff.mp hsome
  exact ⟨s, hrun, hallowed, rateLaw_of_run 0 everyFiveSeconds (by decide +kernel) hrun⟩

/-- A question about an empty window, with a cap of zero. -/
def zeroCap : List (PolicyEvent Int) :=
  [.maySend "ch1" "tom" (limits 0 0) 0]

/-- Two questions before a record. -/
def askedTwice : List (PolicyEvent Int) :=
  [.maySend "ch1" "tom" (limits 5 1) 0, .maySend "ch1" "tom" (limits 5 1) 0]

/-- One send is allowed where the cap is zero, and two at once where it is one and the cooldown is
five seconds. -/
theorem not_rateLaw :
    (run (PolicyRun.step some) (PolicyRun.init 0) zeroCap).map (fun s =>
        (s.allowed.countP (Send.inWindow "ch1" 0),
          s.allowed.map fun x => rateCapPerMinute some x.settings)) = some (1, [some 0]) ∧
    (run (PolicyRun.step some) (PolicyRun.init 0) askedTwice).map (fun s =>
        (s.allowed.countP (Send.inWindow "ch1" 0),
          s.allowed.map fun x => rateCapPerMinute some x.settings)) =
      some (2, [some 1, some 1]) ∧
    (run (PolicyRun.step some) (PolicyRun.init 0) askedTwice).map (fun s =>
        s.allowed.map fun x => (x.agent, x.time, cooldownSeconds some x.settings)) =
      some [("tom", 0, some 5), ("tom", 0, some 5)] := by
  refine ⟨?_, ?_, ?_⟩
  · decide +kernel
  · decide +kernel
  · decide

/-! ## Asking and recording at once -/

/-- The sends that a sequence of `try_acquire` calls allows, each with the time it asks at and the
time it records at. -/
def acquired (int : V → Option Int) (p : GroupPolicy) (clock : Rat) :
    List (Send V × Rat) → Option (List (Send V))
  | [] => some []
  | (x, recordedAt) :: calls =>
    if x.time < clock ∨ recordedAt < x.time then none
    else
      match p.tryAcquire int x.channelId x.agent x.settings x.time recordedAt with
      | none => acquired int p recordedAt calls
      | some (true, policy) => (acquired int policy recordedAt calls).map (x :: ·)
      | some (false, policy) => acquired int policy recordedAt calls

/-- A call leaves nothing to be recorded. -/
theorem Books.acquire (h : Books int s) {recordedAt : Rat} {ok : Bool}
    (hnone : ∀ c, s.awaiting.get? c = none) (hnow : s.now ≤ x.time) (hlater : x.time ≤ recordedAt)
    (htry : s.policy.tryAcquire int x.channelId x.agent x.settings x.time recordedAt =
      some (ok, policy)) :
    ∃ s', Books int s' ∧ (∀ c, s'.awaiting.get? c = none) ∧ s'.policy = policy ∧
      s'.now ≤ recordedAt ∧ s'.allowed = s.allowed ++ if ok then [x] else [] := by
  cases hmay : s.policy.maySend int x.channelId x.agent x.settings x.time with
  | none => simp [GroupPolicy.tryAcquire, hmay] at htry
  | some answer =>
    obtain ⟨ok', policy'⟩ := answer
    have hasked := h.asked hnow hmay
    cases ok' with
    | false =>
      simp only [GroupPolicy.tryAcquire, hmay, Option.bind_eq_bind, Option.bind_some,
        Bool.false_eq_true, if_false, Option.pure_def, Option.some.injEq, Prod.mk.injEq] at htry
      obtain ⟨rfl, rfl⟩ := htry
      exact ⟨_, hasked, hnone, rfl, hlater, by simp⟩
    | true =>
      simp only [GroupPolicy.tryAcquire, hmay, Option.bind_eq_bind, Option.bind_some, if_true,
        Option.pure_def, Option.some.injEq, Prod.mk.injEq] at htry
      obtain ⟨rfl, rfl⟩ := htry
      have hallowed := hasked.allowed (h.admissible hnow hmay (hnone _)) rfl (hnone _)
      have hrecorded : Books int ⟨policy'.recordSend x.channelId x.agent recordedAt, recordedAt,
          s.allowed ++ [x], settle (s.awaiting.set x.channelId x) x.channelId x.agent⟩ :=
        hallowed.recorded hlater
      refine ⟨_, hrecorded, ?_, rfl, le_refl _, rfl⟩
      intro c
      simp only [settle, Dict.get?_set_self, Option.any_some, decide_true, if_true,
        Dict.get?_pop]
      split
      · rfl
      · rename_i hc
        rw [Dict.get?_set_of_ne _ _ hc]
        exact hnone c

/-- The sends that calls allow are lawful after those before them. -/
theorem Books.lawful_acquired (h : Books int s) (hnone : ∀ c, s.awaiting.get? c = none)
    {clock : Rat} (hnow : s.now ≤ clock) {calls : List (Send V × Rat)} {log : List (Send V)}
    (hlog : acquired int s.policy clock calls = some log) : Lawful int (s.allowed ++ log) := by
  induction calls generalizing s clock log with
  | nil =>
    cases hlog
    rw [List.append_nil]
    exact h.lawful
  | cons call calls ih =>
    obtain ⟨x, recordedAt⟩ := call
    rw [acquired, Option.ite_none_left_eq_some, not_or, not_lt, not_lt] at hlog
    obtain ⟨⟨hclock, hlater⟩, hrest⟩ := hlog
    have hasks := hnow.trans hclock
    split at hrest
    · exact ih h hnone (hasks.trans hlater) hrest
    · rename_i policy htry
      obtain ⟨log', hlog', rfl⟩ := Option.map_eq_some_iff.mp hrest
      obtain ⟨s', h', hnone', rfl, hnow', hallowed⟩ := h.acquire hnone hasks hlater htry
      simpa [hallowed] using ih h' hnone' hnow' hlog'
    · rename_i policy htry
      obtain ⟨s', h', hnone', rfl, hnow', hallowed⟩ := h.acquire hnone hasks hlater htry
      simpa [hallowed] using ih h' hnone' hnow' hrest

/-- Calls that ask and record at once obey the cap and the cooldown, whatever their order. -/
theorem rateLaw_of_acquired (clock : Rat) (calls : List (Send V × Rat)) (log : List (Send V))
    (hlog : acquired int ⟨Dict.empty, Dict.empty⟩ clock calls = some log) : RateLaw int log :=
  (Books.lawful_acquired (Books.init clock) (fun _ => rfl) le_rfl hlog).rateLaw

/-- Two calls at once, where the cap is one. -/
theorem rateLaw_of_acquired_twice :
    ∃ log, acquired some ⟨Dict.empty, Dict.empty⟩ 0
        [(⟨"ch1", "tom", limits 5 1, 0⟩, 0), (⟨"ch1", "don", limits 5 1, 0⟩, 0)] = some log ∧
      log.map Send.agent = ["tom"] ∧ RateLaw some log := by
  have hsome : (acquired some ⟨Dict.empty, Dict.empty⟩ 0
      [(⟨"ch1", "tom", limits 5 1, 0⟩, 0), (⟨"ch1", "don", limits 5 1, 0⟩, 0)]).map
        (List.map Send.agent) = some ["tom"] := by
    decide +kernel
  obtain ⟨log, hlog, hagents⟩ := Option.map_eq_some_iff.mp hsome
  exact ⟨log, hlog, hagents, rateLaw_of_acquired 0 _ log hlog⟩

end PolicyRun

end Policy

end TinyAgentOS.Chat
