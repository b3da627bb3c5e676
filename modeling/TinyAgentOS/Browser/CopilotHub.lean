import TinyAgentOS.Library.Dict
import TinyAgentOS.Library.Transition

/-!
# Connections of the copilot hub

The hub keeps the connection of an iframe, or of an agent, under a key.  A connection that
registers under a taken key replaces the other, which is closed; the handler of a connection
removes the key when it ends, whoever holds it by then.

Main results:

- `Conns.newest_step_iff`: which cleanups keep the newest connection.
- `CopilotHub.newestWins_iff`: the newest connection wins in exactly the runs in which no handler
  ends after it was replaced.
-/

namespace TinyAgentOS.Browser

open Collections Transition

/-! ## Connections under keys -/

/-- A connection: its handler removes the key when it ends. -/
structure Socket (κ : Type) where
  key : κ
  isOpen : Bool
  handled : Bool

/-- A table of the hub, with the connections there have been and the latest of each key. -/
structure Conns (κ : Type) where
  table : Dict κ Nat
  sockets : Dict Nat (Socket κ)
  latest : Dict κ Nat

inductive ConnEvent (κ : Type) where
  /-- `add_iframe`, `add_agent`. -/
  | registered (id : Nat) (key : κ)
  /-- The peer is gone, or the hub has closed a connection that it replaced. -/
  | closed (id : Nat)
  /-- `remove_iframe`, `remove_agent`, at the end of the handler. -/
  | cleaned (id : Nat)

namespace Conns

variable {κ : Type} [DecidableEq κ]

def init : Conns κ := ⟨Dict.empty, Dict.empty, Dict.empty⟩

def step (s : Conns κ) : ConnEvent κ → Option (Conns κ)
  | .registered id key =>
    if (s.sockets.get? id).isSome then none
    else
      some
        { table := s.table.set key id
          sockets := s.sockets.set id ⟨key, true, true⟩
          latest := s.latest.set key id }
  | .closed id =>
    match s.sockets.get? id with
    | none => none
    | some c => some { s with sockets := s.sockets.set id { c with isOpen := false } }
  | .cleaned id =>
    match s.sockets.get? id with
    | none => none
    | some c =>
      if c.handled then
        some
          { s with
            table := s.table.pop c.key
            sockets := s.sockets.set id { c with isOpen := false, handled := false } }
      else none

/-- The connection that a message for the key is sent to. -/
def route (s : Conns κ) (key : κ) : Option Nat :=
  s.table.get? key

/-- The latest connection of a key is the one of the table as long as it is open. -/
def Newest (s : Conns κ) : Prop :=
  ∀ key id c, s.latest.get? key = some id → s.sockets.get? id = some c → c.isOpen = true →
    s.route key = some id

/-- The end of a handler unregisters no other connection. -/
def KeepsOthers (s : Conns κ) (e : ConnEvent κ) (s' : Conns κ) : Prop :=
  ∀ id, e = .cleaned id → ∀ key other, other ≠ id → s.route key = some other →
    s'.route key = some other

/-- A handler ends before its connection is replaced, or after the key is free again. -/
def Timely (s : Conns κ) : ConnEvent κ → Prop
  | .cleaned id =>
    ∀ c, s.sockets.get? id = some c → c.handled = true →
      ∀ other, s.route c.key = some other → other = id
  | _ => True

variable {e : ConnEvent κ} {s s' : Conns κ} {id : Nat}

theorem timely_of_none (hstep : s.step e = none) : s.Timely e := by
  cases e with
  | cleaned id =>
    intro c hget hhandled
    simp [step, hget, hhandled] at hstep
  | registered id key => trivial
  | closed id => trivial

theorem newest_init : (init : Conns κ).Newest := by
  intro key id c hlatest
  contradiction

/-- The latest connection of a key is one there has been. -/
def Known (s : Conns κ) : Prop :=
  ∀ key id, s.latest.get? key = some id → (s.sockets.get? id).isSome = true

theorem known_init : (init : Conns κ).Known := by
  intro key id hlatest
  contradiction

/-- Who is known stays so. -/
theorem Known.set (h : s.Known) {key : κ}
    (hlatest : s.latest.get? key = some id) (id' : Nat) (c : Socket κ) :
    ((s.sockets.set id' c).get? id).isSome = true := by
  rw [Dict.get?_set]
  split
  · rfl
  · exact h key id hlatest

theorem known_step (h : s.Known) (hstep : s.step e = some s') : s'.Known := by
  intro key id hlatest
  cases e with
  | registered id' key' =>
    simp only [step] at hstep
    split at hstep
    · contradiction
    cases hstep
    rcases Dict.get?_set_cases hlatest with ⟨rfl, rfl⟩ | ⟨_, hlatest⟩
    · simp
    · exact h.set hlatest _ _
  | closed id' =>
    simp only [step] at hstep
    split at hstep
    · contradiction
    cases hstep
    exact h.set hlatest _ _
  | cleaned id' =>
    simp only [step] at hstep
    split at hstep
    · contradiction
    split at hstep
    · cases hstep
      exact h.set hlatest _ _
    · contradiction

omit [DecidableEq κ] in
/-- An open connection is another than the one that a step has closed. -/
theorem get?_of_open {id' : Nat} {closed c : Socket κ}
    (hclosed : closed.isOpen = false) (hget : (s.sockets.set id closed).get? id' = some c)
    (hopen : c.isOpen = true) : id' ≠ id ∧ s.sockets.get? id' = some c := by
  rcases Dict.get?_set_cases hget with ⟨_, rfl⟩ | ⟨hne, hold⟩
  · rw [hclosed] at hopen
    contradiction
  · exact ⟨Ne.symm hne, hold⟩

/-- A new connection is the newest. -/
theorem newest_registered {key : κ} (hknown : s.Known)
    (h : s.Newest) (hstep : s.step (.registered id key) = some s') : s'.Newest := by
  simp only [step] at hstep
  split at hstep
  · contradiction
  rename_i hfresh
  cases hstep
  intro key' id' c hlatest hget hopen
  rcases Dict.get?_set_cases hlatest with ⟨rfl, rfl⟩ | ⟨hkey, hlatest⟩
  · exact Dict.get?_set_self _ _ _
  · have hroute : Dict.get? (s.table.set key id) key' = s.route key' :=
      Dict.get?_set_of_ne _ _ hkey
    have hne : id ≠ id' := by
      rintro rfl
      exact hfresh (hknown key' id hlatest)
    rw [Dict.get?_set_of_ne _ _ hne] at hget
    exact hroute.trans (h key' id' c hlatest hget hopen)

theorem newest_closed (h : s.Newest) (hstep : s.step (.closed id) = some s') : s'.Newest := by
  simp only [step] at hstep
  split at hstep
  · contradiction
  cases hstep
  intro key id' c hlatest hget hopen
  obtain ⟨_, hold⟩ := get?_of_open rfl hget hopen
  exact h key id' c hlatest hold hopen

/-- The end of a handler keeps the newest connections, and the others, exactly when it is
timely. -/
theorem newest_cleaned_iff (h : s.Newest) (hstep : s.step (.cleaned id) = some s') :
    s.KeepsOthers (.cleaned id) s' ∧ s'.Newest ↔ s.Timely (.cleaned id) := by
  simp only [step] at hstep
  split at hstep
  · contradiction
  rename_i c hget
  split at hstep
  · rename_i hhandled
    cases hstep
    constructor
    · rintro ⟨hkeeps, _⟩ c' hget' _ other hroute
      rw [hget] at hget'
      cases hget'
      by_contra hne
      have hkept := hkeeps id rfl c.key other hne hroute
      simp [route] at hkept
    · intro htimely
      have hown := htimely c hget hhandled
      have hroute : ∀ key other, other ≠ id → s.route key = some other →
          (s.table.pop c.key).get? key = some other := by
        intro key other hne hroute
        have hkey : c.key ≠ key := by
          rintro rfl
          exact hne (hown other hroute)
        rw [Dict.get?_pop_of_ne _ hkey]
        exact hroute
      constructor
      · intro id' heq key other hne hother
        cases heq
        exact hroute key other hne hother
      · intro key id' c' hlatest hget' hopen
        obtain ⟨hne, hold⟩ := get?_of_open rfl hget' hopen
        exact hroute key id' hne (h key id' c' hlatest hold hopen)
  · contradiction

/-- Which steps keep the newest connections and the others. -/
theorem newest_step_iff (hknown : s.Known) (h : s.Newest)
    (hstep : s.step e = some s') : s.KeepsOthers e s' ∧ s'.Newest ↔ s.Timely e := by
  cases e with
  | registered id key => exact iff_of_true ⟨nofun, newest_registered hknown h hstep⟩ trivial
  | closed id => exact iff_of_true ⟨nofun, newest_closed h hstep⟩ trivial
  | cleaned id => exact newest_cleaned_iff h hstep

end Conns

/-! ## The hub -/

/-- The key of an iframe: one connection for each agent that is pinned to a tab. -/
structure IframeKey where
  userId : String
  profileId : String
  tabId : String
  agentId : String
deriving DecidableEq

structure AgentKey where
  userId : String
  agentId : String
deriving DecidableEq

/-- `_iframe_conns` and `_agent_conns`. -/
structure CopilotHub where
  iframes : Conns IframeKey
  agents : Conns AgentKey

inductive HubEvent where
  | iframe (e : ConnEvent IframeKey)
  | agent (e : ConnEvent AgentKey)

namespace CopilotHub

def init : CopilotHub := ⟨Conns.init, Conns.init⟩

def step (hub : CopilotHub) : HubEvent → Option CopilotHub
  | .iframe e => (hub.iframes.step e).map fun conns => { hub with iframes := conns }
  | .agent e => (hub.agents.step e).map fun conns => { hub with agents := conns }

/-- Ops and acks go to the latest connections as long as these are open. -/
def Newest (hub : CopilotHub) : Prop :=
  hub.iframes.Newest ∧ hub.agents.Newest

/-- No connection is unregistered by the end of the handler of another. -/
def KeepsOthers (hub : CopilotHub) (e : HubEvent) (hub' : CopilotHub) : Prop :=
  match e with
  | .iframe e => hub.iframes.KeepsOthers e hub'.iframes
  | .agent e => hub.agents.KeepsOthers e hub'.agents

/-- No handler ends while its key is held by another connection. -/
def Timely (hub : CopilotHub) : HubEvent → Prop
  | .iframe e => hub.iframes.Timely e
  | .agent e => hub.agents.Timely e

/-- The newest connection wins throughout the run. -/
def NewestWins (es : List HubEvent) : Prop :=
  (∀ pre post hub, es = pre ++ post → run step init pre = some hub → hub.Newest) ∧
    EveryStep step KeepsOthers init es

/-- The newest connection wins, of those there have been. -/
structure Sound (hub : CopilotHub) : Prop where
  known : hub.iframes.Known ∧ hub.agents.Known
  newest : hub.Newest

theorem sound_init : init.Sound :=
  ⟨⟨Conns.known_init, Conns.known_init⟩, Conns.newest_init, Conns.newest_init⟩

variable {e : HubEvent}

theorem timely_of_none {hub : CopilotHub} (hstep : hub.step e = none) : hub.Timely e := by
  cases e with
  | iframe | agent => exact Conns.timely_of_none (Option.map_eq_none_iff.mp hstep)

/-- A step keeps the newest connections exactly when it is timely. -/
theorem newest_step_iff {hub hub' : CopilotHub} (h : hub.Sound)
    (hstep : hub.step e = some hub') : hub'.Newest ∧ hub.KeepsOthers e hub' ↔ hub.Timely e := by
  cases e with
  | iframe e =>
    obtain ⟨conns, hconns, rfl⟩ := Option.map_eq_some_iff.mp hstep
    have hiff := Conns.newest_step_iff h.known.1 h.newest.1 hconns
    constructor
    · rintro ⟨⟨hiframes, _⟩, hkeeps⟩
      exact hiff.mp ⟨hkeeps, hiframes⟩
    · intro htimely
      obtain ⟨hkeeps, hiframes⟩ := hiff.mpr htimely
      exact ⟨⟨hiframes, h.newest.2⟩, hkeeps⟩
  | agent e =>
    obtain ⟨conns, hconns, rfl⟩ := Option.map_eq_some_iff.mp hstep
    have hiff := Conns.newest_step_iff h.known.2 h.newest.2 hconns
    constructor
    · rintro ⟨⟨_, hagents⟩, hkeeps⟩
      exact hiff.mp ⟨hkeeps, hagents⟩
    · intro htimely
      obtain ⟨hkeeps, hagents⟩ := hiff.mpr htimely
      exact ⟨⟨h.newest.1, hagents⟩, hkeeps⟩

/-- Every timely step keeps the hub sound. -/
theorem sound_step {hub hub' : CopilotHub} (h : hub.Sound)
    (htimely : hub.Timely e) (hstep : hub.step e = some hub') : hub'.Sound := by
  refine ⟨?_, ((newest_step_iff h hstep).mpr htimely).1⟩
  cases e with
  | iframe e =>
    obtain ⟨conns, hconns, rfl⟩ := Option.map_eq_some_iff.mp hstep
    exact ⟨Conns.known_step h.known.1 hconns, h.known.2⟩
  | agent e =>
    obtain ⟨conns, hconns, rfl⟩ := Option.map_eq_some_iff.mp hstep
    exact ⟨h.known.1, Conns.known_step h.known.2 hconns⟩

/-- The newest connection wins in exactly the runs in which no handler ends while its key is
held by another connection. -/
theorem newestWins_iff (es : List HubEvent) : NewestWins es ↔ Guarded step Timely init es := by
  unfold NewestWins
  rw [states_iff_everyStep sound_init.newest, ← everyStep_and]
  apply everyStep_iff_guarded (I := Sound)
  · exact fun _ _ hstep => timely_of_none hstep
  · exact fun _ _ _ h htimely hstep => sound_step h htimely hstep
  · exact fun _ _ _ h hstep => newest_step_iff h hstep
  · exact sound_init

/-- An iframe connects again, and the handler of its first connection ends. -/
def reconnected : List HubEvent :=
  [.iframe (.registered 0 ⟨"ada", "p", "t", "scout"⟩),
    .iframe (.registered 1 ⟨"ada", "p", "t", "scout"⟩), .iframe (.closed 0),
    .iframe (.cleaned 0)]

/-- The second connection is open and cannot be reached. -/
theorem not_newestWins : ¬ NewestWins reconnected := by
  intro h
  have hnewest := (h.1 reconnected [] _ (by simp) rfl).1
  exact absurd (hnewest ⟨"ada", "p", "t", "scout"⟩ 1 _ rfl rfl rfl) (by decide)

end CopilotHub

end TinyAgentOS.Browser
