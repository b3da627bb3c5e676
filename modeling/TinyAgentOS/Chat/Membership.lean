import TinyAgentOS.Chat.Channels
import TinyAgentOS.Library.Transactions

/-!
# Members and settings of a channel

The calls on a channel read a JSON column, change it in memory and write it back in a later
statement; muting reads the settings once more in between.  Calls on one column can overlap,
and the later write then undoes what the other call has written.  The two columns are
written apart.

Main results:

- `ChannelPools.serial_step`: a coherent statement keeps both columns serial.
- `ChannelPools.serialisable_of_coherent`: the runs that have a serial order.
- `ChannelPools.not_serialisable`: one of two members is lost.
-/

namespace TinyAgentOS.Chat

open Collections Transactions Transition

/-! ## Calls -/

inductive MemberCall where
  | add (memberId : String)
  | remove (memberId : String)

/-- What a call makes of the members that it has read. -/
def MemberCall.edit : MemberCall → List String → List String
  | .add memberId, members => if memberId ∈ members then members else members ++ [memberId]
  | .remove memberId, members => members.filter fun m => m ≠ memberId

/-- The statements of `add_member` and `remove_member`. -/
def MemberCall.program (c : MemberCall) : Txn (Option (List String)) Unit Empty :=
  .read fun row =>
    match row with
    | none => .done ()
    | some members => .write (some (c.edit members)) ()

inductive SettingsCall where
  | set (updates : Settings)
  | mute (slug : String)
  | unmute (slug : String)

/-- The statements of `set_settings`. -/
def setSettings (updates : Settings) : Txn (Option Settings) Unit Empty :=
  .read fun row =>
    match row with
    | none => .done ()
    | some current => .write (some (current.update updates)) ()

/-- The statements of `set_settings`, `mute_agent` and `unmute_agent`. -/
def SettingsCall.program : SettingsCall → Txn (Option Settings) Unit Empty
  | .set updates => setSettings updates
  | .mute slug =>
    .read fun row =>
      match row with
      | none => .done ()
      | some ch => setSettings (.mutedUpdate (ch.muting slug))
  | .unmute slug =>
    .read fun row =>
      match row with
      | none => .done ()
      | some ch => setSettings (.mutedUpdate (ch.unmuting slug))

/-- The two columns, where there is a row. -/
abbrev Columns := Option (List String) × Option Settings

def columnsOf (row : Option Channel) : Columns :=
  (row.map Channel.members, row.map Channel.settings)

inductive ChannelCall where
  | member (c : MemberCall)
  | settings (c : SettingsCall)

/-- The call on its own. -/
def ChannelCall.exec (columns : Columns) : ChannelCall → Columns
  | .member c => ((c.program.exec columns.1).1, columns.2)
  | .settings c => (columns.1, (c.program.exec columns.2).1)

/-! ## Interleavings -/

inductive ChannelEvent where
  | member (e : PoolEvent MemberCall)
  | settings (e : PoolEvent SettingsCall)

/-- The calls on the one and on the other column. -/
structure ChannelPools where
  members : Pool (Option (List String)) Unit MemberCall Empty
  settings : Pool (Option Settings) Unit SettingsCall Empty

namespace ChannelPools

def init (row : Option Channel) : ChannelPools :=
  ⟨Pool.init (columnsOf row).1, Pool.init (columnsOf row).2⟩

def step (s : ChannelPools) : ChannelEvent → Option ChannelPools
  | .member e => (Transactions.step MemberCall.program s.members e).map fun p =>
    { s with members := p }
  | .settings e => (Transactions.step SettingsCall.program s.settings e).map fun p =>
    { s with settings := p }

def columns (s : ChannelPools) : Columns :=
  (s.members.cell, s.settings.cell)

/-- The calls that are over. -/
def completed (s : ChannelPools) : List ChannelCall :=
  (s.members.finished.map fun f => .member f.call) ++
    s.settings.finished.map fun f => .settings f.call

/-- The columns are what the completed calls make of them one after another, in some order. -/
def Serialisable (row : Option Channel) (s : ChannelPools) : Prop :=
  ∃ order : List ChannelCall, order.Perm s.completed ∧
    order.foldl ChannelCall.exec (columnsOf row) = s.columns

/-- A call that is to write its column writes what the whole call, run alone, would write now. -/
def Coherent (s : ChannelPools) : ChannelEvent → Prop
  | .member e => Transactions.Coherent MemberCall.program s.members e
  | .settings e => Transactions.Coherent SettingsCall.program s.settings e

/-- Both columns have a serial history. -/
structure Serial (row : Option Channel) (s : ChannelPools) : Prop where
  members : SerialFrom MemberCall.program (columnsOf row).1 s.members.finished s.members.cell
  settings : SerialFrom SettingsCall.program (columnsOf row).2 s.settings.finished s.settings.cell

theorem Serial.init (row : Option Channel) : (init row).Serial row :=
  ⟨rfl, rfl⟩

/-- A coherent statement keeps both columns serial. -/
theorem serial_step {row : Option Channel} {s s' : ChannelPools} {e : ChannelEvent}
    (h : s.Serial row) (hcoherent : s.Coherent e) (hstep : s.step e = some s') : s'.Serial row := by
  cases e with
  | member e =>
    obtain ⟨p, hp, rfl⟩ := Option.map_eq_some_iff.mp hstep
    exact ⟨Transactions.serial_step h.members hcoherent hp, h.settings⟩
  | settings e =>
    obtain ⟨p, hp, rfl⟩ := Option.map_eq_some_iff.mp hstep
    exact ⟨h.members, Transactions.serial_step h.settings hcoherent hp⟩

theorem foldl_member (calls : List MemberCall) (columns : Columns) :
    (calls.map ChannelCall.member).foldl ChannelCall.exec columns =
      (serialRun MemberCall.program columns.1 calls, columns.2) := by
  induction calls generalizing columns with
  | nil => rfl
  | cons c calls ih =>
    rw [List.map_cons, List.foldl_cons, ih]
    rfl

theorem foldl_settings (calls : List SettingsCall) (columns : Columns) :
    (calls.map ChannelCall.settings).foldl ChannelCall.exec columns =
      (columns.1, serialRun SettingsCall.program columns.2 calls) := by
  induction calls generalizing columns with
  | nil => rfl
  | cons c calls ih =>
    rw [List.map_cons, List.foldl_cons, ih]
    rfl

/-- Calls on one column may be run before all calls on the other. -/
theorem Serial.serialisable {row : Option Channel} {s : ChannelPools} (h : s.Serial row) :
    s.Serialisable row := by
  have hcompleted : s.completed =
      (s.members.finished.map Finished.call).map ChannelCall.member ++
        (s.settings.finished.map Finished.call).map ChannelCall.settings := by
    rw [List.map_map, List.map_map]
    rfl
  refine ⟨s.completed, List.Perm.refl _, ?_⟩
  rw [hcompleted, List.foldl_append, foldl_member, foldl_settings, h.members.serialRun_eq,
    h.settings.serialRun_eq]
  rfl

/-- A run of coherent statements is serialisable wherever it is. -/
theorem serialisable_of_coherent (row : Option Channel) (es : List ChannelEvent)
    (s : ChannelPools) (hrun : run step (init row) es = some s)
    (hcoherent : Guarded step Coherent (init row) es) : s.Serialisable row :=
  (invariant_of_guarded_run (fun _ _ _ h hcoherent hstep => serial_step h hcoherent hstep)
    (Serial.init row) hcoherent hrun).serialisable

/-- A channel with one member. -/
def general : Channel where
  name := "general"
  type := "topic"
  description := ""
  topic := ""
  members := ["user"]
  settings := .mutedUpdate []
  createdBy := "user"
  createdAt := 0
  lastMessageAt := none
  projectId := ""

/-- A member is added while an agent is muted. -/
def addWhileMuting : List ChannelEvent :=
  [.member (.start 1 (.add "scout")), .settings (.start 1 (.mute "scout")), .member (.advance 1),
    .settings (.advance 1), .member (.advance 1), .settings (.advance 1), .settings (.advance 1)]

theorem serialisable_addWhileMuting :
    ∃ s, run step (init (some general)) addWhileMuting = some s ∧
      s.Serialisable (some general) := by
  have hguard : Guarded step Coherent (init (some general)) addWhileMuting := by
    refine And.intro trivial (And.intro trivial (And.intro ?_ (And.intro ?_ (And.intro ?_
      (And.intro ?_ (And.intro ?_ trivial))))))
    all_goals
      intro t t' cell hget haccess hend
      cases hget
      cases haccess
    · contradiction
    · contradiction
    · rfl
    · contradiction
    · rfl
  obtain ⟨s, hrun⟩ : ∃ s, run step (init (some general)) addWhileMuting = some s := ⟨_, rfl⟩
  exact ⟨s, hrun, serialisable_of_coherent (some general) addWhileMuting s hrun hguard⟩

/-- Two members are added at once. -/
def twoAdds : List ChannelEvent :=
  [.member (.start 1 (.add "scout")), .member (.start 2 (.add "forge")), .member (.advance 1),
    .member (.advance 2), .member (.advance 1), .member (.advance 2)]

/-- One of them is lost, in whatever order the calls are run. -/
theorem not_serialisable :
    ∃ s, run step (init (some general)) twoAdds = some s ∧
      s.columns.1 = some ["user", "forge"] ∧ ¬ s.Serialisable (some general) := by
  have hend : (run step (init (some general)) twoAdds).map (fun s => (s.columns.1, s.completed)) =
      some (some ["user", "forge"], [.member (.add "scout"), .member (.add "forge")]) := rfl
  obtain ⟨s, hrun, hpair⟩ := Option.map_eq_some_iff.mp hend
  obtain ⟨hmembers, hcompleted⟩ := Prod.mk.inj hpair
  refine ⟨s, hrun, hmembers, ?_⟩
  rintro ⟨order, hperm, hserial⟩
  rw [hcompleted] at hperm
  rw [← hserial] at hmembers
  rcases List.perm_pair.mp hperm with rfl | rfl
  · exact absurd hmembers (by decide)
  · exact absurd hmembers (by decide)

end ChannelPools

end TinyAgentOS.Chat
