import TinyAgentOS.Projects.A2aPlan

/-!
# The coordination channel of a project

A change of the members or of the lead is followed by a call that finds the project's channel, or
makes it, and brings it in line.  These calls wait for one another, and the changes wait for nobody:
they fall between the statements of such a call, and what it has read is then out of date.

Main results:

- `A2aState.Sound.step`: a channel that is not in line is one that a call is still to come for.
- `A2aState.settled_of_run`: one channel, the oldest, in line with the project, once all calls
  have completed.
-/

namespace TinyAgentOS.Projects

open Chat Collections Transition

/-! ## Calls -/

/-- A change of the project. -/
inductive MemberChange where
  | add (memberId : String)
  | remove (memberId : String)
  | setLead (memberId : Option String)

/-- Where a call stands: the statement it awaits, or the lock. -/
inductive A2aCall where
  | changing (change : MemberChange)
  /-- `SET lead_member_id = NULL`, if it is the one that was removed. -/
  | clearingLead (memberId : String)
  | settingLead (memberId : Option String)
  | waiting
  | readingProject
  | readingMembers (lead : Option String)
  | listing (lead : Option String) (members : List String)
  | creating (members leads : List String)
  | writing (writes : List ChannelWrite)
  | storing (channelId : String) (value : ColumnValue) (writes : List ChannelWrite)
  | done (ensured : Bool)

/-- The call holds the lock. -/
def A2aCall.inside : A2aCall → Bool
  | .readingProject => true
  | .readingMembers _ => true
  | .listing _ _ => true
  | .creating _ _ => true
  | .writing _ => true
  | .storing _ _ _ => true
  | _ => false

/-- The call has changed the project, and is still to take the lock. -/
def A2aCall.due : A2aCall → Bool
  | .clearingLead _ => true
  | .waiting => true
  | _ => false

/-- The statements of the calls; a new channel has an id that is drawn. -/
inductive A2aEvent where
  | changeCalled (id : Nat) (change : MemberChange)
  | ensureCalled (id : Nat)
  | stepped (id : Nat)
  | created (id : Nat) (channelId : String) (now : Clock)

/-- A project with the chat, the calls and the holder of its lock. -/
structure A2aState where
  projectId : String
  createdBy : String
  lead : Option String
  members : List String
  tables : ChatTables
  calls : Dict Nat A2aCall
  lock : Option Nat

namespace A2aState

def channels (s : A2aState) : Dict String Channel :=
  s.tables.channels

def goOn (s : A2aState) (id : Nat) (call : A2aCall) : A2aState :=
  { s with calls := s.calls.set id call }

def withChannels (s : A2aState) (channels : Dict String Channel) : A2aState :=
  { s with tables := { s.tables with channels := channels } }

/-- The call returns, and the lock is free. -/
def release (s : A2aState) (id : Nat) : A2aState :=
  { s.goOn id (.done true) with lock := none }

/-- The channel that `create_channel` inserts. -/
def newChannel (s : A2aState) (members leads : List String) (now : Clock) : Channel where
  name := "a2a"
  type := "group"
  description := "Agent coordination channel."
  topic := ""
  members := members
  settings := a2aSettings leads
  createdBy := s.createdBy
  createdAt := now
  lastMessageAt := none
  projectId := s.projectId

variable (config : Config)

/-- The next statement of a call. -/
def stepCall (s : A2aState) (id : Nat) : A2aCall → Option A2aState
  | .changing (.add memberId) =>
    some
      { s.goOn id .waiting with
        members := if memberId ∈ s.members then s.members else s.members ++ [memberId] }
  | .changing (.remove memberId) =>
    some
      { s.goOn id (.clearingLead memberId) with
        members := s.members.filter fun m => m ≠ memberId }
  | .changing (.setLead memberId) =>
    some (s.goOn id
      (if memberId.all (fun m => m ∈ s.members) then .settingLead memberId else .done false))
  | .clearingLead memberId =>
    some
      { s.goOn id .waiting with
        lead := if s.lead = some memberId then none else s.lead }
  | .settingLead memberId => some { s.goOn id .waiting with lead := memberId }
  | .waiting =>
    if s.lock = none then some { s.goOn id .readingProject with lock := some id } else none
  | .readingProject => some (s.goOn id (.readingMembers s.lead))
  | .readingMembers lead => some (s.goOn id (.listing lead s.members))
  | .listing lead members =>
    let expected := resolveMemberNames config members
    let leads := resolveLeadNames config lead
    match findA2aChannels s.tables s.projectId with
    | [] => some (s.goOn id (.creating (sortedNames expected) leads))
    | existing :: dups => some (s.goOn id (.writing (plan existing dups expected leads)))
  | .writing [] => some (s.release id)
  | .writing (w :: writes) =>
    match s.channels.get? w.channelId with
    | none => some (s.goOn id (.writing writes))
    | some ch => some (s.goOn id (.storing w.channelId (w.value ch) writes))
  | .storing channelId value writes =>
    some ((s.withChannels (s.channels.modify channelId value.store)).goOn id (.writing writes))
  | .creating _ _ => none
  | .done _ => none

def step (s : A2aState) : A2aEvent → Option A2aState
  | .changeCalled id change =>
    if (s.calls.get? id).isSome then none else some (s.goOn id (.changing change))
  | .ensureCalled id =>
    if (s.calls.get? id).isSome then none else some (s.goOn id .waiting)
  | .stepped id => (s.calls.get? id).bind (s.stepCall config id)
  | .created id channelId now =>
    match s.calls.get? id with
    | some (.creating members leads) =>
      if (s.channels.get? channelId).isSome then none
      else
        some ((s.withChannels
          (s.channels.set channelId (s.newChannel members leads now))).release id)
    | _ => none

end A2aState

/-! ## A new channel -/

theorem get?_a2aSettings_kind (leads : List String) :
    (a2aSettings leads).entries.get? "kind" = some (.str "a2a") := by
  have hother : (a2aSettings leads).entries.get? "kind" =
      (withSetting noSettings "kind" (.str "a2a") (by decide)).entries.get? "kind" :=
    Dict.get?_set_of_ne _ _ (by decide)
  rw [hother]
  exact Dict.get?_set_self _ _ _

theorem hasKind_a2aSettings (leads : List String) : hasKind (a2aSettings leads) "a2a" = true := by
  simp [hasKind, get?_a2aSettings_kind]

theorem leadsOf_a2aSettings (leads : List String) :
    leadsOf (a2aSettings leads) = some (leadsValue leads) :=
  Dict.get?_set_self _ _ _

theorem isArchived_a2aSettings (leads : List String) : isArchived (a2aSettings leads) = false := by
  by_contra harchived
  rw [Bool.not_eq_false, isArchived_iff] at harchived
  obtain ⟨k, v, hget, hmarked⟩ := harchived
  rcases Dict.get?_set_cases hget with ⟨rfl, rfl⟩ | ⟨_, hget⟩
  · rw [leadsValue, marksArchived_names] at hmarked
    contradiction
  · rcases Dict.get?_set_cases hget with ⟨rfl, rfl⟩ | ⟨_, hget⟩
    · exact absurd hmarked (by decide)
    · contradiction

/-- A channel that is made where none is active is in line. -/
theorem synced_newChannel {config : Config} {s : A2aState}
    (hnone : ∀ id ch, ¬ IsActive s.projectId s.channels id ch) {channelId : String}
    (lead : Option String) (members : List String) (now : Clock) :
    Synced config s.projectId
      (s.channels.set channelId (s.newChannel (sortedNames (resolveMemberNames config members))
        (resolveLeadNames config lead) now)) lead members := by
  refine ⟨channelId, _, inLine_of_names
    ⟨Dict.get?_set_self _ _ _, rfl, ?_, isArchived_a2aSettings _⟩ ?_ ?_ (leadsOf_a2aSettings _)⟩
  · simp [isA2a, A2aState.newChannel, hasKind_a2aSettings]
  · intro id ch h
    rcases Dict.get?_set_cases h.row with ⟨hid, _⟩ | ⟨_, hrow⟩
    · exact hid.symm
    · exact absurd ⟨hrow, h.project, h.a2a, h.unarchived⟩ (hnone id ch)
  · intro name
    exact mem_sortedNames

/-! ## Calls in any order -/

namespace A2aState

variable {config : Config} {s s' s₀ : A2aState} {id : Nat}

/-- A call is still to take the lock. -/
def Due (s : A2aState) : Prop :=
  ∃ id call, s.calls.get? id = some call ∧ call.due = true

/-- What was read of the project is so, or a call is still to come. -/
def UpToDate (s : A2aState) (lead : Option String) (members : List String) : Prop :=
  lead = s.lead ∧ members = s.members ∨ s.Due

/-- The table that a call will leave is in line with what the call has read. -/
def Finishes (config : Config) (s₀ s : A2aState) (d : Dict String Channel) : Prop :=
  KeepsEldest s.projectId s₀.channels d ∧
    ∃ lead members, s.UpToDate lead members ∧ Synced config s.projectId d lead members

/-- The state of the call that holds the lock. -/
def Working (config : Config) (s₀ s : A2aState) : A2aCall → Prop
  | .readingProject => KeepsEldest s.projectId s₀.channels s.channels
  | .readingMembers lead =>
    KeepsEldest s.projectId s₀.channels s.channels ∧ (lead = s.lead ∨ s.Due)
  | .listing lead members =>
    KeepsEldest s.projectId s₀.channels s.channels ∧ s.UpToDate lead members
  | .creating members leads =>
    KeepsEldest s.projectId s₀.channels s.channels ∧
      (∀ id ch, ¬ IsActive s.projectId s.channels id ch) ∧
        ∃ lead current, s.UpToDate lead current ∧
          members = sortedNames (resolveMemberNames config current) ∧
            leads = resolveLeadNames config lead
  | .writing writes => Finishes config s₀ s (writes.foldl applyWrite s.channels)
  | .storing channelId value writes =>
    Finishes config s₀ s
      (writes.foldl applyWrite (s.channels.modify channelId value.store))
  | _ => False

/-- One call works at a time; while none does, the channel is in line, or a call is to come. -/
structure Sound (config : Config) (s₀ s : A2aState) : Prop where
  project : s.projectId = s₀.projectId
  holder : ∀ id call, s.calls.get? id = some call → call.inside = true → s.lock = some id
  held : ∀ id, s.lock = some id →
    ∃ call, s.calls.get? id = some call ∧ Working config s₀ s call
  free : s.lock = none → KeepsEldest s.projectId s₀.channels s.channels ∧
    (s.Due ∨ (∀ id, s.calls.get? id ≠ some (.done true)) ∨
      Synced config s.projectId s.channels s.lead s.members)

theorem Working.inside {call : A2aCall} (h : Working config s₀ s call) : call.inside = true := by
  cases call with
  | readingProject | readingMembers | listing | creating | writing | storing => rfl
  | changing | clearingLead | settingLead | waiting | done => exact h.elim

theorem not_due_of_inside {call : A2aCall} (h : call.inside = true) : call.due = false := by
  cases call <;> first | rfl | contradiction

@[simp]
theorem channels_goOn (s : A2aState) (id : Nat) (call : A2aCall) :
    (s.goOn id call).channels = s.channels :=
  rfl

/-- A call to come still is, after another has gone on. -/
theorem due_of_set {call : A2aCall} (h : s.Due) (hcalls : s'.calls = s.calls.set id call)
    (hkeep : ∀ old, s.calls.get? id = some old → old.due = true → call.due = true) : s'.Due := by
  obtain ⟨other, old, hold, hdue⟩ := h
  by_cases hid : id = other
  · subst hid
    exact ⟨id, call, by rw [hcalls, Dict.get?_set_self], hkeep old hold hdue⟩
  · exact ⟨other, old, by rw [hcalls, Dict.get?_set_of_ne _ _ hid, hold], hdue⟩

/-- What holds of a call that works holds as long as nobody touches the channels. -/
theorem Working.mono {call : A2aCall} (h : Working config s₀ s call)
    (hproject : s'.projectId = s.projectId) (hchannels : s'.channels = s.channels)
    (hdue : s.Due → s'.Due) (hcurrent : s'.Due ∨ s'.lead = s.lead ∧ s'.members = s.members) :
    Working config s₀ s' call := by
  have hlead : ∀ lead, lead = s.lead ∨ s.Due → lead = s'.lead ∨ s'.Due := by
    rintro lead (heq | h)
    · exact hcurrent.elim Or.inr fun hcurrent => Or.inl (heq.trans hcurrent.1.symm)
    · exact Or.inr (hdue h)
  have hdate : ∀ lead members, s.UpToDate lead members → s'.UpToDate lead members := by
    rintro lead members (⟨hlead, hmembers⟩ | h)
    · exact hcurrent.elim Or.inr fun hcurrent =>
        Or.inl ⟨hlead.trans hcurrent.1.symm, hmembers.trans hcurrent.2.symm⟩
    · exact Or.inr (hdue h)
  have hfinish : ∀ d, Finishes config s₀ s d → Finishes config s₀ s' d := by
    rintro d ⟨heldest, lead, members, hup, hsynced⟩
    unfold Finishes
    rw [hproject]
    exact ⟨heldest, lead, members, hdate lead members hup, hsynced⟩
  cases call with
  | readingProject =>
    unfold Working at h ⊢
    rwa [hproject, hchannels]
  | readingMembers lead =>
    unfold Working at h ⊢
    rw [hproject, hchannels]
    exact ⟨h.1, hlead lead h.2⟩
  | listing lead members =>
    unfold Working at h ⊢
    rw [hproject, hchannels]
    exact ⟨h.1, hdate lead members h.2⟩
  | creating members leads =>
    unfold Working at h ⊢
    rw [hproject, hchannels]
    obtain ⟨heldest, hnone, lead, current, hup, hmembers, hleads⟩ := h
    exact ⟨heldest, hnone, lead, current, hdate lead current hup, hmembers, hleads⟩
  | writing | storing =>
    unfold Working at h ⊢
    rw [hchannels]
    exact hfinish _ h
  | changing | clearingLead | settingLead | waiting | done => exact h.elim

/-- A call that is not at work goes on. -/
theorem Sound.outside {call : A2aCall} (h : Sound config s₀ s)
    (hold : ∀ old, s.calls.get? id = some old → old.inside = false)
    (hcalls : s'.calls = s.calls.set id call) (hinside : call.inside = false)
    (hproject : s'.projectId = s.projectId) (htables : s'.tables = s.tables)
    (hlock : s'.lock = s.lock) (hdone : call ≠ .done true)
    (hdue : call.due = true ∨ (∀ old, s.calls.get? id = some old → old.due = false) ∧
      s'.lead = s.lead ∧ s'.members = s.members) : Sound config s₀ s' := by
  have hchannels : s'.channels = s.channels := congrArg ChatTables.channels htables
  have hself : s'.calls.get? id = some call := by rw [hcalls, Dict.get?_set_self]
  have hcurrent : s'.Due ∨ s'.lead = s.lead ∧ s'.members = s.members :=
    hdue.imp (fun hdue => ⟨id, call, hself, hdue⟩) And.right
  have hstill : s.Due → s'.Due := fun hs => due_of_set hs hcalls fun old hget hold =>
    hdue.elim (fun hdue => hdue) fun hdue => absurd hold (by rw [hdue.1 old hget]; decide)
  refine ⟨hproject.trans h.project, ?_, ?_, ?_⟩
  · intro other found hfound hin
    rw [hcalls] at hfound
    rcases Dict.get?_set_cases hfound with ⟨_, rfl⟩ | ⟨_, hfound⟩
    · rw [hinside] at hin
      contradiction
    · rw [hlock]
      exact h.holder other found hfound hin
  · intro other hother
    rw [hlock] at hother
    obtain ⟨found, hfound, hworking⟩ := h.held other hother
    have hne : id ≠ other := by
      rintro rfl
      have := hold found hfound
      rw [hworking.inside] at this
      contradiction
    exact ⟨found, by rw [hcalls, Dict.get?_set_of_ne _ _ hne, hfound],
      hworking.mono hproject hchannels hstill hcurrent⟩
  · intro hnone
    rw [hlock] at hnone
    obtain ⟨heldest, hstate⟩ := h.free hnone
    rw [hproject, hchannels]
    refine ⟨heldest, ?_⟩
    rcases hcurrent with hdue | ⟨hlead, hmembers⟩
    · exact Or.inl hdue
    · rcases hstate with hdue | hfresh | hsynced
      · exact Or.inl (hstill hdue)
      · refine Or.inr (Or.inl fun other hother => ?_)
        rw [hcalls] at hother
        rcases Dict.get?_set_cases hother with ⟨_, heq⟩ | ⟨_, hother⟩
        · exact hdone heq
        · exact hfresh other hother
      · rw [hlead, hmembers]
        exact Or.inr (Or.inr hsynced)

/-- The call that works goes on. -/
theorem Sound.goesOn {call : A2aCall} (h : Sound config s₀ s) (hlock : s.lock = some id)
    (hcalls : s'.calls = s.calls.set id call) (hproject : s'.projectId = s.projectId)
    (hlock' : s'.lock = s.lock) (hworking : Working config s₀ s' call) : Sound config s₀ s' := by
  refine ⟨hproject.trans h.project, ?_, ?_, ?_⟩
  · intro other found hfound hin
    rw [hlock']
    rw [hcalls] at hfound
    rcases Dict.get?_set_cases hfound with ⟨rfl, _⟩ | ⟨_, hfound⟩
    · exact hlock
    · exact h.holder other found hfound hin
  · intro other hother
    rw [hlock', hlock] at hother
    rw [← Option.some.inj hother]
    exact ⟨call, by rw [hcalls, Dict.get?_set_self], hworking⟩
  · intro hnone
    rw [hlock', hlock] at hnone
    contradiction

/-- The call that works returns, and has left the channel in line. -/
theorem Sound.released (h : Sound config s₀ s) (hlock : s.lock = some id)
    (hcalls : s'.calls = s.calls.set id (.done true)) (hproject : s'.projectId = s.projectId)
    (hlock' : s'.lock = none) (hlead : s'.lead = s.lead) (hmembers : s'.members = s.members)
    (hfinish : Finishes config s₀ s s'.channels) : Sound config s₀ s' := by
  obtain ⟨heldest, lead, members, hup, hsynced⟩ := hfinish
  have hold : ∀ old, s.calls.get? id = some old → old.inside = true := by
    intro old hget
    obtain ⟨found, hfound, hworking⟩ := h.held id hlock
    rw [Option.some.inj (hget.symm.trans hfound)]
    exact hworking.inside
  refine ⟨hproject.trans h.project, ?_, ?_, ?_⟩
  · intro other found hfound hin
    rw [hcalls] at hfound
    rcases Dict.get?_set_cases hfound with ⟨_, rfl⟩ | ⟨hne, hfound⟩
    · contradiction
    · have := h.holder other found hfound hin
      rw [hlock] at this
      exact absurd (Option.some.inj this) hne
  · intro other hother
    rw [hlock'] at hother
    contradiction
  · intro _
    rw [hproject]
    refine ⟨heldest, ?_⟩
    rcases hup with ⟨rfl, rfl⟩ | hdue
    · rw [hlead, hmembers]
      exact Or.inr (Or.inr hsynced)
    · refine Or.inl (due_of_set hdue hcalls fun old hget hdue => ?_)
      rw [not_due_of_inside (hold old hget)] at hdue
      contradiction

/-- The lock is taken where it is free. -/
theorem Sound.taken (h : Sound config s₀ s) (hlock : s.lock = none) :
    Sound config s₀ { s.goOn id .readingProject with lock := some id } := by
  have hnobody : ∀ other found, s.calls.get? other = some found → found.inside ≠ true := by
    intro other found hfound hin
    have := h.holder other found hfound hin
    rw [hlock] at this
    contradiction
  refine ⟨h.project, ?_, ?_, ?_⟩
  · intro other found hfound hin
    rcases Dict.get?_set_cases hfound with ⟨rfl, _⟩ | ⟨_, hfound⟩
    · rfl
    · exact absurd hin (hnobody other found hfound)
  · intro other hother
    have hid : id = other := Option.some.inj hother
    subst hid
    exact ⟨.readingProject, Dict.get?_set_self _ _ _, (h.free hlock).1⟩
  · intro hnone
    contradiction

section Inside

variable {call next : A2aCall}

/-- The call that is at work has the lock. -/
theorem Sound.working (h : Sound config s₀ s) (hget : s.calls.get? id = some call)
    (hin : call.inside = true) : s.lock = some id ∧ Working config s₀ s call := by
  have hlock := h.holder id call hget hin
  obtain ⟨found, hfound, hworking⟩ := h.held id hlock
  rw [Option.some.inj (hget.symm.trans hfound)]
  exact ⟨hlock, hworking⟩

section

variable (hget : s.calls.get? id = some call) (hin : call.inside = true)
include hget hin

theorem due_goOn (h : s.Due) : (s.goOn id next).Due := by
  refine due_of_set h rfl fun old hold hdue => ?_
  rw [Option.some.inj (hold.symm.trans hget), not_due_of_inside hin] at hdue
  contradiction

theorem upToDate_goOn {lead : Option String} {members : List String} (h : s.UpToDate lead members) :
    (s.goOn id next).UpToDate lead members :=
  h.imp_right (due_goOn hget hin)

theorem finishes_goOn {d : Dict String Channel} (h : Finishes config s₀ s d) :
    Finishes config s₀ (s.goOn id next) d := by
  obtain ⟨heldest, lead, members, hup, hsynced⟩ := h
  exact ⟨heldest, lead, members, upToDate_goOn hget hin hup, hsynced⟩

end

end Inside

/-- The listing of the channels, and what is decided from it. -/
theorem Sound.step_listing {lead : Option String} {members : List String}
    (h : Sound config s₀ s) (hget : s.calls.get? id = some (.listing lead members))
    (hstep : s.stepCall config id (.listing lead members) = some s') : Sound config s₀ s' := by
  obtain ⟨hlock, heldest, hup⟩ := h.working hget rfl
  unfold stepCall at hstep
  cases hfound : findA2aChannels s.tables s.projectId with
  | nil =>
    rw [hfound] at hstep
    cases hstep
    refine h.goesOn hlock rfl rfl rfl ⟨heldest, ?_, lead, members,
      upToDate_goOn hget rfl hup, rfl, rfl⟩
    intro other ch hactive
    have hmem : (other, parseChannel ch) ∈ findA2aChannels s.tables s.projectId :=
      mem_findA2aChannels.mpr ⟨ch, hactive, rfl⟩
    rw [hfound] at hmem
    contradiction
  | cons existing dups =>
    rw [hfound] at hstep
    cases hstep
    exact h.goesOn hlock rfl rfl rfl (finishes_goOn hget rfl
      ⟨keepsEldest_plan hfound heldest, lead, members, hup, synced_plan hfound⟩)

/-- The writes of a call, and its return. -/
theorem Sound.step_writing {writes : List ChannelWrite} (h : Sound config s₀ s)
    (hget : s.calls.get? id = some (.writing writes))
    (hstep : s.stepCall config id (.writing writes) = some s') : Sound config s₀ s' := by
  obtain ⟨hlock, hfinish⟩ := h.working hget rfl
  cases writes with
  | nil =>
    cases hstep
    exact h.released hlock rfl rfl rfl rfl rfl hfinish
  | cons w writes =>
    change (match s.channels.get? w.channelId with
      | none => some (s.goOn id (.writing writes))
      | some ch => some (s.goOn id (.storing w.channelId (w.value ch) writes))) = some s' at hstep
    change Finishes config s₀ s (writes.foldl applyWrite (applyWrite s.channels w)) at hfinish
    cases hrow : s.channels.get? w.channelId with
    | none =>
      simp only [hrow, Option.some.injEq] at hstep
      subst hstep
      have hstill : applyWrite s.channels w = s.channels := by
        simp [applyWrite, Dict.modify, hrow]
      rw [hstill] at hfinish
      exact h.goesOn hlock rfl rfl rfl (finishes_goOn hget rfl hfinish)
    | some ch =>
      simp only [hrow, Option.some.injEq] at hstep
      subst hstep
      have hstored : applyWrite s.channels w =
          s.channels.modify w.channelId (w.value ch).store := by
        rw [applyWrite, Dict.modify_of_get? hrow, Dict.modify_of_get? hrow]
        rfl
      rw [hstored] at hfinish
      exact h.goesOn hlock rfl rfl rfl (finishes_goOn hget rfl hfinish)

/-- A statement of a call keeps the state sound. -/
theorem Sound.stepCall {call : A2aCall} (h : Sound config s₀ s) (hget : s.calls.get? id = some call)
    (hstep : s.stepCall config id call = some s') : Sound config s₀ s' := by
  have hold : ∀ {P : A2aCall → Prop}, P call →
      ∀ old, s.calls.get? id = some old → P old := by
    intro P hP old hget'
    rw [Option.some.inj (hget'.symm.trans hget)]
    exact hP
  have houtside := hold (P := fun c => c.inside = false)
  cases call with
  | changing change =>
    cases change with
    | add | remove =>
      cases hstep
      exact h.outside (houtside rfl) rfl rfl rfl rfl rfl (by simp) (Or.inl rfl)
    | setLead memberId =>
      cases hstep
      split
      · exact h.outside (houtside rfl) rfl rfl rfl rfl rfl (by simp)
          (Or.inr ⟨hold (P := fun c => c.due = false) rfl, rfl, rfl⟩)
      · exact h.outside (houtside rfl) rfl rfl rfl rfl rfl (by simp)
          (Or.inr ⟨hold (P := fun c => c.due = false) rfl, rfl, rfl⟩)
  | clearingLead | settingLead =>
    cases hstep
    exact h.outside (houtside rfl) rfl rfl rfl rfl rfl (by simp) (Or.inl rfl)
  | waiting =>
    unfold A2aState.stepCall at hstep
    by_cases hlock : s.lock = none
    · rw [if_pos hlock] at hstep
      cases hstep
      exact h.taken hlock
    · rw [if_neg hlock] at hstep
      contradiction
  | readingProject =>
    cases hstep
    obtain ⟨hlock, heldest⟩ := h.working hget rfl
    exact h.goesOn hlock rfl rfl rfl ⟨heldest, Or.inl rfl⟩
  | readingMembers lead =>
    cases hstep
    obtain ⟨hlock, heldest, hlead⟩ := h.working hget rfl
    refine h.goesOn hlock rfl rfl rfl ⟨heldest, ?_⟩
    rcases hlead with hlead | hdue
    · exact Or.inl ⟨hlead, rfl⟩
    · exact Or.inr (due_goOn hget rfl hdue)
  | listing lead members => exact h.step_listing hget hstep
  | creating | done => contradiction
  | writing writes => exact h.step_writing hget hstep
  | storing channelId value writes =>
    cases hstep
    obtain ⟨hlock, hfinish⟩ := h.working hget rfl
    exact h.goesOn hlock rfl rfl rfl (finishes_goOn hget rfl hfinish)

/-- A call begins. -/
theorem Sound.called (h : Sound config s₀ s) (call : A2aCall) (hinside : call.inside = false)
    (hdone : call ≠ .done true)
    (hstep : (if (s.calls.get? id).isSome then none else some (s.goOn id call)) = some s') :
    Sound config s₀ s' := by
  by_cases hsome : (s.calls.get? id).isSome = true
  · rw [if_pos hsome] at hstep
    contradiction
  · rw [if_neg hsome] at hstep
    cases hstep
    have hnew : ∀ {P : A2aCall → Prop}, ∀ old, s.calls.get? id = some old → P old := by
      intro P old hget
      rw [hget] at hsome
      exact absurd rfl hsome
    exact h.outside hnew rfl hinside rfl rfl rfl hdone (Or.inr ⟨hnew, rfl, rfl⟩)

/-- A channel that is not in line is one that a call is still to come for. -/
theorem Sound.step {e : A2aEvent} (h : Sound config s₀ s) (hstep : s.step config e = some s') :
    Sound config s₀ s' := by
  cases e with
  | changeCalled id change => exact h.called (.changing change) rfl (by simp) hstep
  | ensureCalled id => exact h.called .waiting rfl (by simp) hstep
  | stepped id =>
    obtain ⟨call, hget, hstep⟩ := Option.bind_eq_some_iff.mp hstep
    exact h.stepCall hget hstep
  | created id channelId now =>
    simp only [A2aState.step] at hstep
    cases hget : s.calls.get? id with
    | none =>
      rw [hget] at hstep
      contradiction
    | some call =>
      cases call with
      | creating members leads =>
        simp only [hget] at hstep
        obtain ⟨hlock, heldest, hnone, lead, current, hup, rfl, rfl⟩ := h.working hget rfl
        by_cases htaken : (s.channels.get? channelId).isSome = true
        · rw [if_pos htaken] at hstep
          contradiction
        · rw [if_neg htaken] at hstep
          cases hstep
          refine h.released hlock rfl rfl rfl rfl rfl ⟨?_, lead, current, hup,
            synced_newChannel hnone lead current now⟩
          -- No channel was active before, or else one still would be.
          intro hsome
          obtain ⟨other, ch, hactive, _⟩ := (heldest hsome).oldest
          exact absurd hactive (hnone other ch)
      | _ =>
        rw [hget] at hstep
        contradiction

theorem sound_start (hcalls : s₀.calls = Dict.empty) (hlock : s₀.lock = none) :
    Sound config s₀ s₀ := by
  have hnobody : ∀ id, s₀.calls.get? id = none := by
    intro id
    rw [hcalls, Dict.get?_empty]
  refine ⟨rfl, ?_, ?_, fun _ => ⟨?_, Or.inr (Or.inl ?_)⟩⟩
  · intro id call hget
    exact absurd ((hnobody id).symm.trans hget) nofun
  · intro id hid
    rw [hlock] at hid
    contradiction
  · exact keepsEldest_refl
  · intro id hget
    exact absurd ((hnobody id).symm.trans hget) nofun

/-- One active channel, the oldest, in line with the project, once all calls have completed. -/
theorem settled_of_run {es : List A2aEvent} (hcalls : s₀.calls = Dict.empty)
    (hlock : s₀.lock = none) (hrun : run (step config) s₀ es = some s)
    (hdone : ∀ id call, s.calls.get? id = some call → ∃ ensured, call = .done ensured)
    (hensured : ∃ id, s.calls.get? id = some (.done true)) :
    ∃ id ch, InLine config s₀.projectId s.channels s.lead s.members id ch ∧
      ∀ id₀ ch₀, IsActive s₀.projectId s₀.channels id₀ ch₀ →
        ch.createdAt ≤ ch₀.createdAt ∧
          ∃ before, IsActive s₀.projectId s₀.channels id before ∧
            before.createdAt = ch.createdAt := by
  have hsound : Sound config s₀ s :=
    invariant_of_run (fun _ _ _ h => h.step) (sound_start hcalls hlock) hrun
  have hfree : s.lock = none := by
    by_contra hsome
    obtain ⟨id, hid⟩ := Option.ne_none_iff_exists'.mp hsome
    obtain ⟨call, hget, hworking⟩ := hsound.held id hid
    obtain ⟨ensured, rfl⟩ := hdone id call hget
    exact hworking.elim
  obtain ⟨heldest, hstate⟩ := hsound.free hfree
  rw [hsound.project] at heldest hstate
  have hsynced : Synced config s₀.projectId s.channels s.lead s.members := by
    rcases hstate with ⟨id, call, hget, hdue⟩ | hfresh | hsynced
    · obtain ⟨ensured, rfl⟩ := hdone id call hget
      contradiction
    · obtain ⟨id, hget⟩ := hensured
      exact absurd hget (hfresh id)
    · exact hsynced
  obtain ⟨id, ch, hline⟩ := hsynced
  refine ⟨id, ch, hline, fun id₀ ch₀ hactive => ?_⟩
  have hdescends := heldest ⟨id₀, ch₀, hactive⟩
  obtain ⟨eldest, ech, heactive, hle⟩ := hdescends.oldest
  have hid := hline.only eldest ech heactive
  subst hid
  have hch := Option.some.inj (heactive.row.symm.trans hline.active.row)
  subst hch
  exact ⟨hle id₀ ch₀ hactive, hdescends.within eldest ech heactive⟩

/-- Two agents with ids, and one without. -/
def team : Config :=
  some [⟨some "91a640130122", some "builder"⟩, ⟨some "5c00e1", some "tester"⟩, ⟨none, some "scout"⟩]

/-- A project with two active channels, the younger of them listed first, the older with leads
that are no list. -/
def twoChannels : A2aState where
  projectId := "project"
  createdBy := "user"
  lead := none
  members := ["91a640130122", "scout", "deleted"]
  tables := ⟨⟨[("young", ⟨"a2a", "group", "", "", [], a2aSettings [], "user", 2, none, "project"⟩),
    ("old", ⟨"a2a", "group", "", "", ["gone"],
      withSetting (a2aSettings []) "leads" (.const .null) leads_ne_muted, "user", 1, none,
      "project"⟩)],
    by decide⟩, Dict.empty, Dict.empty⟩
  calls := Dict.empty
  lock := none

/-- The lead changes while the channels are being brought in line. -/
def leadChanges : List A2aEvent :=
  [A2aEvent.ensureCalled 0, .stepped 0, .stepped 0, .stepped 0,
    .changeCalled 1 (.setLead (some "91a640130122")), .stepped 1, .stepped 1] ++
      List.replicate 12 (.stepped 0) ++ List.replicate 7 (.stepped 1)

/-- Every call has returned, and the first is one of them. -/
def returned (s : A2aState) : Bool :=
  (s.calls.get? 0).isSome && s.calls.values.all fun call =>
    match call with
    | .done true => true
    | _ => false

theorem done_of_returned (h : s.returned = true) : (∃ id, s.calls.get? id = some (.done true)) ∧
      ∀ id call, s.calls.get? id = some call → ∃ ensured, call = .done ensured := by
  obtain ⟨hfirst, hall⟩ := Bool.and_eq_true_iff.mp h
  have hdone : ∀ id call, s.calls.get? id = some call → call = .done true := by
    intro id call hget
    have hcall := List.all_eq_true.mp hall call (Dict.mem_values_iff.mpr ⟨id, hget⟩)
    split at hcall
    · rfl
    · contradiction
  obtain ⟨call, hget⟩ := Option.isSome_iff_exists.mp hfirst
  exact ⟨⟨0, (hdone 0 call hget) ▸ hget⟩, fun id call hget => ⟨true, hdone id call hget⟩⟩

theorem settled_of_run_leadChanges :
    ∃ s, run (step team) twoChannels leadChanges = some s ∧
      ∃ id ch, InLine team "project" s.channels s.lead s.members id ch ∧
        ∀ id₀ ch₀, IsActive "project" twoChannels.channels id₀ ch₀ →
          ch.createdAt ≤ ch₀.createdAt ∧
            ∃ before, IsActive "project" twoChannels.channels id before ∧
              before.createdAt = ch.createdAt := by
  have hends : (run (step team) twoChannels leadChanges).any returned = true := by decide
  obtain ⟨s, hrun, hreturned⟩ := (Option.any_eq_true _ _).mp hends
  obtain ⟨hensured, hdone⟩ := done_of_returned hreturned
  exact ⟨s, hrun, settled_of_run rfl rfl hrun hdone hensured⟩

end A2aState

end TinyAgentOS.Projects
