import TinyAgentOS.Chat.ArchivedText
import TinyAgentOS.Chat.Membership

/-!
# What a call writes to the coordination channel

A call reads the members and the lead of a project and the channels that may be its coordination
channel.  All but the oldest are archived, and the oldest is given the members and the leads by as
many writes as there are differences.

Main results:

- `resolveName_eq_some_iff`: what resolving through the configuration gives.
- `mem_findA2aChannels`: what the search finds.
- `inLine_plan`: what a call writes brings the channel in line with what it has read.
- `keepsEldest_plan`: the oldest is kept.
-/

namespace TinyAgentOS.Projects

open Chat Collections

/-! ## Configuration -/

/-- An agent of the configuration. -/
structure ConfigAgent where
  id : Option String
  name : Option String

abbrev Config := Option (List ConfigAgent)

/-- An entry of `_build_agent_lookups`: the last agent with the key, which is not empty. -/
def lookupAgent (key : ConfigAgent → Option String) (agents : List ConfigAgent) (k : String) :
    Option ConfigAgent :=
  if k = "" then none else agents.reverse.find? fun agent => key agent = some k

/-- The name of a member's agent, by its id or else by its name. -/
def resolveName : Config → String → Option String
  | none, memberId => some memberId
  | some agents, memberId =>
    ((lookupAgent ConfigAgent.id agents memberId).or
      (lookupAgent ConfigAgent.name agents memberId)).bind fun agent =>
        agent.name.filter fun name => name ≠ ""

/-- `_resolve_member_names`, as a list with the names of a set. -/
def resolveMemberNames (config : Config) (members : List String) : List String :=
  members.filterMap (resolveName config)

/-- `_resolve_lead_names`. -/
def resolveLeadNames (config : Config) : Option String → List String
  | none => []
  | some leadId => if leadId = "" then [] else (resolveName config leadId).toList

/-- The agent that a key which is not empty stands for: the last one with it. -/
def IsLast (key : ConfigAgent → Option String) (agents : List ConfigAgent) (k : String)
    (agent : ConfigAgent) : Prop :=
  k ≠ "" ∧ ∃ before after, agents = before ++ agent :: after ∧ key agent = some k ∧
    ∀ other ∈ after, key other ≠ some k

/-- The name of a member: its own without a configuration, else that of the agent with its id,
or, where no agent has that id, of the one with that name. -/
inductive Resolves : Config → String → String → Prop where
  | bare (memberId : String) : Resolves none memberId memberId
  | byId {agents : List ConfigAgent} {memberId name : String} {agent : ConfigAgent}
      (hagent : IsLast ConfigAgent.id agents memberId agent) (hname : agent.name = some name)
      (hnamed : name ≠ "") : Resolves (some agents) memberId name
  | byName {agents : List ConfigAgent} {name : String} {agent : ConfigAgent}
      (hid : ∀ other ∈ agents, other.id ≠ some name)
      (hagent : IsLast ConfigAgent.name agents name agent) : Resolves (some agents) name name

/-- The names of the members of a project. -/
def MemberName (config : Config) (members : List String) (name : String) : Prop :=
  ∃ memberId ∈ members, Resolves config memberId name

/-- The name of the lead, if there is one that resolves. -/
def LeadName (config : Config) (lead : Option String) (name : String) : Prop :=
  ∃ leadId ∈ lead, leadId ≠ "" ∧ Resolves config leadId name

section Resolve

variable {config : Config} {memberId name : String} {agents : List ConfigAgent}
  {key : ConfigAgent → Option String} {agent : ConfigAgent}

/-- A lookup gives the last agent with the key. -/
theorem lookupAgent_eq_some_iff :
    lookupAgent key agents memberId = some agent ↔ IsLast key agents memberId agent := by
  unfold lookupAgent IsLast
  by_cases hempty : memberId = ""
  · simp [hempty]
  · rw [if_neg hempty, List.find?_eq_some_iff_append, decide_eq_true_eq]
    constructor
    · rintro ⟨hkey, after, before, hsplit, hafter⟩
      refine ⟨hempty, before.reverse, after.reverse, ?_, hkey, ?_⟩
      · rw [← List.reverse_inj, hsplit]
        simp
      · intro other hother
        simpa using hafter other (List.mem_reverse.mp hother)
    · rintro ⟨_, before, after, rfl, hkey, hafter⟩
      refine ⟨hkey, after.reverse, before.reverse, by simp, ?_⟩
      intro other hother
      simpa using hafter other (List.mem_reverse.mp hother)

/-- A lookup fails where no agent has the key. -/
theorem lookupAgent_eq_none (hempty : memberId ≠ "") :
    lookupAgent key agents memberId = none ↔ ∀ other ∈ agents, key other ≠ some memberId := by
  simp [lookupAgent, hempty]

/-- What resolving through the configuration gives. -/
theorem resolveName_eq_some_iff :
    resolveName config memberId = some name ↔ Resolves config memberId name := by
  cases config with
  | none =>
    constructor
    · intro h
      cases h
      exact .bare memberId
    · rintro ⟨⟩
      rfl
  | some agents =>
    rw [resolveName, Option.bind_eq_some_iff]
    constructor
    · rintro ⟨agent, hagent, hname⟩
      obtain ⟨hname, hnamed⟩ := Option.filter_eq_some_iff.mp hname
      rcases Option.or_eq_some_iff.mp hagent with hid | ⟨hid, hagent⟩
      · exact .byId (lookupAgent_eq_some_iff.mp hid) hname (of_decide_eq_true hnamed)
      · have hlast := lookupAgent_eq_some_iff.mp hagent
        obtain ⟨hempty, _, _, _, hkey, _⟩ := id hlast
        obtain rfl : memberId = name := Option.some.inj (hkey.symm.trans hname)
        exact .byName ((lookupAgent_eq_none hempty).mp hid) hlast
    · rintro (_ | ⟨hagent, hname, hnamed⟩ | ⟨hid, hagent⟩)
      · refine ⟨_, Option.or_eq_some_iff.mpr (Or.inl (lookupAgent_eq_some_iff.mpr hagent)), ?_⟩
        simp [hname, hnamed]
      · obtain ⟨hempty, _, _, _, hkey, _⟩ := id hagent
        refine ⟨_, Option.or_eq_some_iff.mpr (Or.inr
          ⟨(lookupAgent_eq_none hempty).mpr hid, lookupAgent_eq_some_iff.mpr hagent⟩), ?_⟩
        simp [hkey, hempty]

/-- The names that the members resolve to. -/
theorem mem_resolveMemberNames {members : List String} :
    name ∈ resolveMemberNames config members ↔ MemberName config members name := by
  simp only [resolveMemberNames, List.mem_filterMap, resolveName_eq_some_iff, MemberName]

/-- The name that the lead resolves to. -/
theorem mem_resolveLeadNames {lead : Option String} :
    name ∈ resolveLeadNames config lead ↔ LeadName config lead name := by
  cases lead with
  | none => simp [resolveLeadNames, LeadName]
  | some leadId =>
    by_cases hempty : leadId = ""
    · simp [resolveLeadNames, LeadName, hempty]
    · simp [resolveLeadNames, LeadName, hempty, resolveName_eq_some_iff]

/-- There is at most one lead. -/
theorem length_resolveLeadNames_le (config : Config) (lead : Option String) :
    (resolveLeadNames config lead).length ≤ 1 := by
  unfold resolveLeadNames
  split
  · exact Nat.zero_le 1
  · split
    · exact Nat.zero_le 1
    · cases resolveName config _ <;> simp

end Resolve

/-! ## Channels -/

def hasKind (settings : Settings) (kind : String) : Bool :=
  match settings.entries.get? "kind" with
  | some (.str k) => k = kind
  | _ => false

/-- The conditions on the name, the type and the kind. -/
def isA2a (ch : Channel) : Bool :=
  ch.name = "a2a" && ch.type = "group" && hasKind ch.settings "a2a"

/-- `_find_a2a_channels`. -/
def findA2aChannels (t : ChatTables) (projectId : String) : List (String × Channel) :=
  ((t.listChannels none (some false) (some projectId)).getD []).filter fun row => isA2a row.2

/-- `settings.get("leads")`. -/
def leadsOf (settings : Settings) : Option Json.Value :=
  settings.entries.get? "leads"

/-- A list of names as a JSON value. -/
def leadsValue (leads : List String) : Json.Value :=
  .arr (leads.map .str)

/-- A JSON list equals a list of names. -/
def equalsNames : List Json.Value → List String → Bool
  | [], [] => true
  | .str s :: items, name :: names => s = name && equalsNames items names
  | _, _ => false

/-- `settings.get("leads") == leads`. -/
def hasLeads (settings : Settings) (leads : List String) : Bool :=
  match leadsOf settings with
  | some (.arr items) => equalsNames items leads
  | _ => false

/-- Items equal names exactly where they are these strings. -/
theorem equalsNames_iff {items : List Json.Value} {names : List String} :
    equalsNames items names = true ↔ items = names.map .str := by
  induction items generalizing names with
  | nil => cases names <;> simp [equalsNames]
  | cons item items ih =>
    cases names with
    | nil => simp [equalsNames]
    | cons name names => cases item <;> simp [equalsNames, ih]

/-- The settings have the leads where their value is that list. -/
theorem hasLeads_iff {settings : Settings} {leads : List String} :
    hasLeads settings leads = true ↔ leadsOf settings = some (leadsValue leads) := by
  unfold hasLeads leadsValue
  split
  · rename_i items hget
    rw [hget, equalsNames_iff]
    simp
  · rename_i hother
    refine iff_of_false Bool.false_ne_true fun hget => ?_
    exact hother _ hget

theorem muted_set_other {entries : Dict String Json.Value} {key : String} (value : Json.Value)
    (hkey : key ≠ "muted")
    (h : ∀ v, entries.get? "muted" = some v → (names? v).isSome = true) (v : Json.Value)
    (hget : (entries.set key value).get? "muted" = some v) : (names? v).isSome = true := by
  rw [Dict.get?_set_of_ne _ _ hkey] at hget
  exact h v hget

/-- Settings with another value under a key. -/
def withSetting (settings : Settings) (key : String) (value : Json.Value)
    (hkey : key ≠ "muted") : Settings :=
  ⟨settings.entries.set key value, muted_set_other value hkey settings.muted⟩

def noSettings : Settings :=
  ⟨Dict.empty, fun v h => by rw [Dict.get?_empty] at h; contradiction⟩

/-- `\x7b"archived": True\x7d`. -/
def archivedUpdate : Settings :=
  withSetting noSettings "archived" (.const .true) (by decide)

theorem leads_ne_muted : "leads" ≠ "muted" := by decide

/-- The settings with other leads. -/
def leadsUpdate (settings : Settings) (leads : List String) : Settings :=
  withSetting settings "leads" (leadsValue leads) leads_ne_muted

/-- The settings of a new channel. -/
def a2aSettings (leads : List String) : Settings :=
  leadsUpdate (withSetting noSettings "kind" (.str "a2a") (by decide)) leads

/-! ## Writes -/

/-- A call of `set_settings`, `add_member` or `remove_member`. -/
inductive ChannelWrite where
  | setSettings (channelId : String) (updates : Settings)
  | member (channelId : String) (c : MemberCall)

/-- The column that is written, and its value. -/
inductive ColumnValue where
  | settings (value : Settings)
  | members (value : List String)

def ColumnValue.store (v : ColumnValue) (ch : Channel) : Channel :=
  match v with
  | .settings value => { ch with settings := value }
  | .members value => { ch with members := value }

namespace ChannelWrite

def channelId : ChannelWrite → String
  | setSettings channelId _ => channelId
  | member channelId _ => channelId

/-- What is made of the row that was read. -/
def value (ch : Channel) : ChannelWrite → ColumnValue
  | setSettings _ updates => .settings (ch.settings.update updates)
  | member _ c => .members (c.edit ch.members)

def edit (ch : Channel) (w : ChannelWrite) : Channel :=
  (w.value ch).store ch

end ChannelWrite

/-- `sorted` of a set. -/
def sortedNames (names : List String) : List String :=
  names.dedup.insertionSort (· ≤ ·)

/-- The writes of `ensure_a2a_channel`: the other channels are archived, and the oldest is
given the members and the leads. -/
def plan (existing : String × Channel) (dups : List (String × Channel))
    (expected leads : List String) : List ChannelWrite :=
  let toAdd := sortedNames (expected.filter fun name => name ∉ existing.2.members)
  let toRemove := sortedNames (existing.2.members.filter fun name => name ∉ expected)
  dups.map (fun dup => .setSettings dup.1 archivedUpdate) ++
    (toAdd.map (fun name => .member existing.1 (.add name)) ++
      (toRemove.map (fun name => .member existing.1 (.remove name)) ++
        if hasLeads existing.2.settings leads then []
        else [.setSettings existing.1 (leadsUpdate existing.2.settings leads)]))

/-! ## The channels that are found -/

/-- An unarchived channel of the project with the name, the type and the kind. -/
structure IsActive (projectId : String) (d : Dict String Channel) (id : String) (ch : Channel) :
    Prop where
  row : d.get? id = some ch
  project : ch.projectId = projectId
  a2a : isA2a ch = true
  unarchived : isArchived ch.settings = false

theorem hasKind_parseChannel (ch : Channel) (kind : String) :
    hasKind (parseChannel ch).settings kind = hasKind ch.settings kind := by
  have hdefault : Dict.lookupIn "kind" phase1DefaultSettings = none := by
    simp [phase1DefaultSettings, Dict.lookupIn]
  have hget : (withDefaults ch.settings.entries).get? "kind" = ch.settings.entries.get? "kind" := by
    rw [withDefaults, get?_foldl_setdefault, hdefault, Option.or_none]
  simp only [hasKind, parseChannel, hget]

theorem isA2a_parseChannel (ch : Channel) : isA2a (parseChannel ch) = isA2a ch := by
  rw [isA2a, isA2a, hasKind_parseChannel]
  rfl

section Find

variable {t : ChatTables} {projectId id : String} {ch : Channel}

/-- The rows of the query, in the order in which they were made. -/
def activeRows (t : ChatTables) (projectId : String) : List (String × Channel) :=
  (t.channels.entries.filter fun row =>
    otherConditions (some projectId) (some false) row.2).insertionSort
      fun a b => a.2.createdAt ≤ b.2.createdAt

theorem findA2aChannels_eq (t : ChatTables) (projectId : String) :
    findA2aChannels t projectId =
      ((activeRows t projectId).map fun row => (row.1, parseChannel row.2)).filter
        fun row => isA2a row.2 := by
  have hlisted : ∀ ch, listed none (some projectId) (some false) ch =
      some (otherConditions (some projectId) (some false) ch) := by
    intro ch
    simp [listed]
  rw [findA2aChannels, ChatTables.listChannels, selectRows_of_some hlisted]
  rfl

variable {row : String × Channel}

/-- The rows of a project that are not archived. -/
theorem mem_activeRows : row ∈ activeRows t projectId ↔
      t.channels.get? row.1 = some row.2 ∧ row.2.projectId = projectId ∧
        isArchived row.2.settings = false := by
  rw [activeRows, List.mem_insertionSort, List.mem_filter, ← Dict.mem_entries_iff]
  simp [otherConditions, isArchived]

theorem mem_findA2aChannels : row ∈ findA2aChannels t projectId ↔
      ∃ ch, IsActive projectId t.channels row.1 ch ∧ row.2 = parseChannel ch := by
  rw [findA2aChannels_eq, List.mem_filter, List.mem_map]
  constructor
  · rintro ⟨⟨found, hfound, rfl⟩, ha2a⟩
    obtain ⟨hrow, hproject, hunarchived⟩ := mem_activeRows.mp hfound
    rw [isA2a_parseChannel] at ha2a
    exact ⟨found.2, ⟨hrow, hproject, ha2a, hunarchived⟩, rfl⟩
  · rintro ⟨ch, h, hparsed⟩
    refine ⟨⟨(row.1, ch), mem_activeRows.mpr ⟨h.row, h.project, h.unarchived⟩, ?_⟩, ?_⟩
    · rw [← hparsed]
    · rw [hparsed, isA2a_parseChannel]
      exact h.a2a

/-- A channel is found once. -/
theorem nodup_findA2aChannels (t : ChatTables) (projectId : String) :
    ((findA2aChannels t projectId).map Prod.fst).Nodup := by
  rw [findA2aChannels_eq]
  refine List.Nodup.sublist (List.Sublist.map _ List.filter_sublist) ?_
  rw [List.map_map]
  have hfilter : ((t.channels.entries.filter fun row =>
      otherConditions (some projectId) (some false) row.2).map Prod.fst).Nodup :=
    t.channels.nodup.sublist (List.Sublist.map _ List.filter_sublist)
  exact ((List.perm_insertionSort _ _).map Prod.fst).nodup_iff.mpr hfilter

/-- The oldest is found first. -/
theorem pairwise_findA2aChannels (t : ChatTables) (projectId : String) :
    (findA2aChannels t projectId).Pairwise fun a b => a.2.createdAt ≤ b.2.createdAt := by
  rw [findA2aChannels_eq]
  refine List.Pairwise.filter _ (List.pairwise_map.mpr ?_)
  exact List.pairwise_insertionSort _ _

end Find

/-! ## Writes in a row -/

def applyWrite (d : Dict String Channel) (w : ChannelWrite) : Dict String Channel :=
  d.modify w.channelId w.edit

/-- The writes to a channel, one after another. -/
def editsOf (id : String) (writes : List ChannelWrite) (ch : Channel) : Channel :=
  (writes.filter fun w => w.channelId = id).foldl (fun ch w => w.edit ch) ch

/-- Writes edit the channel that they name. -/
theorem get?_foldl_applyWrite (writes : List ChannelWrite) (d : Dict String Channel) (id : String) :
    (writes.foldl applyWrite d).get? id = (d.get? id).map (editsOf id writes) := by
  induction writes generalizing d with
  | nil =>
    change d.get? id = _
    cases d.get? id <;> rfl
  | cons w writes ih =>
    rw [List.foldl_cons, ih, applyWrite, Dict.get?_modify]
    by_cases hid : w.channelId = id
    · rw [if_pos hid, Option.map_map]
      congr 1
      funext ch
      simp [editsOf, hid]
    · rw [if_neg hid]
      congr 1
      funext ch
      simp [editsOf, hid]

theorem editsOf_append (id : String) (writes writes' : List ChannelWrite) (ch : Channel) :
    editsOf id (writes ++ writes') ch = editsOf id writes' (editsOf id writes ch) := by
  rw [editsOf, List.filter_append, List.foldl_append]
  rfl

variable {writes : List ChannelWrite} {name : String} {names : List String}

/-- Writes to other channels leave a channel alone. -/
theorem editsOf_of_ne {id : String}
    (h : ∀ w ∈ writes, w.channelId ≠ id) (ch : Channel) : editsOf id writes ch = ch := by
  rw [editsOf, List.filter_eq_nil_iff.mpr]
  · rfl
  · intro w hw
    simpa using h w hw

theorem editsOf_of_eq {id : String} (h : ∀ w ∈ writes, w.channelId = id) (ch : Channel) :
    editsOf id writes ch = writes.foldl (fun ch w => w.edit ch) ch := by
  rw [editsOf, List.filter_eq_self.mpr]
  intro w hw
  simpa using h w hw

/-! ## Archiving -/

/-- Archiving archives. -/
theorem isArchived_edit (id : String) (ch : Channel) :
    isArchived (ChannelWrite.edit ch (.setSettings id archivedUpdate)).settings = true :=
  isArchived_update (Dict.get?_set_self _ _ _)

/-- A channel among those to archive is archived. -/
theorem isArchived_editsOf {dups : List (String × Channel)} {id : String}
    (hmem : id ∈ dups.map Prod.fst) (ch : Channel) :
    isArchived (editsOf id
      (dups.map fun dup => .setSettings dup.1 archivedUpdate) ch).settings = true := by
  induction dups generalizing ch with
  | nil => contradiction
  | cons dup dups ih =>
    by_cases hlater : id ∈ dups.map Prod.fst
    · rw [List.map_cons, ← List.singleton_append, editsOf_append]
      exact ih hlater _
    · have hfirst : dup.1 = id := by
        rcases List.mem_cons.mp hmem with heq | hmem
        · exact heq.symm
        · exact absurd hmem hlater
      have hothers : ∀ w ∈ dups.map (fun dup => ChannelWrite.setSettings dup.1 archivedUpdate),
          w.channelId ≠ id := by
        intro w hw
        obtain ⟨other, hother, rfl⟩ := List.mem_map.mp hw
        rintro rfl
        exact hlater (List.mem_map_of_mem hother)
      rw [List.map_cons, ← List.singleton_append, editsOf_append, editsOf_of_ne hothers,
        editsOf_of_eq]
      · exact isArchived_edit dup.1 ch
      · intro w hw
        rw [List.mem_singleton.mp hw]
        exact hfirst

/-! ## Members -/

/-- Calls on the members leave the rest of the channel. -/
theorem foldl_member (id : String) (calls : List MemberCall) (ch : Channel) :
    (calls.map (ChannelWrite.member id)).foldl (fun ch w => w.edit ch) ch =
      { ch with members := calls.foldl (fun members c => c.edit members) ch.members } := by
  induction calls generalizing ch with
  | nil => rfl
  | cons c calls ih =>
    rw [List.map_cons, List.foldl_cons, ih]
    rfl

/-- The members after additions. -/
theorem mem_foldl_add {members : List String} :
    name ∈ (names.map MemberCall.add).foldl (fun members c => c.edit members) members ↔
      name ∈ members ∨ name ∈ names := by
  induction names generalizing members with
  | nil => simp
  | cons added names ih =>
    have hadd : name ∈ (MemberCall.add added).edit members ↔ name ∈ members ∨ name = added := by
      change name ∈ (if added ∈ members then members else members ++ [added]) ↔ _
      by_cases hadded : added ∈ members
      · rw [if_pos hadded]
        constructor
        · exact Or.inl
        · rintro (hmem | rfl)
          · exact hmem
          · exact hadded
      · rw [if_neg hadded, List.mem_append, List.mem_singleton]
    rw [List.map_cons, List.foldl_cons, ih, hadd, List.mem_cons, or_assoc]

/-- The members after removals. -/
theorem mem_foldl_remove {members : List String} :
    name ∈ (names.map MemberCall.remove).foldl (fun members c => c.edit members) members ↔
      name ∈ members ∧ name ∉ names := by
  induction names generalizing members with
  | nil => simp
  | cons removed names ih =>
    rw [List.map_cons, List.foldl_cons, ih, MemberCall.edit, List.mem_filter, List.mem_cons]
    simp only [ne_eq, decide_eq_true_eq, not_or, and_assoc]

theorem mem_sortedNames : name ∈ sortedNames names ↔ name ∈ names := by
  rw [sortedNames, List.mem_insertionSort, List.mem_dedup]

/-- The differences of two sets of names lead from the one to the other. -/
theorem mem_members_iff {expected current : List String} :
    name ∈ ((sortedNames (current.filter fun n => n ∉ expected)).map MemberCall.remove).foldl
        (fun members c => c.edit members)
        (((sortedNames (expected.filter fun n => n ∉ current)).map MemberCall.add).foldl
          (fun members c => c.edit members) current) ↔
      name ∈ expected := by
  rw [mem_foldl_remove, mem_foldl_add, mem_sortedNames, mem_sortedNames, List.mem_filter,
    List.mem_filter, decide_eq_true_eq, decide_eq_true_eq]
  by_cases hexpected : name ∈ expected
  · by_cases hcurrent : name ∈ current <;> simp [hexpected, hcurrent]
  · by_cases hcurrent : name ∈ current <;> simp [hexpected, hcurrent]

/-! ## Leads -/

theorem hasLeads_parseChannel (ch : Channel) (leads : List String) :
    hasLeads (parseChannel ch).settings leads = hasLeads ch.settings leads := by
  have hdefault : Dict.lookupIn "leads" phase1DefaultSettings = none := by
    simp [phase1DefaultSettings, Dict.lookupIn]
  have hget : (withDefaults ch.settings.entries).get? "leads" =
      ch.settings.entries.get? "leads" := by
    rw [withDefaults, get?_foldl_setdefault, hdefault, Option.or_none]
  simp only [hasLeads, leadsOf, parseChannel, hget]

/-- What is written for the leads. -/
def leadsUpdateOf (ch : Channel) (leads : List String) : Settings :=
  leadsUpdate (parseChannel ch).settings leads

theorem get?_leadsUpdateOf_leads (ch : Channel) (leads : List String) :
    (leadsUpdateOf ch leads).entries.get? "leads" = some (leadsValue leads) :=
  Dict.get?_set_self _ _ _

theorem get?_leadsUpdateOf_of_ne (ch : Channel) (leads : List String) {k : String}
    (hk : k ≠ "leads") : (leadsUpdateOf ch leads).entries.get? k =
      (ch.settings.entries.get? k).or (Dict.lookupIn k phase1DefaultSettings) := by
  have hset : (leadsUpdateOf ch leads).entries.get? k =
      (withDefaults ch.settings.entries).get? k := Dict.get?_set_of_ne _ _ (Ne.symm hk)
  rw [hset, withDefaults, get?_foldl_setdefault]

/-- The leads after the update are the new ones. -/
theorem leadsOf_update (ch : Channel) (leads : List String) :
    leadsOf (ch.settings.update (leadsUpdateOf ch leads)) = some (leadsValue leads) := by
  rw [leadsOf, Settings.get?_update, get?_leadsUpdateOf_leads, Option.some_or]

/-- An update of the leads keeps the kind. -/
theorem hasKind_update (ch : Channel) (leads : List String) (kind : String) :
    hasKind (ch.settings.update (leadsUpdateOf ch leads)) kind = hasKind ch.settings kind := by
  have hdefault : Dict.lookupIn "kind" phase1DefaultSettings = none := by
    simp [phase1DefaultSettings, Dict.lookupIn]
  rw [hasKind, Settings.get?_update, get?_leadsUpdateOf_of_ne _ _ (by decide), hdefault,
    Option.or_none, Option.or_self, hasKind]

/-- The leads are written without archiving the channel. -/
theorem isArchived_leadsUpdate {ch : Channel} (h : isArchived ch.settings = false)
    (leads : List String) : isArchived (ch.settings.update (leadsUpdateOf ch leads)) = false := by
  refine isArchived_update_eq_false h fun k v hget => ?_
  by_cases hk : k = "leads"
  · subst hk
    rw [get?_leadsUpdateOf_leads] at hget
    rw [← Option.some.inj hget]
    exact Or.inr (marksArchived_names "leads" leads)
  · rw [get?_leadsUpdateOf_of_ne _ _ hk, Option.or_eq_some_iff] at hget
    rcases hget with hold | ⟨_, hdefault⟩
    · exact Or.inl hold
    · exact Or.inr (marksArchived_phase1DefaultSettings _ (Dict.mem_of_lookupIn hdefault))

/-! ## What a call writes -/

section Plan

variable {existing : String × Channel} {dups : List (String × Channel)}
  {expected leads : List String}

/-- The last write, if the leads are others. -/
def leadsWrite (existing : String × Channel) (leads : List String) : List ChannelWrite :=
  if hasLeads existing.2.settings leads then []
  else [.setSettings existing.1 (leadsUpdate existing.2.settings leads)]

/-- The members that the writes leave. -/
def plannedMembers (current expected : List String) : List String :=
  ((sortedNames (current.filter fun n => n ∉ expected)).map MemberCall.remove).foldl
    (fun members c => c.edit members)
    (((sortedNames (expected.filter fun n => n ∉ current)).map MemberCall.add).foldl
      (fun members c => c.edit members) current)

def plannedSettings (ch : Channel) (leads : List String) : Settings :=
  if hasLeads ch.settings leads then ch.settings
  else ch.settings.update (leadsUpdateOf ch leads)

/-- The oldest channel after the writes. -/
def planned (ch : Channel) (expected leads : List String) : Channel :=
  { ch with
    members := plannedMembers ch.members expected
    settings := plannedSettings ch leads }

/-- What the write of the leads makes of a channel. -/
theorem foldl_leadsWrite (id : String) (ch ch' : Channel) (leads : List String)
    (hsettings : ch'.settings = ch.settings) :
    (leadsWrite (id, parseChannel ch) leads).foldl (fun ch w => w.edit ch) ch' =
      { ch' with settings := plannedSettings ch leads } := by
  unfold leadsWrite plannedSettings
  rw [hasLeads_parseChannel]
  by_cases hleads : hasLeads ch.settings leads = true
  · rw [if_pos hleads, if_pos hleads, ← hsettings]
    rfl
  · rw [if_neg hleads, if_neg hleads, ← hsettings]
    rfl

/-- The writes of a call, in order. -/
theorem plan_eq (existing : String × Channel) (dups : List (String × Channel))
    (expected leads : List String) :
    plan existing dups expected leads =
      dups.map (fun dup => .setSettings dup.1 archivedUpdate) ++
        (((sortedNames (expected.filter fun n => n ∉ existing.2.members)).map MemberCall.add).map
            (ChannelWrite.member existing.1) ++
          (((sortedNames (existing.2.members.filter fun n => n ∉ expected)).map
              MemberCall.remove).map (ChannelWrite.member existing.1) ++
            leadsWrite existing leads)) := by
  rw [List.map_map, List.map_map]
  rfl

variable {w : ChannelWrite}

theorem channelId_leadsWrite (hw : w ∈ leadsWrite existing leads) : w.channelId = existing.1 := by
  unfold leadsWrite at hw
  split at hw
  · contradiction
  rw [List.mem_singleton.mp hw]
  rfl

/-- The writes that are not to another channel are to the oldest. -/
theorem channelId_of_mem_plan (hw : w ∈ plan existing dups expected leads) :
    w ∈ dups.map (fun dup => ChannelWrite.setSettings dup.1 archivedUpdate) ∨
      w.channelId = existing.1 := by
  rw [plan_eq, List.mem_append, List.mem_append, List.mem_append] at hw
  rcases hw with hdup | hadd | hremove | hleads
  · exact Or.inl hdup
  · obtain ⟨c, _, rfl⟩ := List.mem_map.mp hadd
    exact Or.inr rfl
  · obtain ⟨c, _, rfl⟩ := List.mem_map.mp hremove
    exact Or.inr rfl
  · exact Or.inr (channelId_leadsWrite hleads)

theorem channelId_archive
    (hw : w ∈ dups.map (fun dup => ChannelWrite.setSettings dup.1 archivedUpdate)) :
    w.channelId ∈ dups.map Prod.fst := by
  obtain ⟨dup, hdup, rfl⟩ := List.mem_map.mp hw
  exact List.mem_map_of_mem hdup

variable {id : String}

/-- What the writes make of the oldest. -/
theorem editsOf_plan_existing {ch : Channel} (hid : id ∉ dups.map Prod.fst) :
    editsOf id (plan (id, parseChannel ch) dups expected leads) ch =
      planned ch expected leads := by
  have harchive : ∀ w ∈ dups.map (fun dup => ChannelWrite.setSettings dup.1 archivedUpdate),
      w.channelId ≠ id := by
    intro w hw heq
    exact hid (heq ▸ channelId_archive hw)
  have hmember : ∀ calls : List MemberCall, ∀ w ∈ calls.map (ChannelWrite.member id),
      w.channelId = id := by
    intro calls w hw
    obtain ⟨c, _, rfl⟩ := List.mem_map.mp hw
    rfl
  have hleads : ∀ w ∈ leadsWrite (id, parseChannel ch) leads, w.channelId = id :=
    fun w hw => channelId_leadsWrite hw
  rw [plan_eq, editsOf_append, editsOf_of_ne harchive, editsOf_append,
    editsOf_of_eq (hmember _), foldl_member, editsOf_append, editsOf_of_eq (hmember _),
    foldl_member, editsOf_of_eq hleads]
  exact foldl_leadsWrite id ch _ leads rfl

/-- What the writes make of another channel that was found. -/
theorem isArchived_editsOf_plan (expected leads : List String) (hdup : id ∈ dups.map Prod.fst)
    (hid : existing.1 ∉ dups.map Prod.fst) (ch : Channel) :
    isArchived (editsOf id (plan existing dups expected leads) ch).settings = true := by
  have hrest : ∀ w ∈
      ((sortedNames (expected.filter fun n => n ∉ existing.2.members)).map MemberCall.add).map
          (ChannelWrite.member existing.1) ++
        (((sortedNames (existing.2.members.filter fun n => n ∉ expected)).map
            MemberCall.remove).map (ChannelWrite.member existing.1) ++
          leadsWrite existing leads), w.channelId ≠ id := by
    intro w hw heq
    have hexisting : w.channelId = existing.1 := by
      rw [List.mem_append, List.mem_append] at hw
      rcases hw with hadd | hremove | hleads
      · obtain ⟨c, _, rfl⟩ := List.mem_map.mp hadd
        rfl
      · obtain ⟨c, _, rfl⟩ := List.mem_map.mp hremove
        rfl
      · exact channelId_leadsWrite hleads
    rw [← heq, hexisting] at hdup
    exact hid hdup
  rw [plan_eq, editsOf_append, editsOf_of_ne hrest]
  exact isArchived_editsOf hdup ch

/-- What the writes make of a channel that was not found. -/
theorem editsOf_plan_other (hid : existing.1 ≠ id) (hdup : id ∉ dups.map Prod.fst) (ch : Channel) :
    editsOf id (plan existing dups expected leads) ch = ch := by
  apply editsOf_of_ne
  intro w hw heq
  rcases channelId_of_mem_plan hw with harchive | hexisting
  · exact hdup (heq ▸ channelId_archive harchive)
  · exact hid (hexisting.symm.trans heq)

end Plan

/-! ## A channel in line -/

/-- One active channel, with the names of the members and of the lead of the project. -/
structure InLine (config : Config) (projectId : String) (d : Dict String Channel)
    (lead : Option String) (members : List String) (id : String) (ch : Channel) : Prop where
  active : IsActive projectId d id ch
  only : ∀ id' ch', IsActive projectId d id' ch' → id' = id
  members : ∀ name, name ∈ ch.members ↔ MemberName config members name
  leads : ∃ leads, leadsOf ch.settings = some (leadsValue leads) ∧ leads.length ≤ 1 ∧
    ∀ name, name ∈ leads ↔ LeadName config lead name

/-- A channel with the names that resolving gives is in line. -/
theorem inLine_of_names {config : Config} {projectId : String} {d : Dict String Channel}
    {lead : Option String} {members : List String} {id : String} {ch : Channel}
    (hactive : IsActive projectId d id ch)
    (honly : ∀ id' ch', IsActive projectId d id' ch' → id' = id)
    (hmembers : ∀ name, name ∈ ch.members ↔ name ∈ resolveMemberNames config members)
    (hleads : leadsOf ch.settings = some (leadsValue (resolveLeadNames config lead))) :
    InLine config projectId d lead members id ch where
  active := hactive
  only := honly
  members := fun name => (hmembers name).trans mem_resolveMemberNames
  leads := ⟨_, hleads, length_resolveLeadNames_le config lead, fun _ => mem_resolveLeadNames⟩

/-- Some channel is in line. -/
def Synced (config : Config) (projectId : String) (d : Dict String Channel)
    (lead : Option String) (members : List String) : Prop :=
  ∃ id ch, InLine config projectId d lead members id ch

/-- The active channels are among those of a former table, and so is the oldest of these. -/
structure Descends (projectId : String) (d₀ d : Dict String Channel) : Prop where
  within : ∀ id ch, IsActive projectId d id ch →
    ∃ ch₀, IsActive projectId d₀ id ch₀ ∧ ch₀.createdAt = ch.createdAt
  oldest : ∃ id ch, IsActive projectId d id ch ∧
    ∀ id₀ ch₀, IsActive projectId d₀ id₀ ch₀ → ch.createdAt ≤ ch₀.createdAt

/-- The oldest of the channels that were active still is. -/
def KeepsEldest (projectId : String) (d₀ d : Dict String Channel) : Prop :=
  (∃ id ch, IsActive projectId d₀ id ch) → Descends projectId d₀ d

section Line

variable {config : Config} {projectId : String} {t : ChatTables} {d₀ : Dict String Channel}
  {lead : Option String} {members : List String}

/-- The planned settings have the leads. -/
theorem leadsOf_plannedSettings (ch : Channel) (leads : List String) :
    leadsOf (plannedSettings ch leads) = some (leadsValue leads) := by
  unfold plannedSettings
  split
  · rename_i hleads
    exact hasLeads_iff.mp hleads
  · exact leadsOf_update ch leads

/-- The oldest stays a coordination channel. -/
theorem isA2a_planned {ch : Channel} (h : isA2a ch = true) (expected leads : List String) :
    isA2a (planned ch expected leads) = true := by
  have hkind : hasKind (plannedSettings ch leads) "a2a" = hasKind ch.settings "a2a" := by
    unfold plannedSettings
    split
    · rfl
    · exact hasKind_update ch leads "a2a"
  rw [← h, isA2a, isA2a, planned, hkind]

/-- The oldest stays active. -/
theorem isArchived_plannedSettings {ch : Channel} (h : isArchived ch.settings = false)
    (leads : List String) : isArchived (plannedSettings ch leads) = false := by
  unfold plannedSettings
  split
  · exact h
  · exact isArchived_leadsUpdate h leads

variable {dups : List (String × Channel)}

variable {existing : String × Channel}

/-- A channel that was found, and the row that it was read from. -/
theorem row_of_found (hfound : findA2aChannels t projectId = existing :: dups) :
    ∃ ch, IsActive projectId t.channels existing.1 ch ∧
      existing = (existing.1, parseChannel ch) := by
  have hmem : existing ∈ findA2aChannels t projectId := by
    rw [hfound]
    exact List.mem_cons_self
  obtain ⟨ch, hactive, hparsed⟩ := mem_findA2aChannels.mp hmem
  exact ⟨ch, hactive, by rw [← hparsed]⟩

/-- The oldest is none of the others. -/
theorem notMem_dups
    (hfound : findA2aChannels t projectId = existing :: dups) : existing.1 ∉ dups.map Prod.fst := by
  have hnodup := nodup_findA2aChannels t projectId
  rw [hfound, List.map_cons, List.nodup_cons] at hnodup
  exact hnodup.1

variable {id : String}

/-- After the writes, the oldest is the only active channel. -/
theorem eq_of_isActive_plan
    (hfound : findA2aChannels t projectId = existing :: dups) {expected leads : List String}
    {ch : Channel}
    (h : IsActive projectId ((plan existing dups expected leads).foldl applyWrite t.channels)
      id ch) : id = existing.1 := by
  by_contra hne
  have hrow := h.row
  rw [get?_foldl_applyWrite, Option.map_eq_some_iff] at hrow
  obtain ⟨before, hbefore, hedited⟩ := hrow
  by_cases hdup : id ∈ dups.map Prod.fst
  · have harchived := isArchived_editsOf_plan expected leads hdup (notMem_dups hfound) before
    rw [hedited, h.unarchived] at harchived
    contradiction
  · rw [editsOf_plan_other (Ne.symm hne) hdup] at hedited
    subst hedited
    have hmem : (id, parseChannel before) ∈ findA2aChannels t projectId :=
      mem_findA2aChannels.mpr ⟨before, ⟨hbefore, h.project, h.a2a, h.unarchived⟩, rfl⟩
    rw [hfound] at hmem
    rcases List.mem_cons.mp hmem with heq | hmem
    · exact hne (congrArg Prod.fst heq)
    · exact hdup (List.mem_map_of_mem hmem)

/-- What a call writes brings the channel in line with what it has read. -/
theorem inLine_plan (config : Config) (lead : Option String) (members : List String)
    (hfound : findA2aChannels t projectId = existing :: dups) :
    ∃ before, IsActive projectId t.channels existing.1 before ∧
      InLine config projectId
        ((plan existing dups (resolveMemberNames config members)
          (resolveLeadNames config lead)).foldl applyWrite t.channels) lead members existing.1
        (planned before (resolveMemberNames config members) (resolveLeadNames config lead)) := by
  obtain ⟨before, hbefore, hexisting⟩ := row_of_found hfound
  refine ⟨before, hbefore, inLine_of_names ⟨?_, hbefore.project, isA2a_planned hbefore.a2a _ _,
    isArchived_plannedSettings hbefore.unarchived _⟩ ?_ ?_ ?_⟩
  · rw [get?_foldl_applyWrite, hbefore.row, Option.map_some, hexisting,
      editsOf_plan_existing (notMem_dups hfound)]
  · intro id ch h
    exact eq_of_isActive_plan hfound h
  · intro name
    exact mem_members_iff
  · exact leadsOf_plannedSettings before _

/-- The writes of a call leave a channel in line. -/
theorem synced_plan (hfound : findA2aChannels t projectId = existing :: dups) :
    Synced config projectId
      ((plan existing dups (resolveMemberNames config members)
        (resolveLeadNames config lead)).foldl applyWrite t.channels) lead members := by
  obtain ⟨before, _, hline⟩ := inLine_plan config lead members hfound
  exact ⟨existing.1, _, hline⟩

/-- The first that is found is the oldest. -/
theorem createdAt_le_of_found
    (hfound : findA2aChannels t projectId = existing :: dups) {before : Channel}
    (hbefore : IsActive projectId t.channels existing.1 before) {ch : Channel}
    (hactive : IsActive projectId t.channels id ch) : before.createdAt ≤ ch.createdAt := by
  have hmem : (id, parseChannel ch) ∈ findA2aChannels t projectId :=
    mem_findA2aChannels.mpr ⟨ch, hactive, rfl⟩
  obtain ⟨before', hbefore', hexisting⟩ := row_of_found hfound
  have heq := Option.some.inj (hbefore'.row.symm.trans hbefore.row)
  subst heq
  have hsorted := pairwise_findA2aChannels t projectId
  rw [hfound, List.pairwise_cons] at hsorted
  rw [hfound] at hmem
  rcases List.mem_cons.mp hmem with hfirst | hlater
  · have hid : id = existing.1 := congrArg Prod.fst hfirst
    subst hid
    rw [Option.some.inj (hbefore.row.symm.trans hactive.row)]
  · have hage := hsorted.1 _ hlater
    rw [hexisting] at hage
    exact hage

theorem keepsEldest_refl : KeepsEldest projectId t.channels t.channels := by
  rintro ⟨id, ch, hactive⟩
  refine ⟨fun id ch h => ⟨ch, h, rfl⟩, ?_⟩
  cases hfound : findA2aChannels t projectId with
  | nil =>
    have hmem : (id, parseChannel ch) ∈ findA2aChannels t projectId :=
      mem_findA2aChannels.mpr ⟨ch, hactive, rfl⟩
    rw [hfound] at hmem
    contradiction
  | cons existing dups =>
    obtain ⟨before, hbefore, _⟩ := row_of_found hfound
    exact ⟨existing.1, before, hbefore, fun id₀ ch₀ h => createdAt_le_of_found hfound hbefore h⟩

/-- The oldest of the channels is kept by the writes. -/
theorem keepsEldest_plan (hfound : findA2aChannels t projectId = existing :: dups)
    (h : KeepsEldest projectId d₀ t.channels) :
    KeepsEldest projectId d₀
      ((plan existing dups (resolveMemberNames config members)
        (resolveLeadNames config lead)).foldl applyWrite t.channels) := by
  intro hsome
  have hdescends := h hsome
  obtain ⟨before, hbefore, hline⟩ := inLine_plan config lead members hfound
  constructor
  · intro id ch hactive
    have hid := hline.only id ch hactive
    subst hid
    have hch := Option.some.inj (hactive.row.symm.trans hline.active.row)
    subst hch
    exact hdescends.within _ before hbefore
  · obtain ⟨id, ch, hactive, hle⟩ := hdescends.oldest
    refine ⟨existing.1, _, hline.active, fun id₀ ch₀ hactive₀ => ?_⟩
    exact le_trans (createdAt_le_of_found hfound hbefore hactive) (hle id₀ ch₀ hactive₀)

end Line

end TinyAgentOS.Projects
