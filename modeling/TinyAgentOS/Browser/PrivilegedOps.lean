import TinyAgentOS.Browser.PageRequests
import TinyAgentOS.Browser.Ssrf
import TinyAgentOS.Library.Dict

/-!
# Privileged ops of agents

An agent that is pinned to a tab sends ops to its page.  The privileged ones need a capability
for the host of the page, which is read from the record of the tab.  Each read of the store is
one step, and the handler of the agent goes on in another.

Main results:

- `checkCapability_eq_true`: what a granted check has found.
- `onlyAuthorised_of_orderly`: in an orderly run a privileged op reaches the page only with a
  capability for the host that the tab shows.
-/

namespace TinyAgentOS.Browser

open Collections Transition

/-! ## Capabilities -/

/-- `expires_at`, as it is read back. -/
inductive Expiry where
  | never
  | unreadable
  /-- A time without a zone, which does not compare with the clock. -/
  | naive
  | at (time : ℚ)
deriving DecidableEq

/-- A row of `agent_capabilities`. -/
structure CapabilityRow where
  userId : String
  profileId : String
  agentId : String
  hostPattern : List Char
  permissions : List Char
  expiresAt : Expiry
deriving DecidableEq

def privilegedOps : List (String × List String) :=
  [("drive", ["scrollTo", "click", "type", "focus"]), ("navigate", ["navigate"]),
    ("see_cookies", [])]

def requiredPermission (op : String) : Option String :=
  (privilegedOps.find? fun e => op ∈ e.2).map Prod.fst

/-- `*.example.com` matches the domain as well. -/
def matchesHost (pattern host : List Char) : Bool :=
  if pattern = ['*'] then true
  else if ['*', '.'].isPrefixOf pattern then
    host = pattern.drop 2 || ('.' :: pattern.drop 2).isSuffixOf host
  else host = pattern

def hasPermission (text : TextOps) (permissions : List Char) (permission : String) : Bool :=
  (permissions.splitOn ',').any fun part =>
    (part.dropWhile text.isSpace).rdropWhile text.isSpace = permission.toList

/-- `check_capability`; nothing is returned where a comparison raises. -/
def checkCapability (text : TextOps) (host : List Char) (permission : String) (now : ℚ) :
    List CapabilityRow → Option Bool
  | [] => some false
  | row :: rows =>
    match row.expiresAt with
    | .unreadable => checkCapability text host permission now rows
    | .naive => none
    | .at time =>
      if time ≤ now then checkCapability text host permission now rows
      else if matchesHost row.hostPattern host && hasPermission text row.permissions permission
      then some true
      else checkCapability text host permission now rows
    | .never =>
      if matchesHost row.hostPattern host && hasPermission text row.permissions permission
      then some true
      else checkCapability text host permission now rows

/-- The capability is in force. -/
def CapabilityRow.Unexpired (row : CapabilityRow) (now : ℚ) : Prop :=
  row.expiresAt = .never ∨ ∃ time, row.expiresAt = .at time ∧ now < time

/-- A check that is granted has found a capability in force. -/
theorem checkCapability_eq_true {text : TextOps} {host : List Char} {permission : String}
    {now : ℚ} {rows : List CapabilityRow}
    (h : checkCapability text host permission now rows = some true) :
    ∃ row ∈ rows, row.Unexpired now ∧ matchesHost row.hostPattern host = true ∧
      hasPermission text row.permissions permission = true := by
  induction rows with
  | nil => simp [checkCapability] at h
  | cons row rows ih =>
    have hrest : checkCapability text host permission now rows = some true →
        ∃ row' ∈ row :: rows, row'.Unexpired now ∧ matchesHost row'.hostPattern host = true ∧
          hasPermission text row'.permissions permission = true := by
      intro hrows
      obtain ⟨row', hmem, hfound⟩ := ih hrows
      exact ⟨row', List.mem_cons_of_mem row hmem, hfound⟩
    simp only [checkCapability] at h
    split at h
    · exact hrest h
    · contradiction
    · rename_i time htime
      split at h
      · exact hrest h
      · rename_i hlater
        split at h
        · rename_i hfound
          rw [Bool.and_eq_true] at hfound
          exact ⟨row, List.mem_cons_self, Or.inr ⟨time, htime, not_le.mp hlater⟩, hfound⟩
        · exact hrest h
    · rename_i hnever
      split at h
      · rename_i hfound
        rw [Bool.and_eq_true] at hfound
        exact ⟨row, List.mem_cons_self, Or.inl hnever, hfound⟩
      · exact hrest h

/-- `_trusted_host`: empty for a URL that is missing or cannot be read. -/
def trustedHost (text : TextOps) (url : Option (List Char)) : List Char :=
  ((url.bind (urlparse text)).bind ParsedUrl.hostname).getD []

/-! ## Handlers -/

/-- A message of an agent; a target that is no text reaches no page. -/
structure OpMsg where
  op : Option String
  profileId : Option String
  tabId : Option String

/-- Where the handler of an agent stands. -/
inductive OpPhase where
  | listening
  | listingPins (op : String) (target : TabKey)
  | pinsListed (op : String) (target : TabKey) (pinned : Bool)
  | listingCapabilities (op : String) (target : TabKey) (permission : String)
      (host : List Char)
  | capabilitiesListed (op : String) (target : TabKey) (permission : String)
      (host : List Char) (rows : List CapabilityRow)
  /-- The agent is answered, and the session of the drive kept. -/
  | answering
deriving DecidableEq

/-- The tab of the op that the handler works on. -/
def OpPhase.target? : OpPhase → Option TabKey
  | .listingPins _ target => some target
  | .pinsListed _ target _ => some target
  | .listingCapabilities _ target _ _ => some target
  | .capabilitiesListed _ target _ _ _ => some target
  | _ => none

/-- The host that was read for an op on the tab. -/
def OpPhase.hostRead? (tab : TabKey) : OpPhase → Option (List Char)
  | .listingCapabilities _ target _ host => if target = tab then some host else none
  | .capabilitiesListed _ target _ host _ => if target = tab then some host else none
  | _ => none

/-- The tab of an op for which the capabilities were read. -/
def OpPhase.listed? : OpPhase → Option TabKey
  | .capabilitiesListed _ target _ _ _ => some target
  | _ => none

/-- The connection of an agent, with the tab of its ticket. -/
structure AgentConn where
  ticket : TabKey
  agentId : String
  phase : OpPhase

/-- An op that was sent to the page of a tab. -/
structure Forward where
  target : TabKey
  agentId : String
  op : String
  time : ℚ
deriving DecidableEq

/-- The record of the tabs beside the pages they show, and what the handlers work on. -/
structure CopilotState where
  tabUrls : Dict TabKey (List Char)
  shown : Dict TabKey (List Char)
  pins : List (TabKey × String)
  capabilities : List CapabilityRow
  iframes : List (TabKey × String)
  conns : Dict Nat AgentConn
  forwards : List Forward

inductive CopilotEvent where
  /-- The proxy serves an HTML page to the tab; the URL is that of the last redirect. -/
  | pageServed (tab : TabKey) (request : PageRequest) (url : List Char)
  | pinAdded (tab : TabKey) (agentId : String)
  | pinDeleted (tab : TabKey) (agentId : String)
  | capabilityAdded (row : CapabilityRow)
  | capabilityRevoked (userId profileId agentId : String) (hostPattern : List Char)
  | iframeAdded (tab : TabKey) (agentId : String)
  | iframeRemoved (tab : TabKey) (agentId : String)
  | agentConnected (id : Nat) (ticket : TabKey) (agentId : String)
  | agentGone (id : Nat)
  | opReceived (id : Nat) (msg : OpMsg) (now : ℚ)
  | pinsRead (id : Nat)
  | pinsAnswered (id : Nat) (now : ℚ)
  | capabilitiesRead (id : Nat)
  | capabilitiesAnswered (id : Nat) (now : ℚ)
  | opAnswered (id : Nat)

namespace CopilotState

def init : CopilotState := ⟨Dict.empty, Dict.empty, [], [], [], Dict.empty, []⟩

def listCapabilities (s : CopilotState) (tab : TabKey) (agentId : String) :
    List CapabilityRow :=
  s.capabilities.filter fun row =>
    row.userId = tab.userId ∧ row.profileId = tab.profileId ∧ row.agentId = agentId

def goOn (s : CopilotState) (id : Nat) (conn : AgentConn) (phase : OpPhase) : CopilotState :=
  { s with conns := s.conns.set id { conn with phase := phase } }

/-- `route_op_to_iframe`. -/
def routeOp (s : CopilotState) (id : Nat) (conn : AgentConn) (op : String) (target : TabKey)
    (now : ℚ) : CopilotState :=
  let s := s.goOn id conn .answering
  if (target, conn.agentId) ∈ s.iframes then
    { s with forwards := ⟨target, conn.agentId, op, now⟩ :: s.forwards }
  else s

/-- A privileged op waits for the capabilities of its agent. -/
def authorise (text : TextOps) (s : CopilotState) (id : Nat) (conn : AgentConn) (op : String)
    (target : TabKey) (now : ℚ) : CopilotState :=
  match requiredPermission op with
  | none => s.routeOp id conn op target now
  | some permission =>
    s.goOn id conn (.listingCapabilities op target permission
      (trustedHost text (s.tabUrls.get? target)))

def step (text : TextOps) (s : CopilotState) : CopilotEvent → Option CopilotState
  | .pageServed tab request url =>
    let query := request.query tab
    if isRouted query then
      some
        { s with
          tabUrls :=
            match recordedTab tab.userId query with
            | none => s.tabUrls
            | some recorded => s.tabUrls.set recorded url
          shown := s.shown.set tab url }
    else none
  | .pinAdded tab agentId => some { s with pins := (tab, agentId) :: s.pins }
  | .pinDeleted tab agentId =>
    some { s with pins := s.pins.filter fun pin => pin ≠ (tab, agentId) }
  | .capabilityAdded row =>
    some
      { s with
        capabilities := row :: s.capabilities.filter fun old =>
          ¬ (old.userId = row.userId ∧ old.profileId = row.profileId ∧
            old.agentId = row.agentId ∧ old.hostPattern = row.hostPattern) }
  | .capabilityRevoked userId profileId agentId hostPattern =>
    some
      { s with
        capabilities := s.capabilities.filter fun old =>
          ¬ (old.userId = userId ∧ old.profileId = profileId ∧ old.agentId = agentId ∧
            old.hostPattern = hostPattern) }
  | .iframeAdded tab agentId => some { s with iframes := (tab, agentId) :: s.iframes }
  | .iframeRemoved tab agentId =>
    some { s with iframes := s.iframes.filter fun iframe => iframe ≠ (tab, agentId) }
  | .agentConnected id ticket agentId =>
    if (s.conns.get? id).isSome ∨ (ticket, agentId) ∉ s.pins then none
    else some { s with conns := s.conns.set id ⟨ticket, agentId, .listening⟩ }
  | .agentGone id => some { s with conns := s.conns.pop id }
  | .opReceived id msg now =>
    match s.conns.get? id with
    | some conn =>
      if conn.phase = .listening then
        match msg.op with
        | none => some s
        | some op =>
          let target : TabKey :=
            ⟨conn.ticket.userId, msg.profileId.getD conn.ticket.profileId,
              msg.tabId.getD conn.ticket.tabId⟩
          if target ≠ conn.ticket then some (s.goOn id conn (.listingPins op target))
          else some (s.authorise text id conn op target now)
      else none
    | none => none
  | .pinsRead id =>
    match s.conns.get? id with
    | some conn =>
      match conn.phase with
      | .listingPins op target =>
        some (s.goOn id conn
          (.pinsListed op target (decide ((target, conn.agentId) ∈ s.pins))))
      | _ => none
    | none => none
  | .pinsAnswered id now =>
    match s.conns.get? id with
    | some conn =>
      match conn.phase with
      | .pinsListed op target pinned =>
        if pinned then some (s.authorise text id conn op target now)
        else some (s.goOn id conn .answering)
      | _ => none
    | none => none
  | .capabilitiesRead id =>
    match s.conns.get? id with
    | some conn =>
      match conn.phase with
      | .listingCapabilities op target permission host =>
        some (s.goOn id conn (.capabilitiesListed op target permission host
          (s.listCapabilities target conn.agentId)))
      | _ => none
    | none => none
  | .capabilitiesAnswered id now =>
    match s.conns.get? id with
    | some conn =>
      match conn.phase with
      | .capabilitiesListed op target permission host rows =>
        match checkCapability text host permission now rows with
        | some true => some (s.routeOp id conn op target now)
        | some false => some (s.goOn id conn .answering)
        | none => some { s with conns := s.conns.pop id }
      | _ => none
    | none => none
  | .opAnswered id =>
    match s.conns.get? id with
    | some conn =>
      match conn.phase with
      | .answering => some (s.goOn id conn .listening)
      | _ => none
    | none => none

/-! ## Orderly runs -/

/-- The agent is pinned to the tab, and holds a capability for the page that the tab shows. -/
def Authorised (text : TextOps) (s : CopilotState) (f : Forward) (permission : String) : Prop :=
  (f.target, f.agentId) ∈ s.pins ∧
    ∃ row ∈ s.listCapabilities f.target f.agentId, row.Unexpired f.time ∧
      matchesHost row.hostPattern (trustedHost text (s.shown.get? f.target)) = true ∧
      hasPermission text row.permissions permission = true

/-- A privileged op is sent to a page for which its agent is authorised at that moment. -/
def OnlyAuthorised (text : TextOps) (s : CopilotState) (_ : CopilotEvent) (s' : CopilotState) :
    Prop :=
  ∀ f permission, s'.forwards = f :: s.forwards → requiredPermission f.op = some permission →
    s.Authorised text f permission

/-- What the phase of a handler rests on is still so. -/
def PhaseSound (text : TextOps) (s : CopilotState) (agentId : String) : OpPhase → Prop
  | .pinsListed _ target pinned => pinned = true → (target, agentId) ∈ s.pins
  | .listingCapabilities op target permission host =>
    (target, agentId) ∈ s.pins ∧ requiredPermission op = some permission ∧
      host = trustedHost text (s.shown.get? target)
  | .capabilitiesListed op target permission host rows =>
    (target, agentId) ∈ s.pins ∧ requiredPermission op = some permission ∧
      host = trustedHost text (s.shown.get? target) ∧ rows = s.listCapabilities target agentId
  | _ => True

/-- The record of a tab names the host that the tab shows, agents stay pinned while they are
connected, and what a handler has read is still so. -/
structure Sound (text : TextOps) (s : CopilotState) : Prop where
  accurate : ∀ tab, trustedHost text (s.tabUrls.get? tab) = trustedHost text (s.shown.get? tab)
  bound : ∀ id conn, s.conns.get? id = some conn → (conn.ticket, conn.agentId) ∈ s.pins
  phases : ∀ id conn, s.conns.get? id = some conn → s.PhaseSound text conn.agentId conn.phase

/-- No handler has read the capabilities of the agent and not yet gone on. -/
def NoneListed (s : CopilotState) (userId profileId agentId : String) : Prop :=
  ∀ id conn target, s.conns.get? id = some conn → conn.agentId = agentId →
    conn.phase.listed? = some target → ¬ (target.userId = userId ∧ target.profileId = profileId)

/-- A page is recorded for the tab that shows it, or its host is recorded already, while no op on
the tab waits for a decision on another host; no pin and no capability is changed while a handler
relies on it. -/
def Orderly (text : TextOps) (s : CopilotState) : CopilotEvent → Prop
  | .pageServed tab request url =>
    (recordedTab tab.userId (request.query tab) = some tab ∨
      recordedTab tab.userId (request.query tab) = none ∧
        trustedHost text (s.tabUrls.get? tab) = trustedHost text (some url)) ∧
    ∀ id conn host, s.conns.get? id = some conn → conn.phase.hostRead? tab = some host →
      host = trustedHost text (some url)
  | .pinDeleted tab agentId =>
    ∀ id conn, s.conns.get? id = some conn → conn.agentId = agentId →
      conn.ticket ≠ tab ∧ conn.phase.target? ≠ some tab
  | .capabilityAdded row => s.NoneListed row.userId row.profileId row.agentId
  | .capabilityRevoked userId profileId agentId _ => s.NoneListed userId profileId agentId
  | _ => True

theorem sound_init (text : TextOps) : init.Sound text where
  accurate _ := rfl
  bound := nofun
  phases := nofun

variable {text : TextOps} {id : Nat} {conn : AgentConn} {s s' : CopilotState} {target : TabKey}
  {agentId : String} {now : ℚ} {e : CopilotEvent} {f : Forward}

variable {phase : OpPhase} {rows : List CapabilityRow} {op : String}

/-- A handler goes on to a phase that rests on what is so. -/
theorem sound_goOn (h : s.Sound text) (hconn : s.conns.get? id = some conn)
    (hphase : s.PhaseSound text conn.agentId phase) : (s.goOn id conn phase).Sound text where
  accurate := h.accurate
  bound := by
    intro id' conn' hget
    rcases Dict.get?_set_cases hget with ⟨_, rfl⟩ | ⟨_, hold⟩
    · exact h.bound id conn hconn
    · exact h.bound id' conn' hold
  phases := by
    intro id' conn' hget
    rcases Dict.get?_set_cases hget with ⟨_, rfl⟩ | ⟨_, hold⟩
    · exact hphase
    · exact h.phases id' conn' hold

/-- An operation that is routed is on record. -/
theorem sound_routeOp (h : s.Sound text) (hconn : s.conns.get? id = some conn) (op : String)
    (target : TabKey) (now : ℚ) : (s.routeOp id conn op target now).Sound text := by
  have hgo : (s.goOn id conn .answering).Sound text := sound_goOn h hconn trivial
  simp only [routeOp]
  split
  · exact ⟨hgo.accurate, hgo.bound, hgo.phases⟩
  · exact hgo

/-- An operation of a pinned agent is checked. -/
theorem sound_authorise (h : s.Sound text) (hconn : s.conns.get? id = some conn) (op : String)
    (hpinned : (target, conn.agentId) ∈ s.pins) (now : ℚ) :
    (s.authorise text id conn op target now).Sound text := by
  simp only [authorise]
  split
  · exact sound_routeOp h hconn op target now
  · rename_i permission hpermission
    exact sound_goOn h hconn ⟨hpinned, hpermission, h.accurate target⟩

theorem sound_popConn (h : s.Sound text) (id : Nat) :
    { s with conns := s.conns.pop id }.Sound text where
  accurate := h.accurate
  bound := fun id' conn hget => h.bound id' conn (Dict.get?_pop_cases hget).2
  phases := fun id' conn hget => h.phases id' conn (Dict.get?_pop_cases hget).2

/-- What a phase rests on stays so where its reads do. -/
theorem phaseSound_of_kept (h : s.PhaseSound text agentId phase)
    (hpins : ∀ target, phase.target? = some target → (target, agentId) ∈ s.pins →
      (target, agentId) ∈ s'.pins) (hhosts : ∀ target host, phase.hostRead? target = some host →
      host = trustedHost text (s.shown.get? target) →
        host = trustedHost text (s'.shown.get? target))
    (hlisted : ∀ target, phase.listed? = some target →
      s'.listCapabilities target agentId = s.listCapabilities target agentId) :
    s'.PhaseSound text agentId phase := by
  cases phase with
  | pinsListed op target pinned => exact fun hpinned => hpins target rfl (h hpinned)
  | listingCapabilities op target permission host =>
    obtain ⟨hpin, hpermission, hhost⟩ := h
    exact ⟨hpins target rfl hpin, hpermission, hhosts target host (if_pos rfl) hhost⟩
  | capabilitiesListed op target permission host rows =>
    obtain ⟨hpin, hpermission, hhost, hrows⟩ := h
    refine ⟨hpins target rfl hpin, hpermission, hhosts target host (if_pos rfl) hhost, ?_⟩
    rw [hlisted target rfl]
    exact hrows
  | _ => trivial

/-- A page that is served puts its pin on record. -/
theorem sound_pageServed (h : s.Sound text) {tab : TabKey} {request : PageRequest} {url : List Char}
    (horderly : s.Orderly text (.pageServed tab request url))
    (hstep : s.step text (.pageServed tab request url) = some s') : s'.Sound text := by
  obtain ⟨hrecorded, hhosts⟩ := horderly
  simp only [step] at hstep
  split at hstep
  · cases hstep
    have hshown : ∀ other, other ≠ tab →
        (s.shown.set tab url).get? other = s.shown.get? other :=
      fun other hne => Dict.get?_set_of_ne _ _ (Ne.symm hne)
    refine ⟨?_, h.bound, ?_⟩
    · intro other
      rcases hrecorded with hown | ⟨hnone, hhost⟩
      · rw [hown]
        by_cases hother : other = tab
        · simp [hother]
        · rw [hshown other hother, Dict.get?_set_of_ne _ _ (Ne.symm hother)]
          exact h.accurate other
      · rw [hnone]
        by_cases hother : other = tab
        · simpa [hother] using hhost
        · rw [hshown other hother]
          exact h.accurate other
    · intro id conn hconn
      apply phaseSound_of_kept (h.phases id conn hconn)
      · exact fun _ _ hpin => hpin
      · intro target host hread hhost
        by_cases htarget : target = tab
        · subst htarget
          rw [Dict.get?_set_self]
          exact hhosts id conn host hconn hread
        · rw [hshown target htarget]
          exact hhost
      · exact fun _ _ => rfl
  · contradiction

/-- Pins that handlers rely on are kept. -/
theorem sound_pins (h : s.Sound text) {pins : List (TabKey × String)}
    (hpins : ∀ id conn target, s.conns.get? id = some conn →
      conn.ticket = target ∨ conn.phase.target? = some target →
        (target, conn.agentId) ∈ s.pins → (target, conn.agentId) ∈ pins) :
    { s with pins := pins }.Sound text where
  accurate := h.accurate
  bound id conn hconn := hpins id conn conn.ticket hconn (Or.inl rfl) (h.bound id conn hconn)
  phases id conn hconn := by
    apply phaseSound_of_kept (h.phases id conn hconn)
    · exact fun target htarget hpin => hpins id conn target hconn (Or.inr htarget) hpin
    · exact fun _ _ _ hhost => hhost
    · exact fun _ _ => rfl

/-- Capabilities that handlers rely on are kept. -/
theorem sound_capabilities (h : s.Sound text)
    (hrows : ∀ id conn target, s.conns.get? id = some conn →
      conn.phase.listed? = some target →
        { s with capabilities := rows }.listCapabilities target conn.agentId =
          s.listCapabilities target conn.agentId) :
    { s with capabilities := rows }.Sound text where
  accurate := h.accurate
  bound := h.bound
  phases id conn hconn := by
    apply phaseSound_of_kept (h.phases id conn hconn)
    · exact fun _ _ hpin => hpin
    · exact fun _ _ _ hhost => hhost
    · exact fun target hlisted => hrows id conn target hconn hlisted

/-- Rows of other agents and profiles are not listed. -/
theorem filter_listed {keep : CapabilityRow → Bool}
    {listed : CapabilityRow → Bool} (hkeep : ∀ row, listed row = true → keep row = true) :
    (rows.filter keep).filter listed = rows.filter listed := by
  rw [List.filter_filter]
  apply List.filter_congr
  intro row _
  cases hlisted : listed row with
  | true => simp [hkeep row hlisted]
  | false => simp

section

variable (h : s.Sound text)
include h

/-- A capability is added while nobody lists them. -/
theorem sound_capabilityAdded
    {row : CapabilityRow} (hnone : s.NoneListed row.userId row.profileId row.agentId)
    (hstep : s.step text (.capabilityAdded row) = some s') : s'.Sound text := by
  cases hstep
  apply sound_capabilities h
  intro id conn target hconn hlisted
  have hother : ¬ (row.userId = target.userId ∧ row.profileId = target.profileId ∧
      row.agentId = conn.agentId) := by
    rintro ⟨huser, hprofile, hagent⟩
    exact hnone id conn target hconn hagent.symm hlisted ⟨huser.symm, hprofile.symm⟩
  simp only [listCapabilities]
  rw [List.filter_cons_of_neg (by simpa using hother)]
  apply filter_listed
  intro old hold
  rw [decide_eq_true_eq] at hold ⊢
  rintro ⟨huser, hprofile, hagent, _⟩
  exact hother ⟨huser ▸ hold.1, hprofile ▸ hold.2.1, hagent ▸ hold.2.2⟩

/-- A capability is revoked while nobody lists them. -/
theorem sound_capabilityRevoked {userId profileId : String} {hostPattern : List Char}
    (hnone : s.NoneListed userId profileId agentId)
    (hstep : s.step text (.capabilityRevoked userId profileId agentId hostPattern) = some s') :
    s'.Sound text := by
  cases hstep
  apply sound_capabilities h
  intro id conn target hconn hlisted
  apply filter_listed
  intro old hold
  rw [decide_eq_true_eq] at hold ⊢
  rintro ⟨rfl, rfl, rfl, _⟩
  exact hnone id conn target hconn hold.2.2.symm hlisted ⟨hold.1.symm, hold.2.1.symm⟩

/-- An agent connects. -/
theorem sound_agentConnected {ticket : TabKey}
    (hstep : s.step text (.agentConnected id ticket agentId) = some s') : s'.Sound text := by
  simp only [step] at hstep
  split at hstep
  · contradiction
  rename_i hnot
  cases hstep
  refine ⟨h.accurate, ?_, ?_⟩
  · intro id' conn hget
    rcases Dict.get?_set_cases hget with ⟨_, rfl⟩ | ⟨_, hold⟩
    · exact not_not.mp (not_or.mp hnot).2
    · exact h.bound id' conn hold
  · intro id' conn hget
    rcases Dict.get?_set_cases hget with ⟨_, rfl⟩ | ⟨_, hold⟩
    · trivial
    · exact h.phases id' conn hold

/-- An operation is received. -/
theorem sound_opReceived
    {msg : OpMsg} (hstep : s.step text (.opReceived id msg now) = some s') : s'.Sound text := by
  simp only [step] at hstep
  split at hstep
  · rename_i conn hconn
    split at hstep
    · split at hstep
      · cases hstep
        exact h
      · split at hstep
        · cases hstep
          exact sound_goOn h hconn trivial
        · rename_i hticket
          cases hstep
          apply sound_authorise h hconn
          rw [not_not.mp hticket]
          exact h.bound id conn hconn
    · contradiction
  · contradiction

theorem sound_pinsRead (hstep : s.step text (.pinsRead id) = some s') : s'.Sound text := by
  simp only [step] at hstep
  split at hstep
  · rename_i conn hconn
    split at hstep
    · cases hstep
      exact sound_goOn h hconn fun hpinned => of_decide_eq_true hpinned
    · contradiction
  · contradiction

/-- The pins are answered. -/
theorem sound_pinsAnswered
    (hstep : s.step text (.pinsAnswered id now) = some s') : s'.Sound text := by
  simp only [step] at hstep
  split at hstep
  · rename_i conn hconn
    split at hstep
    · rename_i op target pinned hphase
      have hold := h.phases id conn hconn
      rw [hphase] at hold
      split at hstep
      · rename_i hpinned
        cases hstep
        exact sound_authorise h hconn op (hold hpinned) now
      · cases hstep
        exact sound_goOn h hconn trivial
    · contradiction
  · contradiction

theorem sound_capabilitiesRead
    (hstep : s.step text (.capabilitiesRead id) = some s') : s'.Sound text := by
  simp only [step] at hstep
  split at hstep
  · rename_i conn hconn
    split at hstep
    · rename_i op target permission host hphase
      have hold := h.phases id conn hconn
      rw [hphase] at hold
      cases hstep
      exact sound_goOn h hconn ⟨hold.1, hold.2.1, hold.2.2, rfl⟩
    · contradiction
  · contradiction

/-- The capabilities are answered. -/
theorem sound_capabilitiesAnswered
    (hstep : s.step text (.capabilitiesAnswered id now) = some s') : s'.Sound text := by
  simp only [step] at hstep
  split at hstep
  · rename_i conn hconn
    split at hstep
    · split at hstep
      · cases hstep
        exact sound_routeOp h hconn _ _ now
      · cases hstep
        exact sound_goOn h hconn trivial
      · cases hstep
        exact sound_popConn h id
    · contradiction
  · contradiction

/-- An orderly step keeps the record accurate and what handlers rely on. -/
theorem sound_step
    (horderly : s.Orderly text e) (hstep : s.step text e = some s') : s'.Sound text := by
  cases e with
  | pageServed tab request url => exact sound_pageServed h horderly hstep
  | pinAdded tab agentId =>
    cases hstep
    exact sound_pins h fun _ _ _ _ _ hpin => List.mem_cons_of_mem _ hpin
  | pinDeleted tab agentId =>
    cases hstep
    apply sound_pins h
    intro id conn target hconn hrelies hpin
    rw [List.mem_filter, decide_eq_true_eq]
    refine ⟨hpin, ?_⟩
    rintro heq
    cases heq
    obtain ⟨hticket, htarget⟩ := horderly id conn hconn rfl
    exact hrelies.elim hticket htarget
  | capabilityAdded row => exact sound_capabilityAdded h horderly hstep
  | capabilityRevoked userId profileId agentId hostPattern =>
    exact sound_capabilityRevoked h horderly hstep
  | iframeAdded | iframeRemoved =>
    cases hstep
    exact ⟨h.accurate, h.bound, h.phases⟩
  | agentConnected id ticket agentId => exact sound_agentConnected h hstep
  | agentGone id =>
    cases hstep
    exact sound_popConn h id
  | opReceived id msg now => exact sound_opReceived h hstep
  | pinsRead id => exact sound_pinsRead h hstep
  | pinsAnswered id now => exact sound_pinsAnswered h hstep
  | capabilitiesRead id => exact sound_capabilitiesRead h hstep
  | capabilitiesAnswered id now => exact sound_capabilitiesAnswered h hstep
  | opAnswered id =>
    simp only [step] at hstep
    split at hstep
    · rename_i conn hconn
      split at hstep
      · cases hstep
        exact sound_goOn h hconn trivial
      · contradiction
    · contradiction

end

theorem forward_of_routeOp
    (hforward : (s.routeOp id conn op target now).forwards = f :: s.forwards) :
    f = ⟨target, conn.agentId, op, now⟩ := by
  simp only [routeOp] at hforward
  split at hforward
  · exact (List.cons.inj hforward).1.symm
  · exact absurd hforward.symm (List.cons_ne_self f s.forwards)

/-- An op that is sent without a check is not privileged. -/
theorem forward_of_authorise
    (hforward : (s.authorise text id conn op target now).forwards = f :: s.forwards) :
    requiredPermission f.op = none := by
  simp only [authorise] at hforward
  split at hforward
  · rename_i hnone
    rw [forward_of_routeOp hforward]
    exact hnone
  · exact absurd hforward.symm (List.cons_ne_self f s.forwards)

/-- A privileged op is sent by a check that was granted. -/
theorem privileged_of_step (hstep : s.step text e = some s')
    (hforward : s'.forwards = f :: s.forwards)
    {permission : String} (hop : requiredPermission f.op = some permission) :
    ∃ id conn op target required host rows, s.conns.get? id = some conn ∧
      conn.phase = .capabilitiesListed op target required host rows ∧
      checkCapability text host required f.time rows = some true ∧
      f = ⟨target, conn.agentId, op, f.time⟩ := by
  have hsame : s'.forwards ≠ s.forwards := by
    rw [hforward]
    exact List.cons_ne_self f s.forwards
  cases e with
  | opReceived | pinsAnswered =>
    simp only [step] at hstep
    repeat' split at hstep
    all_goals first
      | contradiction
      | (cases hstep; first | exact absurd rfl hsame | skip)
    rw [forward_of_authorise hforward] at hop
    contradiction
  | capabilitiesAnswered id now =>
    simp only [step] at hstep
    split at hstep
    · rename_i conn hconn
      split at hstep
      · rename_i op target required host rows hphase
        split at hstep
        · rename_i hgranted
          cases hstep
          have heq := forward_of_routeOp hforward
          subst heq
          exact ⟨id, conn, op, target, required, host, rows, hconn, hphase, hgranted, rfl⟩
        · cases hstep
          exact absurd rfl hsame
        · cases hstep
          exact absurd rfl hsame
      · contradiction
    · contradiction
  | _ =>
    simp only [step] at hstep
    repeat' split at hstep
    all_goals first
      | contradiction
      | (cases hstep; exact absurd rfl hsame)

/-- From a sound state only authorised operations are forwarded. -/
theorem onlyAuthorised_step (h : s.Sound text) (hstep : s.step text e = some s') :
    s.OnlyAuthorised text e s' := by
  intro f permission hforward hop
  obtain ⟨id, conn, op, target, required, host, rows, hconn, hphase, hgranted, heq⟩ :=
    privileged_of_step hstep hforward hop
  have hold := h.phases id conn hconn
  rw [hphase] at hold
  obtain ⟨hpinned, hrequired, hhost, hrows⟩ := hold
  obtain ⟨row, hmem, hunexpired, hmatches, hpermission⟩ := checkCapability_eq_true hgranted
  rw [heq] at hop ⊢
  rw [hrequired] at hop
  cases hop
  rw [hhost] at hmatches
  rw [hrows] at hmem
  exact ⟨hpinned, row, hmem, hunexpired, hmatches, hpermission⟩

/-- In an orderly run a privileged op is sent to a page only while its agent is pinned to the tab
and holds an unexpired capability for the host of the page that the tab shows. -/
theorem onlyAuthorised_of_orderly (text : TextOps) (es : List CopilotEvent)
    (horderly : Guarded (step text) (Orderly text) init es) :
    EveryStep (step text) (OnlyAuthorised text) init es := by
  intro pre e post t t' heq hrun hstep
  rw [heq] at horderly
  have hpre : Guarded (step text) (Orderly text) init pre := guarded_of_append horderly
  have hsound : t.Sound text :=
    invariant_of_guarded_run (fun _ _ _ h horderly hstep => sound_step h horderly hstep)
      (sound_init text) hpre hrun
  exact onlyAuthorised_step hsound hstep

def adasTab : TabKey :=
  ⟨"ada", "p", "t"⟩

/-- A page is loaded by the request in a tab whose agent may drive one site, after that site. -/
def driven (requests : List (PageRequest × String)) : List CopilotEvent :=
  .pinAdded adasTab "scout" :: .iframeAdded adasTab "scout" ::
    .capabilityAdded ⟨"ada", "p", "scout", "good.test".toList, "drive".toList, .never⟩ ::
    (requests.map fun e => .pageServed adasTab e.1 e.2.toList) ++
      [.agentConnected 0 adasTab "scout", .opReceived 0 ⟨some "click", none, none⟩ 1,
        .capabilitiesRead 0, .capabilitiesAnswered 0 2]

def goodPage : PageRequest × String :=
  (.shell "https://good.test/", "https://good.test/")

theorem onlyAuthorised_driven :
    EveryStep (step asciiText) (OnlyAuthorised asciiText) init (driven [goodPage]) :=
  onlyAuthorised_of_orderly asciiText _
    ⟨trivial, trivial, nofun, ⟨Or.inl rfl, nofun⟩, trivial, trivial, trivial, trivial,
      by split <;> trivial⟩

/-- The user follows a link to another site. -/
def followed : List (PageRequest × String) :=
  [goodPage, (.link "https://bank.test/", "https://bank.test/")]

def beforeClick : List CopilotEvent :=
  (driven followed).take 8

/-- The op is sent to the page of the other site. -/
theorem not_onlyAuthorised :
    ¬ EveryStep (step asciiText) (OnlyAuthorised asciiText) init (driven followed) := by
  intro h
  have hbefore : (run (step asciiText) init beforeClick).map (fun s =>
      (s.forwards, s.listCapabilities adasTab "scout", s.shown.get? adasTab)) =
        some ([], [⟨"ada", "p", "scout", "good.test".toList, "drive".toList, .never⟩],
          some "https://bank.test/".toList) := by
    decide
  have hsent : ((run (step asciiText) init beforeClick).bind fun s =>
      step asciiText s (.capabilitiesAnswered 0 2)).map (fun s => s.forwards) =
        some [⟨adasTab, "scout", "click", 2⟩] := by
    decide
  obtain ⟨s, hrun, hstate⟩ := Option.map_eq_some_iff.mp hbefore
  rw [hrun, Option.bind_some] at hsent
  obtain ⟨s', hstep, hforwards⟩ := Option.map_eq_some_iff.mp hsent
  obtain ⟨hnone, hrows, hshown⟩ : s.forwards = [] ∧ _ ∧ _ := by
    simpa only [Prod.mk.injEq] using hstate
  have hlast := h beforeClick (.capabilitiesAnswered 0 2) [] s s' rfl hrun hstep
  obtain ⟨_, row, hmem, _, hmatches, _⟩ := hlast ⟨adasTab, "scout", "click", 2⟩ "drive"
    (by rw [hforwards, hnone]) rfl
  rw [hrows] at hmem
  rw [List.mem_singleton.mp hmem, hshown] at hmatches
  have hother : matchesHost "good.test".toList
      (trustedHost asciiText (some "https://bank.test/".toList)) = false := by
    decide
  exact Bool.false_ne_true (hother.symm.trans hmatches)

end CopilotState

end TinyAgentOS.Browser
