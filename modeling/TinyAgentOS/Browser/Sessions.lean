import TinyAgentOS.Library.Dict
import TinyAgentOS.Library.Transition
import Mathlib.Data.Rat.Defs
import Mathlib.Tactic

/-!
# Browser sessions

A session is created where a select finds no live one, and becomes running when its container
has started, whatever has happened to its row in between.  Each statement is atomic; the start
of a container, and what a migration does on its nodes, take place between statements.

Main results:

- `SessionTable.oneLive_update_iff`: which updates keep one live session a user.
- `SessionTable.keptThroughout_iff`: the runs in which a user never has two live sessions and no
  start revives a session that was terminated meanwhile.
-/

namespace TinyAgentOS.Browser

open Collections Transition

/-! ## Rows -/

inductive SessionStatus where
  | pending
  | running
  | idle
  | migrating
  | error
  | stopped
deriving DecidableEq

/-- `status IN ('pending','running','idle')`. -/
def SessionStatus.isLive : SessionStatus → Bool
  | .pending => true
  | .running => true
  | .idle => true
  | _ => false

/-- A row of `browser_sessions`. -/
structure Session where
  ownerType : String
  ownerId : String
  profileName : String
  url : Option String
  node : Option String
  status : SessionStatus
  containerId : Option String
  nekoUrl : Option String
  cdpUrl : Option String
  isMobile : Bool
  createdAt : ℚ
  updatedAt : ℚ
  lastActive : ℚ

namespace Session

/-- The row that `create_session` inserts. -/
def create (ownerType ownerId url profileName : String) (mobile : Bool) (now : ℚ) : Session where
  ownerType := ownerType
  ownerId := ownerId
  profileName := profileName
  url := some url
  node := none
  status := .pending
  containerId := none
  nekoUrl := none
  cdpUrl := none
  isMobile := mobile
  createdAt := now
  updatedAt := now
  lastActive := now

/-- The `SET` clauses that write a status alone. -/
def withStatus (status : SessionStatus) (now : ℚ) (r : Session) : Session :=
  { r with
    status := status
    updatedAt := now }

/-- The `SET` clauses of a session that is shown in another mode. -/
def represent (mobile : Bool) (now : ℚ) (r : Session) : Session :=
  { r with
    status := .pending
    isMobile := mobile
    containerId := none
    nekoUrl := none
    cdpUrl := none
    node := none
    updatedAt := now }

/-- The `SET` clauses of `mark_running`. -/
def markRunning (node containerId nekoUrl : String) (cdpUrl : Option String) (now : ℚ)
    (r : Session) : Session :=
  { r with
    node := some node
    containerId := some containerId
    nekoUrl := some nekoUrl
    cdpUrl := cdpUrl
    status := .running
    updatedAt := now }

/-- The session of the user counts as live. -/
def LiveOf (r : Session) (ownerId : String) : Prop :=
  r.ownerType = "user" ∧ r.ownerId = ownerId ∧ r.status.isLive = true

instance (r : Session) (ownerId : String) : Decidable (r.LiveOf ownerId) :=
  inferInstanceAs (Decidable (_ ∧ _ ∧ _))

end Session

/-! ## Calls -/

/-- Where a call stands. -/
inductive SessionCall where
  /-- `get_or_create_mine` has found no live session. -/
  | inserting (ownerId url profileName : String) (mobile : Bool)
  /-- It has found one of the other mode. -/
  | representing (sessionId : String) (mobile : Bool)
  /-- The container is starting, at the end of a migration or on its own. -/
  | starting (sessionId : String) (migration : Bool)
  | terminating (sessionId : String)
  | reaping (ids : List String)
  | marking (sessionId : String)
  /-- The migration works on its nodes. -/
  | moving (sessionId : String)
  /-- The start of a migration has failed and is handled. -/
  | failing (sessionId : String)
  | done
deriving DecidableEq

/-- The statements of the calls, and what happens between them. -/
inductive SessionStatement where
  | agentCreated (sessionId ownerType ownerId url profileName : String) (mobile : Bool) (now : ℚ)
  | mineCalled (id : Nat) (ownerId url profileName : String) (mobile : Bool)
  | represented (id : Nat) (now : ℚ)
  | inserted (id : Nat) (sessionId : String) (now : ℚ)
  | startCalled (id : Nat) (sessionId : String)
  | startSucceeded (id : Nat) (node containerId nekoUrl : String) (cdpUrl : Option String)
      (now : ℚ)
  | startFailed (id : Nat) (now : ℚ)
  | terminateCalled (id : Nat) (sessionId : String)
  | terminated (id : Nat) (now : ℚ)
  | reapCalled (id : Nat) (now timeout : ℚ)
  | reaped (id : Nat) (now : ℚ)
  | migrateCalled (id : Nat) (sessionId : String)
  | migratingMarked (id : Nat) (now : ℚ)
  | targetStarted (id : Nat)
  | migrationFailed (id : Nat) (now : ℚ)

/-- The rows, the calls, and the sessions that were terminated while a start was in progress. -/
structure SessionTable where
  rows : Dict String Session
  calls : Dict Nat SessionCall
  condemned : List String

namespace SessionTable

/-- An empty table. -/
def init : SessionTable := ⟨Dict.empty, Dict.empty, []⟩

def goOn (s : SessionTable) (id : Nat) (call : SessionCall) : SessionTable :=
  { s with calls := s.calls.set id call }

/-- `UPDATE browser_sessions … WHERE id IN (…)`. -/
def update (s : SessionTable) (ids : List String) (f : Session → Session) : SessionTable :=
  { s with rows := s.rows.mapEntries fun id r => if id ∈ ids then f r else r }

/-- The latest live session of the user. -/
def latestLive (s : SessionTable) (ownerId : String) : Option (String × Session) :=
  (s.rows.entries.filter fun e => e.2.LiveOf ownerId).argmax fun e => e.2.createdAt

/-- The running sessions of agents that were last active before the cutoff. -/
def stale (s : SessionTable) (cutoff : ℚ) : List String :=
  (s.rows.entries.filter fun e =>
    e.2.status = .running ∧ e.2.ownerType ≠ "user" ∧ e.2.lastActive < cutoff).map Prod.fst

/-- A start of the session is in progress. -/
def isStarting (s : SessionTable) (sessionId : String) : Bool :=
  s.calls.values.any fun call =>
    call = .starting sessionId true ∨ call = .starting sessionId false

/-- One statement. -/
def step (s : SessionTable) : SessionStatement → Option SessionTable
  | .agentCreated sessionId ownerType ownerId url profileName mobile now =>
    if ownerType = "user" ∨ (s.rows.get? sessionId).isSome then none
    else
      some
        { s with
          rows := s.rows.set sessionId
            (.create ownerType ownerId url profileName mobile now) }
  | .mineCalled id ownerId url profileName mobile =>
    if (s.calls.get? id).isSome then none
    else
      match s.latestLive ownerId with
      | none => some (s.goOn id (.inserting ownerId url profileName mobile))
      | some (sessionId, r) =>
        if r.isMobile = mobile then some (s.goOn id .done)
        else some (s.goOn id (.representing sessionId mobile))
  | .represented id now =>
    match s.calls.get? id with
    | some (.representing sessionId mobile) =>
      some ((s.update [sessionId] (.represent mobile now)).goOn id .done)
    | _ => none
  | .inserted id sessionId now =>
    match s.calls.get? id with
    | some (.inserting ownerId url profileName mobile) =>
      if (s.rows.get? sessionId).isSome then none
      else
        some
          { s.goOn id .done with
            rows := s.rows.set sessionId
              (.create "user" ownerId url profileName mobile now) }
    | _ => none
  | .startCalled id sessionId =>
    if (s.calls.get? id).isSome then none else some (s.goOn id (.starting sessionId false))
  | .startSucceeded id node containerId nekoUrl cdpUrl now =>
    match s.calls.get? id with
    | some (.starting sessionId _) =>
      some ((s.update [sessionId]
        (.markRunning node containerId nekoUrl cdpUrl now)).goOn id .done)
    | _ => none
  | .startFailed id now =>
    match s.calls.get? id with
    | some (.starting sessionId migration) =>
      some ((s.update [sessionId] (.withStatus .error now)).goOn id
        (if migration then .failing sessionId else .done))
    | _ => none
  | .terminateCalled id sessionId =>
    if (s.calls.get? id).isSome then none
    else if (s.rows.get? sessionId).isNone then some (s.goOn id .done)
    else some (s.goOn id (.terminating sessionId))
  | .terminated id now =>
    match s.calls.get? id with
    | some (.terminating sessionId) =>
      some
        { (s.update [sessionId] (.withStatus .stopped now)).goOn id .done with
          condemned :=
            if s.isStarting sessionId then sessionId :: s.condemned else s.condemned }
    | _ => none
  | .reapCalled id now timeout =>
    if (s.calls.get? id).isSome then none
    else some (s.goOn id (.reaping (s.stale (now - timeout))))
  | .reaped id now =>
    match s.calls.get? id with
    | some (.reaping ids) => some ((s.update ids (.withStatus .idle now)).goOn id .done)
    | _ => none
  | .migrateCalled id sessionId =>
    if (s.calls.get? id).isSome then none
    else if (s.rows.get? sessionId).isNone then some (s.goOn id .done)
    else some (s.goOn id (.marking sessionId))
  | .migratingMarked id now =>
    match s.calls.get? id with
    | some (.marking sessionId) =>
      some ((s.update [sessionId] (.withStatus .migrating now)).goOn id (.moving sessionId))
    | _ => none
  | .targetStarted id =>
    match s.calls.get? id with
    | some (.moving sessionId) => some (s.goOn id (.starting sessionId true))
    | _ => none
  | .migrationFailed id now =>
    match s.calls.get? id with
    | some (.moving sessionId) =>
      some ((s.update [sessionId] (.withStatus .error now)).goOn id .done)
    | some (.failing sessionId) =>
      some ((s.update [sessionId] (.withStatus .error now)).goOn id .done)
    | _ => none

variable {s s' : SessionTable} {id : Nat} {ids : List String} {e : SessionStatement}
  {sessionId : String} {f : Session → Session} {now : ℚ}

/-- A session that is to be reaped was stale when it was selected. -/
theorem reaping_of_step (hstep : s.step e = some s')
    (hcall : s'.calls.get? id = some (.reaping ids)) :
    s.calls.get? id = some (.reaping ids) ∨ ∃ cutoff, ids = s.stale cutoff := by
  have hother : ∀ {calls : Dict Nat SessionCall} {id' : Nat} {call : SessionCall},
      (calls.set id' call).get? id = some (.reaping ids) → call ≠ .reaping ids →
        calls.get? id = some (.reaping ids) := by
    intro calls id' call hget hne
    exact ((Dict.get?_set_cases hget).resolve_left fun h => hne h.2).2
  cases e with
  | reapCalled id' now timeout =>
    simp only [step] at hstep
    split at hstep
    · contradiction
    cases hstep
    rcases Dict.get?_set_cases hcall with ⟨_, heq⟩ | ⟨_, hold⟩
    · cases heq
      exact Or.inr ⟨now - timeout, rfl⟩
    · exact Or.inl hold
  | startFailed id' now =>
    left
    simp only [step] at hstep
    split at hstep
    · cases hstep
      refine hother hcall ?_
      split <;> nofun
    · contradiction
  | _ =>
    left
    simp only [step] at hstep
    repeat' split at hstep
    all_goals first
      | contradiction
      | (cases hstep; first | exact hcall | exact hother hcall nofun)

/-! ## One live session a user -/

/-- The session is live, and the user's. -/
def LiveAt (s : SessionTable) (sessionId ownerId : String) : Prop :=
  ∃ r, s.rows.get? sessionId = some r ∧ r.LiveOf ownerId

/-- The user has no other live session. -/
def Alone (s : SessionTable) (sessionId ownerId : String) : Prop :=
  ∀ other, s.LiveAt other ownerId → other = sessionId

/-- A user has one live session at most. -/
def OneLive (s : SessionTable) : Prop :=
  ∀ sessionId ownerId, s.LiveAt sessionId ownerId → s.Alone sessionId ownerId

/-- The session may become live: it is an agent's, or its user has no other live one. -/
def MayLive (s : SessionTable) (sessionId : String) : Prop :=
  ∀ r, s.rows.get? sessionId = some r → r.ownerType = "user" → s.Alone sessionId r.ownerId

/-- No session that was terminated during a start is running. -/
def NotRevived (s : SessionTable) : Prop :=
  ∀ sessionId ∈ s.condemned, ∀ r, s.rows.get? sessionId = some r → r.status ≠ .running

/-- What the manager is to keep. -/
def Kept (s : SessionTable) : Prop :=
  s.OneLive ∧ s.NotRevived

theorem oneLive_mono (h : s.OneLive)
    (hlive : ∀ sessionId ownerId, s'.LiveAt sessionId ownerId → s.LiveAt sessionId ownerId) :
    s'.OneLive := by
  intro sessionId ownerId hmine other hother
  exact h sessionId ownerId (hlive _ _ hmine) other (hlive _ _ hother)

/-- One more live session keeps the rule exactly when its user has no other. -/
theorem oneLive_iff_of_added {ownerId : String} (h : s.OneLive)
    (hlive : ∀ other owner, s'.LiveAt other owner ↔
      (other = sessionId ∧ owner = ownerId) ∨ s.LiveAt other owner) :
    s'.OneLive ↔ s.Alone sessionId ownerId := by
  constructor
  · intro hone other hother
    apply hone sessionId ownerId
    · exact (hlive _ _).mpr (Or.inl ⟨rfl, rfl⟩)
    · exact (hlive _ _).mpr (Or.inr hother)
  · intro halone id owner hmine other hother
    rcases (hlive _ _).mp hmine with ⟨rfl, rfl⟩ | hmine
    · rcases (hlive _ _).mp hother with ⟨rfl, _⟩ | hother
      · rfl
      · exact halone other hother
    · rcases (hlive _ _).mp hother with ⟨rfl, rfl⟩ | hother
      · exact (halone id hmine).symm
      · exact h id owner hmine other hother

theorem get?_update (s : SessionTable) (ids : List String) (f : Session → Session)
    (sessionId : String) : (s.update ids f).rows.get? sessionId =
      (s.rows.get? sessionId).map fun r => if sessionId ∈ ids then f r else r :=
  Dict.get?_mapEntries _ _ _

/-- A row after an update is an old one, changed or not. -/
theorem get?_update_cases {r' : Session} (hget : (s.update ids f).rows.get? sessionId = some r') :
    ∃ r, s.rows.get? sessionId = some r ∧
      (sessionId ∈ ids ∧ r' = f r ∨ sessionId ∉ ids ∧ r' = r) := by
  rw [get?_update] at hget
  obtain ⟨r, hold, rfl⟩ := Option.map_eq_some_iff.mp hget
  refine ⟨r, hold, ?_⟩
  by_cases hmem : sessionId ∈ ids
  · exact Or.inl ⟨hmem, if_pos hmem⟩
  · exact Or.inr ⟨hmem, if_neg hmem⟩

/-- An update that makes no session of a user live. -/
theorem oneLive_update (h : s.OneLive)
    (hf : ∀ sessionId ∈ ids, ∀ r, s.rows.get? sessionId = some r → ∀ ownerId,
      (f r).LiveOf ownerId → r.LiveOf ownerId) : (s.update ids f).OneLive := by
  apply oneLive_mono h
  rintro sessionId ownerId ⟨r', hget, hlive⟩
  obtain ⟨r, hold, ⟨hmem, rfl⟩ | ⟨_, rfl⟩⟩ := get?_update_cases hget
  · exact ⟨r, hold, hf sessionId hmem r hold ownerId hlive⟩
  · exact ⟨_, hold, hlive⟩

/-- A status that is not live makes no session live. -/
theorem oneLive_withStatus (h : s.OneLive) (ids : List String)
    {status : SessionStatus} (hstatus : status.isLive = false) (now : ℚ) :
    (s.update ids (.withStatus status now)).OneLive := by
  apply oneLive_update h
  intro sessionId _ r _ ownerId hlive
  have hnot : status.isLive = true := hlive.2.2
  rw [hstatus] at hnot
  contradiction

/-- An update that makes a session live keeps the rule exactly when the session may live. -/
theorem oneLive_update_iff (h : s.OneLive) (sessionId : String)
    (hlive : ∀ r, (f r).status.isLive = true)
    (howner : ∀ r, (f r).ownerType = r.ownerType ∧ (f r).ownerId = r.ownerId) :
    (s.update [sessionId] f).OneLive ↔ s.MayLive sessionId := by
  have hother : ∀ other owner, other ≠ sessionId →
      ((s.update [sessionId] f).LiveAt other owner ↔ s.LiveAt other owner) := by
    intro other owner hne
    simp [LiveAt, get?_update, hne]
  cases hget : s.rows.get? sessionId with
  | none =>
    refine iff_of_true ?_ (fun r hr => by rw [hget] at hr; contradiction)
    apply oneLive_update h
    intro id hmem r hr
    rw [List.mem_singleton.mp hmem, hget] at hr
    contradiction
  | some r =>
    have hself : (s.update [sessionId] f).rows.get? sessionId = some (f r) := by
      simp [get?_update, hget]
    by_cases huser : r.ownerType = "user"
    · have hmay : s.MayLive sessionId ↔ s.Alone sessionId r.ownerId := by
        simp [MayLive, hget, huser]
      rw [hmay]
      apply oneLive_iff_of_added h
      intro other owner
      by_cases hne : other = sessionId
      · subst hne
        constructor
        · rintro ⟨r', hr', hmine⟩
          rw [hself] at hr'
          cases hr'
          exact Or.inl ⟨rfl, hmine.2.1.symm.trans (howner r).2⟩
        · rintro (⟨_, rfl⟩ | ⟨r', hr', hmine⟩)
          · exact ⟨f r, hself, (howner r).1.trans huser, (howner r).2, hlive r⟩
          · rw [hget] at hr'
            cases hr'
            exact ⟨f r, hself, (howner r).1.trans huser, (howner r).2.trans hmine.2.1, hlive r⟩
      · rw [hother other owner hne]
        simp [hne]
    · refine iff_of_true ?_ ?_
      · apply oneLive_update h
        intro id hmem r' hr' owner hmine
        rw [List.mem_singleton.mp hmem, hget] at hr'
        cases hr'
        exact absurd ((howner r).1.symm.trans hmine.1) huser
      · intro r' hr' huser'
        rw [hget] at hr'
        cases hr'
        exact absurd huser' huser

/-- A row of a user under a new id keeps the rule exactly when the user has no live session. -/
theorem oneLive_create_iff (h : s.OneLive)
    (hfresh : s.rows.get? sessionId = none) (ownerId url profileName : String) (mobile : Bool)
    (now : ℚ) : { s with
      rows := s.rows.set sessionId
        (.create "user" ownerId url profileName mobile now) }.OneLive ↔
      s.Alone sessionId ownerId := by
  apply oneLive_iff_of_added h
  intro other owner
  by_cases hne : sessionId = other
  · subst hne
    constructor
    · rintro ⟨r, hget, hmine⟩
      rw [Dict.get?_set_self] at hget
      cases hget
      exact Or.inl ⟨rfl, hmine.2.1.symm⟩
    · rintro (⟨_, rfl⟩ | ⟨r, hget, _⟩)
      · exact ⟨_, Dict.get?_set_self _ _ _, rfl, rfl, rfl⟩
      · rw [hfresh] at hget
        contradiction
  · simp [LiveAt, Dict.get?_set_of_ne _ _ hne, Ne.symm hne]

theorem notRevived_update (h : s.NotRevived) (ids : List String)
    (hf : ∀ r, (f r).status ≠ .running) : (s.update ids f).NotRevived := by
  intro sessionId hmem r' hget
  obtain ⟨r, hold, ⟨_, rfl⟩ | ⟨_, rfl⟩⟩ := get?_update_cases hget
  · exact hf r
  · exact h sessionId hmem _ hold

/-- A session that becomes running was not terminated during a start. -/
theorem notRevived_running_iff (h : s.NotRevived) (sessionId : String)
    (hf : ∀ r, (f r).status = .running) : (s.update [sessionId] f).NotRevived ↔
      ((s.rows.get? sessionId).isSome = true → sessionId ∉ s.condemned) := by
  constructor
  · intro hkept hsome hmem
    obtain ⟨r, hget⟩ := Option.isSome_iff_exists.mp hsome
    exact hkept sessionId hmem (f r) (by simp [get?_update, hget]) (hf r)
  · intro hmay id hmem r' hget
    obtain ⟨r, hold, ⟨hid, rfl⟩ | ⟨_, rfl⟩⟩ := get?_update_cases hget
    · rw [List.mem_singleton.mp hid] at hmem hold
      exact absurd hmem (hmay (by rw [hold]; rfl))
    · exact h id hmem _ hold

/-! ## Runs -/

/-- A session becomes live while its user has no other, and running only if it was not
terminated during a start. -/
def Orderly (s : SessionTable) : SessionStatement → Prop
  | .represented id _ =>
    ∀ sessionId mobile, s.calls.get? id = some (.representing sessionId mobile) →
      s.MayLive sessionId
  | .inserted id sessionId _ =>
    ∀ ownerId url profileName mobile,
      s.calls.get? id = some (.inserting ownerId url profileName mobile) →
        s.rows.get? sessionId = none → s.Alone sessionId ownerId
  | .startSucceeded id _ _ _ _ _ =>
    ∀ sessionId migration, s.calls.get? id = some (.starting sessionId migration) →
      s.MayLive sessionId ∧ ((s.rows.get? sessionId).isSome = true → sessionId ∉ s.condemned)
  | _ => True

/-- The sessions that are being reaped are not a user's. -/
def ReapsAgents (s : SessionTable) : Prop :=
  ∀ id ids, s.calls.get? id = some (.reaping ids) →
    ∀ sessionId ∈ ids, ∃ r, s.rows.get? sessionId = some r ∧ r.ownerType ≠ "user"

/-- The owner of a session stays. -/
theorem ownerType_of_step (hstep : s.step e = some s') {r : Session}
    (hget : s.rows.get? sessionId = some r) :
    ∃ r', s'.rows.get? sessionId = some r' ∧ r'.ownerType = r.ownerType := by
  have hupdate : ∀ ids f, (∀ r : Session, (f r).ownerType = r.ownerType) →
      ∃ r', (s.update ids f).rows.get? sessionId = some r' ∧ r'.ownerType = r.ownerType := by
    intro ids f hf
    refine ⟨if sessionId ∈ ids then f r else r, ?_, ?_⟩
    · rw [get?_update, hget]
      rfl
    · split
      · exact hf r
      · rfl
  have hset : ∀ id new, (s.rows.get? id).isSome = false →
      ∃ r', (s.rows.set id new).get? sessionId = some r' ∧ r'.ownerType = r.ownerType := by
    intro id new hfresh
    have hne : id ≠ sessionId := by
      rintro rfl
      simp [hget] at hfresh
    exact ⟨r, by rw [Dict.get?_set_of_ne _ _ hne]; exact hget, rfl⟩
  cases e with
  | agentCreated id ownerType ownerId url profileName mobile now =>
    simp only [step] at hstep
    split at hstep
    · contradiction
    rename_i hfresh
    cases hstep
    exact hset id _ (by simpa using (not_or.mp hfresh).2)
  | inserted id newId now =>
    simp only [step] at hstep
    split at hstep
    · split at hstep
      · contradiction
      · rename_i hfresh
        cases hstep
        exact hset newId _ (by simpa using hfresh)
    · contradiction
  | _ =>
    simp only [step] at hstep
    repeat' split at hstep
    all_goals first
      | contradiction
      | (cases hstep; first | exact ⟨r, hget, rfl⟩ | exact hupdate _ _ fun _ => rfl)

theorem reapsAgents_step (h : s.ReapsAgents) (hstep : s.step e = some s') : s'.ReapsAgents := by
  intro id ids hcall sessionId hmem
  have hold : ∃ r, s.rows.get? sessionId = some r ∧ r.ownerType ≠ "user" := by
    rcases reaping_of_step hstep hcall with hcall | ⟨cutoff, rfl⟩
    · exact h id ids hcall sessionId hmem
    · simp only [stale, List.mem_map, List.mem_filter, decide_eq_true_eq, Prod.exists] at hmem
      obtain ⟨_, r, ⟨hentry, _, huser, _⟩, rfl⟩ := hmem
      exact ⟨r, Dict.mem_entries_iff.mp hentry, huser⟩
  obtain ⟨r, hget, huser⟩ := hold
  obtain ⟨r', hget', howner⟩ := ownerType_of_step hstep hget
  exact ⟨r', hget', howner ▸ huser⟩

/-- What every state of an orderly run has. -/
structure Sound (s : SessionTable) : Prop where
  kept : s.Kept
  reaps : s.ReapsAgents

theorem sound_init : init.Sound where
  kept := by
    refine ⟨?_, nofun⟩
    rintro sessionId ownerId ⟨r, hget, _⟩
    contradiction
  reaps := nofun

/-- A status that is neither live nor running keeps both rules. -/
theorem kept_withStatus (h : s.Kept) (ids : List String)
    {status : SessionStatus} (hstatus : status.isLive = false) (now : ℚ) :
    (s.update ids (.withStatus status now)).Kept := by
  refine ⟨oneLive_withStatus h.1 ids hstatus now, notRevived_update h.2 ids ?_⟩
  rintro r hrunning
  have hstatus' : status = .running := hrunning
  rw [hstatus'] at hstatus
  contradiction

theorem kept_agentCreated (h : s.Kept) {ownerType ownerId url profileName : String} {mobile : Bool}
    (hstep : s.step (.agentCreated sessionId ownerType ownerId url profileName mobile now)
      = some s') : s'.Kept := by
  simp only [step] at hstep
  split at hstep
  · contradiction
  rename_i hnot
  cases hstep
  constructor
  · apply oneLive_mono h.1
    rintro id owner ⟨r, hget, hlive⟩
    rcases Dict.get?_set_cases hget with ⟨_, rfl⟩ | ⟨_, hold⟩
    · exact absurd (Or.inl hlive.1) hnot
    · exact ⟨r, hold, hlive⟩
  · intro id hmem r hget
    rcases Dict.get?_set_cases hget with ⟨_, rfl⟩ | ⟨_, hold⟩
    · nofun
    · exact h.2 id hmem r hold

theorem kept_represented_iff (h : s.Kept) (hstep : s.step (.represented id now) = some s') :
    s'.Kept ↔ s.Orderly (.represented id now) := by
  simp only [step] at hstep
  split at hstep
  · rename_i sessionId mobile hcall
    cases hstep
    have hlive : (s.update [sessionId] (.represent mobile now)).OneLive ↔ s.MayLive sessionId :=
      oneLive_update_iff h.1 sessionId (fun _ => rfl) fun _ => ⟨rfl, rfl⟩
    constructor
    · intro hkept sessionId' mobile' hcall'
      rw [hcall] at hcall'
      cases hcall'
      exact hlive.mp hkept.1
    · intro horderly
      have hpending : ∀ r, (Session.represent mobile now r).status ≠ .running := by
        intro r hrunning
        contradiction
      exact ⟨hlive.mpr (horderly sessionId mobile hcall), notRevived_update h.2 _ hpending⟩
  · contradiction

theorem kept_inserted_iff (h : s.Kept) {newId : String}
    (hstep : s.step (.inserted id newId now) = some s') :
    s'.Kept ↔ s.Orderly (.inserted id newId now) := by
  simp only [step] at hstep
  split at hstep
  · rename_i ownerId url profileName mobile hcall
    split at hstep
    · contradiction
    rename_i hfresh
    cases hstep
    have hnone : s.rows.get? newId = none := by simpa using hfresh
    have hlive := oneLive_create_iff h.1 hnone ownerId url profileName mobile now
    constructor
    · intro hkept ownerId' _ _ _ hcall' _
      rw [hcall] at hcall'
      cases hcall'
      exact hlive.mp hkept.1
    · intro horderly
      refine ⟨hlive.mpr (horderly ownerId url profileName mobile hcall hnone), ?_⟩
      intro sessionId hmem r hget
      rcases Dict.get?_set_cases hget with ⟨_, rfl⟩ | ⟨_, hold⟩
      · nofun
      · exact h.2 sessionId hmem r hold
  · contradiction

theorem kept_startSucceeded_iff (h : s.Kept)
    {node containerId nekoUrl : String} {cdpUrl : Option String}
    (hstep : s.step (.startSucceeded id node containerId nekoUrl cdpUrl now) = some s') :
    s'.Kept ↔ s.Orderly (.startSucceeded id node containerId nekoUrl cdpUrl now) := by
  simp only [step] at hstep
  split at hstep
  · rename_i sessionId migration hcall
    cases hstep
    let f := Session.markRunning node containerId nekoUrl cdpUrl now
    have hlive : (s.update [sessionId] f).OneLive ↔ s.MayLive sessionId :=
      oneLive_update_iff h.1 sessionId (fun _ => rfl) fun _ => ⟨rfl, rfl⟩
    have hrunning := notRevived_running_iff h.2 sessionId (f := f) fun _ => rfl
    constructor
    · intro hkept sessionId' migration' hcall'
      rw [hcall] at hcall'
      cases hcall'
      exact ⟨hlive.mp hkept.1, hrunning.mp hkept.2⟩
    · intro horderly
      obtain ⟨hmay, hnot⟩ := horderly sessionId migration hcall
      exact ⟨hlive.mpr hmay, hrunning.mpr hnot⟩
  · contradiction

theorem kept_terminated (h : s.Kept) (hstep : s.step (.terminated id now) = some s') : s'.Kept := by
  simp only [step] at hstep
  split at hstep
  · rename_i sessionId hcall
    cases hstep
    have hkept : (s.update [sessionId] (.withStatus .stopped now)).Kept :=
      kept_withStatus h [sessionId] rfl now
    refine ⟨hkept.1, ?_⟩
    intro id' hmem r hget
    by_cases hself : id' = sessionId
    · obtain ⟨r', _, ⟨_, rfl⟩ | ⟨hnot, _⟩⟩ := get?_update_cases hget
      · nofun
      · exact absurd (List.mem_singleton.mpr hself) hnot
    · apply hkept.2 id' ?_ r hget
      split at hmem
      · exact (List.mem_cons.mp hmem).resolve_left hself
      · exact hmem
  · contradiction

theorem kept_reaped (h : s.Sound) (hstep : s.step (.reaped id now) = some s') : s'.Kept := by
  simp only [step] at hstep
  split at hstep
  · rename_i ids hcall
    cases hstep
    have hone : (s.update ids (.withStatus .idle now)).OneLive := by
      apply oneLive_update h.kept.1
      intro sessionId hmem r hget ownerId hlive
      obtain ⟨r', hget', huser⟩ := h.reaps id ids hcall sessionId hmem
      rw [hget] at hget'
      cases hget'
      exact absurd hlive.1 huser
    have hidle : ∀ r, (Session.withStatus .idle now r).status ≠ .running := by
      intro r hrunning
      contradiction
    exact ⟨hone, notRevived_update h.kept.2 ids hidle⟩
  · contradiction

/-- Which statements keep both rules. -/
theorem kept_step_iff (h : s.Sound) (hstep : s.step e = some s') : s'.Kept ↔ s.Orderly e := by
  cases e with
  | represented id now => exact kept_represented_iff h.kept hstep
  | inserted id sessionId now => exact kept_inserted_iff h.kept hstep
  | startSucceeded id node containerId nekoUrl cdpUrl now =>
    exact kept_startSucceeded_iff h.kept hstep
  | agentCreated sessionId ownerType ownerId url profileName mobile now =>
    exact iff_of_true (kept_agentCreated h.kept hstep) trivial
  | terminated id now => exact iff_of_true (kept_terminated h.kept hstep) trivial
  | reaped id now => exact iff_of_true (kept_reaped h hstep) trivial
  | _ =>
    refine iff_of_true ?_ trivial
    simp only [step] at hstep
    repeat' split at hstep
    all_goals first
      | contradiction
      | (cases hstep; first | exact h.kept | exact kept_withStatus h.kept _ rfl _)

theorem sound_step (h : s.Sound) (horderly : s.Orderly e) (hstep : s.step e = some s') : s'.Sound :=
  ⟨(kept_step_iff h hstep).mpr horderly, reapsAgents_step h.reaps hstep⟩

theorem orderly_of_none (hstep : s.step e = none) : s.Orderly e := by
  cases e with
  | represented id now =>
    intro sessionId mobile hcall
    simp [step, hcall] at hstep
  | inserted id sessionId now =>
    intro ownerId url profileName mobile hcall hfresh
    simp [step, hcall, hfresh] at hstep
  | startSucceeded id node containerId nekoUrl cdpUrl now =>
    intro sessionId migration hcall
    simp [step, hcall] at hstep
  | _ => trivial

/-- A user has one live session at most, and no start revives a session, throughout the run. -/
def KeptThroughout (es : List SessionStatement) : Prop :=
  ∀ pre post s, es = pre ++ post → run step init pre = some s → s.Kept

/-- Both rules hold throughout exactly when every session becomes live while its user has no
other live session, and running while it was not terminated during a start. -/
theorem keptThroughout_iff (es : List SessionStatement) :
    KeptThroughout es ↔ Guarded step Orderly init es := by
  unfold KeptThroughout
  rw [states_iff_everyStep sound_init.kept]
  apply everyStep_iff_guarded (I := Sound)
  · exact fun _ _ hstep => orderly_of_none hstep
  · exact fun _ _ _ h horderly hstep => sound_step h horderly hstep
  · exact fun _ _ _ h hstep => kept_step_iff h hstep
  · exact sound_init

/-- A session is terminated while its container starts. -/
def revived : List SessionStatement :=
  [.mineCalled 0 "ada" "about:blank" "default" false, .inserted 0 "s" 1, .startCalled 1 "s",
    .terminateCalled 2 "s", .terminated 2 3, .startSucceeded 1 "host" "c" "http://h:1" none 9]

/-- Two tabs of a user ask for their session at once. -/
def doubled : List SessionStatement :=
  [.mineCalled 0 "ada" "about:blank" "default" false,
    .mineCalled 1 "ada" "about:blank" "default" false, .inserted 0 "s" 1, .inserted 1 "t" 2]

/-- The terminated session is running at the end, and the user has two sessions. -/
theorem not_keptThroughout : ¬ KeptThroughout revived ∧ ¬ KeptThroughout doubled := by
  constructor
  · intro h
    have hkept := (h revived [] _ (by simp) rfl).2
    exact absurd rfl (hkept "s" (by decide) _ rfl)
  · intro h
    have hkept := (h doubled [] _ (by simp) rfl).1
    have heq := hkept "s" "ada" ⟨_, rfl, by decide⟩ "t" ⟨_, rfl, by decide⟩
    exact absurd heq (by decide)

end SessionTable

end TinyAgentOS.Browser
