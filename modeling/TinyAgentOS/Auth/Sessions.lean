import TinyAgentOS.Auth.Accounts

/-!
# Sessions and their owners

Logins, deletions, resets, revocations, lookups and requests run side by side.
Each is a task that goes from one access of the account file or the session file
to the next; the accesses are atomic, and the account lock and the hash-upgrade
lock are held between the accesses the source holds them between.

A lookup resolves a token in two accesses: it validates the session and then
looks its user up, with the first user as the fallback.

Main results:

- Definition `SessionState.step`: one access of one task.
- Definitions `Speaks` and `Orderly`: a session speaks only for its owner, and the order of
  accesses that keeps it so.
-/

namespace TinyAgentOS.Auth

open Collections Transition

/-- Readings of `time.time()`. -/
abbrev Instant := Int

abbrev Token := String

/-! ## The session file -/

/-- A session; a legacy entry is a bare expiry. -/
inductive SessionEntry where
  | legacy (expiresAt : Instant)
  | owned (userId : String) (expiresAt : Instant) (longLived : Bool)
      (userAgentHash : Option String)

abbrev SessionFile := Dict Token SessionEntry

namespace SessionEntry

/-- The owner of a session; empty for a session without one. -/
def userId : SessionEntry → String
  | legacy _ => ""
  | owned userId _ _ _ => userId

def expiresAt : SessionEntry → Instant
  | legacy expiresAt => expiresAt
  | owned _ expiresAt _ _ => expiresAt

def userAgentHash : SessionEntry → Option String
  | legacy _ => none
  | owned _ _ _ userAgentHash => userAgentHash

/-- Entries `_prune_expired` keeps; legacy ones are left to the validation. -/
def unpruned (now : Instant) : SessionEntry → Bool
  | legacy _ => true
  | owned _ expiresAt _ _ => now < expiresAt

end SessionEntry

/-- `_load`. -/
def loadSessions (sessions : SessionFile) (now : Instant) : SessionFile :=
  sessions.filterValues (SessionEntry.unpruned now)

/-- `__setitem__`. -/
def setSession (sessions : SessionFile) (token : Token) (entry : SessionEntry)
    (now : Instant) : SessionFile :=
  loadSessions ((loadSessions sessions now).set token entry) now

/-- `pop`. -/
def popSession (sessions : SessionFile) (token : Token) (now : Instant) : SessionFile :=
  loadSessions ((loadSessions sessions now).pop token) now

/-- A text that is neither absent nor empty. -/
def nonEmpty (text : Option String) : Option String :=
  text.filter fun s => s ≠ ""

/-- `validate_session`: the owner of a valid session, and the file after it. -/
def validateSession (env : AuthEnv) (sessions : SessionFile) (token : Token)
    (userAgent : Option String) (now : Instant) : SessionFile × Option String :=
  match (loadSessions sessions now).get? token with
  | none => (sessions, none)
  | some entry =>
    if entry.expiresAt ≤ now then (popSession sessions token now, none)
    else
      match nonEmpty entry.userAgentHash, nonEmpty userAgent with
      | some stored, some agent =>
        (sessions, if stored = env.sha256Hex agent then some entry.userId else none)
      | _, _ => (sessions, some entry.userId)

/-- The tokens `revoke_user_sessions` collects. -/
def sessionsOf (sessions : SessionFile) (userId : String) (now : Instant) : List Token :=
  ((loadSessions sessions now).entries.filter fun e => e.2.userId = userId).map Prod.fst

/-! ## Public profiles -/

/-- `_public_user`, or the profile of an install without user records. -/
structure PublicUser where
  id : String
  username : String
  fullName : String
  email : String
  isAdmin : Bool
  pending : Bool
  lastLoginAt : Option Clock
  createdAt : Option Clock
  capabilities : List String
  legacy : Bool
deriving DecidableEq

/-- The capabilities of a record; one that predates them gets defaults. -/
def capabilitiesOf (users : List UserRecord) (u : UserRecord) : List String :=
  match u.capabilities with
  | some caps => caps
  | none =>
    let isPrimary := users.head?.any fun first => first.id = u.id
    if isPrimary || u.isAdmin then defaultCapsForAdmin else defaultCapsForNewUser

/-- `_public_user`, with the users it reads for a record without capabilities. -/
def publicUser (users : List UserRecord) (u : UserRecord) : PublicUser where
  id := u.id
  username := u.username
  fullName := u.fullName.getD ""
  email := u.email.getD ""
  isAdmin := u.isAdmin
  pending := u.pendingInvite.isSome
  lastLoginAt := u.lastLoginAt
  createdAt := u.createdAt
  capabilities := capabilitiesOf users u
  legacy := false

/-- The profile of the legacy single-password install. -/
def legacyProfile : PublicUser := ⟨"", "admin", "", "", false, false, none, none, [], true⟩

/-! ## Tasks -/

/-- The administrator's operations that revoke sessions. -/
inductive AdminOp where
  | deleteUser
  | resetPassword (code : String) (at_ : Clock)

/-- The two lookups. -/
inductive LookupKind where
  | sessionUser
  | getUser
deriving DecidableEq

/-- Arguments of the session a login creates. -/
structure SessionArgs where
  longLived : Bool
  userAgent : Option String

/-- What a task does next. A lookup carries the user its token was created for, if any. -/
inductive Task where
  | loginCheck (password : String) (username : Option String) (salt : String)
      (args : SessionArgs)
  | loginUpgrade (u : UserRecord) (newHash : String) (args : SessionArgs)
  | loginRewrite (u : UserRecord) (newHash : String) (data : UserStore) (args : SessionArgs)
  | loginCreate (userId : String) (args : SessionArgs)
  | adminCheck (op : AdminOp) (username byAdmin : String)
  | adminRead (op : AdminOp) (username byAdmin : String)
  | deleteSnapshot (target : UserRecord) (data : UserStore)
  | deletePop (target : UserRecord) (tokens : List Token) (data : UserStore)
  | resetWrite (userId : String) (data : UserStore)
  | revokeUser (userId : String) (underLock : Bool)
  | revokePop (tokens : List Token) (underLock : Bool)
  | revokeSession (token : Token)
  | lookup (kind : LookupKind) (token : Token)
  | lookupFind (owner : Option String) (userId : String)
  | lookupProject (owner : Option String) (record : UserRecord)
  | lookupFallback (owner : Option String)
  | request (token : Token) (userAgent : Option String)
  | requestFind (userId : String)

namespace Task

/-- The tasks a caller can start. -/
def initial : Task → Bool
  | loginCheck _ _ _ _ => true
  | adminCheck _ _ _ => true
  | revokeUser _ underLock => !underLock
  | revokeSession _ => true
  | lookup _ _ => true
  | request _ _ => true
  | _ => false

/-- The tasks that hold the account lock. -/
def holdsUsers : Task → Bool
  | adminRead _ _ _ => true
  | deleteSnapshot _ _ => true
  | deletePop _ _ _ => true
  | resetWrite _ _ => true
  | revokeUser _ underLock => underLock
  | revokePop _ underLock => underLock
  | _ => false

/-- The tasks that hold the hash-upgrade lock. -/
def holdsUpgrade : Task → Bool
  | loginRewrite _ _ _ _ => true
  | _ => false

/-- The user a lookup or request has validated a session of. -/
def validated : Task → Option String
  | lookupFind _ userId => some userId
  | lookupProject _ record => some record.id
  | requestFind userId => some userId
  | _ => none

/-- The user a deletion has collected the sessions of. -/
def collecting : Task → Option String
  | deletePop target _ _ => some target.id
  | _ => none

end Task

/-- What a lookup returned, for whom the session was created, and who was deleted then. -/
structure Answer where
  owner : Option String
  result : Option PublicUser
  deleted : List String
deriving DecidableEq

/-- A request let through on a session, and who was deleted then. -/
structure Pass where
  userId : String
  isAdmin : Bool
  deleted : List String
deriving DecidableEq

/-- The two files, the tasks in flight, and the history the claim speaks about. -/
structure SessionState where
  clock : Instant
  accounts : AccountFile
  sessions : SessionFile
  tasks : Dict Nat Task
  created : Dict Token String
  deleted : List String
  answers : List Answer
  passes : List Pass

/-- Whom the sessions of a file were created for. -/
def ownersOf (sessions : SessionFile) : Dict Token String :=
  (sessions.filterValues fun e => e.userId ≠ "").mapValues SessionEntry.userId

/-- Nobody has called yet. -/
def SessionState.init (clock : Instant) (accounts : AccountFile) (sessions : SessionFile) :
    SessionState :=
  ⟨clock, accounts, sessions, Dict.empty, ownersOf sessions, [], [], []⟩

/-- The fixed surroundings: the hash functions, the lifetimes and the legacy password. -/
structure SessionParams where
  env : AuthEnv
  sessionTtl : Instant
  longSessionTtl : Instant
  passwordFileExists : Bool

/-- The entry `create_session` writes. -/
def newEntry (p : SessionParams) (userId : String) (args : SessionArgs) (now : Instant) :
    SessionEntry :=
  .owned userId (now + if args.longLived then p.longSessionTtl else p.sessionTtl) args.longLived
    ((nonEmpty args.userAgent).map p.env.sha256Hex)

/-- May this caller act on this user? -/
def adminMay (users : List UserRecord) (username byAdmin : String) : Bool :=
  (users.find? (hasName byAdmin)).any fun caller => caller.isAdmin && username ≠ byAdmin

/-- The reset of a user that is not malformed: the id and the store to write. -/
def resetUsers (data : UserStore) (username byAdmin code : String) (now : Clock) :
    Option (String × UserStore) :=
  match data.users.find? (hasName username) with
  | none => none
  | some u =>
    if u.passwordHash = none ∧ u.pendingInvite = none then none
    else
      some (u.id,
        { data with
          users := updateFirst (hasName username) (resetRecord code byAdmin now) data.users })

namespace SessionState

def usersLocked (s : SessionState) : Bool := s.tasks.values.any Task.holdsUsers

def upgradeLocked (s : SessionState) : Bool := s.tasks.values.any Task.holdsUpgrade

/-- Record the return of a lookup. -/
def answer (s : SessionState) (owner : Option String) (result : Option PublicUser) :
    SessionState :=
  { s with answers := s.answers ++ [⟨owner, result, s.deleted⟩] }

/-- A login from its verification to the new session. -/
def login (p : SessionParams) (s : SessionState) (now : Instant) (fresh : Token) :
    Task → Option (SessionState × Option Task)
  | .loginCheck password username salt args =>
    match readUsers s.accounts with
    | .error _ => some (s, none)
    | .ok data =>
      if data.users = [] then some (s, none)
      else
        match loginDecision p.env password username salt data.users with
        | .accepted u => some (s, some (.loginCreate u.id args))
        | .upgrade u newHash => some (s, some (.loginUpgrade u newHash args))
        | _ => some (s, none)
  | .loginUpgrade u newHash args =>
    if s.upgradeLocked then none
    else
      match readUsers s.accounts with
      | .error _ => some (s, none)
      | .ok data => some (s, some (.loginRewrite u newHash data args))
  | .loginRewrite u newHash data args =>
    some
      ({ s with accounts := .present { data with users := upgradeHash u.id newHash data.users } },
        some (.loginCreate u.id args))
  | .loginCreate userId args =>
    if userId = "" then some (s, none)
    else if fresh = "" ∨ (s.sessions.get? fresh).isSome ∨ (s.created.get? fresh).isSome then none
    else
      some
        ({ s with
            sessions := setSession s.sessions fresh (newEntry p userId args now) now
            created := s.created.set fresh userId },
          none)
  | _ => none

/-- The administrator's operations. -/
def admin (s : SessionState) (now : Instant) : Task → Option (SessionState × Option Task)
  | .adminCheck op username byAdmin =>
    if s.usersLocked then none
    else
      match readUsers s.accounts with
      | .error _ => some (s, none)
      | .ok data =>
        if adminMay data.users username byAdmin then
          some (s, some (.adminRead op username byAdmin))
        else some (s, none)
  | .adminRead .deleteUser username _ =>
    match readUsers s.accounts with
    | .error _ => some (s, none)
    | .ok data =>
      match deletedUsers data.users username with
      | .error _ => some (s, none)
      | .ok (target, _) => some (s, some (.deleteSnapshot target data))
  | .adminRead (.resetPassword code at_) username byAdmin =>
    match readUsers s.accounts with
    | .error _ => some (s, none)
    | .ok data =>
      match resetUsers data username byAdmin code at_ with
      | none => some (s, none)
      | some (userId, data') => some (s, some (.resetWrite userId data'))
  | .deleteSnapshot target data =>
    some (s, some (.deletePop target (sessionsOf s.sessions target.id now) data))
  | .deletePop target (token :: tokens) data =>
    some
      ({ s with sessions := popSession s.sessions token now },
        some (.deletePop target tokens data))
  | .deletePop target [] data =>
    some
      ({ s with
          accounts :=
            .present
              { data with users := data.users.filter fun u => u.username ≠ target.username }
          deleted := target.id :: s.deleted },
        none)
  | .resetWrite userId data =>
    some ({ s with accounts := .present data }, some (.revokeUser userId true))
  | _ => none

/-- The revocations. -/
def revoke (s : SessionState) (now : Instant) : Task → Option (SessionState × Option Task)
  | .revokeUser userId underLock =>
    some (s, some (.revokePop (sessionsOf s.sessions userId now) underLock))
  | .revokePop (token :: tokens) underLock =>
    some ({ s with sessions := popSession s.sessions token now },
      some (.revokePop tokens underLock))
  | .revokePop [] _ => some (s, none)
  | .revokeSession token => some ({ s with sessions := popSession s.sessions token now }, none)
  | _ => none

/-- `session_user` and `get_user`. -/
def find (p : SessionParams) (s : SessionState) (now : Instant) :
    Task → Option (SessionState × Option Task)
  | .lookup kind token =>
    -- Only `get_user` takes an empty token for no token.
    let checked :=
      if token = "" ∧ kind = .getUser then (s.sessions, none)
      else validateSession p.env s.sessions token none now
    let s' := { s with sessions := checked.1 }
    let owner := s.created.get? token
    match checked.2, kind with
    | none, .sessionUser => some (s'.answer owner none, none)
    | none, .getUser => some (s', some (.lookupFallback owner))
    | some userId, _ =>
      if userId = "" then some (s', some (.lookupFallback owner))
      else some (s', some (.lookupFind owner userId))
  | .lookupFind owner userId =>
    match readUsers s.accounts with
    | .error _ => some (s, none)
    | .ok data =>
      match data.users.find? fun u => u.id = userId with
      | some record => some (s, some (.lookupProject owner record))
      | none => some (s, some (.lookupFallback owner))
  | .lookupProject owner record =>
    if record.capabilities.isSome then
      some (s.answer owner (some (publicUser [] record)), none)
    else
      match readUsers s.accounts with
      | .error _ => some (s, none)
      | .ok data => some (s.answer owner (some (publicUser data.users record)), none)
  | .lookupFallback owner =>
    match readUsers s.accounts with
    | .error _ => some (s, none)
    | .ok data =>
      match data.users with
      | first :: _ => some (s, some (.lookupProject owner first))
      | [] =>
        some (s.answer owner (if p.passwordFileExists then some legacyProfile else none),
          none)
  | _ => none

/-- The session cookie branch of the middleware. -/
def serve (p : SessionParams) (s : SessionState) (now : Instant) :
    Task → Option (SessionState × Option Task)
  | .request token userAgent =>
    if token = "" then some (s, none)
    else
      let checked := validateSession p.env s.sessions token userAgent now
      let s' := { s with sessions := checked.1 }
      match checked.2 with
      | none => some (s', none)
      | some userId => some (s', some (.requestFind userId))
  | .requestFind userId =>
    match readUsers s.accounts with
    | .error _ => some (s, none)
    | .ok data =>
      let isAdmin := (data.users.find? fun u => u.id = userId).any UserRecord.isAdmin
      some ({ s with passes := s.passes ++ [⟨userId, isAdmin, s.deleted⟩] }, none)
  | _ => none

/-- The next access of a task: the state after it and what is left. -/
def act (p : SessionParams) (s : SessionState) (now : Instant) (fresh : Token) (task : Task) :
    Option (SessionState × Option Task) :=
  match task with
  | .loginCheck .. | .loginUpgrade .. | .loginRewrite .. | .loginCreate .. =>
    s.login p now fresh task
  | .adminCheck .. | .adminRead .. | .deleteSnapshot .. | .deletePop .. | .resetWrite .. =>
    s.admin now task
  | .revokeUser .. | .revokePop .. | .revokeSession .. => s.revoke now task
  | .lookup .. | .lookupFind .. | .lookupProject .. | .lookupFallback .. => s.find p now task
  | .request .. | .requestFind .. => s.serve p now task

/-- Put a task back, or drop it when it is over. -/
def putTask (s : SessionState) (i : Nat) : Option Task → SessionState
  | some task => { s with tasks := s.tasks.set i task }
  | none => { s with tasks := s.tasks.pop i }

end SessionState

/-- A caller starts a task, or a task makes its next access; a new session draws a token. -/
inductive SessionEvent where
  | start (i : Nat) (task : Task)
  | advance (i : Nat) (now : Instant) (fresh : Token)

namespace SessionState

/-- One event.  The clock never goes back. -/
def step (p : SessionParams) (s : SessionState) : SessionEvent → Option SessionState
  | .start i task =>
    if task.initial ∧ s.tasks.get? i = none then some { s with tasks := s.tasks.set i task }
    else none
  | .advance i now fresh =>
    if now < s.clock then none
    else
      match s.tasks.get? i with
      | none => none
      | some task =>
        match { s with clock := now }.act p now fresh task with
        | none => none
        | some (s', rest) => some (s'.putTask i rest)

/-! ## The property and the condition -/

/-- The id and username of a record. -/
def keyOf (u : UserRecord) : String × String := (u.id, u.username)

/-- The ids and usernames in the account file. -/
def keysOf (file : AccountFile) : List (String × String) := (usersOf file).map keyOf

/-- The user has a record. -/
def Exists (file : AccountFile) (userId : String) : Prop :=
  ∃ u ∈ usersOf file, u.id = userId

instance (file : AccountFile) (userId : String) : Decidable (Exists file userId) :=
  inferInstanceAs (Decidable (∃ u ∈ usersOf file, u.id = userId))

/-- Ids and usernames are distinct, and no id is empty. -/
structure WellFormed (keys : List (String × String)) : Prop where
  ids : (keys.map Prod.fst).Nodup
  usernames : (keys.map Prod.snd).Nodup
  nonempty : ∀ k ∈ keys, k.1 ≠ ""

/-- Lookups with a session created for a user return that user or nothing, and nothing once
the user is deleted; no request passes on a session of a deleted user. -/
structure Speaks (s : SessionState) : Prop where
  answers : ∀ a ∈ s.answers, ∀ u, a.owner = some u → ∀ profile, a.result = some profile →
    profile.id = u ∧ u ∉ a.deleted
  passes : ∀ q ∈ s.passes, q.userId ∉ q.deleted

/-- What a task's next access needs from the others. -/
def TaskOrderly (p : SessionParams) (s : SessionState) (now : Instant) : Task → Prop
  | .loginCreate userId _ =>
    userId = "" ∨
      Exists s.accounts userId ∧ ∀ task ∈ s.tasks.values, task.collecting ≠ some userId
  | .loginRewrite _ _ data _ => readUsers s.accounts = .ok data
  | .deletePop target [] _ => ∀ task ∈ s.tasks.values, task.validated ≠ some target.id
  | .lookup .getUser token =>
    (s.created.get? token).isSome → (validateSession p.env s.sessions token none now).2.isSome
  | _ => True

instance (p : SessionParams) (s : SessionState) (now : Instant) (task : Task) :
    Decidable (TaskOrderly p s now task) := by
  unfold TaskOrderly
  split <;> infer_instance

/-- A session is created only for a user with a record whose deletion has not collected its
sessions; an upgrade finds the file as it re-read it; a deletion does not remove a record
between a validation and its lookup; `get_user` gets a live session. -/
def Orderly (p : SessionParams) (s : SessionState) : SessionEvent → Prop
  | .start _ _ => True
  | .advance i now _ => ∀ task, s.tasks.get? i = some task → TaskOrderly p s now task

instance (p : SessionParams) (s : SessionState) (event : SessionEvent) :
    Decidable (Orderly p s event) :=
  match event with
  | .start _ _ => isTrue trivial
  | .advance i now _ =>
    match h : s.tasks.get? i with
    | none => isTrue fun _ hget => by simp [h] at hget
    | some task =>
      decidable_of_iff (TaskOrderly p s now task)
        ⟨fun ht _ hget => by cases h.symm.trans hget; exact ht, fun ht => ht task h⟩

/-- Every session with an owner has a token and an owner with a record. -/
def Owned (accounts : AccountFile) (sessions : SessionFile) : Prop :=
  ∀ token e, sessions.get? token = some e → e.userId ≠ "" →
    token ≠ "" ∧ Exists accounts e.userId

end SessionState

end TinyAgentOS.Auth
