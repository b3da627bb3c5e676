import Mathlib.Tactic
import TinyAgentOS.Library.Transactions

/-!
# The account store and its operations

The account store is one JSON file.  Every operation is a program that reads the
file, edits the parsed records and may rewrite the file; most hold the account
lock for their whole length, a login holds none while it verifies and another
one while it upgrades a legacy hash, and the last-login stamp holds none at all.

Random draws and clock readings are arguments; the hash functions and the case
folding are the parameters of an environment.  The legacy password file and the
sessions are not part of the account store: an operation's result carries what
it writes to the one, and the other has its own module.

Main results:

- `programs_locked`: the operations that hold the account lock.
- `login_keeps`: what a login may change in the file it finds.
-/

namespace TinyAgentOS.Auth

open Transactions

/-- Readings of `int(time.time())`. -/
abbrev Clock := Int

/-! ## Records -/

/-- A user record; a pending user has an invite code instead of a password hash. -/
structure UserRecord where
  id : String
  username : String
  fullName : Option String
  email : Option String
  passwordHash : Option String
  createdAt : Option Clock
  lastLoginAt : Option Clock
  isAdmin : Bool
  capabilities : Option (List String)
  pendingInvite : Option String
  invitedAt : Option Clock
  invitedBy : Option String
deriving DecidableEq

/-- The parsed account store. -/
structure UserStore where
  users : List UserRecord
  currentUserId : Option String
deriving DecidableEq

/-- The account file. -/
inductive AccountFile where
  | missing
  | unreadable (reason : String)
  | present (data : UserStore)
deriving DecidableEq

/-- Exceptions of the operations. -/
inductive AuthError where
  | valueError (message : String)
  | storeCorrupt (reason : String)
  | typeError
deriving DecidableEq

/-- `_read_users`: only a missing file reads as an empty store. -/
def readUsers : AccountFile → Except AuthError UserStore
  | .missing => .ok ⟨[], none⟩
  | .unreadable reason => .error (.storeCorrupt reason)
  | .present data => .ok data

/-- The hash functions and the case folding. -/
structure AuthEnv where
  argon2Hash : String → String → String
  argon2Verify : String → String → Bool
  needsRehash : String → Bool
  sha256Hex : String → String
  lower : String → String

/-- Capabilities of administrators and of new users. -/
def defaultCapsForAdmin : List String :=
  ["chat", "agent.shell", "agent.terminal", "agent.dashboard"]

def defaultCapsForNewUser : List String := ["chat"]

/-- Change the first element a test selects. -/
def updateFirst {α : Type} (selects : α → Bool) (f : α → α) : List α → List α
  | [] => []
  | x :: xs => if selects x then f x :: xs else x :: updateFirst selects f xs

/-! ## Passwords -/

/-- `_hash_password_sha256`. -/
def hashPasswordSha256 (env : AuthEnv) (password salt : String) : String :=
  salt ++ ":" ++ env.sha256Hex (salt ++ ":" ++ password)

/-- The text before the first colon of a legacy hash. -/
def legacySalt (stored : String) : Option String :=
  if ':' ∈ stored.toList then
    some (String.ofList (stored.toList.takeWhile fun c => c ≠ ':'))
  else none

/-- `verify_password`. -/
def verifyPassword (env : AuthEnv) (password stored : String) : Bool :=
  if "$argon2".toList <+: stored.toList then env.argon2Verify stored password
  else
    match legacySalt stored with
    | none => false
    | some salt => hashPasswordSha256 env password salt = stored

/-- `verify_and_maybe_rehash`; the salt is the one a fresh hash would draw. -/
def verifyAndMaybeRehash (env : AuthEnv) (password stored salt : String) :
    Bool × Option String :=
  if "$argon2".toList <+: stored.toList then
    if env.argon2Verify stored password then
      (true, if env.needsRehash stored then some (env.argon2Hash salt password) else none)
    else (false, none)
  else if verifyPassword env password stored then (true, some (env.argon2Hash salt password))
  else (false, none)

/-! ## Calls -/

/-- The two locks: the account store's and the hash upgrade's. -/
inductive AuthLock where
  | users
  | hashUpgrade
deriving DecidableEq

/-- What a call returns; a legacy password is written to a file of its own. -/
inductive AuthResult where
  | raised (error : AuthError)
  | user (record : UserRecord)
  | code (code : String)
  | name (username : String)
  | legacyPassword (passwordHash : String)
  | flag (ok : Bool)
  | login (ok : Bool) (record : Option UserRecord) (legacyUpgrade : Option String)
  | unit

/-- The calls, with the draws and clock readings they make. -/
inductive AccountCall where
  | setupUser (username fullName email password : String) (id salt : String) (now : Clock)
  | addUserInvite (username invitedBy : String) (code id : String) (now : Clock)
  | completeInvite (username inviteCode fullName email password : String) (salt : String)
      (now : Clock)
  | adminResetPassword (username byAdmin : String) (code : String) (now : Clock)
  | recoverPassword (newPassword : String) (username : Option String) (salt : String)
  | changePassword (username currentPassword newPassword : String) (salt : String)
  | updateProfile (username : String) (fullName email : Option String)
  | deleteUser (username byAdmin : String)
  | updateLastLogin (userId : String) (now : Clock)
  | checkPassword (password : String) (username : Option String) (salt : String)
      (legacyFile : Option String)
deriving DecidableEq

/-- The calls a login makes. -/
def AccountCall.isLogin : AccountCall → Bool
  | .updateLastLogin _ _ => true
  | .checkPassword _ _ _ _ => true
  | _ => false

abbrev AccountTxn := Txn AccountFile AuthResult AuthLock

/-- Stop with a `ValueError`. -/
def raise (message : String) : AccountTxn := .done (.raised (.valueError message))

/-- Read the store, or let the exception through. -/
def withUsers (next : UserStore → AccountTxn) : AccountTxn :=
  .read fun file =>
    match readUsers file with
    | .error e => .done (.raised e)
    | .ok data => next data

/-- Rewrite the records and return. -/
def writeUsers (data : UserStore) (users : List UserRecord) (result : AuthResult) : AccountTxn :=
  .write (.present { data with users := users }) result

def notFound (username : String) : AccountTxn :=
  raise ("user '" ++ username ++ "' not found")

def hasName (username : String) (u : UserRecord) : Bool := u.username = username

/-- Shortest password an account accepts. -/
def minPasswordLength : Nat := 8

def tooShort : String := "password must be at least 8 characters"

/-- The record `complete_invite` leaves. -/
def activatedRecord (fullName email passwordHash : String) (now : Clock) (u : UserRecord) :
    UserRecord :=
  { u with
    pendingInvite := none
    invitedAt := none
    invitedBy := none
    fullName := some fullName
    email := some email
    passwordHash := some passwordHash
    createdAt := some now
    capabilities := some defaultCapsForNewUser }

/-- The record `admin_reset_password` leaves: pending again, without a hash. -/
def resetRecord (code byAdmin : String) (now : Clock) (u : UserRecord) : UserRecord :=
  { u with
    passwordHash := none
    pendingInvite := some code
    invitedAt := some now
    invitedBy := some byAdmin }

/-- The bodies that run under the account lock. -/
def setupUser (env : AuthEnv) (username fullName email password id salt : String) (now : Clock) :
    AccountTxn :=
  withUsers fun data =>
    if data.users ≠ [] then raise "a user is already configured"
    else if username = "" then raise "username and password are required"
    else if password.length < minPasswordLength then raise tooShort
    else
      let record : UserRecord :=
        { id := id
          username := username
          fullName := some fullName
          email := some email
          passwordHash := some (env.argon2Hash salt password)
          createdAt := some now
          lastLoginAt := none
          isAdmin := true
          capabilities := some defaultCapsForAdmin
          pendingInvite := none
          invitedAt := none
          invitedBy := none }
      .write (.present ⟨[record], some id⟩) (.user record)

def addUserInvite (username invitedBy code id : String) (now : Clock) : AccountTxn :=
  if username = "" then raise "username is required"
  else
    withUsers fun data =>
      if data.users.any (hasName username) then
        raise ("username '" ++ username ++ "' is already taken")
      else
        let record : UserRecord :=
          { id := id
            username := username
            fullName := none
            email := none
            passwordHash := none
            createdAt := none
            lastLoginAt := none
            isAdmin := false
            capabilities := none
            pendingInvite := some code
            invitedAt := some now
            invitedBy := some invitedBy }
        writeUsers data (data.users ++ [record]) (.code code)

def completeInvite (env : AuthEnv) (username inviteCode fullName email password salt : String)
    (now : Clock) : AccountTxn :=
  if password.length < minPasswordLength then raise tooShort
  else
    withUsers fun data =>
      let invited := fun u : UserRecord =>
        u.username = username && u.pendingInvite = some inviteCode
      let activate := activatedRecord fullName email (env.argon2Hash salt password) now
      match data.users.find? invited with
      | none => raise "invalid invite code or username"
      | some u => writeUsers data (updateFirst invited activate data.users) (.user (activate u))

/-- The caller check of the administrator's operations. -/
def asAdmin (username byAdmin selfMessage : String) (next : AccountTxn) : AccountTxn :=
  withUsers fun data =>
    match data.users.find? (hasName byAdmin) with
    | none => raise "caller is not an admin"
    | some caller =>
      if caller.isAdmin = false then raise "caller is not an admin"
      else if username = byAdmin then raise selfMessage
      else next

def adminResetPassword (username byAdmin code : String) (now : Clock) : AccountTxn :=
  asAdmin username byAdmin "cannot reset your own password via admin reset" <|
    withUsers fun data =>
      match data.users.find? (hasName username) with
      | none => notFound username
      | some u =>
        if u.passwordHash = none ∧ u.pendingInvite = none then raise "user record is malformed"
        else
          writeUsers data
            (updateFirst (hasName username) (resetRecord code byAdmin now) data.users)
            (.code code)

/-- Which record `recover_password` sets. -/
def recoverTarget (users : List UserRecord) (username : Option String) :
    Except String UserRecord :=
  let known := ", ".intercalate (users.map UserRecord.username)
  match username with
  | some name =>
    match users.find? (hasName name) with
    | none => .error ("user '" ++ name ++ "' not found (known users: " ++ known ++ ")")
    | some u => .ok u
  | none =>
    match users with
    | [u] => .ok u
    | _ => .error ("multiple users exist; pass --username (one of: " ++ known ++ ")")

def recoverPassword (env : AuthEnv) (newPassword : String) (username : Option String)
    (salt : String) : AccountTxn :=
  withUsers fun data =>
    if data.users = [] then .done (.legacyPassword (env.argon2Hash salt newPassword))
    else
      match recoverTarget data.users (username.filter fun name => name ≠ "") with
      | .error message => raise message
      | .ok target =>
        writeUsers data
          (updateFirst (hasName target.username)
            (fun u =>
              { u with
                passwordHash := some (env.argon2Hash salt newPassword), pendingInvite := none })
            data.users)
          (.name target.username)

def changePassword (env : AuthEnv) (username currentPassword newPassword salt : String) :
    AccountTxn :=
  if newPassword.length < minPasswordLength then .done (.flag false)
  else
    withUsers fun data =>
      match data.users.find? (hasName username) with
      | none => .done (.flag false)
      | some u =>
        if verifyPassword env currentPassword (u.passwordHash.getD "") then
          writeUsers data
            (updateFirst (hasName username)
              (fun u => { u with passwordHash := some (env.argon2Hash salt newPassword) })
              data.users)
            (.flag true)
        else .done (.flag false)

def updateProfile (username : String) (fullName email : Option String) : AccountTxn :=
  withUsers fun data =>
    let edit := fun u : UserRecord =>
      { u with fullName := fullName.or u.fullName, email := email.or u.email }
    match data.users.find? (hasName username) with
    | none => notFound username
    | some u => writeUsers data (updateFirst (hasName username) edit data.users) (.user (edit u))

/-- The store `delete_user` leaves, or its refusal. -/
def deletedUsers (users : List UserRecord) (username : String) :
    Except String (UserRecord × List UserRecord) :=
  match users.find? (hasName username) with
  | none => .error ("user '" ++ username ++ "' not found")
  | some target =>
    if target.isAdmin && !(users.any fun u => u.isAdmin && u.username ≠ username) then
      .error "cannot delete the last admin"
    else .ok (target, users.filter fun u => u.username ≠ username)

def deleteUser (username byAdmin : String) : AccountTxn :=
  asAdmin username byAdmin "cannot delete yourself" <|
    withUsers fun data =>
      match deletedUsers data.users username with
      | .error message => raise message
      | .ok (_, users) => writeUsers data users .unit

/-! ## Logins -/

def updateLastLogin (userId : String) (now : Clock) : AccountTxn :=
  withUsers fun data =>
    if data.users.any fun u => u.id = userId then
      writeUsers data
        (updateFirst (fun u => u.id = userId) (fun u => { u with lastLoginAt := some now })
          data.users)
        .unit
    else .done .unit

/-- The records a login is tried against: by username, else by email. -/
def loginCandidates (env : AuthEnv) (users : List UserRecord) (username : Option String) :
    List UserRecord :=
  match username.filter fun name => name ≠ "" with
  | none => users
  | some name =>
    let byUsername := users.filter (hasName name)
    if byUsername ≠ [] then byUsername
    else
      users.filter fun u =>
        env.lower (u.email.getD "") = env.lower name && env.lower name ≠ ""

/-- What verifying the credentials comes to. -/
inductive LoginDecision where
  | rejected
  | failed (error : AuthError)
  | accepted (record : UserRecord)
  | upgrade (record : UserRecord) (newHash : String)

/-- One candidate; `compare_digest` takes ASCII text only. -/
def decideCandidate (env : AuthEnv) (password salt : String) (u : UserRecord) :
    Option LoginDecision :=
  match u.passwordHash with
  | some stored =>
    match verifyAndMaybeRehash env password stored salt with
    | (false, _) => none
    | (true, none) => some (.accepted u)
    | (true, some newHash) => some (.upgrade u newHash)
  | none =>
    match u.pendingInvite with
    | none => none
    | some code =>
      if ¬(code.toList ++ password.toList).all fun c => c.toNat < 128 then
        some (.failed .typeError)
      else if code = password then some (.accepted u)
      else none

/-- The first candidate that does not fall through decides. -/
def loginDecision (env : AuthEnv) (password : String) (username : Option String)
    (salt : String) (users : List UserRecord) : LoginDecision :=
  ((loginCandidates env users username).findSome? (decideCandidate env password salt)).getD
    .rejected

/-- The records after an upgrade of the hash of one id. -/
def upgradeHash (id newHash : String) (users : List UserRecord) : List UserRecord :=
  updateFirst (fun u => u.id = id) (fun u => { u with passwordHash := some newHash }) users

/-- A login without user records, against the legacy password file. -/
def checkLegacyPassword (env : AuthEnv) (password salt : String) (legacyFile : Option String) :
    AuthResult :=
  match legacyFile with
  | none => .login false none none
  | some stored =>
    match verifyAndMaybeRehash env password stored salt with
    | (true, newHash) => .login true none newHash
    | (false, _) => .login false none none

/-- The second half of an upgrading login: re-read and rewrite under the upgrade lock. -/
def rehash (u : UserRecord) (newHash : String) : AccountTxn :=
  withUsers fun data =>
    writeUsers data (upgradeHash u.id newHash data.users)
      (.login true (some { u with passwordHash := some newHash }) none)

/-- What a login does once it has verified the credentials. -/
def afterDecision : LoginDecision → AccountTxn
  | .rejected => .done (.login false none none)
  | .failed e => .done (.raised e)
  | .accepted u => .done (.login true (some u) none)
  | .upgrade u newHash => .acquire .hashUpgrade (rehash u newHash)

def checkPassword (env : AuthEnv) (password : String) (username : Option String)
    (salt : String) (legacyFile : Option String) : AccountTxn :=
  withUsers fun data =>
    if data.users ≠ [] then afterDecision (loginDecision env password username salt data.users)
    else .done (checkLegacyPassword env password salt legacyFile)

/-- The program of a call. -/
def program (env : AuthEnv) : AccountCall → AccountTxn
  | .setupUser username fullName email password id salt now =>
    .acquire .users (setupUser env username fullName email password id salt now)
  | .addUserInvite username invitedBy code id now =>
    .acquire .users (addUserInvite username invitedBy code id now)
  | .completeInvite username inviteCode fullName email password salt now =>
    .acquire .users (completeInvite env username inviteCode fullName email password salt now)
  | .adminResetPassword username byAdmin code now =>
    .acquire .users (adminResetPassword username byAdmin code now)
  | .recoverPassword newPassword username salt =>
    .acquire .users (recoverPassword env newPassword username salt)
  | .changePassword username currentPassword newPassword salt =>
    .acquire .users (changePassword env username currentPassword newPassword salt)
  | .updateProfile username fullName email =>
    .acquire .users (updateProfile username fullName email)
  | .deleteUser username byAdmin => .acquire .users (deleteUser username byAdmin)
  | .updateLastLogin userId now => updateLastLogin userId now
  | .checkPassword password username salt legacyFile =>
    checkPassword env password username salt legacyFile

/-- Every call but a login's holds the account lock for its whole length. -/
theorem programs_locked (env : AuthEnv) (c : AccountCall) (h : c.isLogin = false) :
    ∃ body, program env c = .acquire .users body := by
  cases c with
  | updateLastLogin | checkPassword => contradiction
  | _ => exact ⟨_, rfl⟩

/-! ## What a login may change -/

/-- The records a file shows. -/
def usersOf (file : AccountFile) : List UserRecord :=
  match readUsers file with
  | .ok data => data.users
  | .error _ => []

/-- The password a call presents. -/
def AccountCall.password? : AccountCall → Option String
  | .checkPassword password _ _ _ => some password
  | _ => none

/-- A record before and after a login: the hash may only be replaced when the login's
password verifies against it. -/
structure RecordKept (env : AuthEnv) (c : AccountCall) (before after : UserRecord) : Prop where
  id_eq : after.id = before.id
  username_eq : after.username = before.username
  pending_eq : after.pendingInvite = before.pendingInvite
  hash : after.passwordHash = before.passwordHash ∨ ∃ password stored,
    c.password? = some password ∧ before.passwordHash = some stored ∧
      verifyPassword env password stored = true

/-- Record by record, with no account added or removed. -/
def LoginKeeps (env : AuthEnv) (c : AccountCall) (before after : AccountFile) : Prop :=
  ((usersOf before).map UserRecord.id).Nodup →
    List.Forall₂ (RecordKept env c) (usersOf before) (usersOf after)

/-- A record that is left alone is kept. -/
theorem RecordKept.refl (env : AuthEnv) (c : AccountCall) (u : UserRecord) : RecordKept env c u u :=
  ⟨rfl, rfl, rfl, .inl rfl⟩

/-- An update relates the records as it relates the first that is selected. -/
theorem forall₂_updateFirst {α : Type} {R : α → α → Prop} {selects : α → Bool} {f : α → α}
    (hrefl : ∀ x, R x x) {xs : List α} (hf : ∀ x ∈ xs, selects x = true → R x (f x)) :
    List.Forall₂ R xs (updateFirst selects f xs) := by
  have hsame : ∀ ys : List α, List.Forall₂ R ys ys := fun ys =>
    List.forall₂_same.mpr fun x _ => hrefl x
  induction xs with
  | nil => exact .nil
  | cons x xs ih =>
    simp only [updateFirst]
    split
    · rename_i hx
      exact .cons (hf x (by simp) hx) (hsame xs)
    · exact .cons (hrefl x) (ih fun y hy => hf y (List.mem_cons_of_mem _ hy))

variable {env : AuthEnv} {salt password : String} {file : AccountFile} {data : UserStore}

variable {newHash stored : String}

/-- A password that is hashed again was verified. -/
theorem verifyPassword_of_rehash {newHash : Option String}
    (h : verifyAndMaybeRehash env password stored salt = (true, newHash)) :
    verifyPassword env password stored = true := by
  unfold verifyAndMaybeRehash at h
  split at h
  · rename_i hargon
    split at h
    · rename_i hverify
      rw [verifyPassword, if_pos hargon]
      exact hverify
    · simp at h
  · split at h
    · assumption
    · simp at h

/-- The new hash is one of the password. -/
theorem newHash_of_rehash
    (h : verifyAndMaybeRehash env password stored salt = (true, some newHash)) :
    newHash = env.argon2Hash salt password := by
  unfold verifyAndMaybeRehash at h
  repeat' split at h
  all_goals simp_all

/-- An upgrade is of a record of the store whose hash the password verifies against. -/
theorem loginDecision_upgrade {username : Option String} {users : List UserRecord} {u : UserRecord}
    (h : loginDecision env password username salt users = .upgrade u newHash) :
    u ∈ users ∧ newHash = env.argon2Hash salt password ∧
      ∃ stored, u.passwordHash = some stored ∧ verifyPassword env password stored = true := by
  have hsome : (loginCandidates env users username).findSome?
      (decideCandidate env password salt) = some (.upgrade u newHash) := by
    unfold loginDecision at h
    cases hfind : (loginCandidates env users username).findSome?
        (decideCandidate env password salt) with
    | none => simp [hfind] at h
    | some d => simpa [hfind] using h
  obtain ⟨v, hv, hdecide⟩ := List.exists_of_findSome?_eq_some hsome
  have hmem : v ∈ users := by
    unfold loginCandidates at hv
    split at hv
    · exact hv
    · simp only at hv
      split at hv
      · exact (List.mem_filter.mp hv).1
      · exact (List.mem_filter.mp hv).1
  unfold decideCandidate at hdecide
  split at hdecide
  · rename_i stored hstored
    split at hdecide
    · simp at hdecide
    · simp at hdecide
    · rename_i hash hrehash
      cases hdecide
      exact ⟨hmem, newHash_of_rehash hrehash, stored, hstored, verifyPassword_of_rehash hrehash⟩
  · split at hdecide
    · simp at hdecide
    · split at hdecide
      · simp at hdecide
      · split at hdecide <;> simp at hdecide

/-- A readable file is worked on. -/
theorem exec_withUsers_ok (h : readUsers file = .ok data) (next : UserStore → AccountTxn) :
    (withUsers next).exec file = (next data).exec file := by
  simp [withUsers, h]

/-- A file that is not readable is left alone. -/
theorem exec_withUsers_error {e : AuthError}
    (h : readUsers file = .error e) (next : UserStore → AccountTxn) :
    (withUsers next).exec file = (file, .raised e) := by
  simp [withUsers, h]

theorem usersOf_ok (h : readUsers file = .ok data) : usersOf file = data.users := by
  simp [usersOf, h]

/-- What a login leaves in the file, run alone. -/
theorem login_keeps (env : AuthEnv) (c : AccountCall) (h : c.isLogin = true)
    (file : AccountFile) : LoginKeeps env c file ((program env c).exec file).1 := by
  intro hnodup
  have hsame : List.Forall₂ (RecordKept env c) (usersOf file) (usersOf file) :=
    List.forall₂_same.mpr fun u _ => RecordKept.refl env c u
  cases hread : readUsers file with
  | error e =>
    cases c with
    | updateLastLogin userId now =>
      simpa only [program, updateLastLogin, exec_withUsers_error hread] using hsame
    | checkPassword password username salt legacyFile =>
      simpa only [program, checkPassword, exec_withUsers_error hread] using hsame
    | _ => contradiction
  | ok data =>
    have husers := usersOf_ok hread
    cases c with
    | updateLastLogin userId now =>
      simp only [program, updateLastLogin, exec_withUsers_ok hread]
      split
      · simp only [writeUsers, Txn.exec_write, husers]
        change List.Forall₂ _ data.users (updateFirst _ _ data.users)
        apply forall₂_updateFirst (RecordKept.refl env _)
        intro u _ _
        exact ⟨rfl, rfl, rfl, .inl rfl⟩
      · simpa using hsame
    | checkPassword password username salt legacyFile =>
      simp only [program, checkPassword, exec_withUsers_ok hread]
      split
      · cases hdecide : loginDecision env password username salt data.users with
        | rejected | failed | accepted => simpa [afterDecision] using hsame
        | upgrade u newHash =>
          obtain ⟨hmem, _, stored, hstored, hverify⟩ := loginDecision_upgrade hdecide
          simp only [afterDecision, rehash, Txn.exec_acquire, exec_withUsers_ok hread,
            writeUsers, Txn.exec_write, husers]
          change List.Forall₂ _ data.users (upgradeHash u.id newHash data.users)
          apply forall₂_updateFirst (RecordKept.refl env _)
          intro v hv hid
          have heq : v = u := List.inj_on_of_nodup_map (husers ▸ hnodup) hv hmem
            (by simpa using hid)
          subst heq
          exact ⟨rfl, rfl, rfl, .inr ⟨password, stored, rfl, hstored, hverify⟩⟩
      · simpa using hsame
    | _ => contradiction

end TinyAgentOS.Auth
