import TinyAgentOS.Auth.Accounts

/-!
# Serialisability of the account store

Threads run the account operations side by side, each read and each write of the
file atomic.  The operations under the account lock follow the discipline of
`Transactions`; the two calls of a login do not hold that lock, so a write of
theirs is serial only when nothing moved under it.

Main results:

- `LoginPhase.step`: where a login can be in its program.
- `Invariant.coherent`: undisturbed steps end their calls coherently.
- `serialisable_of_undisturbed`: the runs with a serial order.
-/

namespace TinyAgentOS.Auth

open Collections Transactions Transition

abbrev AccountPool := Pool AccountFile AuthResult AccountCall AuthLock

abbrev AccountThread := Running AccountFile AuthResult AccountCall AuthLock

/-- The record whose hash a login would upgrade on this file, and the new hash. -/
def upgradeOf (env : AuthEnv) (c : AccountCall) (file : AccountFile) :
    Option (UserRecord × String) :=
  match c, readUsers file with
  | .checkPassword password username salt _, .ok data =>
    if data.users = [] then none
    else
      match loginDecision env password username salt data.users with
      | .upgrade u newHash => some (u, newHash)
      | _ => none
  | _, _ => none

/-- The id that upgrade is for. -/
def upgradeTarget (env : AuthEnv) (c : AccountCall) (file : AccountFile) : Option String :=
  (upgradeOf env c file).map fun (u, _) => u.id

/-- When a login writes, the file is what it last read, an upgrade still has the target it
had at the login's first read, and no call under the account lock has read. -/
def Undisturbed (env : AuthEnv) (s : AccountPool) (e : PoolEvent AccountCall) : Prop :=
  match e with
  | .start _ _ => True
  | .advance thread =>
    match s.running.get? thread with
    | none => True
    | some t =>
      match t.rest with
      | .write _ _ =>
        t.call.isLogin = true →
          t.reads.getLast? = some s.cell ∧
            (∀ first ∈ t.reads.head?,
              upgradeTarget env t.call first = upgradeTarget env t.call s.cell) ∧
            ∀ u ∈ s.running.values, u.call.isLogin = false → u.reads = []
      | _ => True

/-- What the claimed order is about: the final file, and what each login did to it. -/
structure Serialisable (env : AuthEnv) (start : AccountFile) (s : AccountPool) : Prop where
  order : ∃ calls : List AccountCall, calls.Perm (s.finished.map Finished.call) ∧
    serialRun (program env) start calls = s.cell
  logins_keep : ∀ f ∈ s.finished, f.call.isLogin = true →
    LoginKeeps env f.call f.before f.after

/-! ## Where a login is -/

/-- The login has not read yet. -/
def Fresh (env : AuthEnv) (t : AccountThread) : Prop :=
  t.rest = program env t.call ∧ t.reads = []

/-- It is about to write what the whole call would write on the file it read. -/
def Stamping (env : AuthEnv) (t : AccountThread) : Prop :=
  ∃ file value result, t.reads = [file] ∧ t.rest = .write value result ∧
    (program env t.call).exec file = (value, result)

/-- It has verified a hash that needs an upgrade. -/
def Verified (env : AuthEnv) (t : AccountThread) : Prop :=
  ∃ file u newHash, t.reads = [file] ∧ upgradeOf env t.call file = some (u, newHash) ∧
    (t.rest = .acquire .hashUpgrade (rehash u newHash) ∨ t.rest = rehash u newHash)

/-- It has read the file again and is about to write the upgraded hash. -/
def Upgrading (env : AuthEnv) (t : AccountThread) : Prop :=
  ∃ file file' data u newHash, t.reads = [file, file'] ∧
    upgradeOf env t.call file = some (u, newHash) ∧ readUsers file' = .ok data ∧
    t.rest = writeUsers data (upgradeHash u.id newHash data.users)
      (.login true (some { u with passwordHash := some newHash }) none)

/-- The places in a login. -/
def LoginPhase (env : AuthEnv) (t : AccountThread) : Prop :=
  Fresh env t ∨ Stamping env t ∨ Verified env t ∨ Upgrading env t

variable {file : AccountFile} {env : AuthEnv} {u : UserRecord} {c : AccountCall} {newHash : String}
  {s : AccountPool} {e : PoolEvent AccountCall}

theorem upgradeOf_eq_some (h : upgradeOf env c file = some (u, newHash)) :
    ∃ password username salt legacyFile data,
      c = .checkPassword password username salt legacyFile ∧ readUsers file = .ok data ∧
        data.users ≠ [] ∧
        loginDecision env password username salt data.users = .upgrade u newHash := by
  unfold upgradeOf at h
  split at h
  · rename_i password username salt legacyFile data hread
    split at h
    · simp at h
    rename_i husers
    split at h
    · rename_i v hash hdecide
      cases h
      exact ⟨password, username, salt, legacyFile, data, rfl, hread, husers, hdecide⟩
    · simp at h
  · simp at h

/-- What an upgrading login writes when it runs alone. -/
theorem exec_of_upgradeOf {data : UserStore}
    (h : upgradeOf env c file = some (u, newHash)) (hread : readUsers file = .ok data) :
    (program env c).exec file =
      (.present { data with users := upgradeHash u.id newHash data.users },
        .login true (some { u with passwordHash := some newHash }) none) := by
  obtain ⟨password, username, salt, legacyFile, data', rfl, hread', husers, hdecide⟩ :=
    upgradeOf_eq_some h
  obtain rfl : data = data' := by simpa [hread] using hread'
  simp only [program, checkPassword, exec_withUsers_ok hread]
  rw [if_pos husers, hdecide]
  simp only [afterDecision, rehash, Txn.exec_acquire, exec_withUsers_ok hread]
  rfl

/-- The new hash depends on the call alone. -/
theorem newHash_eq {file' : AccountFile} {u' : UserRecord} {newHash' : String}
    (h : upgradeOf env c file = some (u, newHash))
    (h' : upgradeOf env c file' = some (u', newHash')) : newHash = newHash' := by
  obtain ⟨password, username, salt, legacyFile, data, rfl, _, _, hdecide⟩ := upgradeOf_eq_some h
  obtain ⟨_, _, _, _, data', heq, _, _, hdecide'⟩ := upgradeOf_eq_some h'
  cases heq
  rw [(loginDecision_upgrade hdecide).2.1, (loginDecision_upgrade hdecide').2.1]

/-- The first read of a login ends it, prepares its stamp, or asks for an upgrade. -/
theorem login_first_read (env : AuthEnv) (hlogin : c.isLogin = true) :
    ∃ next, program env c = .read next ∧ ∀ file,
      (∃ result, next file = .done result) ∨
        (∃ value result, next file = .write value result) ∨
        ∃ u newHash, upgradeOf env c file = some (u, newHash) ∧
          next file = .acquire .hashUpgrade (rehash u newHash) := by
  cases c with
  | updateLastLogin userId now =>
    refine ⟨_, rfl, ?_⟩
    intro file
    cases hread : readUsers file with
    | error e => exact .inl ⟨_, rfl⟩
    | ok data =>
      simp only
      split
      · exact .inr (.inl ⟨_, _, rfl⟩)
      · exact .inl ⟨_, rfl⟩
  | checkPassword password username salt legacyFile =>
    refine ⟨_, rfl, ?_⟩
    intro file
    cases hread : readUsers file with
    | error e => exact .inl ⟨_, rfl⟩
    | ok data =>
      simp only
      split
      · rename_i husers
        cases hdecide : loginDecision env password username salt data.users with
        | rejected | failed | accepted => exact .inl ⟨_, rfl⟩
        | upgrade u newHash =>
          refine .inr (.inr ⟨u, newHash, ?_, rfl⟩)
          simp [upgradeOf, hread, husers, hdecide]
      · exact .inl ⟨_, rfl⟩
  | _ => contradiction

/-- The second read of an upgrading login ends it or prepares its write. -/
theorem rehash_read (u : UserRecord) (newHash : String) :
    ∃ next, rehash u newHash = .read next ∧ ∀ file,
      (∃ e, readUsers file = .error e ∧ next file = .done (.raised e)) ∨
        ∃ data, readUsers file = .ok data ∧
          next file = writeUsers data (upgradeHash u.id newHash data.users)
            (.login true (some { u with passwordHash := some newHash }) none) := by
  refine ⟨_, rfl, ?_⟩
  intro file
  cases hread : readUsers file with
  | error e => exact .inl ⟨e, rfl, rfl⟩
  | ok data => exact .inr ⟨data, rfl, rfl⟩

/-- An access that does not end a login leads to the next phase. -/
theorem LoginPhase.step {t t' : AccountThread}
    {cell : AccountFile} (h : LoginPhase env t) (hlogin : t.call.isLogin = true)
    (haccess : access s t = some (t', cell)) (hresult : t'.rest.result? = none) :
    LoginPhase env t' := by
  have hcall := access_call haccess
  rcases h with ⟨hrest, hreads⟩ | ⟨file, value, result, hreads, hrest, hexec⟩ |
    ⟨file, u, newHash, hreads, hupgrade, hrest⟩ |
    ⟨file, file', data, u, newHash, hreads, hupgrade, hread, hrest⟩
  · obtain ⟨next, hprogram, hnext⟩ := login_first_read env hlogin
    rw [hprogram] at hrest
    unfold access at haccess
    rw [hrest] at haccess
    cases haccess
    rcases hnext s.cell with ⟨result, hdone⟩ | ⟨value, result, hwrite⟩ | ⟨u, newHash, hup, hacq⟩
    · simp [hdone, Txn.result?] at hresult
    · refine .inr (.inl ⟨s.cell, value, result, by simp [hreads], hwrite, ?_⟩)
      simp [hprogram, hwrite]
    · exact .inr (.inr (.inl ⟨s.cell, u, newHash, by simp [hreads], hup, .inl hacq⟩))
  · unfold access at haccess
    rw [hrest] at haccess
    cases haccess
    simp [Txn.result?] at hresult
  · rcases hrest with hrest | hrest
    · unfold access at haccess
      rw [hrest] at haccess
      simp only at haccess
      split at haccess
      · contradiction
      cases haccess
      exact .inr (.inr (.inl ⟨file, u, newHash, hreads, hupgrade, .inr rfl⟩))
    · obtain ⟨next, hread, hnext⟩ := rehash_read u newHash
      rw [hread] at hrest
      unfold access at haccess
      rw [hrest] at haccess
      cases haccess
      rcases hnext s.cell with ⟨e, _, hdone⟩ | ⟨data, hok, hwrite⟩
      · simp [hdone, Txn.result?] at hresult
      · exact .inr (.inr (.inr
          ⟨file, s.cell, data, u, newHash, by simp [hreads], hupgrade, hok, hwrite⟩))
  · unfold access at haccess
    rw [hrest] at haccess
    cases haccess
    simp [Txn.result?] at hresult

/-- An undisturbed login ends coherently. -/
theorem LoginPhase.coherent {thread : Nat}
    {t t' : AccountThread} {cell : AccountFile} (h : LoginPhase env t)
    (hlogin : t.call.isLogin = true) (hguard : Undisturbed env s (.advance thread))
    (hget : s.running.get? thread = some t) (haccess : access s t = some (t', cell))
    (hresult : t'.rest.result?.isSome) : ((program env t.call).exec s.cell).1 = cell := by
  obtain ⟨result', hdone'⟩ := Option.isSome_iff_exists.mp hresult
  have hrest' := Txn.eq_done_of_result? hdone'
  simp only [Undisturbed, hget] at hguard
  rcases h with ⟨hrest, _⟩ | ⟨file, value, result, hreads, hrest, hexec⟩ |
    ⟨file, u, newHash, _, hupgrade, hrest⟩ |
    ⟨file, file', data, u, newHash, hreads, hupgrade, hread, hrest⟩
  · obtain ⟨next, hprogram, _⟩ := login_first_read env hlogin
    rw [hprogram] at hrest
    unfold access at haccess
    rw [hrest] at haccess
    cases haccess
    simp only at hrest'
    simp [hprogram, hrest']
  · simp only [hrest] at hguard
    obtain ⟨hlast, _, _⟩ := hguard hlogin
    obtain rfl : file = s.cell := by simpa [hreads] using hlast
    unfold access at haccess
    rw [hrest] at haccess
    cases haccess
    rw [hexec]
  · rcases hrest with hrest | hrest
    · unfold access at haccess
      rw [hrest] at haccess
      simp only at haccess
      split at haccess
      · contradiction
      cases haccess
      simp [rehash, withUsers] at hrest'
    · obtain ⟨next, hnextRead, hnext⟩ := rehash_read u newHash
      rw [hnextRead] at hrest
      unfold access at haccess
      rw [hrest] at haccess
      cases haccess
      rcases hnext s.cell with ⟨e, herror, _⟩ | ⟨data, _, hwrite⟩
      · obtain ⟨password, username, salt, legacyFile, _, hcall, _⟩ := upgradeOf_eq_some hupgrade
        rw [hcall, program, checkPassword, exec_withUsers_error herror]
      · simp [hwrite, writeUsers] at hrest'
  · rw [hrest] at hguard
    obtain ⟨hlast, htarget, _⟩ := hguard hlogin
    obtain rfl : file' = s.cell := by simpa [hreads] using hlast
    have hsame := htarget file (by simp [hreads])
    simp only [upgradeTarget, hupgrade, Option.map_some] at hsame
    obtain ⟨⟨u', newHash'⟩, hupgrade', hid⟩ := Option.map_eq_some_iff.mp hsame.symm
    have hid' : u'.id = u.id := hid
    have hhash := newHash_eq hupgrade hupgrade'
    unfold access at haccess
    rw [hrest] at haccess
    cases haccess
    rw [exec_of_upgradeOf hupgrade' hread, hid', ← hhash]

/-! ## The invariant of a run -/

/-- The calls that hold the account lock. -/
def Mutator (c : AccountCall) : Prop := c.isLogin = false

/-- The lock discipline of the mutators, and the phase of every login. -/
structure Invariant (env : AuthEnv) (s : AccountPool) : Prop where
  disciplined : Disciplined (program env) .users Mutator s
  phase : ∀ i t, s.running.get? i = some t → t.call.isLogin = true → LoginPhase env t

theorem Invariant.init (env : AuthEnv) (file : AccountFile) : Invariant env (Pool.init file) where
  disciplined := Disciplined.init file
  phase := by simp [Pool.init]

theorem quiet_of_undisturbed (h : Undisturbed env s e) : Quiet Mutator s e := by
  cases e with
  | start thread call => trivial
  | advance thread =>
    intro t value result hget hrest hlogin j u hu hmutator
    simp only [Undisturbed, hget, hrest] at h
    have hlogin' : t.call.isLogin = true := by simpa [Mutator] using hlogin
    exact (h hlogin').2.2 u (Dict.mem_values_iff.mpr ⟨j, hu⟩) hmutator

theorem Invariant.coherent (h : Invariant env s) (hguard : Undisturbed env s e) : Coherent
    (program env) s e := by
  cases e with
  | start thread call => trivial
  | advance thread =>
    intro t t' cell hget haccess hresult
    cases hlogin : t.call.isLogin with
    | false => exact h.disciplined.coherent hget hlogin haccess hresult
    | true => exact (h.phase thread t hget hlogin).coherent hlogin hguard hget haccess hresult

theorem Invariant.step {s' : AccountPool} (h : Invariant env s) (hguard : Undisturbed env s e)
    (hstep : step (program env) s e = some s') : Invariant env s' := by
  refine ⟨h.disciplined.step (programs_locked env) (quiet_of_undisturbed hguard) hstep, ?_⟩
  rcases step_cases hstep with
    ⟨thread, call, _, _, rfl⟩ | ⟨thread, t, t', cell, rfl, hget, haccess, rfl⟩
  · intro i t ht hlogin
    rcases Dict.get?_set_cases ht with ⟨_, rfl⟩ | ⟨_, ht⟩
    · exact .inl ⟨rfl, rfl⟩
    · exact h.phase i t ht hlogin
  · intro i u hu hlogin
    rcases settle_get? hu with ⟨rfl, rfl, hresult⟩ | ⟨_, hold⟩
    · rw [access_call haccess] at hlogin
      exact (h.phase i t hget hlogin).step hlogin haccess hresult
    · exact h.phase i u hold hlogin

/-- An undisturbed run of the account operations is serialisable. -/
theorem serialisable_of_undisturbed (env : AuthEnv) (start : AccountFile)
    (events : List (PoolEvent AccountCall)) (s : AccountPool)
    (hrun : run (step (program env)) (Pool.init start) events = some s)
    (hguard : Guarded (step (program env)) (Undisturbed env) (Pool.init start) events) :
    Serialisable env start s := by
  have hserial := invariant_of_guarded_run
    (I := fun t => Invariant env t ∧ SerialFrom (program env) start t.finished t.cell)
    (fun _ _ _ h hg hstep => ⟨h.1.step hg hstep, serial_step h.2 (h.1.coherent hg) hstep⟩)
    ⟨Invariant.init env start, rfl⟩ hguard hrun
  refine ⟨⟨_, List.Perm.refl _, hserial.2.serialRun_eq⟩, ?_⟩
  intro f hf hlogin
  rw [← hserial.2.exec_eq hf]
  exact login_keeps env f.call hlogin f.before

/-! ### A login over a password change -/

instance (env : AuthEnv) (s : AccountPool) (e : PoolEvent AccountCall) :
    Decidable (Undisturbed env s e) := by
  unfold Undisturbed
  split
  · infer_instance
  · split
    · infer_instance
    · split <;> infer_instance

/-- The digest of the sample password under the sample salt. -/
def sampleDigest : String :=
  "5b498676391919307257533ea320327050607d2d7f2b658a0600c227c762b86b"

/-- Hash functions at the sample passwords; an argon2 hash names its password. -/
def sampleEnv : AuthEnv where
  argon2Hash salt password := "$argon2id$" ++ salt ++ "$" ++ password
  argon2Verify stored password := stored = "$argon2id$x$" ++ password
  needsRehash _ := false
  sha256Hex text := if text = "s:old-password" then sampleDigest else ""
  lower text := text

/-- A user whose hash predates argon2. -/
def legacyUser : UserRecord :=
  ⟨"u1", "ada", none, none, some ("s:" ++ sampleDigest), none, none, true, none, none, none, none⟩

def legacyFile : AccountFile := .present ⟨[legacyUser], some "u1"⟩

def sampleLogin : AccountCall := .checkPassword "old-password" (some "ada") "x" none

def sampleChange : AccountCall := .changePassword "ada" "old-password" "new-password" "x"

/-- The login has verified the old password when the change goes through; then it
upgrades the hash. -/
def changeDuringLogin : List (PoolEvent AccountCall) :=
  [.start 1 sampleLogin, .advance 1, .start 2 sampleChange, .advance 2, .advance 2, .advance 2,
    .advance 1, .advance 1, .advance 1]

/-- The file in the end holds the old password again, which no serial order leaves. -/
theorem login_reinstates_password :
    ∃ s, run (step (program sampleEnv)) (Pool.init legacyFile) changeDuringLogin = some s ∧
      ¬Serialisable sampleEnv legacyFile s := by
  have hend : (run (step (program sampleEnv)) (Pool.init legacyFile) changeDuringLogin).map
      (fun s => (s.finished.map Finished.call, usersOf s.cell)) =
      some ([sampleChange, sampleLogin],
        [{ legacyUser with passwordHash := some "$argon2id$x$old-password" }]) := by
    decide +kernel
  obtain ⟨s, hrun, hs⟩ := Option.map_eq_some_iff.mp hend
  obtain ⟨hcalls, husers⟩ := Prod.mk.inj hs
  refine ⟨s, hrun, ?_⟩
  rintro ⟨⟨calls, hperm, hserial⟩, _⟩
  rw [hcalls] at hperm
  rw [← hserial] at husers
  rcases List.perm_pair.mp hperm with rfl | rfl
  · exact absurd husers (by decide)
  · exact absurd husers (by decide)

/-- The same two calls, with the login done before the change writes. -/
theorem serialisable_of_undisturbed_overlap :
    ∃ s, run (step (program sampleEnv)) (Pool.init legacyFile)
        [.start 2 sampleChange, .start 1 sampleLogin, .advance 1, .advance 1, .advance 1,
          .advance 1, .advance 2, .advance 2, .advance 2] = some s ∧
      Serialisable sampleEnv legacyFile s := by
  obtain ⟨s, hrun⟩ := Option.isSome_iff_exists.mp
    (by decide : (run (step (program sampleEnv)) (Pool.init legacyFile)
        [.start 2 sampleChange, .start 1 sampleLogin, .advance 1, .advance 1, .advance 1,
          .advance 1, .advance 2, .advance 2, .advance 2]).isSome)
  exact ⟨s, hrun, serialisable_of_undisturbed _ _ _ _ hrun (by decide)⟩

end TinyAgentOS.Auth
