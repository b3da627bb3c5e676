import TinyAgentOS.Auth.Sessions

/-!
# A session speaks only for its owner

The invariant of the tasks in flight: what each task remembers of the account file
is still there, a live session has an owner with a record, and a deletion that has
collected its sessions has collected all of them.

Main results:

- `Invariant.advance`: what every access of every task keeps.
- `speaks_of_orderly`: the runs in which a session speaks only for its owner.
- `stranger_answered`: the first user's profile for the session of another.
-/

namespace TinyAgentOS.Auth

open Collections Transition

namespace SessionState

/-! ## The invariant -/

/-- What a task in flight may rely on. -/
def TaskOk (s : SessionState) : Task → Prop
  | .deleteSnapshot target data => data.users.map keyOf = keysOf s.accounts ∧ target ∈ data.users
  | .deletePop target _ data => data.users.map keyOf = keysOf s.accounts ∧ target ∈ data.users
  | .resetWrite _ data => data.users.map keyOf = keysOf s.accounts
  | .lookupFind owner userId => Exists s.accounts userId ∧ ∀ u, owner = some u → userId = u
  | .lookupProject owner record => ∀ u, owner = some u → record.id = u ∧ Exists s.accounts u
  | .lookupFallback owner => owner = none
  | .requestFind userId => userId ≠ "" → Exists s.accounts userId
  | _ => True

/-- A session that is still good, with an owner. -/
def LiveFor (s : SessionState) (token : Token) (userId : String) : Prop :=
  ∃ e, s.sessions.get? token = some e ∧ s.clock < e.expiresAt ∧ e.userId = userId ∧ userId ≠ ""

structure Invariant (s : SessionState) : Prop where
  store : WellFormed (keysOf s.accounts)
  tasks : ∀ i task, s.tasks.get? i = some task → TaskOk s task
  exclusive : ∀ i j t u, s.tasks.get? i = some t → s.tasks.get? j = some u →
    t.holdsUsers = true → u.holdsUsers = true → i = j
  live : ∀ token userId, LiveFor s token userId → Exists s.accounts userId
  /-- A deletion past its snapshot still has every session of its user on its list. -/
  collected : ∀ i target tokens data, s.tasks.get? i = some (.deletePop target tokens data) →
    ∀ token, LiveFor s token target.id → token ∈ tokens
  created : ∀ token u, s.created.get? token = some u → u ≠ "" ∧ token ≠ "" ∧
    ∀ e, s.sessions.get? token = some e → e.userId = u
  deleted : ∀ u ∈ s.deleted, u ≠ "" ∧ ¬Exists s.accounts u
  speaks : Speaks s

variable {userId : String} {file : AccountFile} {data : UserStore} {s s' : SessionState}
  {task next : Task} {i : Nat} {rest : Option Task} {now : Instant} {token token' fresh : Token}
  {e : SessionEntry} {userAgent : Option String} {env : AuthEnv} {target : UserRecord}
  {p : SessionParams}

theorem exists_iff_mem_keysOf : Exists file userId ↔ userId ∈ (keysOf file).map Prod.fst := by
  simp [Exists, keysOf, keyOf]

/-- Only the keys count for which accounts exist. -/
theorem exists_congr_keys {file' : AccountFile} (h : keysOf file' = keysOf file)
    (userId : String) : Exists file' userId ↔ Exists file userId := by
  rw [exists_iff_mem_keysOf, exists_iff_mem_keysOf, h]

theorem keysOf_ok (h : readUsers file = .ok data) : keysOf file = data.users.map keyOf := by
  rw [keysOf, usersOf_ok h]

/-- Only the keys count for a task. -/
theorem TaskOk.congr (hkeys : keysOf s'.accounts = keysOf s.accounts) (h : TaskOk s task) :
    TaskOk s' task := by
  cases task with
  | deleteSnapshot | deletePop | resetWrite => simpa only [TaskOk, hkeys] using h
  | lookupFind | lookupProject | requestFind => simpa only [TaskOk, exists_congr_keys hkeys] using h
  | lookupFallback owner => exact h
  | _ => trivial

/-- Time passes, sessions disappear, records change without their keys. -/
theorem Invariant.frame (h : Invariant s)
    (hclock : s.clock ≤ s'.clock) (hkeys : keysOf s'.accounts = keysOf s.accounts)
    (hsessions : ∀ token e, s'.sessions.get? token = some e → s.sessions.get? token = some e)
    (htasks : s'.tasks = s.tasks) (hcreated : s'.created = s.created)
    (hdeleted : s'.deleted = s.deleted) (hspeaks : Speaks s') : Invariant s' := by
  have hlive : ∀ token userId, LiveFor s' token userId → LiveFor s token userId := by
    intro token userId hl
    rcases hl with ⟨e, hget, hlt, hrest⟩
    exact ⟨e, hsessions token e hget, lt_of_le_of_lt hclock hlt, hrest⟩
  refine ⟨hkeys ▸ h.store, ?_, ?_, ?_, ?_, ?_, ?_, hspeaks⟩
  · intro i task hget
    exact (h.tasks i task (htasks ▸ hget)).congr hkeys
  · rw [htasks]
    exact h.exclusive
  · intro token userId hl
    exact (exists_congr_keys hkeys userId).mpr (h.live token userId (hlive token userId hl))
  · intro i target tokens data hget token hl
    exact h.collected i target tokens data (htasks ▸ hget) token (hlive token target.id hl)
  · intro token u hget
    obtain ⟨hne, htoken, hentry⟩ := h.created token u (hcreated ▸ hget)
    exact ⟨hne, htoken, fun e he => hentry e (hsessions token e he)⟩
  · intro u hu
    obtain ⟨hne, hgone⟩ := h.deleted u (hdeleted ▸ hu)
    exact ⟨hne, fun hex => hgone ((exists_congr_keys hkeys u).mp hex)⟩

/-- What the next state of a task has to bring. -/
structure NextOk (s : SessionState) (task next : Task) : Prop where
  ok : TaskOk s next
  lock : next.holdsUsers = true → task.holdsUsers = true ∨ s.usersLocked = false
  collected : ∀ target tokens data, next = .deletePop target tokens data →
    ∀ token, LiveFor s token target.id → token ∈ tokens

/-- While the lock is free, no task holds it. -/
theorem usersLocked_eq_false (h : s.usersLocked = false) (hget : s.tasks.get? i = some task) :
    task.holdsUsers = false := by
  simp only [usersLocked, List.any_eq_false, Bool.not_eq_true] at h
  exact h task (Dict.mem_values_iff.mpr ⟨i, hget⟩)

theorem TaskOk.putTask (h : TaskOk s task) : TaskOk (s.putTask i rest) task := by
  refine h.congr ?_
  cases rest <;> rfl

/-- A task goes on, or is over. -/
theorem Invariant.putTask (h : Invariant s) (hget : s.tasks.get? i = some task)
    (hnext : ∀ next, rest = some next → NextOk s task next) : Invariant (s.putTask i rest) := by
  cases rest with
  | none =>
    have hold : ∀ j u, (s.tasks.pop i).get? j = some u → s.tasks.get? j = some u := by
      intro j u hu
      rw [Dict.get?_pop] at hu
      split at hu
      · contradiction
      · exact hu
    exact
      { store := h.store
        tasks := fun j u hu => (h.tasks j u (hold j u hu)).putTask
        exclusive := fun j k t u ht hu => h.exclusive j k t u (hold j t ht) (hold k u hu)
        live := h.live
        collected := fun j target tokens data hj =>
          h.collected j target tokens data (hold j _ hj)
        created := h.created
        deleted := h.deleted
        speaks := ⟨h.speaks.answers, h.speaks.passes⟩ }
  | some next =>
    obtain ⟨hok, hlock, hcollected⟩ := hnext next rfl
    have hcases : ∀ j u, (s.tasks.set i next).get? j = some u →
        (j = i ∧ u = next) ∨ (j ≠ i ∧ s.tasks.get? j = some u) := by
      intro j u hu
      rcases Dict.get?_set_cases hu with ⟨heq, rfl⟩ | ⟨hne, hu⟩
      · exact .inl ⟨heq.symm, rfl⟩
      · exact .inr ⟨Ne.symm hne, hu⟩
    have hother : ∀ j u, j ≠ i → s.tasks.get? j = some u → u.holdsUsers = true →
        next.holdsUsers = true → False := by
      intro j u hne hu hheld hnextHeld
      rcases hlock hnextHeld with hself | hfree
      · exact hne (h.exclusive j i u task hu hget hheld hself)
      · simp [usersLocked_eq_false hfree hu] at hheld
    refine
      { store := h.store
        tasks := ?_
        exclusive := ?_
        live := h.live
        collected := ?_
        created := h.created
        deleted := h.deleted
        speaks := ⟨h.speaks.answers, h.speaks.passes⟩ }
    · intro j u hu
      rcases hcases j u hu with ⟨_, rfl⟩ | ⟨_, hold⟩
      · exact hok.putTask
      · exact (h.tasks j u hold).putTask
    · intro j k t u ht hu hheldt hheldu
      rcases hcases j t ht with ⟨rfl, rfl⟩ | ⟨hj, holdj⟩
      · rcases hcases k u hu with ⟨rfl, _⟩ | ⟨hk, holdk⟩
        · rfl
        · exact (hother k u hk holdk hheldu hheldt).elim
      · rcases hcases k u hu with ⟨rfl, rfl⟩ | ⟨_, holdk⟩
        · exact (hother j t hj holdj hheldt hheldu).elim
        · exact h.exclusive j k t u holdj holdk hheldt hheldu
    · intro j target tokens data hj
      rcases hcases j _ hj with ⟨_, heq⟩ | ⟨_, hold⟩
      · exact hcollected target tokens data heq.symm
      · exact h.collected j target tokens data hold

/-! ## One access -/

/-- What an access leaves: a good state, the other tasks as they were, a good next task. -/
structure AccessOk (s : SessionState) (task : Task) (s' : SessionState) (rest : Option Task) :
    Prop where
  invariant : Invariant s'
  tasks : s'.tasks = s.tasks
  next : ∀ next, rest = some next → NextOk s' task next

/-- A task that does not hold the lock goes on. -/
theorem NextOk.of_free (hok : TaskOk s next)
    (hfree : next.holdsUsers = false) : NextOk s task next where
  ok := hok
  lock := fun h => by simp [hfree] at h
  collected := by
    intro target tokens data heq
    subst heq
    simp [Task.holdsUsers] at hfree

/-- A task that keeps the account lock. -/
theorem NextOk.of_held (hok : TaskOk s next) (hheld : task.holdsUsers = true)
    (hnext : ∀ target tokens data, next ≠ .deletePop target tokens data) : NextOk s task next where
  ok := hok
  lock := fun _ => .inl hheld
  collected := fun target tokens data heq => (hnext target tokens data heq).elim

/-- An access that ends its task. -/
theorem AccessOk.over (h : Invariant s') (htasks : s'.tasks = s.tasks) : AccessOk s task s' none :=
  ⟨h, htasks, fun _ hnext => by cases hnext⟩

/-- An access goes on to a task. -/
theorem AccessOk.go (h : Invariant s') (htasks : s'.tasks = s.tasks) (hnext : NextOk s' task next) :
    AccessOk s task s' (some next) :=
  ⟨h, htasks, fun _ heq => by cases heq; exact hnext⟩

/-- An access leads to a state with the invariant. -/
theorem AccessOk.putTask (h : AccessOk s task s' rest) (hget : s.tasks.get? i = some task) :
    Invariant (s'.putTask i rest) :=
  h.invariant.putTask (h.tasks ▸ hget) h.next

/-! ### Sessions that an access reads or drops -/

/-- Loading keeps the sessions that are not pruned. -/
theorem get?_loadSessions_iff {sessions : SessionFile} :
    (loadSessions sessions now).get? token = some e ↔
      sessions.get? token = some e ∧ e.unpruned now = true :=
  Dict.get?_filterValues_iff

theorem unpruned_of_lt (h : now < e.expiresAt) : e.unpruned now = true := by
  cases e with
  | legacy expiresAt => rfl
  | owned userId expiresAt longLived agent => exact decide_eq_true h

/-- What is left of the sessions was there. -/
theorem get?_popSession {sessions : SessionFile}
    (h : (popSession sessions token now).get? token' = some e) :
    token' ≠ token ∧ sessions.get? token' = some e := by
  have hpop := (get?_loadSessions_iff.mp h).1
  rw [Dict.get?_pop] at hpop
  split at hpop
  · contradiction
  rename_i hne
  exact ⟨Ne.symm hne, (get?_loadSessions_iff.mp hpop).1⟩

/-- A stored session is the new one, or was there. -/
theorem get?_setSession {sessions : SessionFile}
    {new : SessionEntry} (h : (setSession sessions token new now).get? token' = some e) :
    (token' = token ∧ e = new) ∨ (token' ≠ token ∧ sessions.get? token' = some e) := by
  have hset := (get?_loadSessions_iff.mp h).1
  rcases Dict.get?_set_cases hset with ⟨heq, rfl⟩ | ⟨hne, hset⟩
  · exact .inl ⟨heq.symm, rfl⟩
  · exact .inr ⟨Ne.symm hne, (get?_loadSessions_iff.mp hset).1⟩

/-- A validation at most drops the session it finds expired. -/
theorem get?_validateSession {sessions : SessionFile}
    (h : (validateSession env sessions token userAgent now).1.get? token' = some e) :
    sessions.get? token' = some e := by
  unfold validateSession at h
  split at h
  · exact h
  · split at h
    · exact (get?_popSession h).2
    · split at h
      · exact h
      · exact h

/-- A valid session is in the file, and its time has not come. -/
theorem entry_of_validateSession {sessions : SessionFile}
    (h : (validateSession env sessions token userAgent now).2 = some userId) :
    (validateSession env sessions token userAgent now).1 = sessions ∧
      ∃ e, sessions.get? token = some e ∧ now < e.expiresAt ∧ e.userId = userId := by
  unfold validateSession at h ⊢
  cases hget : (loadSessions sessions now).get? token with
  | none => simp [hget] at h
  | some e =>
    have hfile := (get?_loadSessions_iff.mp hget).1
    simp only [hget] at h ⊢
    split at h
    · contradiction
    rename_i hlive
    rw [if_neg hlive]
    refine ⟨?_, e, hfile, not_le.mp hlive, ?_⟩
    · split <;> rfl
    · split at h
      · split at h
        · exact Option.some.inj h
        · contradiction
      · exact Option.some.inj h

/-- Sessions may be dropped. -/
theorem Invariant.sessions (h : Invariant s) {sessions : SessionFile}
    (hsessions : ∀ token e, sessions.get? token = some e → s.sessions.get? token = some e) :
    Invariant { s with sessions := sessions } :=
  h.frame le_rfl rfl hsessions rfl rfl rfl ⟨h.speaks.answers, h.speaks.passes⟩

/-- A session may be revoked. -/
theorem Invariant.popSession (h : Invariant s) (token : Token)
    (now : Instant) : Invariant { s with sessions := popSession s.sessions token now } :=
  h.sessions fun _ _ hget => (get?_popSession hget).2

/-- A session may be validated. -/
theorem Invariant.validateSession (h : Invariant s) (env : AuthEnv)
    (token : Token) (userAgent : Option String) (now : Instant) :
    Invariant { s with sessions := (validateSession env s.sessions token userAgent now).1 } :=
  h.sessions fun _ _ hget => get?_validateSession hget

/-- Every session of the user that is still good is collected. -/
theorem mem_sessionsOf (h : LiveFor s token userId) :
    token ∈ sessionsOf s.sessions userId s.clock := by
  rcases h with ⟨e, hget, hlive, huser, _⟩
  have hload := get?_loadSessions_iff.mpr ⟨hget, unpruned_of_lt hlive⟩
  have hentry := Dict.mem_entries_iff.mpr hload
  rw [sessionsOf, List.mem_map]
  exact ⟨(token, e), List.mem_filter.mpr ⟨hentry, by simpa using huser⟩, rfl⟩

/-! ### The account file -/

/-- An update that keeps a user's key keeps the keys. -/
theorem keys_updateFirst {selects : UserRecord → Bool} {f : UserRecord → UserRecord}
    (hf : ∀ u, keyOf (f u) = keyOf u) (users : List UserRecord) :
    (updateFirst selects f users).map keyOf = users.map keyOf := by
  induction users with
  | nil => rfl
  | cons u users ih =>
    simp only [updateFirst]
    split
    · simp [hf]
    · simp [ih]

/-- A better hash keeps the keys. -/
theorem keys_upgradeHash (userId newHash : String) (users : List UserRecord) :
    (upgradeHash userId newHash users).map keyOf = users.map keyOf := by
  apply keys_updateFirst
  intro u
  rfl

/-- A reset keeps the keys. -/
theorem keys_resetUsers {data' : UserStore} {username byAdmin code : String}
    {now : Clock} (h : resetUsers data username byAdmin code now = some (userId, data')) :
    data'.users.map keyOf = data.users.map keyOf := by
  unfold resetUsers at h
  split at h
  · contradiction
  split at h
  · contradiction
  cases h
  apply keys_updateFirst
  intro u
  rfl

/-- A user that is deleted was there. -/
theorem mem_of_deletedUsers {users users' : List UserRecord} {username : String}
    (h : deletedUsers users username = .ok (target, users')) : target ∈ users := by
  unfold deletedUsers at h
  split at h
  · contradiction
  rename_i u hfind
  split at h
  · contradiction
  cases h
  exact List.mem_of_find?_eq_some hfind

/-- The accounts may be rewritten under the same keys. -/
theorem Invariant.rewrite (h : Invariant s) (hkeys : data.users.map keyOf = keysOf s.accounts) :
    Invariant { s with accounts := .present data } :=
  h.frame le_rfl hkeys (fun _ _ hget => hget) rfl rfl rfl ⟨h.speaks.answers, h.speaks.passes⟩

/-! ### Logins -/

/-- A session of an account that exists may be created. -/
theorem Invariant.createSession (h : Invariant s) (hne : userId ≠ "") (hfresh : fresh ≠ "")
    (hexists : Exists s.accounts userId)
    (hdeletion : ∀ task ∈ s.tasks.values, task.collecting ≠ some userId) (args : SessionArgs) :
    Invariant
      { s with
        sessions := setSession s.sessions fresh (newEntry p userId args s.clock) s.clock
        created := s.created.set fresh userId } := by
  have hlive : ∀ token user,
      LiveFor
        { s with
          sessions := setSession s.sessions fresh (newEntry p userId args s.clock) s.clock
          created := s.created.set fresh userId } token user →
      user = userId ∨ LiveFor s token user := by
    intro token user hl
    rcases hl with ⟨e, hget, hlt, huser, hne'⟩
    rcases get?_setSession hget with ⟨_, rfl⟩ | ⟨_, hold⟩
    · exact .inl huser.symm
    · exact .inr ⟨e, hold, hlt, huser, hne'⟩
  refine
    { store := h.store
      tasks := fun i task hget => (h.tasks i task hget).congr rfl
      exclusive := h.exclusive
      live := ?_
      collected := ?_
      created := ?_
      deleted := h.deleted
      speaks := ⟨h.speaks.answers, h.speaks.passes⟩ }
  · intro token user hl
    rcases hlive token user hl with rfl | hold
    · exact hexists
    · exact h.live token user hold
  · intro i target tokens data hget token hl
    rcases hlive token target.id hl with heq | hold
    · have hfree := hdeletion _ (Dict.mem_values_iff.mpr ⟨i, hget⟩)
      exact absurd (congrArg some heq) hfree
    · exact h.collected i target tokens data hget token hold
  · intro token u hget
    rcases Dict.get?_set_cases hget with ⟨heq, rfl⟩ | ⟨hother, hget⟩
    · refine ⟨hne, heq ▸ hfresh, ?_⟩
      intro e he
      rcases get?_setSession he with ⟨_, rfl⟩ | ⟨hother, _⟩
      · rfl
      · exact absurd heq.symm hother
    · obtain ⟨hu, htoken, hentry⟩ := h.created token u hget
      refine ⟨hu, htoken, ?_⟩
      intro e he
      rcases get?_setSession he with ⟨heq, _⟩ | ⟨_, hold⟩
      · exact absurd heq.symm hother
      · exact hentry e hold

/-- A login keeps the invariant. -/
theorem AccessOk.login (h : Invariant s) (horderly : TaskOrderly p s s.clock task)
    (hact : s.login p s.clock fresh task = some (s', rest)) : AccessOk s task s' rest := by
  cases task with
  | loginCheck password username salt args =>
    simp only [login] at hact
    split at hact
    · cases hact
      exact .over h rfl
    · split at hact
      · cases hact
        exact .over h rfl
      · split at hact
        · cases hact
          exact .go h rfl (.of_free trivial rfl)
        · cases hact
          exact .go h rfl (.of_free trivial rfl)
        · cases hact
          exact .over h rfl
  | loginUpgrade u newHash args =>
    simp only [login] at hact
    split at hact
    · contradiction
    split at hact
    · cases hact
      exact .over h rfl
    · cases hact
      exact .go h rfl (.of_free trivial rfl)
  | loginRewrite u newHash data args =>
    -- The file is as the upgrade re-read it, so only the hash changes.
    simp only [login, Option.some.injEq, Prod.mk.injEq] at hact
    rcases hact with ⟨rfl, rfl⟩
    have hkeys : (upgradeHash u.id newHash data.users).map keyOf = keysOf s.accounts := by
      rw [keys_upgradeHash, keysOf_ok horderly]
    exact .go (h.rewrite hkeys) rfl (.of_free trivial rfl)
  | loginCreate userId args =>
    simp only [login] at hact
    split at hact
    · cases hact
      exact .over h rfl
    · rename_i hne
      split at hact
      · contradiction
      rename_i hfresh
      cases hact
      rcases horderly with hempty | ⟨hexists, hdeletion⟩
      · exact absurd hempty hne
      · exact .over (h.createSession hne (fun heq => hfresh (.inl heq)) hexists hdeletion args)
          rfl
  | _ => contradiction

/-! ### The administrator and the revocations -/

/-- An account is administered. -/
theorem AccessOk.admin (h : Invariant s) (hok : TaskOk s task)
    (hcollected : ∀ target tokens data, task = .deletePop target tokens data →
      tokens ≠ [] ∧ ∀ token, LiveFor s token target.id → token ∈ tokens)
    (hact : s.admin s.clock task = some (s', rest)) : AccessOk s task s' rest := by
  cases task with
  | adminCheck op username byAdmin =>
    simp only [admin] at hact
    split at hact
    · contradiction
    rename_i hfree
    split at hact
    · cases hact
      exact .over h rfl
    · split at hact
      · cases hact
        refine .go h rfl ⟨trivial, fun _ => .inr (by simpa using hfree), ?_⟩
        intro target tokens data heq
        cases heq
      · cases hact
        exact .over h rfl
  | adminRead op username byAdmin =>
    cases op with
    | deleteUser =>
      simp only [admin] at hact
      split at hact
      · cases hact
        exact .over h rfl
      · rename_i data hread
        split at hact
        · cases hact
          exact .over h rfl
        · rename_i target users hdeleted
          cases hact
          have hkeys := (keysOf_ok hread).symm
          have hmem := mem_of_deletedUsers hdeleted
          exact .go h rfl (.of_held ⟨hkeys, hmem⟩ rfl fun _ _ _ => by simp)
    | resetPassword code at_ =>
      simp only [admin] at hact
      split at hact
      · cases hact
        exact .over h rfl
      · rename_i data hread
        split at hact
        · cases hact
          exact .over h rfl
        · rename_i userId data' hreset
          cases hact
          have hkeys : data'.users.map keyOf = keysOf s.accounts := by
            rw [keys_resetUsers hreset, keysOf_ok hread]
          exact .go h rfl (.of_held hkeys rfl fun _ _ _ => by simp)
  | deleteSnapshot target data =>
    simp only [admin, Option.some.injEq, Prod.mk.injEq] at hact
    rcases hact with ⟨rfl, rfl⟩
    refine .go h rfl ⟨hok, fun _ => .inl rfl, ?_⟩
    intro target' tokens data' heq token hlive
    cases heq
    exact mem_sessionsOf hlive
  | deletePop target tokens data =>
    cases tokens with
    | nil => exact absurd rfl (hcollected target [] data rfl).1
    | cons token tokens =>
      simp only [admin, Option.some.injEq, Prod.mk.injEq] at hact
      rcases hact with ⟨rfl, rfl⟩
      refine .go (h.popSession token s.clock) rfl ⟨hok, fun _ => .inl rfl, ?_⟩
      intro target' tokens' data' heq token' hlive
      cases heq
      rcases hlive with ⟨e, hget, hrest⟩
      obtain ⟨hne, hold⟩ := get?_popSession hget
      have hmem := (hcollected target (token :: tokens) data rfl).2 token' ⟨e, hold, hrest⟩
      exact (List.mem_cons.mp hmem).resolve_left hne
  | resetWrite userId data =>
    simp only [admin, Option.some.injEq, Prod.mk.injEq] at hact
    rcases hact with ⟨rfl, rfl⟩
    exact .go (h.rewrite hok) rfl (.of_held trivial rfl fun _ _ _ => by simp)
  | _ => contradiction

/-- A session is revoked. -/
theorem AccessOk.revoke (h : Invariant s) (hact : s.revoke s.clock task = some (s', rest)) :
    AccessOk s task s' rest := by
  have hnext : ∀ {t : SessionState} {tokens : List Token} {underLock : Bool} {before : Task},
      before.holdsUsers = underLock → NextOk t before (.revokePop tokens underLock) := by
    intro t tokens underLock before hbefore
    refine ⟨trivial, fun hheld => .inl (hbefore.trans hheld), ?_⟩
    intro target tokens' data heq
    cases heq
  cases task with
  | revokeUser userId underLock =>
    simp only [revoke, Option.some.injEq, Prod.mk.injEq] at hact
    rcases hact with ⟨rfl, rfl⟩
    exact .go h rfl (hnext rfl)
  | revokePop tokens underLock =>
    cases tokens with
    | nil =>
      simp only [revoke, Option.some.injEq, Prod.mk.injEq] at hact
      rcases hact with ⟨rfl, rfl⟩
      exact .over h rfl
    | cons token tokens =>
      simp only [revoke, Option.some.injEq, Prod.mk.injEq] at hact
      rcases hact with ⟨rfl, rfl⟩
      exact .go (h.popSession token s.clock) rfl (hnext rfl)
  | revokeSession token =>
    simp only [revoke, Option.some.injEq, Prod.mk.injEq] at hact
    rcases hact with ⟨rfl, rfl⟩
    exact .over (h.popSession token s.clock) rfl
  | _ => contradiction

/-! ### Lookups and requests -/

variable {result : Option PublicUser} {owner : Option String}

/-- An answer speaks for the owner of its session. -/
theorem Speaks.answer (h : Speaks s)
    (hanswer : ∀ u, owner = some u → ∀ profile, result = some profile →
      profile.id = u ∧ u ∉ s.deleted) : Speaks (s.answer owner result) where
  answers := by
    intro a ha
    simp only [SessionState.answer, List.mem_append, List.mem_singleton] at ha
    rcases ha with hold | rfl
    · exact h.answers a hold
    · exact hanswer
  passes := h.passes

/-- An answer keeps the invariant. -/
theorem Invariant.answer (h : Invariant s)
    (hanswer : ∀ u, owner = some u → ∀ profile, result = some profile →
      profile.id = u ∧ u ∉ s.deleted) : Invariant (s.answer owner result) :=
  h.frame le_rfl rfl (fun _ _ hget => hget) rfl rfl rfl (h.speaks.answer hanswer)

/-- Who has a record is not deleted. -/
theorem Invariant.not_deleted (h : Invariant s)
    (hexists : Exists s.accounts userId) : userId ∉ s.deleted :=
  fun hmem => (h.deleted userId hmem).2 hexists

/-- A validated owner has a record, and is the user the session was created for. -/
theorem Invariant.owner_of_validate (h : Invariant s)
    (hvalid : (Auth.validateSession env s.sessions token userAgent s.clock).2 = some userId) :
    (userId ≠ "" → Exists s.accounts userId) ∧ ∀ u, s.created.get? token = some u → userId = u := by
  obtain ⟨_, e, hget, hlive, huser⟩ := entry_of_validateSession hvalid
  constructor
  · intro hne
    exact h.live token userId ⟨e, hget, hlive, huser, hne⟩
  · intro u hcreated
    rw [← huser]
    exact (h.created token u hcreated).2.2 e hget

/-- The user of a request is found. -/
theorem AccessOk.find (h : Invariant s) (hok : TaskOk s task)
    (horderly : TaskOrderly p s s.clock task)
    (hact : s.find p s.clock task = some (s', rest)) : AccessOk s task s' rest := by
  cases task with
  | lookup kind token =>
    by_cases hempty : token = "" ∧ kind = .getUser
    · rcases hempty with ⟨rfl, rfl⟩
      simp only [find, and_self, if_true, Option.some.injEq, Prod.mk.injEq] at hact
      rcases hact with ⟨rfl, rfl⟩
      refine .go h rfl (.of_free ?_ rfl)
      -- No session is created under the empty token.
      rw [TaskOk, Option.eq_none_iff_forall_not_mem]
      intro u hcreated
      exact (h.created "" u hcreated).2.1 rfl
    · simp only [find, if_neg hempty] at hact
      have hframe := h.validateSession p.env token none s.clock
      split at hact
      · cases hact
        exact .over (hframe.answer fun _ _ _ hresult => by cases hresult) rfl
      · rename_i hvalid
        cases hact
        refine .go hframe rfl (.of_free ?_ rfl)
        rw [TaskOk]
        by_contra howner
        have hlive := horderly (Option.isSome_iff_ne_none.mpr howner)
        simp [hvalid] at hlive
      · rename_i userId hvalid
        obtain ⟨hexists, howner⟩ := h.owner_of_validate hvalid
        split at hact
        · rename_i hblank
          cases hact
          refine .go hframe rfl (.of_free ?_ rfl)
          rw [TaskOk, Option.eq_none_iff_forall_not_mem]
          intro u hcreated
          exact (h.created token u hcreated).1 ((howner u hcreated).symm.trans hblank)
        · rename_i hne
          cases hact
          exact .go hframe rfl (.of_free ⟨hexists hne, howner⟩ rfl)
  | lookupFind owner userId =>
    rcases hok with ⟨⟨u, hu, hid⟩, howner⟩
    simp only [find] at hact
    split at hact
    · cases hact
      exact .over h rfl
    · rename_i data hread
      have hdata : u ∈ data.users := by rwa [usersOf_ok hread] at hu
      split at hact
      · rename_i record hfind
        cases hact
        have hrecord : record.id = userId := by simpa using List.find?_some hfind
        refine .go h rfl (.of_free ?_ rfl)
        intro user huser
        refine ⟨hrecord.trans (howner user huser), ?_⟩
        rw [← howner user huser]
        exact ⟨u, hu, hid⟩
      · rename_i hfind
        have hmiss := List.find?_eq_none.mp hfind u hdata
        simp [hid] at hmiss
  | lookupProject owner record =>
    have hresult : ∀ users u, owner = some u → ∀ profile,
        some (publicUser users record) = some profile → profile.id = u ∧ u ∉ s.deleted := by
      intro users u howner profile heq
      cases heq
      exact ⟨(hok u howner).1, h.not_deleted (hok u howner).2⟩
    simp only [find] at hact
    split at hact
    · cases hact
      exact .over (h.answer (hresult [])) rfl
    · split at hact
      · cases hact
        exact .over h rfl
      · rename_i data hread
        cases hact
        exact .over (h.answer (hresult data.users)) rfl
  | lookupFallback owner =>
    -- The first user answers only for a session created for nobody.
    have howner : ∀ u, owner ≠ some u := fun u heq => by rw [hok] at heq; cases heq
    simp only [find] at hact
    split at hact
    · cases hact
      exact .over h rfl
    · split at hact
      · cases hact
        exact .go h rfl (.of_free (fun u heq => absurd heq (howner u)) rfl)
      · cases hact
        exact .over (h.answer fun u heq => absurd heq (howner u)) rfl
  | _ => contradiction

/-- A request is served. -/
theorem AccessOk.serve (h : Invariant s) (hok : TaskOk s task)
    (hact : s.serve p s.clock task = some (s', rest)) : AccessOk s task s' rest := by
  cases task with
  | request token userAgent =>
    simp only [serve] at hact
    split at hact
    · cases hact
      exact .over h rfl
    · have hframe := h.validateSession p.env token userAgent s.clock
      split at hact
      · cases hact
        exact .over hframe rfl
      · rename_i userId hvalid
        cases hact
        exact .go hframe rfl (.of_free (h.owner_of_validate hvalid).1 rfl)
  | requestFind userId =>
    simp only [serve] at hact
    split at hact
    · cases hact
      exact .over h rfl
    · cases hact
      refine .over (h.frame le_rfl rfl (fun _ _ hget => hget) rfl rfl rfl ?_) rfl
      refine ⟨h.speaks.answers, ?_⟩
      intro q hq
      rcases List.mem_append.mp hq with hold | hnew
      · exact h.speaks.passes q hold
      · rw [List.mem_singleton.mp hnew]
        intro hdeleted
        exact (h.deleted userId hdeleted).2 (hok (h.deleted userId hdeleted).1)
  | _ => contradiction

/-! ### The write of a deletion -/

/-- Usernames and ids are distinct, so exactly the target's id goes. -/
theorem exists_deleted_iff (h : WellFormed (keysOf s.accounts))
    (hkeys : data.users.map keyOf = keysOf s.accounts)
    (hmem : target ∈ data.users) (userId : String) :
    Exists (.present { data with users := data.users.filter fun u => u.username ≠ target.username })
        userId ↔
      Exists s.accounts userId ∧ userId ≠ target.id := by
  rw [← hkeys] at h
  have hids : (data.users.map UserRecord.id).Nodup := by
    simpa [keyOf, Function.comp_def] using h.ids
  have hnames : (data.users.map UserRecord.username).Nodup := by
    simpa [keyOf, Function.comp_def] using h.usernames
  have hbefore : Exists s.accounts userId ↔ ∃ u ∈ data.users, u.id = userId := by
    rw [exists_iff_mem_keysOf, ← hkeys]
    simp [keyOf]
  rw [hbefore]
  constructor
  · intro hafter
    rcases hafter with ⟨u, hu, hid⟩
    obtain ⟨hu, hname⟩ := List.mem_filter.mp hu
    refine ⟨⟨u, hu, hid⟩, ?_⟩
    intro heq
    have hsame : u = target := List.inj_on_of_nodup_map hids hu hmem (hid.trans heq)
    simp [hsame] at hname
  · intro hstill
    rcases hstill with ⟨⟨u, hu, hid⟩, hne⟩
    refine ⟨u, List.mem_filter.mpr ⟨hu, ?_⟩, hid⟩
    have hother : u.username ≠ target.username := by
      intro heq
      have hsame : u = target := List.inj_on_of_nodup_map hnames hu hmem heq
      exact hne (hid.symm.trans (congrArg UserRecord.id hsame))
    simpa using hother

/-- Some of the users are well formed. -/
theorem WellFormed.filter {users : List UserRecord} (h : WellFormed (users.map keyOf))
    (keep : UserRecord → Bool) : WellFormed ((users.filter keep).map keyOf) := by
  have hsub : ((users.filter keep).map keyOf).Sublist (users.map keyOf) :=
    List.filter_sublist.map keyOf
  exact
    { ids := h.ids.sublist (hsub.map Prod.fst)
      usernames := h.usernames.sublist (hsub.map Prod.snd)
      nonempty := fun k hk => h.nonempty k (hsub.subset hk) }

/-- Nobody holds the account lock, no session of the target is good and nobody has just
validated one. -/
theorem Invariant.delete (h : Invariant s) (hkeys : data.users.map keyOf = keysOf s.accounts)
    (hmem : target ∈ data.users)
    (hfree : ∀ i task, s.tasks.get? i = some task → task.holdsUsers = false)
    (hlive : ∀ token, ¬LiveFor s token target.id)
    (hvalid : ∀ i task, s.tasks.get? i = some task → task.validated ≠ some target.id) :
    Invariant
      { s with
        accounts :=
          .present { data with users := data.users.filter fun u => u.username ≠ target.username }
        deleted := target.id :: s.deleted } := by
  have hexists := exists_deleted_iff h.store hkeys hmem
  have hkept : ∀ userId, Exists s.accounts userId → userId ≠ target.id → Exists
      (.present { data with users := data.users.filter fun u => u.username ≠ target.username })
      userId := fun userId hex hne => (hexists userId).mpr ⟨hex, hne⟩
  refine
    { store := ?_
      tasks := ?_
      exclusive := h.exclusive
      live := ?_
      collected := h.collected
      created := h.created
      deleted := ?_
      speaks := ⟨h.speaks.answers, h.speaks.passes⟩ }
  · have hstore := h.store
    rw [← hkeys] at hstore
    exact hstore.filter _
  · intro i task hget
    have hok := h.tasks i task hget
    have hunlocked := hfree i task hget
    have hother := hvalid i task hget
    cases task with
    | deleteSnapshot | deletePop | resetWrite => simp [Task.holdsUsers] at hunlocked
    | lookupFind owner userId =>
      have hne : userId ≠ target.id := by simpa [Task.validated] using hother
      exact ⟨hkept userId hok.1 hne, hok.2⟩
    | lookupProject owner record =>
      have hne : record.id ≠ target.id := by simpa [Task.validated] using hother
      intro u howner
      obtain ⟨hid, hex⟩ := hok u howner
      exact ⟨hid, hkept u hex (hid ▸ hne)⟩
    | lookupFallback owner => exact hok
    | requestFind userId =>
      have hne : userId ≠ target.id := by simpa [Task.validated] using hother
      intro hnonempty
      exact hkept userId (hok hnonempty) hne
    | _ => trivial
  · intro token userId hl
    refine hkept userId (h.live token userId hl) ?_
    intro heq
    exact hlive token (heq ▸ hl)
  · intro u hu
    rcases List.mem_cons.mp hu with rfl | hold
    · refine ⟨?_, fun hex => ((hexists _).mp hex).2 rfl⟩
      exact h.store.nonempty (keyOf target) (hkeys ▸ List.mem_map_of_mem hmem)
    · obtain ⟨hne, hgone⟩ := h.deleted u hold
      exact ⟨hne, fun hex => hgone ((hexists u).mp hex).1⟩

/-! ## Runs -/

/-- Every access keeps the invariant. -/
theorem Invariant.advance (h : Invariant s) (hget : s.tasks.get? i = some task)
    (horderly : TaskOrderly p s s.clock task)
    (hact : s.act p s.clock fresh task = some (s', rest)) : Invariant (s'.putTask i rest) := by
  have hok := h.tasks i task hget
  have hcollected : ∀ target tokens data, task = .deletePop target tokens data →
      ∀ token, LiveFor s token target.id → token ∈ tokens := by
    intro target tokens data heq
    exact h.collected i target tokens data (heq ▸ hget)
  unfold act at hact
  split at hact
  -- The write of a deletion ends its task, so the others are looked at without it.
  case h_8 target tokens data =>
    cases tokens with
    | cons token tokens =>
      refine (AccessOk.admin h hok ?_ hact).putTask hget
      intro target' tokens' data' heq
      refine ⟨?_, hcollected target' tokens' data' heq⟩
      cases heq
      simp
    | nil =>
      simp only [SessionState.admin, Option.some.injEq, Prod.mk.injEq] at hact
      rcases hact with ⟨rfl, rfl⟩
      have hended : Invariant (s.putTask i none) :=
        h.putTask hget fun _ hnext => by cases hnext
      have hother : ∀ j u, (s.putTask i none).tasks.get? j = some u →
          j ≠ i ∧ s.tasks.get? j = some u := by
        intro j u hu
        simp only [SessionState.putTask, Dict.get?_pop] at hu
        split at hu
        · contradiction
        rename_i hne
        exact ⟨Ne.symm hne, hu⟩
      refine hended.delete hok.1 hok.2 ?_ ?_ ?_
      · intro j u hu
        obtain ⟨hne, hold⟩ := hother j u hu
        by_contra hheld
        exact hne (h.exclusive j i u _ hold hget (by simpa using hheld) rfl)
      · intro token hlive
        simpa using hcollected target [] data rfl token hlive
      · intro j u hu
        exact horderly u (Dict.mem_values_iff.mpr ⟨j, (hother j u hu).2⟩)
  case h_1 | h_2 | h_3 | h_4 => exact (AccessOk.login h horderly hact).putTask hget
  case h_5 | h_6 | h_7 | h_9 =>
    refine (AccessOk.admin h hok ?_ hact).putTask hget
    intro target tokens data heq
    cases heq
  case h_10 | h_11 | h_12 => exact (AccessOk.revoke h hact).putTask hget
  case h_13 | h_14 | h_15 | h_16 => exact (AccessOk.find h hok horderly hact).putTask hget
  case h_17 | h_18 => exact (AccessOk.serve h hok hact).putTask hget

/-- A session's owner is the one that it names. -/
theorem get?_ownersOf {sessions : SessionFile} {u : String}
    (h : (ownersOf sessions).get? token = some u) :
    ∃ e, sessions.get? token = some e ∧ e.userId = u ∧ u ≠ "" := by
  rw [ownersOf, Dict.get?_mapValues] at h
  obtain ⟨e, hget, rfl⟩ := Option.map_eq_some_iff.mp h
  obtain ⟨hfile, hne⟩ := Dict.get?_filterValues_iff.mp hget
  exact ⟨e, hfile, rfl, by simpa using hne⟩

/-- The invariant holds at the start. -/
theorem invariant_init {accounts : AccountFile} {sessions : SessionFile} (clock : Instant)
    (hstore : WellFormed (keysOf accounts)) (howned : Owned accounts sessions) :
    Invariant (init clock accounts sessions) := by
  refine
    { store := hstore
      tasks := by simp [init]
      exclusive := by simp [init]
      live := ?_
      collected := by simp [init]
      created := ?_
      deleted := by simp [init]
      speaks := ⟨by simp [init], by simp [init]⟩ }
  · intro token userId hl
    rcases hl with ⟨e, hget, _, rfl, hne⟩
    exact (howned token e hget hne).2
  · intro token u hget
    obtain ⟨e, hfile, rfl, hne⟩ := get?_ownersOf hget
    refine ⟨hne, (howned token e hfile hne).1, ?_⟩
    intro e' hfile'
    cases hfile.symm.trans hfile'
    rfl

/-- A task arrives. -/
theorem Invariant.start (h : Invariant s)
    (hinitial : task.initial = true) : Invariant { s with tasks := s.tasks.set i task } := by
  have hunlocked : task.holdsUsers = false := by
    cases task <;> simp_all [Task.initial, Task.holdsUsers]
  have hcases : ∀ j u, (s.tasks.set i task).get? j = some u →
      u = task ∨ s.tasks.get? j = some u := by
    intro j u hu
    rcases Dict.get?_set_cases hu with ⟨_, rfl⟩ | ⟨_, hu⟩
    · exact .inl rfl
    · exact .inr hu
  refine
    { store := h.store
      tasks := ?_
      exclusive := ?_
      live := h.live
      collected := ?_
      created := h.created
      deleted := h.deleted
      speaks := ⟨h.speaks.answers, h.speaks.passes⟩ }
  · intro j u hu
    rcases hcases j u hu with rfl | hold
    · cases u <;> trivial
    · exact (h.tasks j u hold).congr rfl
  · intro j k t u ht hu hheldt hheldu
    rcases hcases j t ht with rfl | holdj
    · simp [hunlocked] at hheldt
    · rcases hcases k u hu with rfl | holdk
      · simp [hunlocked] at hheldu
      · exact h.exclusive j k t u holdj holdk hheldt hheldu
  · intro j target tokens data hj
    rcases hcases j _ hj with rfl | hold
    · simp [Task.holdsUsers] at hunlocked
    · exact h.collected j target tokens data hold

/-- Every step keeps the invariant. -/
theorem Invariant.step {event : SessionEvent}
    (h : Invariant s) (horderly : Orderly p s event) (hstep : s.step p event = some s') :
    Invariant s' := by
  cases event with
  | start i task =>
    simp only [SessionState.step] at hstep
    split at hstep
    · rename_i hstart
      cases hstep
      exact h.start hstart.1
    · contradiction
  | advance i now fresh =>
    simp only [SessionState.step] at hstep
    split at hstep
    · contradiction
    rename_i hclock
    split at hstep
    · contradiction
    rename_i task hget
    split at hstep
    · contradiction
    rename_i s'' rest hact
    cases hstep
    have hlater : Invariant { s with clock := now } :=
      h.frame (not_lt.mp hclock) rfl (fun _ _ hget => hget) rfl rfl rfl
        ⟨h.speaks.answers, h.speaks.passes⟩
    have htask : TaskOrderly p { s with clock := now } now task := by
      have hguard := horderly task hget
      cases task <;> exact hguard
    exact hlater.advance hget htask hact

/-- In orderly runs a session speaks only for its owner. -/
theorem speaks_of_orderly (p : SessionParams) (clock : Instant) (accounts : AccountFile)
    (sessions : SessionFile) (events : List SessionEvent) (s : SessionState)
    (hstore : WellFormed (keysOf accounts)) (howned : Owned accounts sessions)
    (hrun : run (SessionState.step p) (init clock accounts sessions) events = some s)
    (hguard : Guarded (SessionState.step p) (Orderly p) (init clock accounts sessions) events) :
    Speaks s :=
  (invariant_of_guarded_run (fun _ _ _ h horderly hstep => h.step horderly hstep)
    (invariant_init clock hstore howned) hguard hrun).speaks

/-! ### A login over a deletion -/

/-- An argon2 hash names its password. -/
def demoParams : SessionParams where
  env :=
    { argon2Hash := fun salt password => "$argon2id$" ++ salt ++ "$" ++ password
      argon2Verify := fun stored password => stored = "$argon2id$x$" ++ password
      needsRehash := fun _ => false
      sha256Hex := fun _ => ""
      lower := fun text => text }
  sessionTtl := 1209600
  longSessionTtl := 31536000
  passwordFileExists := false

def demoUser (id username : String) (isAdmin : Bool) : UserRecord :=
  ⟨id, username, none, none, some "$argon2id$x$pw", none, none, isAdmin,
    some defaultCapsForNewUser, none, none, none⟩

/-- The administrator comes first. -/
def demoAccounts : AccountFile :=
  .present ⟨[demoUser "r" "root" true, demoUser "a" "ada" false], some "r"⟩

def demoLogin : Task := .loginCheck "pw" (some "ada") "x" ⟨false, none⟩

def demoDelete : Task := .adminCheck .deleteUser "ada" "root"

/-- The deletion goes through between the verification and the new session; then the
session is looked up and presented with a request. -/
def deletionDuringLogin : List SessionEvent :=
  [.start 1 demoLogin, .advance 1 0 "", .start 2 demoDelete, .advance 2 0 "", .advance 2 0 "",
    .advance 2 0 "", .advance 2 0 "", .advance 1 0 "t", .start 3 (.lookup .sessionUser "t"),
    .advance 3 1 "", .advance 3 1 "", .advance 3 1 "", .advance 3 1 "",
    .start 4 (.request "t" none), .advance 4 1 "", .advance 4 1 ""]

/-- The session of a deleted user speaks for the first user, and passes. -/
theorem stranger_answered :
    ∃ s, run (SessionState.step demoParams) (init 0 demoAccounts Dict.empty)
        deletionDuringLogin = some s ∧
      (∃ a ∈ s.answers, ∃ profile, a.owner = some "a" ∧ a.result = some profile ∧
        profile.id = "r") ∧
      (∃ q ∈ s.passes, q.userId ∈ q.deleted) ∧ ¬Speaks s := by
  have hend : (run (SessionState.step demoParams) (init 0 demoAccounts Dict.empty)
      deletionDuringLogin).map (fun s => (s.answers, s.passes)) =
      some ([⟨some "a", some (publicUser [] (demoUser "r" "root" true)), ["a"]⟩],
        [⟨"a", false, ["a"]⟩]) := by
    decide
  obtain ⟨s, hrun, hs⟩ := Option.map_eq_some_iff.mp hend
  obtain ⟨hanswers, hpasses⟩ := Prod.mk.inj hs
  refine ⟨s, hrun, ?_, ?_, ?_⟩
  · rw [hanswers]
    exact ⟨_, List.mem_singleton_self _, _, rfl, rfl, rfl⟩
  · rw [hpasses]
    exact ⟨_, List.mem_singleton_self _, by decide⟩
  · intro hspeaks
    have hpass := hspeaks.passes
    rw [hpasses] at hpass
    exact absurd (hpass _ (List.mem_singleton_self _)) (by decide)

/-- The user logs in, is answered as herself, and is answered nothing once deleted. -/
def deletionAfterLogin : List SessionEvent :=
  [.start 1 demoLogin, .advance 1 0 "", .advance 1 0 "t", .start 3 (.lookup .getUser "t"),
    .advance 3 1 "", .advance 3 1 "", .advance 3 1 "", .start 2 demoDelete, .advance 2 2 "",
    .advance 2 2 "", .advance 2 2 "", .advance 2 2 "", .advance 2 2 "",
    .start 4 (.lookup .sessionUser "t"), .advance 4 3 "", .start 5 (.request "t" none),
    .advance 5 3 ""]

/-- A login before the deletion of its account. -/
theorem speaks_of_orderly_deletion :
    ∃ s, run (SessionState.step demoParams) (init 0 demoAccounts Dict.empty)
        deletionAfterLogin = some s ∧ Speaks s := by
  obtain ⟨s, hrun⟩ := Option.isSome_iff_exists.mp
    (by decide : (run (SessionState.step demoParams) (init 0 demoAccounts Dict.empty)
      deletionAfterLogin).isSome)
  have hstore : WellFormed (keysOf demoAccounts) := ⟨by decide, by decide, by decide⟩
  have howned : Owned demoAccounts Dict.empty := fun _ _ hget => by simp at hget
  exact ⟨s, hrun, speaks_of_orderly _ _ _ _ _ _ hstore howned hrun (by decide)⟩

end SessionState

end TinyAgentOS.Auth
