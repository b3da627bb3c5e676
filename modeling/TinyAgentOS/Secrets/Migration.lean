import TinyAgentOS.Secrets.SecretsStore

/-!
# The value that was written last

A reader of a value in the legacy format writes it back, encrypted anew, and may overwrite what
another call has written since it read.  As long as it does not, and no call fails on its list of
agents once its value is stored, every secret holds the value that was written last, and reading
changes none.

Main results:

- `step_kept`: a statement keeps the rows and the last writes together.
- `plaintext_of_reads`: a statement that reads changes no value.
- `holdsLast_of_guarded_run`: what the calls leave behind when all have completed.
-/

namespace TinyAgentOS.Secrets

open Collections Transition

/-- The call may have written a value, and has not failed. -/
def Call.writing : Call → Bool
  | .running .. => true
  | .returned _ => true
  | _ => false

/-- The call comes to a statement of `get`, `list` or `get_agent_secrets`, or to the
migration of a value that one of them has read. -/
def Call.reading : Call → Bool
  | .selecting .. => true
  | .selectingAgents .. => true
  | .migrating .. => true
  | .listing _ => true
  | .listingAgents .. => true
  | .selectingForAgent _ => true
  | _ => false

/-- The call has returned or failed. -/
def Call.completed : Call → Bool
  | .returned _ => true
  | .failed => true
  | _ => false

namespace State

/-- The last write of a value to a secret. -/
def lastWrite (s : State) (secretId : Nat) : Option Write :=
  s.writes.find? fun w => w.secretId = secretId

/-- The value was there before all calls, or its call has returned. -/
def succeeded (s : State) : Option Nat → Bool
  | none => true
  | some id =>
    match s.calls.get? id with
    | some (.returned _) => true
    | _ => false

/-- The last write of a value to a secret by a call that has returned. -/
def lastSuccess (s : State) (secretId : Nat) : Option Write :=
  s.writes.find? fun w => decide (w.secretId = secretId) && s.succeeded w.caller

def Completed (s : State) : Prop :=
  ∀ id call, s.calls.get? id = some call → call.completed = true

/-- The decrypted value of every secret is the one that was written last with success. -/
def HoldsLast (c : Cipher) (s : State) : Prop :=
  ∀ secretId row, s.secrets.get? secretId = some row →
    ∃ w, s.lastSuccess secretId = some w ∧ decrypt c row.value = some w.value

/-- What a reader of a secret would get. -/
def plaintext (c : Cipher) (s : State) (secretId : Nat) : Option String :=
  (s.secrets.get? secretId).bind fun row => decrypt c row.value

/-- The event is a statement that reads. -/
def Reads (s : State) : Event → Prop
  | .call .. => False
  | .go id _ => ∃ call, s.calls.get? id = some call ∧ call.reading = true

/-- A migration finds the value that was read, and no call fails on its list of agents while the
value that it wrote is the last one of a secret. -/
def Unraced (c : Cipher) (s : State) : Event → Prop
  | .call .. => True
  | .go id _ =>
    match s.calls.get? id with
    | some (.migrating secretId plaintext _) =>
      ∀ row, s.secrets.get? secretId = some row → decrypt c row.value = some plaintext
    | some (.running (.insertAccess secretId agentName) _ _) =>
      (s.insertAccess secretId agentName).isSome = true ∨
        ∀ other row w, s.secrets.get? other = some row → s.lastWrite other = some w →
          w.caller ≠ some id
    | _ => True

/-! ## Rows and last writes -/

/-- A write is older than all calls, or its call has not failed. -/
def Live (s : State) : Option Nat → Prop
  | none => True
  | some id => ∃ call, s.calls.get? id = some call ∧ call.writing = true

/-- Every secret holds the value that was written last. -/
def Kept (c : Cipher) (s : State) : Prop :=
  ∀ secretId row, s.secrets.get? secretId = some row →
    ∃ w, s.lastWrite secretId = some w ∧ decrypt c row.value = some w.value ∧ s.Live w.caller

variable {c : Cipher} {s s' : State}

variable {call : Call} {id secretId : Nat} {value name random : String}

theorem live_put {caller : Option Nat}
    (hcall : call.writing = true ∨ ∀ old, s.calls.get? id = some old → old.writing = false)
    (h : s.Live caller) : (s.put id call).Live caller := by
  cases caller with
  | none => trivial
  | some other =>
    obtain ⟨old, hget, hold⟩ := h
    by_cases heq : id = other
    · subst heq
      rcases hcall with hwriting | hidle
      · exact ⟨call, Dict.get?_set_self _ _ _, hwriting⟩
      · rw [hidle old hget] at hold
        contradiction
    · exact ⟨old, (Dict.get?_set_of_ne _ _ heq).trans hget, hold⟩

theorem live_put_self (hcall : call.writing = true) : (s.put id call).Live (some id) :=
  ⟨call, Dict.get?_set_self _ _ _, hcall⟩

theorem secretId_of_lastWrite {w : Write} (h : s.lastWrite secretId = some w) :
    w.secretId = secretId := by
  unfold lastWrite at h
  exact of_decide_eq_true (List.find?_some h :)

/-- Rows that keep their values, or go. -/
theorem Kept.mono (h : s.Kept c) (hwrites : s'.writes = s.writes)
    (hrows : ∀ secretId row', s'.secrets.get? secretId = some row' →
      ∃ row, s.secrets.get? secretId = some row ∧ decrypt c row'.value = decrypt c row.value)
    (hlive : ∀ caller, s.Live caller → s'.Live caller) : s'.Kept c := by
  intro secretId row' hget'
  obtain ⟨row, hget, hvalue⟩ := hrows secretId row' hget'
  obtain ⟨w, hlast, hrow, hw⟩ := h secretId row hget
  refine ⟨w, ?_, hvalue.trans hrow, hlive w.caller hw⟩
  unfold lastWrite
  rw [hwrites]
  exact hlast

/-- A call writes a value to one row. -/
theorem Kept.record (h : s.Kept c) (hwrites : s'.writes = ⟨secretId, some id, value⟩ :: s.writes)
    (hrow : ∀ row', s'.secrets.get? secretId = some row' → decrypt c row'.value = some value)
    (hother : ∀ other, secretId ≠ other → s'.secrets.get? other = s.secrets.get? other)
    (hlive : ∀ caller, s.Live caller → s'.Live caller) (hid : s'.Live (some id)) : s'.Kept c := by
  intro other row' hget'
  unfold lastWrite
  rw [hwrites]
  by_cases heq : secretId = other
  · subst heq
    refine ⟨⟨secretId, some id, value⟩, ?_, hrow row' hget', hid⟩
    exact List.find?_cons_of_pos (decide_eq_true rfl)
  · rw [hother other heq] at hget'
    obtain ⟨w, hlast, hvalue, hw⟩ := h other row' hget'
    refine ⟨w, ?_, hvalue, hlive w.caller hw⟩
    rw [List.find?_cons_of_neg (by simpa using heq)]
    exact hlast

/-- A call that did not write the last value of any secret fails. -/
theorem Kept.fail (h : s.Kept c)
    (hguard : ∀ other row w, s.secrets.get? other = some row → s.lastWrite other = some w →
      w.caller ≠ some id) : (s.put id .failed).Kept c := by
  intro secretId row hget
  obtain ⟨w, hlast, hvalue, hw⟩ := h secretId row hget
  refine ⟨w, hlast, hvalue, ?_⟩
  have hne := hguard secretId row w hget hlast
  cases hcaller : w.caller with
  | none => trivial
  | some other =>
    rw [hcaller] at hw hne
    obtain ⟨call, hcall, hwriting⟩ := hw
    have hother : id ≠ other := fun heq => hne (congrArg some heq.symm)
    exact ⟨call, (Dict.get?_set_of_ne _ _ hother).trans hcall, hwriting⟩

/-- A call goes on and leaves the rows alone. -/
theorem Kept.put (h : s.Kept c)
    (hcall : call.writing = true ∨ ∀ old, s.calls.get? id = some old → old.writing = false) :
    (s.put id call).Kept c :=
  h.mono rfl (fun _ row' hget => ⟨row', hget, rfl⟩) fun _ => live_put hcall

/-! ## Statements -/

variable {f : Secret → Secret} {stmt : Statement}

/-- A change of a row that leaves its value alone. -/
theorem rows_updateRow (hf : ∀ row, (f row).value = row.value) {row' : Secret}
    (hget : (s.updateRow name f).secrets.get? secretId = some row') :
    ∃ row, s.secrets.get? secretId = some row ∧ decrypt c row'.value = decrypt c row.value := by
  unfold updateRow at hget
  split at hget
  · exact ⟨row', hget, rfl⟩
  · rcases Dict.get?_modify_cases hget with ⟨_, row, hrow, rfl⟩ | ⟨_, hrow⟩
    · exact ⟨row, hrow, congrArg (decrypt c) (hf row)⟩
    · exact ⟨row', hrow, rfl⟩

theorem writes_updateRow (name : String) (f : Secret → Secret) :
    (s.updateRow name f).writes = s.writes := by
  unfold updateRow
  split <;> rfl

theorem calls_updateRow (name : String) (f : Secret → Secret) :
    (s.updateRow name f).calls = s.calls := by
  unfold updateRow
  split <;> rfl

/-- A call changes a row and leaves its value alone. -/
theorem Kept.updateRow (h : s.Kept c)
    (hf : ∀ row, (f row).value = row.value) (hcall : call.writing = true) :
    ((s.updateRow name f).put id call).Kept c := by
  refine h.mono (writes_updateRow name f) (fun _ _ => rows_updateRow hf) ?_
  intro caller hlive
  apply live_put (Or.inl hcall)
  unfold Live
  rw [calls_updateRow]
  exact hlive

/-- The row that is stored can be decrypted, and the others stay. -/
theorem get?_storeValue {other : Nat} {ciphertext : String} {row : Secret}
    (hget : (s.storeValue secretId ciphertext).secrets.get? other = some row) :
    secretId = other ∧ row.value = ciphertext ∧ (∃ old, s.secrets.get? other = some old) ∨
      secretId ≠ other ∧ s.secrets.get? other = some row := by
  rcases Dict.get?_modify_cases hget with ⟨heq, old, hold, rfl⟩ | ⟨hne, hrow⟩
  · exact Or.inl ⟨heq, rfl, old, hold⟩
  · exact Or.inr ⟨hne, hrow⟩

theorem afterStatements_writing (stmts : List Statement) (result : Result) :
    (Call.afterStatements stmts result).writing = true := by
  cases stmts <;> rfl

/-- A statement that a call has carried out. -/
theorem Kept.apply (h : s.Kept c) (hc : c.Lawful) (hcall : call.writing = true)
    (happly : s.apply c id random stmt = some s') : (s'.put id call).Kept c := by
  cases stmt with
  | setValue name value =>
    simp only [apply] at happly
    split at happly
    · cases happly
      exact h.put (Or.inl hcall)
    · rename_i e he
      cases happly
      refine h.record rfl ?_ ?_ (fun _ => live_put (Or.inl hcall)) (live_put_self hcall)
      · intro row' hget
        rcases get?_storeValue hget with ⟨_, hvalue, _⟩ | ⟨hne, _⟩
        · rw [hvalue]
          exact decrypt_encrypt hc random value
        · exact absurd rfl hne
      · intro other hne
        exact (Dict.get?_modify _ _ _ _).trans (if_neg hne)
  | setCategory | setDescription =>
    cases happly
    exact h.updateRow (fun _ => rfl) hcall
  | dropAccess secretId =>
    cases happly
    exact h.put (Or.inl hcall)
  | insertAccess secretId agentName =>
    simp only [apply, insertAccess] at happly
    split at happly
    · contradiction
    cases happly
    exact h.put (Or.inl hcall)

/-- Nothing but an access row makes a statement fail. -/
theorem apply_eq_none (happly : s.apply c id random stmt = none) :
    ∃ secretId agentName, stmt = .insertAccess secretId agentName ∧
      s.insertAccess secretId agentName = none := by
  cases stmt with
  | setValue name value =>
    simp only [State.apply] at happly
    split at happly <;> contradiction
  | insertAccess secretId agentName => exact ⟨secretId, agentName, rfl, happly⟩
  | _ => contradiction

theorem Kept.insert (h : s.Kept c) (hc : c.Lawful) {args : AddArgs}
    (hidle : ∀ old, s.calls.get? id = some old → old.writing = false) :
    (s.insert c id random args).Kept c := by
  unfold State.insert
  split
  · exact h.put (Or.inr hidle)
  · have hcall := afterStatements_writing (args.agents.map (.insertAccess s.nextId))
      (.secretId s.nextId)
    refine h.record rfl ?_ ?_ (fun _ => live_put (Or.inl hcall)) (live_put_self hcall)
    · intro row' hget
      cases (Dict.get?_set_self _ _ _).symm.trans hget
      exact decrypt_encrypt hc random args.value
    · intro other hne
      exact Dict.get?_set_of_ne _ _ hne

theorem Kept.delete (h : s.Kept c) : (s.delete id name).Kept c := by
  unfold State.delete
  split
  · exact h.put (Or.inl rfl)
  · refine h.mono rfl ?_ fun _ => live_put (Or.inl rfl)
    intro secretId row' hget
    exact ⟨row', (Dict.get?_pop_cases hget).2, rfl⟩

/-- A migration writes back the value that is there. -/
theorem plaintext_storeValue (hc : c.Lawful)
    (hvalue : ∀ row, s.secrets.get? secretId = some row → decrypt c row.value = some value)
    (other : Nat) :
    (s.storeValue secretId (encrypt c random value)).plaintext c other = s.plaintext c other := by
  unfold plaintext storeValue
  rw [Dict.get?_modify]
  by_cases heq : secretId = other
  · subst heq
    rw [if_pos rfl]
    cases hget : s.secrets.get? secretId with
    | none => rfl
    | some row => exact (decrypt_encrypt hc random value).trans (hvalue row hget).symm
  · rw [if_neg heq]

theorem Kept.migrate (h : s.Kept c) (hc : c.Lawful)
    (hidle : ∀ old, s.calls.get? id = some old → old.writing = false)
    (hvalue : ∀ row, s.secrets.get? secretId = some row → decrypt c row.value = some value) :
    ((s.storeValue secretId (encrypt c random value)).put id call).Kept c := by
  refine h.mono rfl ?_ fun _ => live_put (Or.inr hidle)
  intro other row' hget
  rcases get?_storeValue hget with ⟨rfl, hrow, old, hold⟩ | ⟨_, hrow⟩
  · refine ⟨old, hold, ?_⟩
    rw [hrow, hvalue old hold]
    exact decrypt_encrypt hc random value
  · exact ⟨row', hrow, rfl⟩

theorem exec_kept (h : s.Kept c) (hc : c.Lawful)
    (hcall : s.calls.get? id = some call) (hguard : s.Unraced c (.go id random))
    (hexec : s.exec c id random call = some s') : s'.Kept c := by
  have hidle : call.writing = false →
      ∀ old, s.calls.get? id = some old → old.writing = false := by
    intro hwriting old hget
    rw [hcall] at hget
    cases hget
    exact hwriting
  cases call with
  | inserting args =>
    cases hexec
    exact h.insert hc (hidle rfl)
  | running next rest result =>
    simp only [exec] at hexec
    split at hexec
    · rename_i happly
      cases hexec
      obtain ⟨secretId, agentName, rfl, hnone⟩ := apply_eq_none happly
      simp only [Unraced, hcall, hnone] at hguard
      exact h.fail (hguard.resolve_left fun hsome => by contradiction)
    · rename_i t happly
      cases hexec
      exact h.apply hc (afterStatements_writing rest result) happly
  | selecting name reader =>
    simp only [exec] at hexec
    split at hexec <;> cases hexec
    · exact h.put (Or.inl rfl)
    · exact h.put (Or.inl rfl)
    · exact h.put (Or.inr (hidle rfl))
  | selectingAgents | listing | listingAgents | selectingForAgent =>
    cases hexec
    exact h.put (Or.inr (hidle rfl))
  | migrating secretId value k =>
    cases hexec
    simp only [Unraced, hcall] at hguard
    exact h.migrate hc (hidle rfl) hguard
  | deleting name =>
    cases hexec
    exact h.delete
  | returned | failed => contradiction

/-- A statement keeps the rows and the last writes together, if it meets the guard. -/
theorem step_kept (h : s.Kept c) (hc : c.Lawful) {e : Event} (hguard : s.Unraced c e)
    (hstep : s.step c e = some s') : s'.Kept c := by
  cases e with
  | call id operation =>
    simp only [step] at hstep
    split at hstep
    · contradiction
    rename_i hnew
    cases hstep
    refine h.put (Or.inr ?_)
    intro old hget
    rw [hget] at hnew
    exact absurd rfl hnew
  | go id random =>
    obtain ⟨call, hcall, hexec⟩ := Option.bind_eq_some_iff.mp hstep
    exact exec_kept h hc hcall hguard hexec

/-- A statement that reads changes no value, if it meets the guard. -/
theorem plaintext_of_reads (hc : c.Lawful) {e : Event} (hguard : s.Unraced c e)
    (hstep : s.step c e = some s') (hreads : s.Reads e) (secretId : Nat) :
    s'.plaintext c secretId = s.plaintext c secretId := by
  cases e with
  | call id operation => exact hreads.elim
  | go id random =>
    obtain ⟨call, hcall, hreading⟩ := hreads
    obtain ⟨_, hcall', hexec⟩ := Option.bind_eq_some_iff.mp hstep
    rw [hcall] at hcall'
    cases hcall'
    cases call with
    | selecting name reader =>
      simp only [exec] at hexec
      split at hexec <;> cases hexec <;> rfl
    | migrating other value k =>
      cases hexec
      simp only [Unraced, hcall] at hguard
      exact plaintext_storeValue hc hguard secretId
    | selectingAgents | listing | listingAgents | selectingForAgent =>
      cases hexec
      rfl
    | _ => contradiction

/-! ## Runs -/

/-- Before all calls, every value that can be decrypted is the one that was written last. -/
theorem kept_start {secrets : Dict Nat Secret} {nextId : Nat} {access : List (Nat × String)}
    (hstored : ∀ secretId row, secrets.get? secretId = some row →
      (decrypt c row.value).isSome = true) : (start c secrets nextId access).Kept c := by
  intro secretId row hget
  obtain ⟨value, hvalue⟩ := Option.isSome_iff_exists.mp (hstored secretId row hget)
  have hmem : (⟨secretId, none, value⟩ : Write) ∈ (start c secrets nextId access).writes := by
    refine List.mem_filterMap.mpr ⟨(secretId, row), Dict.mem_entries_iff.mpr hget, ?_⟩
    rw [hvalue]
    rfl
  have hfound : ((start c secrets nextId access).lastWrite secretId).isSome = true :=
    List.find?_isSome.mpr ⟨_, hmem, decide_eq_true rfl⟩
  obtain ⟨w, hlast⟩ := Option.isSome_iff_exists.mp hfound
  obtain ⟨⟨other, row'⟩, hentry, hw⟩ :=
    List.mem_filterMap.mp (List.mem_of_find?_eq_some hlast)
  obtain ⟨value', hvalue', rfl⟩ := Option.map_eq_some_iff.mp hw
  obtain rfl : other = secretId := secretId_of_lastWrite hlast
  cases (Dict.mem_entries_iff.mp hentry).symm.trans hget
  exact ⟨_, hlast, hvalue', trivial⟩

/-- Once all calls have completed, the last write is the last one with success. -/
theorem holdsLast_of_kept (h : s.Kept c) (hcompleted : s.Completed) : s.HoldsLast c := by
  intro secretId row hget
  obtain ⟨w, hlast, hvalue, hlive⟩ := h secretId row hget
  refine ⟨w, ?_, hvalue⟩
  have hsuccess : s.succeeded w.caller = true := by
    cases hcaller : w.caller with
    | none => rfl
    | some id =>
      rw [hcaller] at hlive
      obtain ⟨call, hcall, hwriting⟩ := hlive
      have hdone := hcompleted id call hcall
      simp only [succeeded, hcall]
      cases call with
      | returned result => rfl
      | _ => contradiction
  obtain ⟨hsecret, before, after, hsplit, hbefore⟩ := List.find?_eq_some_iff_append.mp hlast
  refine List.find?_eq_some_iff_append.mpr ⟨?_, before, after, hsplit, ?_⟩
  · rw [hsecret, hsuccess]
    rfl
  · intro w' hw'
    have hother := hbefore w' hw'
    simp only [Bool.not_eq_eq_eq_not, Bool.not_true] at hother ⊢
    rw [hother]
    rfl

/-- Where no reader writes back a value that is no longer there and no call fails once its value is
the last one, the calls leave the values that were written last, and reading changes none. -/
theorem holdsLast_of_guarded_run (hc : c.Lawful) {secrets : Dict Nat Secret} {nextId : Nat}
    {access : List (Nat × String)}
    (hstored : ∀ secretId row, secrets.get? secretId = some row →
      (decrypt c row.value).isSome = true) {events : List Event}
    (hguard : Guarded (step c) (Unraced c) (start c secrets nextId access) events)
    (hrun : run (step c) (start c secrets nextId access) events = some s) :
    (s.Completed → s.HoldsLast c) ∧
      EveryStep (step c)
        (fun t e t' => t.Reads e → ∀ secretId, t'.plaintext c secretId = t.plaintext c secretId)
        (start c secrets nextId access) events := by
  constructor
  · exact holdsLast_of_kept (invariant_of_guarded_run
      (fun _ _ _ h hguard hstep => step_kept h hc hguard hstep) (kept_start hstored) hguard hrun)
  · exact everyStep_of_guarded
      (fun _ _ _ hguard hstep hreads => plaintext_of_reads hc hguard hstep hreads) hguard

/-! ## A reader and a rotation -/

/-- A cipher that leaves texts as they are. -/
def plainCipher : Cipher :=
  { fernetEncrypt := fun _ value => value
    fernetDecrypt := some
    xorDecrypt := some }

theorem lawful_plainCipher : plainCipher.Lawful :=
  ⟨fun _ _ => rfl⟩

/-- One secret in the legacy format. -/
def legacySecrets : Dict Nat Secret :=
  ⟨[(1, ⟨"token", "general", "old", ""⟩)], List.nodup_singleton _⟩

theorem stored_legacySecrets : ∀ secretId row, legacySecrets.get? secretId = some row →
    (decrypt plainCipher row.value).isSome = true := by
  intro secretId row hget
  have hentry := Dict.mem_entries_iff.mpr hget
  cases List.mem_singleton.mp hentry
  rfl

/-- The secret is read, and then rotated. -/
def readThenRotate : List Event :=
  [.call 0 (.get "token"), .go 0 "", .go 0 "", .go 0 "",
    .call 1 (.update { name := "token", value := some "new" }), .go 1 "", .go 1 "", .go 1 ""]

/-- The secret is rotated after a reader has read it and before the reader writes it back. -/
def rotateInBetween : List Event :=
  [.call 0 (.get "token"), .go 0 "", .go 0 "",
    .call 1 (.update { name := "token", value := some "new" }), .go 1 "", .go 1 "", .go 1 "",
    .go 1 "", .go 0 ""]

theorem guarded_readThenRotate :
    Guarded (step plainCipher) (Unraced plainCipher) (start plainCipher legacySecrets 2 [])
      readThenRotate := by
  refine ⟨trivial, trivial, trivial, ?_, trivial, trivial, trivial, trivial, trivial⟩
  intro row hget
  cases List.mem_singleton.mp (Dict.mem_entries_iff.mpr hget)
  rfl

theorem holdsLast_readThenRotate :
    ∃ s, run (step plainCipher) (start plainCipher legacySecrets 2 []) readThenRotate = some s ∧
      s.plaintext plainCipher 1 = some "new" ∧ (s.Completed → s.HoldsLast plainCipher) ∧
      EveryStep (step plainCipher)
        (fun t e t' => t.Reads e →
          ∀ secretId, t'.plaintext plainCipher secretId = t.plaintext plainCipher secretId)
        (start plainCipher legacySecrets 2 []) readThenRotate := by
  refine ⟨_, rfl, by decide, ?_⟩
  exact holdsLast_of_guarded_run lawful_plainCipher stored_legacySecrets guarded_readThenRotate rfl

/-- Both calls have returned. -/
theorem completed_rotateInBetween {s : State}
    (hrun : run (step plainCipher) (start plainCipher legacySecrets 2 []) rotateInBetween =
      some s) : s.Completed := by
  cases hrun
  intro id call hget
  have hentry : (id, call) ∈
      [(0, Call.returned (.found (some ⟨1, "token", "general", "old", "", []⟩))),
        (1, .returned (.flag true))] := Dict.mem_entries_iff.mpr hget
  simp only [List.mem_cons, List.not_mem_nil, or_false, Prod.mk.injEq] at hentry
  rcases hentry with ⟨_, rfl⟩ | ⟨_, rfl⟩
  · rfl
  · rfl

/-- The reader has put the old value back, over the one that was written last. -/
theorem not_holdsLast_rotateInBetween :
    ∃ s, run (step plainCipher) (start plainCipher legacySecrets 2 []) rotateInBetween = some s ∧
      s.plaintext plainCipher 1 = some "old" ∧ s.lastSuccess 1 = some ⟨1, some 1, "new"⟩ ∧
      ¬ (s.Completed → s.HoldsLast plainCipher) := by
  refine ⟨_, rfl, by decide, by decide, ?_⟩
  intro h
  obtain ⟨w, hlast, hvalue⟩ := h (completed_rotateInBetween rfl) 1 _ rfl
  cases hlast
  exact absurd hvalue (by decide)

end State

end TinyAgentOS.Secrets
