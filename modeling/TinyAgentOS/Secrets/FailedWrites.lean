import TinyAgentOS.Library.Attempt
import TinyAgentOS.Secrets.SecretsStore
import Mathlib.Data.Finset.Insert
import Mathlib.Data.Finset.Filter

/-!
# Secret writes that raise

A call of the store is a sequence of statements with one commit at its end.  A call that raises
leaves what it has written in the open transaction, and the next commit, whoever makes it, takes
that along.

Main results:

- `unseen_iff_eq`: what no later commit shows is what was not written.
- `unseen_iff`: the failed calls of which nothing is seen.
- `not_unseen`: a secret of a call that failed.
-/

namespace TinyAgentOS.Secrets

open Raising

/-! ## The tables -/

structure SecretRow where
  id : Nat
  category : String
  value : String
  description : String
  createdAt : Int
  updatedAt : Int

/-- The rows of `secrets` by their names, the pairs of `secret_access`, and the id that
comes next. -/
structure Tables where
  secrets : String → Option SecretRow
  access : Finset (Nat × String)
  nextId : Nat

def Tables.withAccess (t : Tables) (access : Finset (Nat × String)) : Tables :=
  { t with access := access }

/-- What is committed, and what the statements of the connection see. -/
structure Store where
  committed : Tables
  working : Tables

def Store.put (s : Store) (t : Tables) : Store := ⟨s.committed, t⟩

/-- Why a call raises: a constraint of a table, or a value that cannot be decrypted. -/
inductive WriteError where
  | integrity
  | undecryptable
deriving DecidableEq

/-- The ciphers, the random part of the encryptions, and the times that are read. -/
structure WriteEnv where
  cipher : Cipher
  upgradeRandom : String
  random : String
  upgradedAt : Int
  now : Int

/-- A statement that writes, or violates a constraint and writes nothing. -/
def execute (f : Tables → Option Tables) : Attempt Store WriteError Unit := fun s =>
  match f s.working with
  | none => (.error .integrity, s)
  | some t => (.ok (), s.put t)

def commit : Attempt Store WriteError Unit := fun s => (.ok (), ⟨s.working, s.working⟩)

def insertSecret (env : WriteEnv) (args : AddArgs) (t : Tables) : Option Tables :=
  if (t.secrets args.name).isSome then none
  else
    let row := ⟨t.nextId, args.category, encrypt env.cipher env.random args.value, args.description,
      env.now, env.now⟩
    some { t with
      secrets := Function.update t.secrets args.name (some row), nextId := t.nextId + 1 }

def insertAccess (secretId : Nat) (agent : String) (t : Tables) : Option Tables :=
  if (secretId, agent) ∈ t.access then none
  else some (t.withAccess (insert (secretId, agent) t.access))

/-- An `UPDATE` of one row. -/
def editSecret (name : String) (edit : SecretRow → SecretRow) (t : Tables) : Tables :=
  { t with secrets := Function.update t.secrets name ((t.secrets name).map edit) }

def dropAccess (secretId : Nat) (t : Tables) : Tables :=
  t.withAccess (t.access.filter fun p => p.1 ≠ secretId)

/-! ## The calls -/

/-- `add`. -/
def add (env : WriteEnv) (args : AddArgs) : Attempt Store WriteError Nat := do
  let secretId ← read fun s => s.working.nextId
  execute (insertSecret env args)
  forEach (fun agent => execute (insertAccess secretId agent)) args.agents
  commit
  pure secretId

/-- `_dec`: a legacy value is stored anew, and committed. -/
def dec (env : WriteEnv) (name : String) (row : SecretRow) : Attempt Store WriteError String :=
  match decrypt env.cipher row.value with
  | none => raise .undecryptable
  | some plaintext =>
    if isFernet row.value then pure plaintext
    else do
      execute fun t => some (editSecret name (fun row => { row with
        value := encrypt env.cipher env.upgradeRandom plaintext, updatedAt := env.upgradedAt }) t)
      commit
      pure plaintext

/-- The columns that are given, in the order in which they are written. -/
def columnEdits (env : WriteEnv) (args : UpdateArgs) : List (SecretRow → SecretRow) :=
  (args.value.toList.map fun value row =>
      { row with value := encrypt env.cipher env.random value, updatedAt := env.now }) ++
    (args.category.toList.map fun category row =>
      { row with category := category, updatedAt := env.now }) ++
    args.description.toList.map fun description row =>
      { row with description := description, updatedAt := env.now }

/-- `update`. -/
def update (env : WriteEnv) (args : UpdateArgs) : Attempt Store WriteError Bool := do
  let found ← read fun s => s.working.secrets args.name
  match found with
  | none => pure false
  | some row => do
      let _ ← dec env args.name row
      forEach (fun edit => execute fun t => some (editSecret args.name edit t))
        (columnEdits env args)
      match args.agents with
      | none => pure ()
      | some agents => do
          execute fun t => some (dropAccess row.id t)
          forEach (fun agent => execute (insertAccess row.id agent)) agents
      commit
      pure true

inductive WriteCall where
  | add (args : AddArgs)
  | update (args : UpdateArgs)

/-- The call, with its result left out. -/
def WriteCall.run (env : WriteEnv) : WriteCall → Attempt Store WriteError Unit
  | .add args => do
      let _ ← Secrets.add env args
      pure ()
  | .update args => do
      let _ ← Secrets.update env args
      pure ()

/-! ## Later operations -/

/-- Operations that commit, one after the other; each is what it makes of the tables. -/
def later (ops : List (Tables → Tables)) (s : Store) : Store :=
  ops.foldl (fun s op => ⟨op s.working, op s.working⟩) s

/-- The database is as if the call had not been made, whatever is committed later.  The deletion of
a name that nobody has is an operation, and changes nothing. -/
def Unseen (s s' : Store) : Prop := ∀ ops, (later ops s').committed = (later ops s).committed

variable {s' : Store} {args : UpdateArgs} {row : SecretRow}

/-- What no later commit shows is what was not written. -/
theorem unseen_iff_eq {s : Store} : Unseen s s' ↔ s' = s := by
  constructor
  · intro h
    have hcommitted : s'.committed = s.committed := h []
    have hworking : s'.working = s.working := h [id]
    cases s
    cases s'
    simp_all
  · rintro rfl
    exact fun _ => rfl

/-! ## What a failed call has written -/

/-- The pairs after the insertions up to the first that is there already, and whether there is
none. -/
def granted (secretId : Nat) : Finset (Nat × String) → List String → Finset (Nat × String) × Bool
  | access, [] => (access, true)
  | access, agent :: agents =>
    if (secretId, agent) ∈ access then (access, false)
    else granted secretId (insert (secretId, agent) access) agents

/-- The grants are written until one fails. -/
theorem forEach_insertAccess (secretId : Nat) (agents : List String) (s : Store) :
    forEach (fun agent => execute (insertAccess secretId agent)) agents s =
      (if (granted secretId s.working.access agents).2 then .ok () else .error .integrity,
        s.put (s.working.withAccess (granted secretId s.working.access agents).1)) := by
  induction agents generalizing s with
  | nil => rfl
  | cons agent agents ih =>
    rw [forEach, granted]
    by_cases htaken : (secretId, agent) ∈ s.working.access
    · have hfails : execute (insertAccess secretId agent) s = (.error .integrity, s) := by
        simp [execute, insertAccess, htaken]
      rw [bind_of_error hfails, if_pos htaken]
      rfl
    · have hdone : execute (insertAccess secretId agent) s = (.ok (),
          s.put (s.working.withAccess (insert (secretId, agent) s.working.access))) := by
        simp [execute, insertAccess, htaken, Tables.withAccess]
      rw [bind_of_ok hdone, ih, if_neg htaken]
      rfl

/-- The edits are written one after the other. -/
theorem forEach_editSecret (name : String) (edits : List (SecretRow → SecretRow)) (s : Store) :
    forEach (fun edit => execute fun t => some (editSecret name edit t)) edits s =
      (.ok (), s.put
        (editSecret name (fun row => edits.foldl (fun row edit => edit row) row) s.working)) := by
  induction edits generalizing s with
  | nil => simp [forEach, pure_apply, Store.put, editSecret]
  | cons edit edits ih =>
    have hdone : (execute fun t => some (editSecret name edit t)) s =
        (.ok (), s.put (editSecret name edit s.working)) := rfl
    rw [forEach, bind_of_ok hdone, ih]
    simp [Store.put, editSecret, Function.comp_def]

/-- The names before the first that is repeated. -/
def firstsOf (seen : List String) : List String → List String
  | [] => []
  | agent :: agents =>
    if agent ∈ seen then [] else agent :: firstsOf (agent :: seen) agents

/-- What is granted before an insertion fails. -/
theorem mem_granted_iff {secretId : Nat} {access : Finset (Nat × String)} {seen : List String}
    (hseen : ∀ agent, (secretId, agent) ∈ access ↔ agent ∈ seen) (agents : List String)
    (p : Nat × String) :
    p ∈ (granted secretId access agents).1 ↔
      p ∈ access ∨ p.1 = secretId ∧ p.2 ∈ firstsOf seen agents := by
  induction agents generalizing access seen with
  | nil => simp [granted, firstsOf]
  | cons agent agents ih =>
    rw [granted, firstsOf]
    by_cases htaken : agent ∈ seen
    · rw [if_pos ((hseen agent).mpr htaken), if_pos htaken]
      simp
    · have hinsert : ∀ a, (secretId, a) ∈ insert (secretId, agent) access ↔
          a ∈ agent :: seen := by
        simp [hseen]
      rw [if_neg (fun h => htaken ((hseen agent).mp h)), if_neg htaken,
        ih hinsert, Finset.mem_insert, List.mem_cons, Prod.ext_iff]
      tauto

/-- The given columns of a row. -/
def edited (env : WriteEnv) (args : UpdateArgs) (row : SecretRow) : SecretRow :=
  (columnEdits env args).foldl (fun row edit => edit row) row

/-- A secret of that name is there already; or the stored value cannot be decrypted, or is no legacy
one and the given columns are as they were, and the agents before the first repetition are those
with access. -/
def WriteCall.LeavesNoTrace (env : WriteEnv) (s : Store) : WriteCall → Prop
  | .add args => (s.working.secrets args.name).isSome = true
  | .update args =>
    ∃ row ∈ s.working.secrets args.name, decrypt env.cipher row.value = none ∨
      isFernet row.value = true ∧ edited env args row = row ∧
        ∀ agents ∈ args.agents, ∀ agent,
          (row.id, agent) ∈ s.working.access ↔ agent ∈ firstsOf [] agents

variable {env : WriteEnv} {s : Store} {e : WriteError}

theorem run_bind_error {α : Type} {x : Attempt Store WriteError α}
    (h : ((do let _ ← x; pure ()) : Attempt Store WriteError Unit) s = (.error e, s')) :
    x s = (.error e, s') := by
  cases hx : x s with
  | mk result after =>
    cases result with
    | ok a =>
      rw [bind_of_ok hx, pure_apply] at h
      cases h
    | error e' =>
      rw [bind_of_error hx] at h
      cases h
      rfl

/-- A failed insertion leaves nothing behind if the name was taken, and else the row. -/
theorem add_error {args : AddArgs} (h : add env args s = (.error e, s')) :
    s' = s ↔ (s.working.secrets args.name).isSome = true := by
  unfold add at h
  rw [read_bind] at h
  by_cases htaken : (s.working.secrets args.name).isSome = true
  · have hfails : execute (insertSecret env args) s = (.error .integrity, s) := by
      simp [execute, insertSecret, htaken]
    rw [bind_of_error hfails] at h
    cases h
    simp [htaken]
  · obtain ⟨t, hinsert, hnext⟩ :
        ∃ t, insertSecret env args s.working = some t ∧ t.nextId = s.working.nextId + 1 := by
      simp [insertSecret, htaken]
    have hdone : execute (insertSecret env args) s = (.ok (), s.put t) := by
      simp [execute, hinsert]
    have hchanged : s' ≠ s := by
      rw [bind_of_ok hdone] at h
      have hloop := forEach_insertAccess s.working.nextId args.agents (s.put t)
      split at hloop
      · rw [bind_of_ok hloop] at h
        cases h
      · rw [bind_of_error hloop] at h
        cases h
        intro hsame
        have hid := congrArg (fun s => s.working.nextId) hsame
        simp only [Store.put, Tables.withAccess] at hid
        omega
    simp [htaken, hchanged]

/-- What the loop over the columns and the change of the access do to a store. -/
def rewritten (env : WriteEnv) (args : UpdateArgs) (secretId : Nat) (agents : List String)
    (t : Tables) : Tables :=
  let t := dropAccess secretId (editSecret args.name (edited env args) t)
  t.withAccess (granted secretId t.access agents).1

/-- A failed update is one of the agents. -/
theorem finish_error (h : (do
      forEach (fun edit => execute fun t => some (editSecret args.name edit t))
        (columnEdits env args)
      match args.agents with
      | none => pure ()
      | some agents => do
          execute fun t => some (dropAccess row.id t)
          forEach (fun agent => execute (insertAccess row.id agent)) agents
      commit
      pure true : Attempt Store WriteError Bool) s = (.error e, s')) :
    ∃ agents ∈ args.agents, s' = s.put (rewritten env args row.id agents s.working) := by
  rw [bind_of_ok (forEach_editSecret _ _ s)] at h
  cases hagents : args.agents with
  | none =>
    simp only [hagents] at h
    cases h
  | some agents =>
    refine ⟨agents, rfl, ?_⟩
    simp only [hagents] at h
    have hdrop : (execute fun t => some (dropAccess row.id t)) (s.put (editSecret args.name
          (fun row => (columnEdits env args).foldl (fun row edit => edit row) row) s.working)) =
        (.ok (), s.put (dropAccess row.id (editSecret args.name (edited env args) s.working))) :=
      rfl
    rw [bind_of_ok hdrop] at h
    have hloop := forEach_insertAccess row.id agents
      (s.put (dropAccess row.id (editSecret args.name (edited env args) s.working)))
    split at hloop
    · rw [bind_of_ok hloop] at h
      cases h
    · rw [bind_of_error hloop] at h
      cases h
      rfl

/-- What is left of the tables when nothing has changed in them. -/
theorem rewritten_eq_iff {t : Tables} {agents : List String}
    (hrow : t.secrets args.name = some row) :
    rewritten env args row.id agents t = t ↔
      edited env args row = row ∧
        ∀ agent, (row.id, agent) ∈ t.access ↔ agent ∈ firstsOf [] agents := by
  have hnone : ∀ agent, (row.id, agent) ∈ t.access.filter (fun p => p.1 ≠ row.id) ↔
      agent ∈ ([] : List String) := by
    simp
  have hmem := mem_granted_iff hnone agents
  constructor
  · intro h
    have hsecrets := congrArg (fun t => t.secrets args.name) h
    have haccess := congrArg Tables.access h
    simp only [rewritten, dropAccess, editSecret, Tables.withAccess, Function.update_self, hrow,
      Option.map_some, Option.some.injEq] at hsecrets haccess
    refine ⟨hsecrets, fun agent => ?_⟩
    rw [← haccess, hmem]
    simp
  · rintro ⟨hedited, haccess⟩
    have hsecrets : Function.update t.secrets args.name ((t.secrets args.name).map
        (edited env args)) = t.secrets := by
      rw [hrow, Option.map_some, hedited, ← hrow, Function.update_eq_self]
    have hpairs : (granted row.id (t.access.filter fun p => p.1 ≠ row.id) agents).1 = t.access := by
      ext p
      rw [hmem]
      by_cases hid : p.1 = row.id
      · have hp := haccess p.2
        rw [← hid] at hp
        simp [hid, hp]
      · simp [hid]
    simp only [rewritten, dropAccess, editSecret, Tables.withAccess, hsecrets, hpairs]

/-- A legacy value that was read. -/
def upgraded (env : WriteEnv) (name plaintext : String) (s : Store) : Store :=
  let t := editSecret name (fun row => { row with
      value := encrypt env.cipher env.upgradeRandom plaintext
      updatedAt := env.upgradedAt }) s.working
  ⟨t, t⟩

theorem isFernet_encrypt (c : Cipher) (random value : String) :
    isFernet (encrypt c random value) = true := by
  have hchars : (encrypt c random value).toList =
      fernetPrefix.toList ++ (c.fernetEncrypt random value).toList := String.toList_append
  rw [isFernet, hchars]
  exact List.isPrefixOf_iff_prefix.mpr (List.prefix_append _ _)

theorem isFernet_edited (h : isFernet row.value = true) :
    isFernet (edited env args row).value = true := by
  have hencrypt := isFernet_encrypt env.cipher env.random
  obtain ⟨name, value, category, description, agents⟩ := args
  cases value <;> cases category <;> cases description <;> simp [edited, columnEdits, h, hencrypt]

/-- When an update that fails leaves no trace. -/
theorem update_error (h : update env args s = (.error e, s')) :
    s' = s ↔ (WriteCall.update args).LeavesNoTrace env s := by
  unfold update at h
  rw [read_bind] at h
  cases hrow : s.working.secrets args.name with
  | none =>
    simp only [hrow] at h
    cases h
  | some row =>
    simp only [hrow, WriteCall.LeavesNoTrace, Option.mem_def, Option.some.injEq, exists_eq_left']
      at h ⊢
    cases hplain : decrypt env.cipher row.value with
    | none =>
      have hfails : dec env args.name row s = (.error .undecryptable, s) := by
        simp [dec, hplain, raise]
      rw [bind_of_error hfails] at h
      cases h
      simp
    | some plaintext =>
      by_cases hfernet : isFernet row.value = true
      · have hread : dec env args.name row s = (.ok plaintext, s) := by
          simp [dec, hplain, hfernet, pure_apply]
        rw [bind_of_ok hread] at h
        obtain ⟨agents, hagents, rfl⟩ := finish_error h
        have hput : s.put (rewritten env args row.id agents s.working) = s ↔
            rewritten env args row.id agents s.working = s.working := by
          cases s
          simp [Store.put]
        rw [hput, rewritten_eq_iff hrow]
        simp_all
      · have hread : dec env args.name row s =
            (.ok plaintext, upgraded env args.name plaintext s) := by
          simp only [dec, hplain, hfernet]
          rfl
        rw [bind_of_ok hread] at h
        obtain ⟨agents, hagents, rfl⟩ := finish_error h
        simp only [reduceCtorEq, hfernet, false_and, or_false, iff_false]
        intro hsame
        have hsecret := congrArg (fun s => s.working.secrets args.name) hsame
        simp only [Store.put, rewritten, dropAccess, editSecret, Tables.withAccess, upgraded,
          Function.update_self, hrow, Option.map_some, Option.some.injEq] at hsecret
        rw [← hsecret] at hfernet
        exact hfernet (isFernet_edited (isFernet_encrypt _ _ _))

/-- Nothing is seen of a failed call if and only if it has written nothing, or what was there. -/
theorem unseen_iff {call : WriteCall} {s' : Store} (h : call.run env s = (.error e, s')) :
    Unseen s s' ↔ call.LeavesNoTrace env s := by
  rw [unseen_iff_eq]
  cases call with
  | add args => exact add_error (run_bind_error h)
  | update args => exact update_error (run_bind_error h)

/-- Nothing is stored yet. -/
def emptyStore : Store := ⟨⟨fun _ => none, ∅, 1⟩, ⟨fun _ => none, ∅, 1⟩⟩

def plainEnv : WriteEnv := ⟨⟨fun _ value => value, some, some⟩, "", "", 5, 5⟩

def repeatedAgent : AddArgs := { name := "token", value := "abc", agents := ["ada", "ada"] }

theorem unseen_repeatedAgent :
    Unseen emptyStore ((WriteCall.add repeatedAgent).run plainEnv emptyStore).2 ↔
      (WriteCall.add repeatedAgent).LeavesNoTrace plainEnv emptyStore := by
  have hraise : (WriteCall.add repeatedAgent).run plainEnv emptyStore =
      (.error .integrity, ((WriteCall.add repeatedAgent).run plainEnv emptyStore).2) := by
    rfl
  exact unseen_iff hraise

/-- The secret of a call that failed is there after the next commit. -/
theorem not_unseen :
    ((WriteCall.add repeatedAgent).run plainEnv emptyStore).1 = .error .integrity ∧
      ¬ Unseen emptyStore ((WriteCall.add repeatedAgent).run plainEnv emptyStore).2 := by
  refine ⟨rfl, fun h => ?_⟩
  have hnext := congrArg Tables.nextId (h [id])
  revert hnext
  decide

end TinyAgentOS.Secrets
