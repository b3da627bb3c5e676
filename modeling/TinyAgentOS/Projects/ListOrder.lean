import TinyAgentOS.Library.Connection
import TinyAgentOS.Library.Dict
import TinyAgentOS.Library.Transition
import TinyAgentOS.Projects.TaskStore

/-!
# The order of list entries

The entries of all lists are written through one connection, on which each call has
its statements executed between those of the others.  A reorder moves the entries one
by one and commits or rolls back at its end; both act on whatever the connection has
pending.  So another call's commit may take a half of a reorder, and the rollback of a
reorder an insertion that another call has still to commit.

Main results:

- `ListsState.step_moves`: what a statement does to the calls and their writes.
- `ListsState.always_allOrNone_iff`: the runs that apply every reorder as a whole.
- `ListsState.always_insertionsKept`: the runs that undo no reported insertion.
- `ListsState.not_atomic`: a commit inside a reorder, and a rollback around an addition.
-/

namespace TinyAgentOS.Projects

open Collections Connections Transition

/-! ## Entries -/

/-- A row of `project_list_entries`. -/
structure ListEntry where
  listId : String
  projectId : String
  text : String
  originalText : String
  category : Option String
  status : String
  done : Int
  authorKind : String
  authorId : String
  editedBy : Option String
  position : Int
  createdAt : Clock
  updatedAt : Clock

/-- The arguments of `add_entry`. -/
structure EntryArgs where
  listId : String
  projectId : String
  text : String
  originalText : String
  authorKind : String
  authorId : String
  category : Option String := none
  position : Option Int := none

/-- The columns that `update_entry` can change. -/
structure EntryPatch where
  text : Option String := none
  category : Option String := none
  status : Option String := none
  done : Option Int := none
  position : Option Int := none
  editedBy : Option String := none
deriving DecidableEq

/-- Does the patch name no column? -/
def EntryPatch.isEmpty (patch : EntryPatch) : Bool :=
  patch = {}

/-- The `SET` clauses of `update_entry`. -/
def EntryPatch.setIn (patch : EntryPatch) (now : Clock) (e : ListEntry) : ListEntry :=
  { e with
    text := patch.text.getD e.text
    category := patch.category.or e.category
    status := patch.status.getD e.status
    done := patch.done.getD e.done
    position := patch.position.getD e.position
    editedBy := patch.editedBy.or e.editedBy
    updatedAt := now }

abbrev EntryTable := Dict String ListEntry

/-- `COALESCE((SELECT MAX(position) + 1 …), 0)`. -/
def nextPosition (table : EntryTable) (listId projectId : String) : Int :=
  let rows := table.values.filter fun e => e.listId = listId && e.projectId = projectId
  ((rows.map ListEntry.position).max?.map (· + 1)).getD 0

/-- The row that `add_entry` inserts. -/
def EntryArgs.row (args : EntryArgs) (table : EntryTable) (now : Clock) : ListEntry :=
  { listId := args.listId
    projectId := args.projectId
    text := args.text
    originalText := args.originalText
    category := args.category
    status := "new"
    done := 0
    authorKind := args.authorKind
    authorId := args.authorId
    editedBy := none
    position := args.position.getD (nextPosition table args.listId args.projectId)
    createdAt := now
    updatedAt := now }

/-- A change of one row. -/
inductive EntryWrite where
  | insert (entryId : String) (row : ListEntry)
  | update (entryId : String) (patch : EntryPatch) (now : Clock)
  | delete (entryId : String)
  | reposition (entryId : String) (position : Int) (now : Clock)

/-- What a change does to the table. -/
def EntryWrite.apply (table : EntryTable) : EntryWrite → EntryTable
  | .insert entryId row => table.set entryId row
  | .update entryId patch now => table.modify entryId (patch.setIn now)
  | .delete entryId => table.pop entryId
  | .reposition entryId position now =>
    table.modify entryId fun e => { e with position := position, updatedAt := now }

/-- The entry and its place, for the update of a reorder. -/
def EntryWrite.placement : EntryWrite → Option (String × Int)
  | .reposition entryId position _ => some (entryId, position)
  | _ => none

/-! ## Calls -/

/-- What a call does once it has committed. -/
inductive AfterCommit where
  | inserted (entryId : String)
  | updated (entryId : String)
  | deleted (found : Bool)

/-- What a call returns. -/
inductive EntryReply where
  | entry (row : Option ListEntry)
  | deleted (found : Bool)
  | reordered (ok : Bool)
  | raised

/-- Where a call stands: the statement it is to have executed. -/
inductive EntryCall where
  | updating (entryId : String) (patch : EntryPatch)
  | committing (next : AfterCommit)
  | committed (next : AfterCommit)
  | reordering (projectId listId : String) (rest : List (String × Int))
  | reordered
  | rollingBack (outcome : EntryReply)
  | done (reply : EntryReply)

/-- How many updates the call of a reorder has left to make. -/
def EntryCall.left : EntryCall → Option Nat
  | .reordering _ _ rest => some rest.length
  | .reordered => some 0
  | .rollingBack _ => some 0
  | .done _ => some 0
  | _ => none

/-- Is the commit the next statement of the call? -/
def EntryCall.readyToCommit : EntryCall → Bool
  | .committing _ => true
  | .reordering _ _ [] => true
  | _ => false

/-- The statements of the calls, and their ends.  An addition comes with the id it draws. -/
inductive EntryEvent where
  | addCalled (id : Nat) (args : EntryArgs) (entryId : String) (now : Clock)
  | updateCalled (id : Nat) (entryId : String) (patch : EntryPatch)
  | updateWritten (id : Nat) (now : Clock)
  | deleteCalled (id : Nat) (entryId : String)
  | reorderCalled (id : Nat) (projectId listId : String) (entries : List (String × Int))
  | repositioned (id : Nat) (now : Clock)
  | committed (id : Nat)
  | returned (id : Nat)
  /-- An exception or a cancellation reaches the call. -/
  | interrupted (id : Nat)
  | rolledBack (id : Nat)

/-- The connection and the calls, with the order that each reorder was asked for. -/
structure ListsState where
  db : Connection Nat EntryWrite
  calls : Dict Nat EntryCall
  orders : Dict Nat (List (String × Int))

namespace ListsState

/-- An empty table. -/
def init : ListsState := ⟨Connection.init, Dict.empty, Dict.empty⟩

/-- The table that the statements see. -/
def table (s : ListsState) : EntryTable :=
  s.db.view EntryWrite.apply Dict.empty

/-- The call awaits another statement, or has ended. -/
def goOn (s : ListsState) (id : Nat) (call : EntryCall) : ListsState :=
  { s with calls := s.calls.set id call }

/-- A statement of the call changes a row, and the call goes on. -/
def wrote (s : ListsState) (id : Nat) (w : EntryWrite) (call : EntryCall) : ListsState :=
  { s.goOn id call with db := s.db.write id w }

/-- One statement. -/
def step (s : ListsState) : EntryEvent → Option ListsState
  | .addCalled id args entryId now =>
    if (s.calls.get? id).isSome then none
    else if (s.table.get? entryId).isSome then some (s.goOn id (.done .raised))
    else
      some (s.wrote id (.insert entryId (args.row s.table now))
        (.committing (.inserted entryId)))
  | .updateCalled id entryId patch =>
    if (s.calls.get? id).isSome then none
    else if patch.isEmpty || (s.table.get? entryId).isNone then
      some (s.goOn id (.done (.entry (s.table.get? entryId))))
    else some (s.goOn id (.updating entryId patch))
  | .updateWritten id now =>
    match s.calls.get? id with
    | some (.updating entryId patch) =>
      if (s.table.get? entryId).isSome then
        some (s.wrote id (.update entryId patch now) (.committing (.updated entryId)))
      else some (s.goOn id (.committing (.updated entryId)))
    | _ => none
  | .deleteCalled id entryId =>
    if (s.calls.get? id).isSome then none
    else if (s.table.get? entryId).isSome then
      some (s.wrote id (.delete entryId) (.committing (.deleted true)))
    else some (s.goOn id (.committing (.deleted false)))
  | .reorderCalled id projectId listId entries =>
    if (s.calls.get? id).isSome then none
    else
      some
        { s.goOn id (.reordering projectId listId entries) with
          orders := s.orders.set id entries }
  | .repositioned id now =>
    match s.calls.get? id with
    | some (.reordering projectId listId ((entryId, position) :: rest)) =>
      if (s.table.get? entryId).any
          (fun e => e.projectId = projectId && e.listId = listId) then
        some (s.wrote id (.reposition entryId position now)
          (.reordering projectId listId rest))
      else some (s.goOn id (.rollingBack (.reordered false)))
    | _ => none
  | .committed id =>
    match s.calls.get? id with
    | some (.committing next) => some { s.goOn id (.committed next) with db := s.db.commit }
    | some (.reordering _ _ []) => some { s.goOn id .reordered with db := s.db.commit }
    | _ => none
  | .returned id =>
    match s.calls.get? id with
    | some (.committed (.inserted entryId)) =>
      some (s.goOn id (.done (.entry (s.table.get? entryId))))
    | some (.committed (.updated entryId)) =>
      some (s.goOn id (.done (.entry (s.table.get? entryId))))
    | some (.committed (.deleted found)) => some (s.goOn id (.done (.deleted found)))
    | some .reordered => some (s.goOn id (.done (.reordered true)))
    | _ => none
  | .interrupted id =>
    match s.calls.get? id with
    | some (.reordering _ _ _) => some (s.goOn id (.rollingBack .raised))
    | some .reordered => some (s.goOn id (.rollingBack .raised))
    | some (.rollingBack _) => some (s.goOn id (.rollingBack .raised))
    | some (.done _) => none
    | some _ => some (s.goOn id (.done .raised))
    | none => none
  | .rolledBack id =>
    match s.calls.get? id with
    | some (.rollingBack outcome) =>
      some { s.goOn id (.done outcome) with db := s.db.rollback }
    | _ => none

/-! ## What a statement does -/

/-- What a statement does to the call that makes it and to the orders. -/
inductive Turn (s s' : ListsState) (id : Nat) (call' : EntryCall) : Prop where
  | started (hnew : s.calls.get? id = none) (horders : s'.orders = s.orders)
  | asked (entries : List (String × Int)) (hnew : s.calls.get? id = none)
      (horders : s'.orders = s.orders.set id entries)
      (hleft : call'.left = some entries.length) (hdb : s'.db = s.db)
  | wentOn (call : EntryCall) (hcall : s.calls.get? id = some call)
      (hlive : ∀ reply, call ≠ .done reply) (horders : s'.orders = s.orders)
      (hleft : ∀ n, call.left = some n →
        ∃ n', call'.left = some n' ∧ s'.db.made id + n' ≤ s.db.made id + n)

/-- A statement moves one call on, and no other call makes a write. -/
def Moves (s s' : ListsState) : Prop :=
  ∃ id call', s'.calls = s.calls.set id call' ∧
    (∀ r, r ≠ id → s'.db.made r ≤ s.db.made r) ∧ s.Turn s' id call'

variable {id : Nat} {s s' : ListsState} {call call' : EntryCall} {e : EntryEvent}

theorem moves_started (hnew : ¬(s.calls.get? id).isSome = true)
    (call' : EntryCall) : s.Moves (s.goOn id call') :=
  ⟨id, call', rfl, fun _ _ => le_rfl, .started (by simpa using hnew) rfl⟩

theorem moves_wrote_new (hnew : ¬(s.calls.get? id).isSome = true)
    (w : EntryWrite) (call' : EntryCall) : s.Moves (s.wrote id w call') := by
  refine ⟨id, call', rfl, ?_, .started (by simpa using hnew) rfl⟩
  intro r hr
  show (s.db.write id w).made r ≤ _
  rw [Connection.made_write, if_neg (Ne.symm hr)]
  exact le_rfl

section

variable (hcall : s.calls.get? id = some call) (hlive : ∀ reply, call ≠ .done reply)
include hcall hlive

/-- A call that goes on without a write. -/
theorem moves_goOn (hleft : ∀ n, call.left = some n → ∃ n' ≤ n, call'.left = some n') :
    s.Moves (s.goOn id call') := by
  refine ⟨id, call', rfl, fun _ _ => le_rfl, .wentOn call hcall hlive rfl ?_⟩
  intro n hn
  obtain ⟨n', hle, hn'⟩ := hleft n hn
  exact ⟨n', hn', Nat.add_le_add_left hle _⟩

/-- A call that goes on with a write. -/
theorem moves_wrote
    (w : EntryWrite) (hleft : ∀ n, call.left = some n → ∃ n', n = n' + 1 ∧ call'.left = some n') :
    s.Moves (s.wrote id w call') := by
  refine ⟨id, call', rfl, ?_, .wentOn call hcall hlive rfl ?_⟩
  · intro r hr
    show (s.db.write id w).made r ≤ _
    rw [Connection.made_write, if_neg (Ne.symm hr)]
    exact le_rfl
  · intro n hn
    obtain ⟨n', rfl, hn'⟩ := hleft n hn
    refine ⟨n', hn', ?_⟩
    show (s.db.write id w).made id + n' ≤ _
    rw [Connection.made_write, if_pos rfl]
    omega

/-- A call that ends the open transaction. -/
theorem moves_ended {db : Connection Nat EntryWrite} (hdb : ∀ r, db.made r ≤ s.db.made r)
    (hleft : ∀ n, call.left = some n → ∃ n' ≤ n, call'.left = some n') :
    s.Moves { s.goOn id call' with db := db } := by
  refine ⟨id, call', rfl, fun r _ => hdb r, .wentOn call hcall hlive rfl ?_⟩
  intro n hn
  obtain ⟨n', hle, hn'⟩ := hleft n hn
  exact ⟨n', hn', Nat.add_le_add (hdb id) hle⟩

end

/-- Every statement moves one call on. -/
theorem step_moves (hstep : s.step e = some s') : s.Moves s' := by
  cases e with
  | addCalled id args entryId now =>
    simp only [step] at hstep
    split at hstep
    · contradiction
    rename_i hnew
    split at hstep
    · cases hstep
      exact moves_started hnew _
    · cases hstep
      exact moves_wrote_new hnew _ _
  | updateCalled id entryId patch =>
    simp only [step] at hstep
    split at hstep
    · contradiction
    rename_i hnew
    split at hstep <;> (cases hstep; exact moves_started hnew _)
  | updateWritten id now =>
    simp only [step] at hstep
    split at hstep
    · rename_i entryId patch hcall
      split at hstep
      · cases hstep
        exact moves_wrote hcall (fun _ => by simp) _ (fun n hn => by contradiction)
      · cases hstep
        exact moves_goOn hcall (fun _ => by simp) (fun n hn => by contradiction)
    · contradiction
  | deleteCalled id entryId =>
    simp only [step] at hstep
    split at hstep
    · contradiction
    rename_i hnew
    split at hstep
    · cases hstep
      exact moves_wrote_new hnew _ _
    · cases hstep
      exact moves_started hnew _
  | reorderCalled id projectId listId entries =>
    simp only [step] at hstep
    split at hstep
    · contradiction
    rename_i hnew
    cases hstep
    exact ⟨id, _, rfl, fun _ _ => le_rfl, .asked entries (by simpa using hnew) rfl rfl rfl⟩
  | repositioned id now =>
    simp only [step] at hstep
    split at hstep
    · rename_i projectId listId entryId position rest hcall
      split at hstep
      · cases hstep
        refine moves_wrote hcall (fun _ => by simp) _ ?_
        rintro n ⟨⟩
        exact ⟨rest.length, rfl, rfl⟩
      · cases hstep
        exact moves_goOn hcall (fun _ => by simp) (fun n hn => ⟨0, Nat.zero_le n, rfl⟩)
    · contradiction
  | committed id =>
    simp only [step] at hstep
    split at hstep
    · rename_i next hcall
      cases hstep
      exact moves_ended hcall (fun _ => by simp) (fun r => (Connection.made_commit s.db r).le)
        (fun n hn => by contradiction)
    · rename_i projectId listId hcall
      cases hstep
      exact moves_ended hcall (fun _ => by simp) (fun r => (Connection.made_commit s.db r).le)
        (fun n hn => ⟨0, Nat.zero_le n, rfl⟩)
    · contradiction
  | returned id =>
    simp only [step] at hstep
    split at hstep
    · rename_i entryId hcall
      cases hstep
      exact moves_goOn hcall (fun _ => by simp) (fun n hn => by contradiction)
    · rename_i entryId hcall
      cases hstep
      exact moves_goOn hcall (fun _ => by simp) (fun n hn => by contradiction)
    · rename_i found hcall
      cases hstep
      exact moves_goOn hcall (fun _ => by simp) (fun n hn => by contradiction)
    · rename_i hcall
      cases hstep
      exact moves_goOn hcall (fun _ => by simp) (fun n hn => ⟨0, Nat.zero_le n, rfl⟩)
    · contradiction
  | interrupted id =>
    simp only [step] at hstep
    split at hstep
    · rename_i hcall
      cases hstep
      exact moves_goOn hcall (fun _ => by simp) (fun n hn => ⟨0, Nat.zero_le n, rfl⟩)
    · rename_i hcall
      cases hstep
      exact moves_goOn hcall (fun _ => by simp) (fun n hn => ⟨0, Nat.zero_le n, rfl⟩)
    · rename_i hcall
      cases hstep
      exact moves_goOn hcall (fun _ => by simp) (fun n hn => ⟨0, Nat.zero_le n, rfl⟩)
    · contradiction
    · rename_i call _ _ _ hlive hcall
      cases hstep
      exact moves_goOn hcall (fun reply heq => hlive reply heq)
        (fun n hn => ⟨0, Nat.zero_le n, rfl⟩)
    · contradiction
  | rolledBack id =>
    simp only [step] at hstep
    split at hstep
    · rename_i outcome hcall
      cases hstep
      exact moves_ended hcall (fun _ => by simp) (fun r => Connection.made_rollback_le s.db r)
        (fun n hn => ⟨0, Nat.zero_le n, rfl⟩)
    · contradiction

/-- No reorder makes more updates than it was asked for, and nobody writes before its call. -/
structure Books (s : ListsState) : Prop where
  fresh : ∀ r, s.calls.get? r = none → s.db.made r = 0 ∧ s.orders.get? r = none
  order : ∀ r entries, s.orders.get? r = some entries → ∃ call n,
    s.calls.get? r = some call ∧ call.left = some n ∧ s.db.made r + n ≤ entries.length

theorem books_init : init.Books := by
  constructor
  · intro r _
    exact ⟨rfl, rfl⟩
  · intro r entries horder
    contradiction

theorem Books.step (h : s.Books) (hstep : s.step e = some s') : s'.Books := by
  obtain ⟨id, call', hcalls, hothers, hturn⟩ := step_moves hstep
  have hother : ∀ r, id ≠ r → s'.calls.get? r = s.calls.get? r := by
    intro r hr
    rw [hcalls, Dict.get?_set_of_ne _ _ hr]
  have hself : s'.calls.get? id = some call' := by
    rw [hcalls, Dict.get?_set_self]
  have horders : ∀ r, id ≠ r → s'.orders.get? r = s.orders.get? r := by
    intro r hr
    cases hturn with
    | started _ horders => rw [horders]
    | asked entries _ horders _ _ => rw [horders, Dict.get?_set_of_ne _ _ hr]
    | wentOn _ _ _ horders _ => rw [horders]
  constructor
  · intro r hnone
    have hr : id ≠ r := by
      rintro rfl
      rw [hself] at hnone
      contradiction
    rw [hother r hr] at hnone
    obtain ⟨hmade, horder⟩ := h.fresh r hnone
    have hle := hothers r (Ne.symm hr)
    exact ⟨by omega, (horders r hr).trans horder⟩
  · intro r entries horder
    by_cases hr : id = r
    · subst hr
      cases hturn with
      | started hnew horders =>
        rw [horders, (h.fresh id hnew).2] at horder
        contradiction
      | asked entries' hnew horders hleft hdb =>
        rw [horders, Dict.get?_set_self] at horder
        cases horder
        refine ⟨call', _, hself, hleft, ?_⟩
        rw [hdb, (h.fresh id hnew).1]
        omega
      | wentOn call hcall _ horders hleft =>
        rw [horders] at horder
        obtain ⟨call'', n, hcall'', hn, hle⟩ := h.order id entries horder
        rw [hcall] at hcall''
        cases hcall''
        obtain ⟨n', hn', hmade⟩ := hleft n hn
        exact ⟨call', n', hself, hn', by omega⟩
    · rw [horders r hr] at horder
      obtain ⟨call, n, hcall, hn, hle⟩ := h.order r entries horder
      have hmade := hothers r (Ne.symm hr)
      exact ⟨call, n, (hother r hr).trans hcall, hn, by omega⟩

/-! ## All or none -/

/-- Does the event commit the open transaction? -/
def Commits (s : ListsState) : EntryEvent → Prop
  | .committed id => ∃ call ∈ s.calls.get? id, call.readyToCommit = true
  | _ => False

theorem not_commits_of_none (hstep : s.step e = none) : ¬s.Commits e := by
  cases e with
  | committed id =>
    rintro ⟨call, hcall, hready⟩
    rw [Option.mem_def] at hcall
    cases call with
    | committing next => simp [step, hcall] at hstep
    | reordering projectId listId rest =>
      cases rest with
      | nil => simp [step, hcall] at hstep
      | cons _ _ => contradiction
    | _ => contradiction
  | _ => exact fun h => h

/-- Only a commit makes writes durable, and only a reorder's rollback undoes any. -/
theorem db_step (hstep : s.step e = some s') :
    s.Commits e ∧ s'.db = s.db.commit ∧ s'.orders = s.orders ∨
      (∃ id, e = .rolledBack id ∧ s'.db = s.db.rollback) ∨
      ¬s.Commits e ∧ s'.db.durable = s.db.durable ∧ s'.db.undone = s.db.undone := by
  cases e with
  | committed id =>
    left
    simp only [step] at hstep
    split at hstep
    · rename_i next hcall
      cases hstep
      exact ⟨⟨_, hcall, rfl⟩, rfl, rfl⟩
    · rename_i projectId listId hcall
      cases hstep
      exact ⟨⟨_, hcall, rfl⟩, rfl, rfl⟩
    · contradiction
  | addCalled | updateCalled | deleteCalled =>
    right
    right
    refine ⟨fun h => h, ?_⟩
    simp only [step] at hstep
    split at hstep
    · contradiction
    · split at hstep <;> (cases hstep; exact ⟨rfl, rfl⟩)
  | reorderCalled id projectId listId entries =>
    right
    right
    refine ⟨fun h => h, ?_⟩
    simp only [step] at hstep
    split at hstep
    · contradiction
    cases hstep
    exact ⟨rfl, rfl⟩
  | updateWritten | repositioned =>
    right
    right
    refine ⟨fun h => h, ?_⟩
    simp only [step] at hstep
    split at hstep
    · split at hstep <;> (cases hstep; exact ⟨rfl, rfl⟩)
    · contradiction
  | returned | interrupted =>
    right
    right
    refine ⟨fun h => h, ?_⟩
    simp only [step] at hstep
    split at hstep <;> first | contradiction | (cases hstep; exact ⟨rfl, rfl⟩)
  | rolledBack id =>
    right
    left
    simp only [step] at hstep
    split at hstep
    · cases hstep
      exact ⟨id, rfl, rfl⟩
    · contradiction

/-- Every reorder is applied in the order it was asked for, or not at all. -/
def AllOrNone (s : ListsState) : Prop :=
  ∀ r entries, s.orders.get? r = some entries →
    s.db.Whole EntryWrite.placement r (entries.map some)

/-- A commit finds none or all of the updates of each reorder in the open transaction. -/
def CommitsWhole (s : ListsState) (e : EntryEvent) : Prop :=
  s.Commits e → ∀ r entries, s.orders.get? r = some entries →
    (Connection.writesOf r s.db.pending).map EntryWrite.placement = [] ∨
      (Connection.writesOf r s.db.pending).map EntryWrite.placement = entries.map some

/-- A statement leaves every reorder whole exactly when it is no commit of a part of one. -/
theorem allOrNone_step_iff (hbooks : s.Books)
    (h : s.AllOrNone) (hstep : s.step e = some s') : s'.AllOrNone ↔ s.CommitsWhole e := by
  have hdurable_of : ¬s.Commits e ∧ s'.db.durable = s.db.durable →
      (s'.AllOrNone ↔ s.CommitsWhole e) := by
    rintro ⟨hcommits, hdurable⟩
    refine iff_of_true ?_ (fun h => absurd h hcommits)
    intro r entries horder
    unfold Connection.Whole
    rw [hdurable]
    by_cases hold : s.orders.get? r = some entries
    · exact h r entries hold
    · -- the order is that of a call that starts
      left
      obtain ⟨id, call', _, _, hturn⟩ := step_moves hstep
      cases hturn with
      | started _ horders | wentOn _ _ _ horders _ => exact absurd (horders ▸ horder) hold
      | asked entries' hnew horders _ _ =>
        rw [horders, Dict.get?_set] at horder
        by_cases hr : id = r
        · subst hr
          have hmade := (hbooks.fresh id hnew).1
          unfold Connection.made at hmade
          have hnil : Connection.writesOf id s.db.durable = [] := by
            apply List.eq_nil_of_length_eq_zero
            omega
          rw [hnil, List.map_nil]
        · rw [if_neg hr] at horder
          exact absurd horder hold
  rcases db_step hstep with ⟨hcommits, hdb, horders⟩ | ⟨id, rfl, hdb⟩ |
    ⟨hcommits, hdurable, _⟩
  · have hwhole : ∀ r entries, s.orders.get? r = some entries →
        (s'.db.Whole EntryWrite.placement r (entries.map some) ↔
          (Connection.writesOf r s.db.pending).map EntryWrite.placement = [] ∨
            (Connection.writesOf r s.db.pending).map EntryWrite.placement =
              entries.map some) := by
      intro r entries horder
      obtain ⟨call, n, _, _, hle⟩ := hbooks.order r entries horder
      rw [hdb]
      apply (h r entries horder).commit_iff
      rw [List.length_map]
      omega
    constructor
    · intro hafter _ r entries horder
      exact (hwhole r entries horder).mp (hafter r entries (by rw [horders]; exact horder))
    · intro hguard r entries horder
      rw [horders] at horder
      exact (hwhole r entries horder).mpr (hguard hcommits r entries horder)
  · exact hdurable_of ⟨fun h => h, by rw [hdb]; rfl⟩
  · exact hdurable_of ⟨hcommits, hdurable⟩

/-! ## Insertions -/

/-- A call that has ended stays so. -/
theorem done_kept (hstep : s.step e = some s') {r : Nat}
    {reply : EntryReply} (hdone : s.calls.get? r = some (.done reply)) :
    s'.calls.get? r = some (.done reply) := by
  obtain ⟨id, call', hcalls, _, hturn⟩ := step_moves hstep
  have hr : id ≠ r := by
    rintro rfl
    cases hturn with
    | started hnew _ | asked _ hnew _ _ _ => rw [hnew] at hdone; contradiction
    | wentOn call hcall hlive _ _ =>
      rw [hcall] at hdone
      cases hdone
      exact hlive reply rfl
  rw [hcalls, Dict.get?_set_of_ne _ _ hr, hdone]

/-- No call whose insertion a rollback undid returns an entry. -/
def InsertionsKept (s : ListsState) : Prop :=
  ∀ r entryId row, (r, .insert entryId row) ∈ s.db.undone →
    ∀ reply, s.calls.get? r ≠ some (.done (.entry reply))

/-- A rollback finds no insertion in the open transaction but of calls that have raised. -/
def RollsBackAlone (s : ListsState) (e : EntryEvent) : Prop :=
  ∀ id, e = .rolledBack id → ∀ r entryId row, (r, .insert entryId row) ∈ s.db.pending →
    s.calls.get? r = some (.done .raised)

/-- The calls of the insertions undone so far have raised. -/
def UndoneRaised (s : ListsState) : Prop :=
  ∀ r entryId row, (r, .insert entryId row) ∈ s.db.undone →
    s.calls.get? r = some (.done .raised)

theorem UndoneRaised.step (h : s.UndoneRaised)
    (hguard : s.RollsBackAlone e) (hstep : s.step e = some s') : s'.UndoneRaised := by
  intro r entryId row hundone
  apply done_kept hstep
  rcases db_step hstep with ⟨_, hdb, _⟩ | ⟨id, rfl, hdb⟩ | ⟨_, _, hsame⟩
  · rw [hdb] at hundone
    exact h r entryId row hundone
  · rw [hdb] at hundone
    rcases List.mem_append.mp hundone with hold | hpending
    · exact h r entryId row hold
    · exact hguard id rfl r entryId row hpending
  · rw [hsame] at hundone
    exact h r entryId row hundone

theorem UndoneRaised.kept (h : s.UndoneRaised) : s.InsertionsKept := by
  intro r entryId row hundone reply hdone
  rw [h r entryId row hundone] at hdone
  cases hdone

/-! ## Runs -/

/-- Every state that a run reaches has the property. -/
def Always (P : ListsState → Prop) (es : List EntryEvent) : Prop :=
  ∀ pre post s, es = pre ++ post → run step init pre = some s → P s

/-- Reorders are applied as a whole in exactly the runs whose commits take none or all of the
updates of each. -/
theorem always_allOrNone_iff (es : List EntryEvent) :
    Always AllOrNone es ↔ Guarded step CommitsWhole init es := by
  have hinit : AllOrNone init := by
    intro r entries horder
    contradiction
  unfold Always
  rw [states_iff_everyStep hinit]
  apply everyStep_iff_guarded (I := fun s => s.Books ∧ s.AllOrNone)
  · exact fun s e hstep hcommits => absurd hcommits (not_commits_of_none hstep)
  · rintro s e s' ⟨hbooks, hall⟩ hguard hstep
    exact ⟨hbooks.step hstep, (allOrNone_step_iff hbooks hall hstep).mpr hguard⟩
  · rintro s e s' ⟨hbooks, hall⟩ hstep
    exact allOrNone_step_iff hbooks hall hstep
  · exact ⟨books_init, hinit⟩

/-- A run whose rollbacks find no insertion of a call in flight undoes no reported insertion. -/
theorem always_insertionsKept {es : List EntryEvent}
    (hguard : Guarded step RollsBackAlone init es) : Always InsertionsKept es := by
  intro pre post s heq hrun
  rw [heq] at hguard
  have hraised : s.UndoneRaised := by
    apply invariant_of_guarded_run (I := UndoneRaised) _ _ (guarded_of_append hguard) hrun
    · exact fun t e t' h hg hstep => h.step hg hstep
    · intro r entryId row hundone
      contradiction
  exact hraised.kept

/-- Where reorders are whole, and where no reported insertion is undone. -/
theorem reorder_atomic (es : List EntryEvent) :
    (Always AllOrNone es ↔ Guarded step CommitsWhole init es) ∧
      (Guarded step RollsBackAlone init es → Always InsertionsKept es) :=
  ⟨always_allOrNone_iff es, always_insertionsKept⟩

/-- The addition of an entry to the list. -/
def addition (id : Nat) (entryId : String) : EntryEvent :=
  .addCalled id ⟨"lst", "prj", "text", "text", "user", "ada", none, none⟩ entryId 0

/-- Two entries, and a third that is added while they are swapped; the swap also names an entry
that does not exist. -/
def splitReorder : List EntryEvent :=
  [addition 0 "a", .committed 0, .returned 0, addition 1 "b", .committed 1, .returned 1,
    .reorderCalled 2 "prj" "lst" [("a", 1), ("b", 0), ("z", 2)], .repositioned 2 1, addition 3 "c",
    .committed 3, .returned 3, .repositioned 2 2, .repositioned 2 3, .rolledBack 2]

/-- An entry is added while a reorder of an empty list fails. -/
def swallowedInsertion : List EntryEvent :=
  [.reorderCalled 0 "prj" "lst" [("z", 0)], addition 1 "a", .repositioned 0 1, .rolledBack 0,
    .committed 1, .returned 1]

/-- A third of the order is applied for good, and the entry is lost though its call returns. -/
theorem not_atomic :
    ¬Always AllOrNone splitReorder ∧ ¬Always InsertionsKept swallowedInsertion := by
  constructor
  · intro hall
    have hwhole := hall splitReorder [] _ (by simp) rfl 2 _ rfl
    exact absurd hwhole (by unfold Connection.Whole; decide)
  · intro hkept
    have hlost := hkept swallowedInsertion [] _ (by simp) rfl 1 "a" _ (List.mem_singleton.mpr rfl)
    exact hlost none rfl

end ListsState

end TinyAgentOS.Projects
