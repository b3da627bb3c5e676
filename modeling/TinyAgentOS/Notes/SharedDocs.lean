import TinyAgentOS.Library.Checkpoints
import TinyAgentOS.Library.Dict
import TinyAgentOS.Library.Transition

/-!
# Entries of shared documents and their revisions

An entry is added with its text as revision 0, and every edit adds a revision: what changed against
the text that the edit read, under the number after the highest one that it read later.  Calls
interleave statement by statement on one connection.

Main results:

- `entryTextAt_eq`: a revision is read back from a log that tells the texts.
-/

namespace TinyAgentOS.Notes

open Collections Checkpoints

/-! ## Tables -/

/-- The functions of `diff_match_patch`: making a patch, its text form, and applying it, with
whether all of it could be applied. -/
structure DiffMatchPatch (π τ : Type) where
  patchMake : String → String → π
  patchToText : π → τ
  patchFromText : τ → π
  patchApply : π → String → String × Bool

/-- A patch leads from the one text to the other, and its text form is read back. -/
structure DiffMatchPatch.Lawful {π τ : Type} (dmp : DiffMatchPatch π τ) : Prop where
  apply_make : ∀ old new, dmp.patchApply (dmp.patchMake old new) old = (new, true)
  fromText_toText : ∀ old new,
    dmp.patchFromText (dmp.patchToText (dmp.patchMake old new)) = dmp.patchMake old new

/-- `CHECKPOINT_EVERY`. -/
def checkpointEvery : Nat := 20

/-- A row of `shared_doc_entry_revisions`, with the text that was stored along with it, which
the table does not keep. -/
structure RevisionRow (τ : Type) where
  revision : Revision String τ
  written : String

inductive CallError where
  | keyError (message : String)
  | integrityError

/-- A call, by the statement that it comes to next; the date of the document, the commit and the
row that is returned are not modelled. -/
inductive Call where
  | insertingEntry (entryId text : String)
  | insertingFirst (entryId text : String)
  | readingText (entryId newText : String)
  | readingIndex (entryId oldText newText : String)
  | insertingRevision (entryId oldText newText : String) (nextIndex : Nat)
  | updatingText (entryId newText : String)
  | returned
  | failed (error : CallError)

/-- The texts of the entries, their revisions under `UNIQUE (entry_id, rev_index)`, and the
calls. -/
structure State (τ : Type) where
  entries : Dict String String
  revisions : Dict (String × Nat) (RevisionRow τ)
  calls : Dict Nat Call

inductive Event where
  | addEntry (id : Nat) (entryId text : String)
  | editEntry (id : Nat) (entryId newText : String)
  | go (id : Nat)

namespace State

variable {π τ : Type}

def init : State τ := ⟨Dict.empty, Dict.empty, Dict.empty⟩

/-- The call goes on. -/
def put (s : State τ) (id : Nat) (call : Call) : State τ :=
  { s with calls := s.calls.set id call }

/-- `SELECT MAX(rev_index)`. -/
def maxRevIndex (s : State τ) (entryId : String) : Option Nat :=
  ((s.revisions.keys.filter fun key => key.1 = entryId).map Prod.snd).max?

/-- `INSERT INTO shared_doc_entry_revisions`, unless the number is taken. -/
def insertRevision (s : State τ) (id : Nat) (entryId : String) (index : Nat)
    (row : RevisionRow τ) (next : Call) : State τ :=
  if (s.revisions.get? (entryId, index)).isSome then s.put id (.failed .integrityError)
  else { s with revisions := s.revisions.set (entryId, index) row }.put id next

/-- The first revision holds the text of the entry. -/
def firstRow (text : String) : RevisionRow τ := ⟨⟨none, some text⟩, text⟩

/-- The revision of an edit; some of them hold the whole text too. -/
def editRow (dmp : DiffMatchPatch π τ) (oldText newText : String) (index : Nat) : RevisionRow τ :=
  ⟨⟨some (dmp.patchToText (dmp.patchMake oldText newText)),
    if index % checkpointEvery = 0 then some newText else none⟩, newText⟩

/-- The next statement of a call of `add_entry` or `edit_entry`. -/
def exec (dmp : DiffMatchPatch π τ) (s : State τ) (id : Nat) : Call → Option (State τ)
  | .insertingEntry entryId text =>
    some (if (s.entries.get? entryId).isSome then s.put id (.failed .integrityError)
      else { s with entries := s.entries.set entryId text }.put id
        (.insertingFirst entryId text))
  | .insertingFirst entryId text =>
    some (s.insertRevision id entryId 0 (firstRow text) .returned)
  | .readingText entryId newText =>
    match s.entries.get? entryId with
    | none => some (s.put id (.failed (.keyError ("entry not found: " ++ entryId))))
    | some oldText => some (s.put id (.readingIndex entryId oldText newText))
  | .readingIndex entryId oldText newText =>
    some (s.put id (.insertingRevision entryId oldText newText
      ((s.maxRevIndex entryId).getD 0 + 1)))
  | .insertingRevision entryId oldText newText nextIndex =>
    some (s.insertRevision id entryId nextIndex (editRow dmp oldText newText nextIndex)
      (.updatingText entryId newText))
  | .updatingText entryId newText =>
    some ({ s with entries := s.entries.modify entryId fun _ => newText }.put id .returned)
  | .returned => none
  | .failed _ => none

/-- A call begins under a number that no call has, or goes on. -/
def step (dmp : DiffMatchPatch π τ) (s : State τ) : Event → Option (State τ)
  | .addEntry id entryId text =>
    if (s.calls.get? id).isSome then none else some (s.put id (.insertingEntry entryId text))
  | .editEntry id entryId newText =>
    if (s.calls.get? id).isSome then none else some (s.put id (.readingText entryId newText))
  | .go id => (s.calls.get? id).bind (s.exec dmp id)

/-! ## Reading back -/

/-- A patch from its text form, if all of it can be applied. -/
def applyText (dmp : DiffMatchPatch π τ) (diff : τ) (text : String) : Option String :=
  let result := dmp.patchApply (dmp.patchFromText diff) text
  if result.2 then some result.1 else none

/-- `WHERE entry_id = ? AND rev_index <= ? ORDER BY rev_index`. -/
def revisionsUpTo (s : State τ) (entryId : String) (revIndex : Nat) :
    List (Nat × Revision String τ) :=
  (List.range (revIndex + 1)).filterMap fun n =>
    (s.revisions.get? (entryId, n)).map fun row => (n, row.revision)

/-- `entry_text_at`. -/
def entryTextAt (dmp : DiffMatchPatch π τ) (s : State τ) (entryId : String) (revIndex : Nat) :
    Except Failure String :=
  valueAt (applyText dmp) (s.revisionsUpTo entryId revIndex) revIndex

theorem applyText_toText {dmp : DiffMatchPatch π τ} (h : dmp.Lawful) (old new : String) :
    applyText dmp (dmp.patchToText (dmp.patchMake old new)) old = some new := by
  unfold applyText
  simp only [h.fromText_toText, h.apply_make, if_true]

/-- A revision is read back from a log that tells the texts of an entry. -/
theorem entryTextAt_eq {dmp : DiffMatchPatch π τ} {s : State τ} {entryId : String}
    {revIndex : Nat} {rows : Nat → RevisionRow τ}
    (hrows : ∀ n ≤ revIndex, s.revisions.get? (entryId, n) = some (rows n))
    (h : Tells (applyText dmp) (fun n => (rows n).revision) (fun n => (rows n).written)
      revIndex) : s.entryTextAt dmp entryId revIndex = .ok (rows revIndex).written := by
  have hupTo : s.revisionsUpTo entryId revIndex =
      rowsUpTo (fun n => (rows n).revision) revIndex := by
    unfold revisionsUpTo rowsUpTo
    rw [← List.filterMap_eq_map']
    apply List.filterMap_congr
    intro n hn
    rw [hrows n (Nat.lt_succ_iff.mp (List.mem_range.mp hn))]
    rfl
  unfold entryTextAt
  rw [hupTo]
  exact valueAt_range h

end State

end TinyAgentOS.Notes
