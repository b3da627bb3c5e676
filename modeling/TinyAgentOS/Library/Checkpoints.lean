import Mathlib.Data.List.Basic
import Mathlib.Tactic

/-!
# A log of changes with checkpoints

A log keeps of each version what changed against the one before, and of some versions the whole
value.  A version is read by taking the last whole value up to it and applying the changes since.

Main results:

- `lastSnapshot_range`: the last checkpoint of the first versions.
- `valueAt_range`: a log that tells the versions gives each of them back.
-/

namespace Checkpoints

variable {α δ : Type}

/-- What the log keeps of a version. -/
structure Revision (α δ : Type) where
  diff : Option δ
  snapshot : Option α

inductive Failure where
  | missing
  | noSnapshot
  | failed (version : Nat)

/-- The last of some versions that is kept whole. -/
def lastSnapshot (rows : List (Nat × Revision α δ)) : Option (Nat × α) :=
  rows.foldl
    (fun base row =>
      match row.2.snapshot with
      | none => base
      | some value => some (row.1, value))
    none

/-- The change of one version is applied, if the version is not part of the base. -/
def replayStep (apply : δ → α → Option α) (base : Nat) (value : α) (row : Nat × Revision α δ) :
    Except Failure α :=
  if row.1 ≤ base then .ok value
  else
    match row.2.diff with
    | none => .ok value
    | some diff =>
      match apply diff value with
      | none => .error (.failed row.1)
      | some value => .ok value

/-- The version of a number, from the versions up to it. -/
def valueAt (apply : δ → α → Option α) (rows : List (Nat × Revision α δ)) (version : Nat) :
    Except Failure α :=
  if rows.isEmpty then .error .missing
  else
    match lastSnapshot rows with
    | none => .error .noSnapshot
    | some (base, value) =>
      if base = version then .ok value
      else rows.foldlM (replayStep apply base) value

/-- The log tells the versions up to a number: the first one whole, every checkpoint truly, and
from each version to the next by a change that leads there. -/
structure Tells (apply : δ → α → Option α) (row : Nat → Revision α δ) (value : Nat → α)
    (version : Nat) : Prop where
  first : (row 0).snapshot = some (value 0)
  whole : ∀ n ≤ version, ∀ v, (row n).snapshot = some v → v = value n
  change : ∀ n < version, (row (n + 1)).snapshot = none →
    ∃ diff, (row (n + 1)).diff = some diff ∧ apply diff (value n) = some (value (n + 1))

/-- The versions up to a number. -/
def rowsUpTo (row : Nat → Revision α δ) (version : Nat) : List (Nat × Revision α δ) :=
  (List.range (version + 1)).map fun n => (n, row n)

section Replay

variable {apply : δ → α → Option α} {row : Nat → Revision α δ} {value : Nat → α} {version : Nat}

theorem rowsUpTo_succ :
    rowsUpTo row (version + 1) = rowsUpTo row version ++ [(version + 1, row (version + 1))] := by
  unfold rowsUpTo
  rw [List.range_succ, List.map_append]
  rfl

theorem lastSnapshot_append (rows : List (Nat × Revision α δ)) (r : Nat × Revision α δ) :
    lastSnapshot (rows ++ [r]) =
      match r.2.snapshot with
      | none => lastSnapshot rows
      | some v => some (r.1, v) := by
  unfold lastSnapshot
  rw [List.foldl_append]
  rfl

theorem Tells.mono (h : Tells apply row value version) {earlier : Nat} (hle : earlier ≤ version) :
    Tells apply row value earlier :=
  ⟨h.first, fun n hn => h.whole n (hn.trans hle), fun n hn => h.change n (hn.trans_le hle)⟩

/-- The last checkpoint holds its version, and no version since is kept whole. -/
theorem lastSnapshot_range (h : Tells apply row value version) :
    ∃ base ≤ version, lastSnapshot (rowsUpTo row version) = some (base, value base) ∧
      ∀ n, base < n → n ≤ version → (row n).snapshot = none := by
  induction version with
  | zero =>
    refine ⟨0, le_rfl, ?_, fun n hlt hle => by omega⟩
    simp [rowsUpTo, lastSnapshot, h.first]
  | succ version ih =>
    rw [rowsUpTo_succ, lastSnapshot_append]
    cases hsnapshot : (row (version + 1)).snapshot with
    | some v =>
      refine ⟨version + 1, le_rfl, ?_, fun n hlt hle => by omega⟩
      rw [h.whole (version + 1) le_rfl v hsnapshot]
    | none =>
      obtain ⟨base, hbase, hlast, hsince⟩ := ih (h.mono (Nat.le_succ version))
      refine ⟨base, by omega, hlast, ?_⟩
      intro n hlt hle
      by_cases hn : n = version + 1
      · rw [hn]
        exact hsnapshot
      · exact hsince n hlt (by omega)

theorem replayStep_of_le {base n : Nat} {v : α} (hle : n ≤ base) :
    replayStep apply base v (n, row n) = .ok v :=
  if_pos hle

/-- From the base on, each change leads to the next version. -/
theorem replayStep_of_lt (h : Tells apply row value version) {base n : Nat} (hbase : base ≤ n)
    (hn : n < version) (hnone : (row (n + 1)).snapshot = none) :
    replayStep apply base (value n) (n + 1, row (n + 1)) = .ok (value (n + 1)) := by
  obtain ⟨diff, hdiff, happly⟩ := h.change n hn hnone
  unfold replayStep
  rw [if_neg (by simp only; omega)]
  simp only [hdiff, happly]

/-- Up to the base the replay stands still, and then it goes on version by version. -/
theorem replay_range (h : Tells apply row value version) {base : Nat}
    (hsince : ∀ n, base < n → n ≤ version → (row n).snapshot = none) :
    (rowsUpTo row version).foldlM (replayStep apply base) (value base) =
      .ok (value (max base version)) := by
  induction version with
  | zero =>
    have hstep : replayStep apply base (value base) (0, row 0) = .ok (value base) :=
      replayStep_of_le (Nat.zero_le base)
    rw [Nat.max_zero]
    simp [rowsUpTo, hstep]
  | succ version ih =>
    have hrest := ih (h.mono (Nat.le_succ version))
      fun n hlt hle => hsince n hlt (hle.trans (Nat.le_succ version))
    rw [rowsUpTo_succ, List.foldlM_append, hrest]
    change List.foldlM (replayStep apply base) (value (max base version))
      [(version + 1, row (version + 1))] = _
    rw [List.foldlM_cons]
    by_cases hle : version + 1 ≤ base
    · rw [replayStep_of_le hle, max_eq_left hle, max_eq_left (by omega)]
      rfl
    · have hversion : max base version = version := max_eq_right (by omega)
      have hnone := hsince (version + 1) (by omega) le_rfl
      rw [hversion, replayStep_of_lt h (by omega) (Nat.lt_succ_self version) hnone,
        max_eq_right (by omega)]
      rfl

/-- A log that tells the versions gives each of them back. -/
theorem valueAt_range (h : Tells apply row value version) :
    valueAt apply (rowsUpTo row version) version = .ok (value version) := by
  obtain ⟨base, hbase, hlast, hsince⟩ := lastSnapshot_range h
  have hne : (rowsUpTo row version).isEmpty = false := by
    simp [rowsUpTo]
  unfold valueAt
  rw [if_neg (by simp [hne]), hlast]
  simp only
  by_cases heq : base = version
  · rw [if_pos heq, heq]
  · rw [if_neg heq, replay_range h hsince, max_eq_right hbase]

end Replay

end Checkpoints
