import Mathlib.Data.List.Basic
import Mathlib.Tactic

/-!
# Writers on one database connection

Several callers write through one connection, which has one open transaction for
all of them.  A commit makes every pending write durable and a rollback undoes
every pending write, whoever made it.  The connection is kept as three logs of
writes, each with its writer; the table that its statements see is computed from
them.

Main results:

- `Connection.made_rollback_le`: a rollback undoes writes, and makes none.
- `Connection.writesOf_commit`: a commit adds the pending writes of every writer.
- `Connection.Whole.commit_iff`: when a commit takes a set of writes as a whole.
-/

namespace Connections

/-- The writes that are committed, those of the open transaction, and those rolled back. -/
structure Connection (κ ω : Type) where
  durable : List (κ × ω)
  pending : List (κ × ω)
  undone : List (κ × ω)

namespace Connection

variable {κ ω τ α : Type}

/-- Nothing is written. -/
def init : Connection κ ω := ⟨[], [], []⟩

/-- One write in the open transaction. -/
def write (c : Connection κ ω) (writer : κ) (w : ω) : Connection κ ω :=
  { c with pending := c.pending ++ [(writer, w)] }

/-- The open transaction is made durable. -/
def commit (c : Connection κ ω) : Connection κ ω :=
  { c with durable := c.durable ++ c.pending, pending := [] }

/-- The open transaction is undone. -/
def rollback (c : Connection κ ω) : Connection κ ω :=
  { c with pending := [], undone := c.undone ++ c.pending }

/-- Replay a log. -/
def replay (apply : τ → ω → τ) (start : τ) (log : List (κ × ω)) : τ :=
  log.foldl (fun table p => apply table p.2) start

/-- The table that a statement of the connection sees. -/
def view (apply : τ → ω → τ) (start : τ) (c : Connection κ ω) : τ :=
  replay apply start (c.durable ++ c.pending)

section Writers

variable [DecidableEq κ]

/-- The writes of a writer in a log. -/
def writesOf (writer : κ) (log : List (κ × ω)) : List ω :=
  (log.filter fun p => p.1 = writer).map Prod.snd

@[simp]
theorem writesOf_nil (writer : κ) : writesOf writer ([] : List (κ × ω)) = [] :=
  rfl

/-- The writes of two logs, one after the other. -/
@[simp]
theorem writesOf_append (writer : κ) (log log' : List (κ × ω)) :
    writesOf writer (log ++ log') = writesOf writer log ++ writesOf writer log' := by
  simp [writesOf]

/-- A write is its writer's. -/
theorem writesOf_singleton (writer writer' : κ) (w : ω) :
    writesOf writer [(writer', w)] = if writer' = writer then [w] else [] := by
  by_cases h : writer' = writer <;> simp [writesOf, h]

/-- How many writes a writer has made that are not undone. -/
def made (c : Connection κ ω) (writer : κ) : Nat :=
  (writesOf writer c.durable).length + (writesOf writer c.pending).length

/-- A write is made by its writer. -/
theorem made_write (c : Connection κ ω) (writer writer' : κ) (w : ω) :
    (c.write writer' w).made writer = c.made writer + if writer' = writer then 1 else 0 := by
  unfold made write
  rw [writesOf_append, writesOf_singleton, List.length_append]
  split <;> simp [Nat.add_assoc]

/-- A commit makes no writes. -/
@[simp]
theorem made_commit (c : Connection κ ω) (writer : κ) : c.commit.made writer = c.made writer := by
  simp [made, commit]

/-- A rollback takes writes back. -/
theorem made_rollback_le (c : Connection κ ω) (writer : κ) :
    c.rollback.made writer ≤ c.made writer := by
  simp [made, rollback]

/-- A commit adds the pending writes of every writer. -/
@[simp]
theorem writesOf_commit (c : Connection κ ω) (writer : κ) :
    writesOf writer c.commit.durable = writesOf writer c.durable ++ writesOf writer c.pending :=
  writesOf_append writer c.durable c.pending

/-- All of a writer's writes are durable, or none; they are told apart by `f`. -/
def Whole (c : Connection κ ω) (f : ω → α) (writer : κ) (all : List α) : Prop :=
  (writesOf writer c.durable).map f = [] ∨ (writesOf writer c.durable).map f = all

/-- A commit takes a writer's writes as a whole when the open transaction has none or all. -/
theorem Whole.commit_iff {c : Connection κ ω} {f : ω → α} {writer : κ} {all : List α}
    (h : c.Whole f writer all) (hmade : c.made writer ≤ all.length) :
    c.commit.Whole f writer all ↔
      (writesOf writer c.pending).map f = [] ∨ (writesOf writer c.pending).map f = all := by
  unfold Whole made at *
  rw [writesOf_commit, List.map_append]
  rcases h with hnone | hall
  · rw [hnone, List.nil_append]
  · have hlength : (writesOf writer c.durable).length = all.length := by
      rw [← hall, List.length_map]
    have hempty : writesOf writer c.pending = [] := by
      apply List.eq_nil_of_length_eq_zero
      omega
    simp [hall, hempty]

end Writers

end Connection

end Connections
