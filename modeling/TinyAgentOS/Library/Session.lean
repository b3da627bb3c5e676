import Mathlib.Tactic

/-!
# A connection and its open transaction

Several callers share one connection and its one open transaction.  What a
statement does to the connection is an effect: it writes the tables that the
statements see, makes them durable, goes back to the durable ones, or leaves
both alone.

Main results:

- `Session.Both.take`: when an effect keeps a fact of both tables.
-/

namespace Connections

/-- The tables as they were committed last, and as the statements of the connection see them. -/
structure Session (τ : Type) where
  durable : τ
  current : τ

/-- What a statement does to the connection. -/
inductive Effect (τ : Type) where
  | read
  | write (table : τ)
  | commit
  | rollback

namespace Session

variable {τ : Type}

/-- A connection without open writes. -/
def opened (table : τ) : Session τ := ⟨table, table⟩

/-- The connection after an effect. -/
def take (c : Session τ) : Effect τ → Session τ
  | .read => c
  | .write table => { c with current := table }
  | .commit => { c with durable := c.current }
  | .rollback => { c with current := c.durable }

/-- The durable tables and the current ones meet a condition. -/
structure Both (I : τ → Prop) (c : Session τ) : Prop where
  durable : I c.durable
  current : I c.current

variable {I : τ → Prop} {e : Effect τ} {c : Session τ}

/-- A fact of both tables is kept unless a write breaks it. -/
theorem Both.take (h : c.Both I)
    (hwrite : ∀ table, e = .write table → I table) : (c.take e).Both I := by
  cases e with
  | read => exact h
  | write table => exact ⟨h.durable, hwrite table rfl⟩
  | commit => exact ⟨h.current, h.current⟩
  | rollback => exact ⟨h.durable, h.durable⟩

/-- A fact of the current tables is kept unless a write breaks it, or a rollback goes back to
durable tables that do not meet it. -/
theorem current_take (h : I c.current)
    (hwrite : ∀ table, e = .write table → I table) (hrollback : e = .rollback → I c.durable) :
    I (c.take e).current := by
  cases e with
  | read => exact h
  | write table => exact hwrite table rfl
  | commit => exact h
  | rollback => exact hrollback rfl

end Session

end Connections
