import Mathlib.Tactic

/-!
# Computations that may raise

A computation on a state returns a value or raises an error, and what it has written by then
stays.  A handler goes on from the state in which the error was raised.

Main results:

- `Raising.forEach_statement`: a loop of statements carries out those before the first that
  raises.
-/

namespace Raising

variable {σ ε α β : Type}

/-- A computation on a state. -/
def Attempt (σ ε α : Type) : Type := σ → Except ε α × σ

instance : Monad (Attempt σ ε) where
  pure a := fun s => (.ok a, s)
  bind x f := fun s =>
    match x s with
    | (.ok a, s') => f a s'
    | (.error e, s') => (.error e, s')

def raise (e : ε) : Attempt σ ε α :=
  fun s => (.error e, s)

def read (f : σ → α) : Attempt σ ε α :=
  fun s => (.ok (f s), s)

/-- A statement that is carried out, or raises and writes nothing. -/
def statement (fails : Bool) (e : ε) (f : σ → σ) : Attempt σ ε Unit :=
  fun s => if fails then (.error e, s) else (.ok (), f s)

/-- A check that raises or does nothing. -/
def ensure (result : Except ε α) : Attempt σ ε α :=
  fun s => (result, s)

/-- Errors go to a handler. -/
def rescue (x : Attempt σ ε α) (handler : ε → Attempt σ ε α) : Attempt σ ε α :=
  fun s =>
    match x s with
    | (.ok a, s') => (.ok a, s')
    | (.error e, s') => handler e s'

/-- Errors are passed over. -/
def bestEffort (x : Attempt σ ε Unit) : Attempt σ ε Unit :=
  rescue x fun _ => pure ()

def forEach (body : α → Attempt σ ε Unit) : List α → Attempt σ ε Unit
  | [] => pure ()
  | x :: xs => do
      body x
      forEach body xs

/-! ## Results -/

section Results

variable {x : Attempt σ ε α} {f : α → Attempt σ ε β} {s s' : σ} {a : α} {e : ε}

theorem pure_apply (a : α) (s : σ) : (pure a : Attempt σ ε α) s = (.ok a, s) :=
  rfl

/-- A step that returns is gone on from. -/
theorem bind_of_ok (h : x s = (.ok a, s')) : (x >>= f) s = f a s' := by
  change (match x s with
    | (.ok a, s') => f a s'
    | (.error e, s') => (.error e, s')) = _
  rw [h]

/-- A step that fails ends the attempt. -/
theorem bind_of_error (h : x s = (.error e, s')) : (x >>= f) s = (.error e, s') := by
  change (match x s with
    | (.ok a, s') => f a s'
    | (.error e, s') => (.error e, s')) = _
  rw [h]

theorem read_bind (g : σ → α) (s : σ) : (read g >>= f) s = f (g s) s :=
  rfl

variable {handler : ε → Attempt σ ε α} {fails : Bool}

/-- Nothing is rescued where nothing fails. -/
theorem rescue_of_ok (h : x s = (.ok a, s')) : rescue x handler s = (.ok a, s') := by
  rw [rescue, h]

/-- A failure is handled. -/
theorem rescue_of_error (h : x s = (.error e, s')) : rescue x handler s = handler e s' := by
  rw [rescue, h]

/-- A best effort does not fail. -/
theorem bestEffort_apply (x : Attempt σ ε Unit) (s : σ) : bestEffort x s = (.ok (), (x s).2) := by
  rw [bestEffort, rescue]
  split
  · rename_i h
    rw [h]
  · rename_i h
    rw [h, pure_apply]

/-- A statement that fails changes nothing. -/
theorem statement_of_fails (h : fails = true) (e : ε) (f : σ → σ) (s : σ) :
    statement fails e f s = (.error e, s) :=
  if_pos h

/-- A statement that does not fail takes effect. -/
theorem statement_of_not_fails (h : ¬ fails = true) (e : ε) (f : σ → σ) (s : σ) :
    statement fails e f s = (.ok (), f s) :=
  if_neg h

/-- A loop carries out the statements before the first that raises. -/
theorem forEach_statement (fails : α → Bool) (err : α → ε) (f : α → σ → σ) (xs : List α) (s : σ) :
    forEach (fun x => statement (fails x) (err x) (f x)) xs s =
      (match xs.find? fails with
        | none => .ok ()
        | some x => .error (err x),
        (xs.takeWhile fun x => !fails x).foldl (fun s x => f x s) s) := by
  induction xs generalizing s with
  | nil => rfl
  | cons x xs ih =>
    rw [forEach]
    by_cases hx : fails x = true
    · rw [bind_of_error (statement_of_fails hx (err x) (f x) s), List.find?_cons_of_pos hx,
        List.takeWhile_cons_of_neg (by simp [hx]), List.foldl_nil]
    · rw [bind_of_ok (statement_of_not_fails hx (err x) (f x) s), ih,
        List.find?_cons_of_neg hx, List.takeWhile_cons_of_pos (by simp [hx]), List.foldl_cons]

end Results

end Raising
