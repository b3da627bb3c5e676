import Mathlib.Data.List.Basic

/-!
# Chains of hashes

Every entry of a chain names the hash of the entry before it.  What is appended to a chain names the
hash of its last entry.

Main results:

- `linked_append`: a chain of two parts.
- `linked_append_singleton`: one entry more.
-/

namespace HashChain

variable {α η : Type} (hash : α → η) (prev : α → Option η)

/-- Each entry names the hash of the one before, and the first names what is given. -/
def Linked : Option η → List α → Prop
  | _, [] => True
  | p, a :: as => prev a = p ∧ Linked (some (hash a)) as

/-- The hash of the last entry, or what is given where there is none. -/
def lastHash (p : Option η) (as : List α) : Option η :=
  (as.getLast?.map hash).or p

variable {hash prev}

@[simp]
theorem linked_nil (p : Option η) : Linked hash prev p [] :=
  trivial

variable {a : α} {p : Option η} {as : List α}

theorem linked_cons :
    Linked hash prev p (a :: as) ↔ prev a = p ∧ Linked hash prev (some (hash a)) as :=
  Iff.rfl

@[simp]
theorem lastHash_nil (p : Option η) : lastHash hash p [] = p :=
  rfl

/-- The last hash of a longer chain. -/
theorem lastHash_cons (p : Option η) (a : α) (as : List α) :
    lastHash hash p (a :: as) = lastHash hash (some (hash a)) as := by
  cases as with
  | nil => rfl
  | cons b bs => simp [lastHash, List.getLast?_cons]

theorem lastHash_none (as : List α) : lastHash hash none as = as.getLast?.map hash := by
  rw [lastHash, Option.or_none]

/-- A chain goes on from its last hash. -/
theorem linked_append {bs : List α} : Linked hash prev p (as ++ bs) ↔
      Linked hash prev p as ∧ Linked hash prev (lastHash hash p as) bs := by
  induction as generalizing p with
  | nil => simp
  | cons a as ih =>
    rw [List.cons_append, linked_cons, linked_cons, ih, lastHash_cons, and_assoc]

/-- An entry that names the last hash continues a chain. -/
theorem linked_append_singleton (h : Linked hash prev p as) (ha : prev a = lastHash hash p as) :
    Linked hash prev p (as ++ [a]) :=
  linked_append.mpr ⟨h, ha, trivial⟩

/-- The chain of what is made of the entries. -/
theorem linked_map {β : Type} {hash' : β → η} {prev' : β → Option η} {f : α → β} :
    Linked hash' prev' p (as.map f) ↔ Linked (hash' ∘ f) (prev' ∘ f) p as := by
  induction as generalizing p with
  | nil => rfl
  | cons a as ih =>
    rw [List.map_cons, linked_cons, linked_cons, ih]
    rfl

end HashChain
