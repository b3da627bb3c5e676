import Mathlib.Logic.Function.Basic
import Mathlib.Logic.Relation
import Mathlib.Tactic

/-!
# Forests given by a parent function

Each node has at most one parent.  A climb is a walk from a node towards its root
that remembers the nodes it has read; it stays valid while none of these is given
another parent.

Main results:

- `Climb.not_reaches`: a climb that ended has seen every ancestor.
- `Acyclic.update` and `Acyclic.update_iff`: when a node may be given a parent.
- `Acyclic.ancestor_unique`: an ancestor is met at one height.
- `Rooted.unique`: a node that has a root has one depth.
-/

namespace Forest

variable {α : Type}

/-- One step towards the root. -/
def Up (parent : α → Option α) (child p : α) : Prop := parent child = some p

instance [DecidableEq α] (parent : α → Option α) (child p : α) :
    Decidable (Up parent child p) :=
  inferInstanceAs (Decidable (parent child = some p))

/-- No node is its own ancestor. -/
def Acyclic (parent : α → Option α) : Prop :=
  ∀ a, ¬Relation.TransGen (Up parent) a a

/-- The nodes a walk from `start` has read, last one first, and the node it will read next. -/
inductive Climb (parent : α → Option α) (start : α) : List α → Option α → Prop where
  | start : Climb parent start [start] (parent start)
  | next {walked : List α} {p : α} (h : Climb parent start walked (some p)) :
      Climb parent start (p :: walked) (parent p)

section Climbs

variable {parent parent' : α → Option α} {start : α} {walked : List α} {next : Option α}

theorem Climb.start_mem (h : Climb parent start walked next) : start ∈ walked := by
  induction h with
  | start => exact List.mem_singleton.mpr rfl
  | next _ ih => exact List.mem_cons_of_mem _ ih

/-- An ancestor of the start has been read, or is reached from where the climb stands. -/
theorem Climb.mem_or_reaches (h : Climb parent start walked next) {b : α}
    (hb : Relation.ReflTransGen (Up parent) start b) :
    b ∈ walked ∨ ∃ p, next = some p ∧ Relation.ReflTransGen (Up parent) p b := by
  induction h with
  | start =>
    rcases Relation.ReflTransGen.cases_head hb with rfl | ⟨p, hup, hrest⟩
    · exact Or.inl (List.mem_singleton.mpr rfl)
    · exact Or.inr ⟨p, hup, hrest⟩
  | next h ih =>
    rcases ih with hmem | ⟨p, hp, hreach⟩
    · exact Or.inl (List.mem_cons_of_mem _ hmem)
    · cases hp
      rcases Relation.ReflTransGen.cases_head hreach with rfl | ⟨q, hup, hrest⟩
      · exact Or.inl List.mem_cons_self
      · exact Or.inr ⟨q, hup, hrest⟩

/-- Once a climb has ended, a node it did not read is no ancestor of its start. -/
theorem Climb.not_reaches (h : Climb parent start walked none) {b : α} (hb : b ∉ walked) :
    ¬Relation.ReflTransGen (Up parent) start b := by
  intro hreach
  rcases h.mem_or_reaches hreach with hmem | ⟨p, hp, _⟩
  · exact hb hmem
  · contradiction

/-- A climb stays valid while the nodes it read keep their parents. -/
theorem Climb.congr (h : Climb parent start walked next)
    (heq : ∀ a ∈ walked, parent' a = parent a) : Climb parent' start walked next := by
  induction h with
  | start =>
    rw [← heq start (List.mem_singleton.mpr rfl)]
    exact Climb.start
  | next h ih =>
    rw [← heq _ List.mem_cons_self]
    exact Climb.next (ih fun a ha => heq a (List.mem_cons_of_mem _ ha))

end Climbs

/-! ## Heights -/

/-- The node so many steps above another. -/
def ancestor (parent : α → Option α) : Nat → α → Option α
  | 0, a => some a
  | k + 1, a => (parent a).bind (ancestor parent k)

section Heights

variable {parent : α → Option α}

theorem reaches_iff_ancestor {a b : α} :
    Relation.ReflTransGen (Up parent) a b ↔ ∃ k, ancestor parent k a = some b := by
  constructor
  · intro hreach
    induction hreach using Relation.ReflTransGen.head_induction_on with
    | refl => exact ⟨0, rfl⟩
    | head hup _ ih =>
      obtain ⟨k, hk⟩ := ih
      refine ⟨k + 1, ?_⟩
      rw [ancestor, hup, Option.bind_some, hk]
  · rintro ⟨k, hk⟩
    induction k generalizing a with
    | zero =>
      cases hk
      exact Relation.ReflTransGen.refl
    | succ k ih =>
      obtain ⟨c, hup, hrest⟩ := Option.bind_eq_some_iff.mp hk
      exact Relation.ReflTransGen.head hup (ih hrest)

theorem transGen_of_ancestor_succ {a b : α} {k : Nat} (h : ancestor parent (k + 1) a = some b) :
    Relation.TransGen (Up parent) a b := by
  obtain ⟨c, hup, hrest⟩ := Option.bind_eq_some_iff.mp h
  exact Relation.TransGen.head' hup (reaches_iff_ancestor.mpr ⟨k, hrest⟩)

theorem ancestor_add (j k : Nat) (a : α) :
    ancestor parent (j + k) a = (ancestor parent j a).bind (ancestor parent k) := by
  induction j generalizing a with
  | zero => rw [Nat.zero_add, ancestor, Option.bind_some]
  | succ j ih =>
    rw [Nat.succ_add, ancestor, ancestor, Option.bind_assoc]
    exact Option.bind_congr fun c _ => ih c

/-- An ancestor is met at one height. -/
theorem Acyclic.ancestor_unique (h : Acyclic parent) {a b : α} {j k : Nat}
    (hj : ancestor parent j a = some b) (hk : ancestor parent k a = some b) : j = k := by
  wlog hle : j ≤ k generalizing j k with hsymm
  · exact (hsymm hk hj (not_le.mp hle).le).symm
  · obtain ⟨d, rfl⟩ := Nat.exists_eq_add_of_le hle
    rw [ancestor_add, hj, Option.bind_some] at hk
    cases d with
    | zero => rfl
    | succ d => exact absurd (transGen_of_ancestor_succ hk) (h b)

end Heights

/-! ## Depths -/

/-- The root is so many steps above. -/
def Rooted (parent : α → Option α) (k : Nat) (a : α) : Prop :=
  ∃ r, ancestor parent k a = some r ∧ parent r = none

section Depths

variable {parent : α → Option α}

theorem rooted_zero_iff {a : α} : Rooted parent 0 a ↔ parent a = none := by
  constructor
  · rintro ⟨r, ⟨⟩, hroot⟩
    exact hroot
  · exact fun hroot => ⟨a, rfl, hroot⟩

/-- A node that is some steps below another one is as much deeper. -/
theorem Rooted.below {a b : α} {j k : Nat} (h : Rooted parent j b)
    (hk : ancestor parent k a = some b) : Rooted parent (k + j) a := by
  obtain ⟨r, hr, hroot⟩ := h
  refine ⟨r, ?_, hroot⟩
  rw [ancestor_add, hk, Option.bind_some, hr]

/-- There is nothing above a root. -/
theorem Rooted.ancestor_eq_none {a : α} {j k : Nat} (h : Rooted parent j a) (hlt : j < k) :
    ancestor parent k a = none := by
  obtain ⟨d, rfl⟩ := Nat.exists_eq_add_of_lt hlt
  obtain ⟨r, hr, hroot⟩ := h
  rw [Nat.add_assoc, ancestor_add, hr, Option.bind_some, ancestor, hroot, Option.bind_none]

/-- Nothing has two depths. -/
theorem Rooted.unique {a : α} {j k : Nat} (hj : Rooted parent j a) (hk : Rooted parent k a) :
    j = k := by
  rcases Nat.lt_trichotomy j k with hlt | heq | hlt
  · obtain ⟨r, hr, _⟩ := hk
    rw [hj.ancestor_eq_none hlt] at hr
    contradiction
  · exact heq
  · obtain ⟨r, hr, _⟩ := hj
    rw [hk.ancestor_eq_none hlt] at hr
    contradiction

end Depths

section Updates

variable {parent : α → Option α} {t p : α}

/-- A node that nobody has as a parent is reached from itself alone. -/
theorem not_reaches_of_leaf (hleaf : ∀ a, parent a ≠ some t) (hne : p ≠ t) :
    ¬Relation.ReflTransGen (Up parent) p t := by
  intro hreach
  rcases Relation.ReflTransGen.cases_tail hreach with heq | ⟨a, _, hup⟩
  · exact hne heq.symm
  · exact hleaf a hup

variable [DecidableEq α]

/-- What is above a node does not depend on the edge out of one that is not above it. -/
theorem ancestor_update {a : α} (h : ¬Relation.ReflTransGen (Up parent) a t) (q : Option α)
    (k : Nat) : ancestor (Function.update parent t q) k a = ancestor parent k a := by
  induction k generalizing a with
  | zero => rfl
  | succ k ih =>
    have hat : a ≠ t := fun heq => h (heq ▸ Relation.ReflTransGen.refl)
    rw [ancestor, ancestor, Function.update_of_ne hat]
    cases hup : parent a with
    | none => rfl
    | some c => exact ih fun hreach => h (Relation.ReflTransGen.head hup hreach)

/-- A path after the update is an old one, or goes through the new edge. -/
theorem transGen_update {a b : α}
    (h : Relation.TransGen (Up (Function.update parent t (some p))) a b) :
    Relation.TransGen (Up parent) a b ∨
      Relation.ReflTransGen (Up parent) a t ∧ Relation.ReflTransGen (Up parent) p b := by
  induction h with
  | @single b hup =>
    by_cases hat : a = t
    · subst hat
      obtain rfl : p = b := by simpa [Up] using hup
      exact Or.inr ⟨Relation.ReflTransGen.refl, Relation.ReflTransGen.refl⟩
    · exact Or.inl (Relation.TransGen.single (by simpa [Up, hat] using hup))
  | @tail b c _ hup ih =>
    by_cases hbt : b = t
    · subst hbt
      obtain rfl : p = c := by simpa [Up] using hup
      rcases ih with hold | ⟨hreach, _⟩
      · exact Or.inr ⟨hold.to_reflTransGen, Relation.ReflTransGen.refl⟩
      · exact Or.inr ⟨hreach, Relation.ReflTransGen.refl⟩
    · have hold : Up parent b c := by simpa [Up, hbt] using hup
      rcases ih with htrans | ⟨hreach, hrest⟩
      · exact Or.inl (htrans.tail hold)
      · exact Or.inr ⟨hreach, hrest.tail hold⟩

/-- A node may be given a parent that is not below it. -/
theorem Acyclic.update (h : Acyclic parent) (hp : ¬Relation.ReflTransGen (Up parent) p t) :
    Acyclic (Function.update parent t (some p)) := by
  intro a hcycle
  rcases transGen_update hcycle with hold | ⟨hat, hpa⟩
  · exact h a hold
  · exact hp (hpa.trans hat)

/-- A path up to a node does not use the edge out of it. -/
theorem reaches_update {a : α} (h : Relation.ReflTransGen (Up parent) a t) (q : Option α) :
    Relation.ReflTransGen (Up (Function.update parent t q)) a t := by
  induction h using Relation.ReflTransGen.head_induction_on with
  | refl => exact Relation.ReflTransGen.refl
  | @head a c hup _ ih =>
    by_cases hat : a = t
    · rw [hat]
    · exact Relation.ReflTransGen.head (by simpa [Up, hat] using hup) ih

/-- A node may be given exactly a parent that is not below it. -/
theorem Acyclic.update_iff (h : Acyclic parent) :
    Acyclic (Function.update parent t (some p)) ↔ ¬Relation.ReflTransGen (Up parent) p t := by
  constructor
  · intro hafter hreach
    have hup : Up (Function.update parent t (some p)) t p := by
      rw [Up, Function.update_self]
    exact hafter t (Relation.TransGen.head' hup (reaches_update hreach (some p)))
  · exact h.update

/-- A node may lose its parent. -/
theorem Acyclic.update_none (h : Acyclic parent) : Acyclic (Function.update parent t none) := by
  intro a hcycle
  refine h a (Relation.TransGen.mono ?_ a a hcycle)
  intro b c hup
  by_cases hbt : b = t
  · simp [Up, hbt] at hup
  · simpa [Up, hbt] using hup

end Updates

end Forest
