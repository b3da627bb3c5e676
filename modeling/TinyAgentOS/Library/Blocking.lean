import Mathlib.Tactic

/-!
# Blocking

An element waits for the elements it depends on while any of them is pending.
The dependency relation and the pending set are arbitrary; cycles and
self-dependencies are allowed.

Main results:

- `released_iff`: what is unblocked by finishing one element.
-/

namespace Blocking

variable {α : Type} (dependsOn : α → α → Prop) (pending : α → Prop)

/-- Some element this one depends on is pending. -/
def Blocked (a : α) : Prop :=
  ∃ b, dependsOn a b ∧ pending b

/-- The pending set after one element is finished. -/
def finish (done : α) : α → Prop :=
  fun b => pending b ∧ b ≠ done

variable {dependsOn pending}

theorem not_blocked_iff {a : α} : ¬Blocked dependsOn pending a ↔
    ∀ b, dependsOn a b → ¬pending b := by
  simp [Blocked]

@[simp]
theorem finish_finish (done : α) : finish (finish pending done) done = finish pending done := by
  ext b
  simp [finish]

/-- Finishing a pending element unblocks exactly what waited for it alone. -/
theorem released_iff {done a : α} (hdone : pending done) :
    (¬Blocked dependsOn (finish pending done) a ∧ Blocked dependsOn pending a) ↔
      dependsOn a done ∧ ¬Blocked dependsOn (finish pending done) a := by
  constructor
  · rintro ⟨hfree, b, hdep, hpending⟩
    have hb : b = done := by
      by_contra hne
      exact hfree ⟨b, hdep, hpending, hne⟩
    exact ⟨hb ▸ hdep, hfree⟩
  · rintro ⟨hdep, hfree⟩
    exact ⟨hfree, done, hdep, hdone⟩

end Blocking
