import TinyAgentOS.Library.Dict

/-!
# Buckets

The elements of a list are put into the buckets of their keys, one after another.  An element with
several keys is in several buckets, and one with none is in no bucket.

Main results:

- `inBucket_fill`: what is in a bucket once a list has been put into the buckets.
- `exists_of_fill`: a bucket that was not there before has something in it.
-/

namespace Buckets

open Collections

variable {κ α : Type} [DecidableEq κ]

/-- An element is put into a bucket, which is made if need be. -/
def push (d : Dict κ (List α)) (k : κ) (a : α) : Dict κ (List α) :=
  d.set k ((d.get? k).getD [] ++ [a])

/-- An element is put into the buckets of its keys. -/
def place (keys : α → List κ) (d : Dict κ (List α)) (a : α) : Dict κ (List α) :=
  (keys a).foldl (fun d k => push d k a) d

def fill (keys : α → List κ) (d : Dict κ (List α)) (as : List α) : Dict κ (List α) :=
  as.foldl (place keys) d

def InBucket (d : Dict κ (List α)) (k : κ) (a : α) : Prop :=
  ∃ bucket, d.get? k = some bucket ∧ a ∈ bucket

variable {keys : α → List κ} {d : Dict κ (List α)} {k : κ} {a : α}

theorem not_inBucket_empty : ¬ InBucket (Dict.empty : Dict κ (List α)) k a := by
  rintro ⟨bucket, hget, _⟩
  rw [Dict.get?_empty] at hget
  contradiction

/-- A bucket has what was pushed. -/
theorem inBucket_push {k' : κ} {b : α} :
    InBucket (push d k b) k' a ↔ InBucket d k' a ∨ k = k' ∧ b = a := by
  unfold InBucket push
  rw [Dict.get?_set]
  by_cases hk : k = k'
  · subst hk
    simp only [if_true, Option.some.injEq, exists_eq_left', List.mem_append, List.mem_singleton,
      true_and]
    cases hget : d.get? k with
    | none | some => simp [eq_comm]
  · simp [hk]

/-- The buckets of an element have it. -/
theorem inBucket_place {b : α} :
    InBucket (place keys d b) k a ↔ InBucket d k a ∨ k ∈ keys b ∧ b = a := by
  unfold place
  induction keys b generalizing d with
  | nil => simp
  | cons k' ks ih =>
    rw [List.foldl_cons, ih, inBucket_push, List.mem_cons, or_assoc]
    constructor
    · rintro (hold | ⟨rfl, rfl⟩ | ⟨hk, rfl⟩)
      · exact Or.inl hold
      · exact Or.inr ⟨Or.inl rfl, rfl⟩
      · exact Or.inr ⟨Or.inr hk, rfl⟩
    · rintro (hold | ⟨rfl | hk, rfl⟩)
      · exact Or.inl hold
      · exact Or.inr (Or.inl ⟨rfl, rfl⟩)
      · exact Or.inr (Or.inr ⟨hk, rfl⟩)

variable {as : List α}

/-- What is in a bucket was there before, or has its key. -/
theorem inBucket_fill : InBucket (fill keys d as) k a ↔ InBucket d k a ∨ a ∈ as ∧ k ∈ keys a := by
  induction as generalizing d with
  | nil => simp [fill]
  | cons b as ih =>
    have hcons : fill keys d (b :: as) = fill keys (place keys d b) as := rfl
    rw [hcons, ih, inBucket_place, List.mem_cons, or_assoc]
    constructor
    · rintro (hold | ⟨hk, rfl⟩ | ⟨ha, hk⟩)
      · exact Or.inl hold
      · exact Or.inr ⟨Or.inl rfl, hk⟩
      · exact Or.inr ⟨Or.inr ha, hk⟩
    · rintro (hold | ⟨rfl | ha, hk⟩)
      · exact Or.inl hold
      · exact Or.inr (Or.inl ⟨hk, rfl⟩)
      · exact Or.inr (Or.inr ⟨ha, hk⟩)

/-- No bucket is empty. -/
def NoneEmpty (d : Dict κ (List α)) : Prop :=
  ∀ k bucket, d.get? k = some bucket → bucket ≠ []

theorem noneEmpty_push (h : NoneEmpty d) : NoneEmpty (push d k a) := by
  intro k' bucket hget
  rcases Dict.get?_set_cases hget with ⟨_, rfl⟩ | ⟨_, hget⟩
  · simp
  · exact h k' bucket hget

theorem noneEmpty_fill (h : NoneEmpty d) : NoneEmpty (fill keys d as) := by
  induction as generalizing d with
  | nil => exact h
  | cons b as ih =>
    apply ih
    unfold place
    induction keys b generalizing d with
    | nil => exact h
    | cons k ks ihk => exact ihk (noneEmpty_push h)

/-- A bucket that was made for a list has an element of the list in it. -/
theorem exists_of_fill {bucket : List α} (hget : (fill keys Dict.empty as).get? k = some bucket) :
    ∃ a ∈ as, k ∈ keys a ∧ a ∈ bucket := by
  have hempty : NoneEmpty (Dict.empty : Dict κ (List α)) := by
    intro k bucket hget
    rw [Dict.get?_empty] at hget
    contradiction
  obtain ⟨a, ha⟩ := List.exists_mem_of_ne_nil bucket (noneEmpty_fill hempty k bucket hget)
  rcases inBucket_fill.mp ⟨bucket, hget, ha⟩ with hold | ⟨hmem, hk⟩
  · exact absurd hold not_inBucket_empty
  · exact ⟨a, hmem, hk, ha⟩

end Buckets
