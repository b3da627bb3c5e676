import Mathlib.Data.List.Perm.Subperm
import Mathlib.Data.List.Sort
import Mathlib.Tactic

/-!
# The newest items

The newest items of a set, chosen from candidates that leave out only what enough of them are as
new as.

Main results:

- `isNewest_take`: the front of the sorted candidates is what is asked for.
- `covered_take`: the front of a sorted list covers the rest of it.
-/

namespace Newest

variable {α κ : Type} [LinearOrder κ] (key : α → κ)

/-- The newest items, newest first, those of one key in any order; fewer than the limit only where
there are no others. -/
structure IsNewest (limit : Nat) (items : α → Prop) (l : List α) : Prop where
  subset : ∀ a ∈ l, items a
  nodup : l.Nodup
  ordered : l.Pairwise fun a b => key b ≤ key a
  length_le : l.length ≤ limit
  newest : ∀ a, items a → a ∉ l → l.length = limit ∧ ∀ b ∈ l, key a ≤ key b

/-- There are as many candidates as the limit that are at least as new. -/
def Covered (limit : Nat) (candidates : List α) (a : α) : Prop :=
  ∃ l : List α, l.Nodup ∧ l ⊆ candidates ∧ limit ≤ l.length ∧ ∀ b ∈ l, key a ≤ key b

variable {key} {limit : Nat} {items : α → Prop} {l l' : List α} {a : α}

theorem Covered.mono (h : Covered key limit l a) (hsub : l ⊆ l') : Covered key limit l' a := by
  obtain ⟨cover, hnodup, hcover, hlength, hnewer⟩ := h
  exact ⟨cover, hnodup, List.Subset.trans hcover hsub, hlength, hnewer⟩

/-- Enough candidates that are all newer. -/
theorem covered_of_length (hnodup : l.Nodup) (hlength : limit ≤ l.length)
    (hnewer : ∀ b ∈ l, key a ≤ key b) : Covered key limit l a :=
  ⟨l, hnodup, List.Subset.refl l, hlength, hnewer⟩

/-- What the front of a sorted list leaves out is not newer than what it has. -/
theorem take_newer (hordered : l.Pairwise fun a b => key b ≤ key a) (ha : a ∈ l)
    (hnot : a ∉ l.take limit) :
    (l.take limit).length = limit ∧ ∀ b ∈ l.take limit, key a ≤ key b := by
  have hrest : a ∈ l.drop limit := by
    rw [← List.take_append_drop limit l] at ha
    exact (List.mem_append.mp ha).resolve_left hnot
  constructor
  · have hlong : limit < l.length := by
      by_contra hshort
      rw [List.drop_eq_nil_of_le (not_lt.mp hshort)] at hrest
      contradiction
    rw [List.length_take, min_eq_left hlong.le]
  · intro b hb
    rw [← List.take_append_drop limit l] at hordered
    exact (List.pairwise_append.mp hordered).2.2 b hb a hrest

theorem covered_take (hnodup : l.Nodup) (hordered : l.Pairwise fun a b => key b ≤ key a)
    (ha : a ∈ l) (hnot : a ∉ l.take limit) : Covered key limit (l.take limit) a := by
  obtain ⟨hlength, hnewer⟩ := take_newer hordered ha hnot
  exact covered_of_length (hnodup.sublist (List.take_sublist limit l)) hlength.ge hnewer

/-- The front of the sorted candidates, when each item is a candidate or covered by them. -/
theorem isNewest_take (hnodup : l.Nodup) (hordered : l.Pairwise fun a b => key b ≤ key a)
    (hsubset : ∀ a ∈ l, items a) (hcovered : ∀ a, items a → a ∈ l ∨ Covered key limit l a) :
    IsNewest key limit items (l.take limit) where
  subset := fun a ha => hsubset a (List.mem_of_mem_take ha)
  nodup := hnodup.sublist (List.take_sublist limit l)
  ordered := hordered.sublist (List.take_sublist limit l)
  length_le := List.length_take_le limit l
  newest := by
    intro a hitem hnot
    by_cases ha : a ∈ l
    · exact take_newer hordered ha hnot
    · obtain ⟨cover, hcover, hsub, hlength, hnewer⟩ := (hcovered a hitem).resolve_left ha
      have hlong : limit ≤ l.length := hlength.trans (hcover.subperm hsub).length_le
      refine ⟨by rw [List.length_take, min_eq_left hlong], ?_⟩
      intro b hb
      by_contra hold
      -- an older item at the front would leave no room for the cover
      have hfront : b :: cover ⊆ l.take limit := by
        intro c hc
        rcases List.mem_cons.mp hc with rfl | hc
        · exact hb
        · by_contra hout
          have hle := (take_newer hordered (hsub hc) hout).2 b hb
          exact hold ((hnewer c hc).trans hle)
      have hb' : b ∉ cover := fun hmem => hold (hnewer b hmem)
      have hle := ((List.nodup_cons.mpr ⟨hb', hcover⟩).subperm hfront).length_le
      rw [List.length_cons] at hle
      have htop := List.length_take_le limit l
      omega

end Newest
