import Mathlib.Data.List.Nodup
import Mathlib.Logic.Function.Basic
import Mathlib.Tactic

/-!
# Things at places

A board says which things lie at each place, in order.  It is distinct when every thing lies
once, at one place.

Main results:

- `Distinct.update`: new things at one place, each of which was there or nowhere.
- `nodup_flatMap_of_distinct`: the places, one after the other, name no thing twice.
-/

namespace Placement

variable {κ α : Type}

structure Distinct (board : κ → List α) : Prop where
  once : ∀ k, (board k).Nodup
  onePlace : ∀ {j k x}, x ∈ board j → x ∈ board k → j = k

/-- Every place keeps some of its things. -/
theorem Distinct.of_sublist {board board' : κ → List α} (h : Distinct board)
    (hsub : ∀ k, (board' k).Sublist (board k)) : Distinct board' := by
  constructor
  · exact fun k => (h.once k).sublist (hsub k)
  · exact fun {j k x} hj hk => h.onePlace ((hsub j).subset hj) ((hsub k).subset hk)

variable [DecidableEq κ]

/-- One place is laid out anew, with things that were there or nowhere. -/
theorem Distinct.update {board : κ → List α} (h : Distinct board) {k : κ} {xs : List α}
    (hxs : xs.Nodup) (hsource : ∀ x ∈ xs, x ∈ board k ∨ ∀ j, x ∉ board j) :
    Distinct (Function.update board k xs) := by
  have hmoved : ∀ {j x}, j ≠ k → x ∈ board j → x ∉ xs := by
    intro j x hne hj hx
    rcases hsource x hx with hk | hnowhere
    · exact hne (h.onePlace hj hk)
    · exact hnowhere j hj
  constructor
  · intro j
    by_cases hj : j = k
    · rwa [hj, Function.update_self]
    · rw [Function.update_of_ne hj]
      exact h.once j
  · intro i j x hi hj
    by_cases hik : i = k
    · by_cases hjk : j = k
      · exact hik.trans hjk.symm
      · rw [hik, Function.update_self] at hi
        rw [Function.update_of_ne hjk] at hj
        exact absurd hi (hmoved hjk hj)
    · by_cases hjk : j = k
      · rw [Function.update_of_ne hik] at hi
        rw [hjk, Function.update_self] at hj
        exact absurd hj (hmoved hik hi)
      · rw [Function.update_of_ne hik] at hi
        rw [Function.update_of_ne hjk] at hj
        exact h.onePlace hi hj

omit [DecidableEq κ] in
/-- The places of a list are named once: so are the things that lie there. -/
theorem nodup_flatMap_of_distinct {β : Type} {board : κ → List α} (h : Distinct board)
    {place : β → κ} {bs : List β} (hplaces : (bs.map place).Nodup) :
    (bs.flatMap fun b => board (place b)).Nodup := by
  refine List.nodup_flatMap.mpr ⟨fun b _ => h.once (place b), ?_⟩
  refine (List.pairwise_map.mp hplaces).imp ?_
  intro b c hne x hb hc
  exact hne (h.onePlace hb hc)

end Placement
