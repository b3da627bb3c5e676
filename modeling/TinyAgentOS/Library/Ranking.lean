import Mathlib.Data.List.Sort
import TinyAgentOS.Library.Dict

/-!
# Ranks

Items with an id and a key are numbered from one, in the order of their keys.

Main results:

- `exists_rank`: the rank of an item is one more than its place in the order.
- `rank_lt_iff`: ranks are ordered as the keys are.
- `rank_le_length`: no rank exceeds the number of items.
-/

namespace Ranking

open Collections

variable {α κ : Type} [DecidableEq κ] (id : α → κ) (key : α → Nat)

/-- The items by their keys, items of one key as they were. -/
def order (items : List α) : List α :=
  items.insertionSort fun a b => key a ≤ key b

/-- The place of each item, by its id. -/
def numbers (n : Nat) (items : List α) (d : Dict κ Nat) : Dict κ Nat :=
  (items.zipIdx n).foldl (fun d e => d.set (id e.1) (e.2 + 1)) d

def rank (items : List α) (k : κ) : Nat :=
  ((numbers id 0 (order key items) Dict.empty).get? k).getD 1

/-- An id that no item has. -/
theorem get?_numbers_of_notMem (n : Nat) {items : List α} (d : Dict κ Nat) {k : κ}
    (h : k ∉ items.map id) : (numbers id n items d).get? k = d.get? k := by
  induction items generalizing n d with
  | nil => rfl
  | cons item items ih =>
    rw [List.map_cons, List.mem_cons, not_or] at h
    have hstep : numbers id n (item :: items) d =
        numbers id (n + 1) items (d.set (id item) (n + 1)) := rfl
    rw [hstep, ih (n + 1) _ h.2, Dict.get?_set_of_ne _ _ (Ne.symm h.1)]

/-- Items are numbered in order. -/
theorem get?_numbers (n : Nat) {items : List α} (d : Dict κ Nat)
    (hnodup : (items.map id).Nodup) {i : Nat} (hi : i < items.length) :
    (numbers id n items d).get? (id items[i]) = some (n + i + 1) := by
  induction items generalizing n d i with
  | nil => simp at hi
  | cons item items ih =>
    rw [List.map_cons, List.nodup_cons] at hnodup
    have hstep : numbers id n (item :: items) d =
        numbers id (n + 1) items (d.set (id item) (n + 1)) := rfl
    rw [hstep]
    cases i with
    | zero =>
      rw [List.getElem_cons_zero, get?_numbers_of_notMem id (n + 1) _ hnodup.1,
        Dict.get?_set_self]
    | succ i =>
      have hplace := ih (n + 1) (d.set (id item) (n + 1)) hnodup.2 (i := i)
        (by simpa using hi)
      rw [List.getElem_cons_succ, hplace]
      congr 1
      omega

variable {items : List α}

theorem order_perm : (order key items).Perm items :=
  List.perm_insertionSort _ items

/-- The items are ordered by their keys. -/
theorem order_pairwise : (order key items).Pairwise fun a b => key a ≤ key b := by
  have htotal : Std.Total fun a b : α => key a ≤ key b := ⟨fun a b => Nat.le_total (key a) (key b)⟩
  have htrans : IsTrans α fun a b : α => key a ≤ key b := ⟨fun _ _ _ => Nat.le_trans⟩
  exact List.pairwise_insertionSort _ items

/-- The rank of an item is one more than its place. -/
theorem exists_rank (hids : (items.map id).Nodup) {a : α} (ha : a ∈ items) :
    ∃ (i : Nat) (hi : i < (order key items).length),
      (order key items)[i] = a ∧ rank id key items (id a) = i + 1 := by
  have hperm : (order key items).Perm items := order_perm key
  have hnodup : ((order key items).map id).Nodup := (hperm.map id).nodup_iff.mpr hids
  obtain ⟨i, hi, hplace⟩ := List.mem_iff_getElem.mp (hperm.mem_iff.mpr ha)
  refine ⟨i, hi, hplace, ?_⟩
  rw [rank, ← hplace, get?_numbers id 0 Dict.empty hnodup hi]
  simp

theorem rank_le_length (hids : (items.map id).Nodup) {a : α} (ha : a ∈ items) :
    rank id key items (id a) ≤ items.length := by
  obtain ⟨i, hi, _, hrank⟩ := exists_rank id key hids ha
  have hlength : (order key items).length = items.length := (order_perm key).length_eq
  omega

/-- Where no two items have one key, the ranks are ordered as the keys are. -/
theorem rank_lt_iff (hids : (items.map id).Nodup) (hkeys : (items.map key).Nodup) {a b : α}
    (ha : a ∈ items) (hb : b ∈ items) :
    rank id key items (id a) < rank id key items (id b) ↔ key a < key b := by
  obtain ⟨i, hi, hplace, hrank⟩ := exists_rank id key hids ha
  obtain ⟨j, hj, hplace', hrank'⟩ := exists_rank id key hids hb
  have hordered : (order key items).Pairwise fun a b => key a ≤ key b := order_pairwise key
  have hsorted := List.pairwise_iff_getElem.mp hordered
  have hdistinct : ((order key items).map key).Nodup :=
    ((order_perm key).map key).nodup_iff.mpr hkeys
  have hne : i ≠ j → key a ≠ key b := by
    intro hij heq
    apply hij
    have hi' : i < ((order key items).map key).length := by simpa using hi
    have hj' : j < ((order key items).map key).length := by simpa using hj
    have hat : ((order key items).map key)[i] = ((order key items).map key)[j] := by
      simpa [hplace, hplace'] using heq
    exact hdistinct.getElem_inj_iff.mp hat
  rw [hrank, hrank']
  constructor
  · intro hlt
    have hle := hsorted i j hi hj (by omega)
    rw [hplace, hplace'] at hle
    have hkey := hne (by omega)
    omega
  · intro hlt
    by_contra hnot
    by_cases hij : i = j
    · subst hij
      rw [hplace] at hplace'
      rw [hplace'] at hlt
      omega
    · have hle := hsorted j i hj hi (by omega)
      rw [hplace, hplace'] at hle
      omega

end Ranking
