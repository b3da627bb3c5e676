import Mathlib

/-!
# The tensor-parallel mode

An inference session is opened with a text that names its NPU cores: `all`
or the sorted core indices with commas between them.

Main results:

- `tpModeToCores_coresToTpMode`: the text names the cores it was made from.
-/

namespace TinyAgentOS.Scheduler

/-- An index of an NPU core. -/
abbrev Core := Nat

/-- `_ALL_CORES_RK3588`. -/
def allCoresRk3588 : List Core := [0, 1, 2]

def sortedCores (cores : List Core) : List Core := cores.insertionSort (· ≤ ·)

/-- `_cores_to_tp_mode`. -/
def coresToTpMode (cores : List Core) : String :=
  if cores = [] then ""
  else if sortedCores cores = allCoresRk3588 then "all"
  else String.ofList ([','].intercalate ((sortedCores cores).map fun c => c.repr.toList))

/-- `str.strip`. -/
def strip (chars : List Char) : List Char :=
  ((chars.dropWhile Char.isWhitespace).reverse.dropWhile Char.isWhitespace).reverse

/-- `_tp_mode_to_cores`: a text that does not parse names no core. -/
def tpModeToCores (tpMode : String) : List Core :=
  if tpMode = "" then []
  else if tpMode = "all" then allCoresRk3588
  else
    ((tpMode.toList.splitOn ',').mapM fun part => (String.ofList (strip part)).toNat?).getD []

theorem sortedCores_perm (cores : List Core) : (sortedCores cores).Perm cores :=
  List.perm_insertionSort _ cores

/-- The text of an index is not empty and has only digits. -/
theorem repr_chars (c : Core) : c.repr.toList ≠ [] ∧ ∀ x ∈ c.repr.toList, x.isDigit = true := by
  refine ⟨?_, ?_⟩
  · simp
  · intro x hx
    rw [Nat.toList_repr] at hx
    exact Nat.isDigit_of_mem_toDigits (by decide) (by decide) hx

theorem isDigit_range {x : Char} (h : x.isDigit = true) : 48 ≤ x.toNat ∧ x.toNat ≤ 57 := by
  simp only [Char.isDigit, Bool.and_eq_true, decide_eq_true_eq] at h
  exact ⟨h.1, h.2⟩

theorem strip_repr (c : Core) : strip c.repr.toList = c.repr.toList := by
  have hdrop : ∀ chars : List Char, (∀ x ∈ chars, x.isDigit = true) →
      chars.dropWhile Char.isWhitespace = chars := by
    intro chars hdigits
    cases chars with
    | nil => rfl
    | cons x chars =>
      have hrange := isDigit_range (hdigits x List.mem_cons_self)
      rw [List.dropWhile_cons_of_neg]
      intro hspace
      simp only [Char.isWhitespace, Bool.or_eq_true, decide_eq_true_eq] at hspace
      rcases hspace with ((rfl | rfl) | rfl) | rfl <;> simp at hrange
  have hdigits := (repr_chars c).2
  rw [strip, hdrop _ hdigits, hdrop, List.reverse_reverse]
  intro x hx
  exact hdigits x (List.mem_reverse.mp hx)

/-- The parts of a text are read back one by one. -/
theorem mapM_parts (cores : List Core) : (cores.map fun c => c.repr.toList).mapM
      (fun part => (String.ofList (strip part)).toNat?) = some cores := by
  induction cores with
  | nil => rfl
  | cons c cores ih =>
    rw [List.map_cons, List.mapM_cons, ih, strip_repr, String.ofList_toList, Nat.toNat?_repr]
    rfl

/-- The text names the cores it was made from. -/
theorem tpModeToCores_coresToTpMode (cores : List Core) :
    tpModeToCores (coresToTpMode cores) = sortedCores cores := by
  unfold coresToTpMode
  split
  · rename_i hnil
    rw [hnil]
    rfl
  · rename_i hne
    split
    · rename_i hall
      rw [hall]
      rfl
    · have hsorted : (sortedCores cores).map (fun c => c.repr.toList) ≠ [] := by
        intro hnil
        have hperm := sortedCores_perm cores
        rw [List.map_eq_nil_iff.mp hnil] at hperm
        exact hne hperm.nil_eq.symm
      have hcomma : ∀ part ∈ (sortedCores cores).map (fun c => c.repr.toList), ',' ∉ part := by
        intro part hpart hmem
        obtain ⟨c, _, rfl⟩ := List.mem_map.mp hpart
        have hdigit := (repr_chars c).2 ',' hmem
        contradiction
      have hsplit := List.splitOn_intercalate ',' hcomma hsorted
      -- The empty text and the word for all cores do not split into texts of indices.
      have hword : ∀ word : String, (∀ part ∈ word.toList.splitOn ',', ∀ c : Core,
          c.repr.toList ≠ part) →
          String.ofList ([','].intercalate ((sortedCores cores).map fun c => c.repr.toList)) ≠
            word := by
        intro word hparts heq
        rw [← heq, String.toList_ofList, hsplit] at hparts
        obtain ⟨part, hpart⟩ := List.exists_mem_of_ne_nil _ hsorted
        obtain ⟨c, _, hc⟩ := List.mem_map.mp hpart
        exact hparts part hpart c hc
      have hempty := hword "" (by
        intro part hpart c hc
        have hnil : part = [] := by simpa using hpart
        exact (repr_chars c).1 (hc.trans hnil))
      have hall := hword "all" (by
        intro part hpart c hc
        have hletters : part = ['a', 'l', 'l'] := by
          have hwhole : "all".toList.splitOn ',' = [['a', 'l', 'l']] := by decide
          rw [hwhole] at hpart
          simpa using hpart
        have hdigit := (repr_chars c).2 'a' (by rw [hc, hletters]; simp)
        contradiction)
      rw [tpModeToCores, if_neg hempty, if_neg hall, String.toList_ofList, hsplit, mapM_parts]
      rfl

end TinyAgentOS.Scheduler
