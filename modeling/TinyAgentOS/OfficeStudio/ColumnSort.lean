import TinyAgentOS.Library.JsString
import Mathlib.Data.List.Forall2
import Mathlib.Data.List.Lex
import Mathlib.Data.Rat.Cast.Order
import Mathlib.Order.Antisymmetrization

/-!
# Sorting a column

Two cells compare by their numbers, when both have one, and by their texts otherwise.  Two numbers
and a text between them can then go round in a circle.

Main results:

- `forall₂_mergeSort`: sorting by an order that is total and transitive on the rows gives the same
  classes, whatever order the rows were in.
- `consistent_iff`: the columns on which the comparator is an order.
- `not_consistent`: two numbers, and a text between them.
-/

namespace TinyAgentOS.OfficeStudio

open Js

/-! ## Sorting -/

section Sorting

variable {α : Type}

/-- Two sorted lists of the same elements differ within classes only. -/
theorem forall₂_of_perm [Preorder α] {l₁ l₂ : List α} (hperm : l₁.Perm l₂)
    (h₁ : l₁.Pairwise (· ≤ ·)) (h₂ : l₂.Pairwise (· ≤ ·)) :
    List.Forall₂ (fun a b => a ≤ b ∧ b ≤ a) l₁ l₂ := by
  have hclasses : l₁.map (toAntisymmetrization (· ≤ ·)) =
      l₂.map (toAntisymmetrization (· ≤ ·)) := by
    refine List.Perm.eq_of_pairwise (fun _ _ _ _ => le_antisymm) ?_ ?_ (hperm.map _)
    · exact h₁.map _ fun _ _ hle => hle
    · exact h₂.map _ fun _ _ hle => hle
  rw [← List.forall₂_eq_eq_eq, List.forall₂_map_left_iff, List.forall₂_map_right_iff] at hclasses
  refine hclasses.imp ?_
  intro a b hab
  exact Quotient.exact hab

/-- The order has to be one on the rows only. -/
theorem forall₂_mergeSort {le : α → α → Bool} {rows cells : List α} (hperm : rows.Perm cells)
    (htotal : ∀ a ∈ cells, ∀ b ∈ cells, le a b || le b a)
    (htrans : ∀ a ∈ cells, ∀ b ∈ cells, ∀ c ∈ cells, le a b → le b c → le a c) :
    List.Forall₂ (fun a b => le a b = true ∧ le b a = true) (rows.mergeSort le)
      (cells.mergeSort le) := by
  let order : Preorder {x // x ∈ cells} :=
    { le := fun a b => le a b
      le_refl := fun a => by simpa using htotal a a.2 a a.2
      le_trans := fun a b c => htrans a a.2 b b.2 c c.2 }
  let leOn : {x // x ∈ cells} → {x // x ∈ cells} → Bool := fun a b => le a b
  have hsorted : ∀ l : List {x // x ∈ cells}, (l.mergeSort leOn).Pairwise (· ≤ ·) :=
    List.pairwise_mergeSort (fun a b c => htrans a a.2 b b.2 c c.2) fun a b => htotal a a.2 b b.2
  have hval : ∀ l : List {x // x ∈ cells},
      (l.map Subtype.val).mergeSort le = (l.mergeSort leOn).map Subtype.val :=
    fun l => (List.map_mergeSort (r := leOn) (f := Subtype.val) fun _ _ _ _ => rfl).symm
  have hrows : (rows.attachWith (· ∈ cells) fun _ h => hperm.subset h).map Subtype.val = rows := by
    simp
  have hattach : (rows.attachWith (· ∈ cells) fun _ h => hperm.subset h).Perm cells.attach := by
    rw [← List.map_perm_map_iff Subtype.val_injective, hrows]
    simpa using hperm
  have hclasses := forall₂_of_perm
    (((List.mergeSort_perm _ leOn).trans hattach).trans (List.mergeSort_perm _ leOn).symm)
    (hsorted _) (hsorted _)
  have hvalues : List.Forall₂ (fun a b => le a b = true ∧ le b a = true)
      (((rows.attachWith (· ∈ cells) fun _ h => hperm.subset h).map Subtype.val).mergeSort le)
      ((cells.attach.map Subtype.val).mergeSort le) := by
    rw [hval, hval, List.forall₂_map_left_iff, List.forall₂_map_right_iff]
    exact hclasses
  rwa [hrows, List.attach_map_subtype_val] at hvalues

end Sorting

/-! ## The comparator -/

/-- A cell: a finite number, `NaN` or an infinity, a string, a boolean, or nothing. -/
inductive CellValue where
  | number (x : Rat)
  | nonFinite (text : JsString)
  | string (s : JsString)
  | bool (b : Bool)
  | blank

inductive SortDirection where
  | asc
  | desc
deriving DecidableEq

/-- What the language makes of texts: the finite number that `Number` finds, `String` of a
number, and `localeCompare`, a total preorder. -/
structure Texts where
  number : JsString → Option Rat
  text : Rat → JsString
  localeCompare : JsString → JsString → Int
  swap : ∀ s t, localeCompare s t < 0 ↔ 0 < localeCompare t s
  trans : ∀ s t u, localeCompare s t ≤ 0 → localeCompare t u ≤ 0 → localeCompare s u ≤ 0

namespace Texts

variable (E : Texts)

/-- `toFiniteNumber`. -/
def toFiniteNumber : CellValue → Option Rat
  | .number x => some x
  | .string s => if trim s = [] then none else E.number (trim s)
  | .nonFinite _ => none
  | .bool _ => none
  | .blank => none

/-- `String(value ?? "")`. -/
def textOf : CellValue → JsString
  | .number x => E.text x
  | .nonFinite text => text
  | .string s => s
  | .bool b => ofString (if b then "true" else "false")
  | .blank => []

/-- `compareCellValues`.  A difference of two numbers may be rounded, but its sign is that of
the exact one. -/
def compareCellValues (a b : CellValue) (direction : SortDirection) : Rat :=
  let cmp : Rat :=
    match E.toFiniteNumber a, E.toFiniteNumber b with
    | some x, some y => x - y
    | _, _ => E.localeCompare (E.textOf a) (E.textOf b)
  match direction with
  | .asc => cmp
  | .desc => -cmp

/-- No later in the order. -/
def le (direction : SortDirection) (a b : CellValue) : Bool :=
  E.compareCellValues a b direction ≤ 0

/-- On the cells of a column the comparator is antisymmetric and transitive, and sorting gives the
same classes whatever order the rows were in. -/
structure Consistent (direction : SortDirection) (cells : List CellValue) : Prop where
  antisymm : ∀ a ∈ cells, ∀ b ∈ cells,
    E.compareCellValues a b direction < 0 ↔ 0 < E.compareCellValues b a direction
  trans : ∀ a ∈ cells, ∀ b ∈ cells, ∀ c ∈ cells, E.compareCellValues a b direction ≤ 0 →
    E.compareCellValues b c direction ≤ 0 → E.compareCellValues a c direction ≤ 0
  sorted : ∀ rows : List CellValue, rows.Perm cells →
    List.Forall₂ (fun a b => E.compareCellValues a b direction = 0)
      (rows.mergeSort (E.le direction)) (cells.mergeSort (E.le direction))

/-- The texts of two cells are in order. -/
def TextLe (a b : CellValue) : Prop := E.localeCompare (E.textOf a) (E.textOf b) ≤ 0

/-- No cell without a number has its text between those of two numbers that are in the other order,
and equal numbers have texts on the same side of it. -/
def Unmixed (cells : List CellValue) : Prop :=
  ∀ a ∈ cells, ∀ b ∈ cells, ∀ c ∈ cells, ∀ x y, E.toFiniteNumber a = some x →
    E.toFiniteNumber b = some y → E.toFiniteNumber c = none →
    (x < y → ¬ (E.TextLe b c ∧ E.TextLe c a)) ∧
      (x = y → (E.TextLe b c → E.TextLe a c) ∧ (E.TextLe c b → E.TextLe c a))

variable {E} {a b c : CellValue} {cells : List CellValue}

theorem compareCellValues_desc (a b : CellValue) :
    E.compareCellValues a b .desc = -E.compareCellValues a b .asc := rfl

theorem compare_asc_swap (a b : CellValue) :
    E.compareCellValues a b .asc < 0 ↔ 0 < E.compareCellValues b a .asc := by
  have hswap := E.swap (E.textOf a) (E.textOf b)
  cases ha : E.toFiniteNumber a with
  | none => simpa [compareCellValues, ha] using hswap
  | some x =>
    cases hb : E.toFiniteNumber b with
    | none => simpa [compareCellValues, ha, hb] using hswap
    | some y => simp [compareCellValues, ha, hb]

theorem compare_swap (a b : CellValue) (direction : SortDirection) :
    E.compareCellValues a b direction < 0 ↔ 0 < E.compareCellValues b a direction := by
  cases direction with
  | asc => exact compare_asc_swap a b
  | desc =>
    rw [compareCellValues_desc, compareCellValues_desc, neg_lt_zero, neg_pos]
    exact (compare_asc_swap b a).symm

theorem compare_desc_le_iff :
    E.compareCellValues a b .desc ≤ 0 ↔ E.compareCellValues b a .asc ≤ 0 := by
  rw [compareCellValues_desc, neg_nonpos, ← not_lt, ← not_lt, compare_asc_swap]

theorem compare_le_of_numbers {x y : Rat} (ha : E.toFiniteNumber a = some x)
    (hb : E.toFiniteNumber b = some y) : E.compareCellValues a b .asc ≤ 0 ↔ x ≤ y := by
  simp [compareCellValues, ha, hb]

theorem compare_le_of_left (ha : E.toFiniteNumber a = none) :
    E.compareCellValues a b .asc ≤ 0 ↔ E.TextLe a b := by
  simp [compareCellValues, ha, TextLe]

theorem compare_le_of_right (hb : E.toFiniteNumber b = none) :
    E.compareCellValues a b .asc ≤ 0 ↔ E.TextLe a b := by
  simp [compareCellValues, hb, TextLe]

theorem TextLe.trans (hab : E.TextLe a b) (hbc : E.TextLe b c) : E.TextLe a c :=
  E.trans _ _ _ hab hbc

theorem textLe_of_not (h : ¬ E.TextLe a b) : E.TextLe b a := by
  have hlt := (E.swap (E.textOf b) (E.textOf a)).mpr (not_le.mp h)
  exact hlt.le

/-- A text that is no later than the smaller of two numbers. -/
theorem Unmixed.textLe_right (h : E.Unmixed cells) (ha : a ∈ cells) (hb : b ∈ cells)
    (hc : c ∈ cells) {y z : Rat} (hx : E.toFiniteNumber a = none)
    (hy : E.toFiniteNumber b = some y) (hz : E.toFiniteNumber c = some z) (hle : y ≤ z)
    (hab : E.TextLe a b) : E.TextLe a c := by
  rcases hle.lt_or_eq with hlt | heq
  · by_contra hnot
    exact (h b hb c hc a ha y z hy hz hx).1 hlt ⟨textLe_of_not hnot, hab⟩
  · exact ((h c hc b hb a ha z y hz hy hx).2 heq.symm).2 hab

/-- And one that is no earlier than the larger. -/
theorem Unmixed.textLe_left (h : E.Unmixed cells) (ha : a ∈ cells) (hb : b ∈ cells)
    (hc : c ∈ cells) {x y : Rat} (hx : E.toFiniteNumber a = some x)
    (hy : E.toFiniteNumber b = some y) (hz : E.toFiniteNumber c = none) (hle : x ≤ y)
    (hbc : E.TextLe b c) : E.TextLe a c := by
  rcases hle.lt_or_eq with hlt | heq
  · by_contra hnot
    exact (h a ha b hb c hc x y hx hy hz).1 hlt ⟨hbc, textLe_of_not hnot⟩
  · exact ((h a ha b hb c hc x y hx hy hz).2 heq).1 hbc

/-- The comparator is transitive on the columns without mixed cells, and on no others. -/
theorem trans_iff_unmixed :
    (∀ a ∈ cells, ∀ b ∈ cells, ∀ c ∈ cells, E.compareCellValues a b .asc ≤ 0 →
      E.compareCellValues b c .asc ≤ 0 → E.compareCellValues a c .asc ≤ 0) ↔ E.Unmixed cells := by
  constructor
  · intro htrans a ha b hb c hc x y hx hy hz
    refine ⟨?_, ?_⟩
    · rintro hlt ⟨hbc, hca⟩
      have hba := htrans b hb c hc a ha ((compare_le_of_right hz).mpr hbc)
        ((compare_le_of_left hz).mpr hca)
      exact absurd ((compare_le_of_numbers hy hx).mp hba) (not_le.mpr hlt)
    · rintro rfl
      have hab := (compare_le_of_numbers hx hy).mpr le_rfl
      have hba := (compare_le_of_numbers hy hx).mpr le_rfl
      constructor
      · intro hbc
        exact (compare_le_of_right hz).mp
          (htrans a ha b hb c hc hab ((compare_le_of_right hz).mpr hbc))
      · intro hcb
        exact (compare_le_of_left hz).mp
          (htrans c hc b hb a ha ((compare_le_of_left hz).mpr hcb) hba)
  · intro hunmixed a ha b hb c hc hab hbc
    cases hx : E.toFiniteNumber a with
    | none =>
      rw [compare_le_of_left hx] at hab ⊢
      cases hy : E.toFiniteNumber b with
      | none => exact hab.trans ((compare_le_of_left hy).mp hbc)
      | some y =>
        cases hz : E.toFiniteNumber c with
        | none => exact hab.trans ((compare_le_of_right hz).mp hbc)
        | some z =>
          have hle := (compare_le_of_numbers hy hz).mp hbc
          exact hunmixed.textLe_right ha hb hc hx hy hz hle hab
    | some x =>
      cases hy : E.toFiniteNumber b with
      | none =>
        rw [compare_le_of_right hy] at hab
        rw [compare_le_of_left hy] at hbc
        cases hz : E.toFiniteNumber c with
        | none => exact (compare_le_of_right hz).mpr (hab.trans hbc)
        | some z =>
          rw [compare_le_of_numbers hx hz]
          by_contra hlt
          exact (hunmixed c hc a ha b hb z x hz hx hy).1 (not_le.mp hlt) ⟨hab, hbc⟩
      | some y =>
        have hle := (compare_le_of_numbers hx hy).mp hab
        cases hz : E.toFiniteNumber c with
        | none =>
          rw [compare_le_of_right hz] at hbc ⊢
          exact hunmixed.textLe_left ha hb hc hx hy hz hle hbc
        | some z =>
          exact (compare_le_of_numbers hx hz).mpr
            (hle.trans ((compare_le_of_numbers hy hz).mp hbc))

/-- Transitivity does not depend on the direction. -/
theorem trans_iff (direction : SortDirection) :
    (∀ a ∈ cells, ∀ b ∈ cells, ∀ c ∈ cells, E.compareCellValues a b direction ≤ 0 →
      E.compareCellValues b c direction ≤ 0 → E.compareCellValues a c direction ≤ 0) ↔
      E.Unmixed cells := by
  rw [← trans_iff_unmixed]
  cases direction with
  | asc => rfl
  | desc =>
    simp only [compare_desc_le_iff]
    constructor
    · intro h a ha b hb c hc hab hbc
      exact h c hc b hb a ha hbc hab
    · intro h a ha b hb c hc hba hcb
      exact h c hc b hb a ha hcb hba

/-- The comparator orders a column consistently if and only if no text stands between numbers that
it does not fit between. -/
theorem consistent_iff (E : Texts) (direction : SortDirection) (cells : List CellValue) :
    E.Consistent direction cells ↔ E.Unmixed cells := by
  rw [← trans_iff direction]
  constructor
  · intro h
    exact h.trans
  · intro htrans
    refine ⟨fun a _ b _ => compare_swap a b direction, htrans, ?_⟩
    intro rows hperm
    have htotal : ∀ a ∈ cells, ∀ b ∈ cells, E.le direction a b || E.le direction b a := by
      intro a _ b _
      simp only [le, Bool.or_eq_true, decide_eq_true_eq]
      by_contra hnot
      push Not at hnot
      exact absurd ((compare_swap b a direction).mpr hnot.1) (not_lt.mpr hnot.2.le)
    have hsort : List.Forall₂ (fun a b => E.le direction a b = true ∧ E.le direction b a = true)
        (rows.mergeSort (E.le direction)) (cells.mergeSort (E.le direction)) :=
      forall₂_mergeSort hperm htotal (by simpa [le] using htrans)
    refine hsort.imp ?_
    rintro a b ⟨hab, hba⟩
    simp only [le, decide_eq_true_eq] at hab hba
    refine le_antisymm hab (not_lt.mp fun hlt => ?_)
    exact absurd ((compare_swap a b direction).mp hlt) (not_lt.mpr hba)

/-- Texts in the order of their units, and numbers in decimal digits. -/
def decimals : Texts where
  number text :=
    if text ≠ [] ∧ text.all fun u => 48 ≤ u && u ≤ 57 then
      some ((text.foldl (fun n u => 10 * n + (u.toNat - 48)) 0 : Nat) : Rat)
    else none
  text x := ofString (String.ofList (Nat.toDigits 10 x.num.toNat))
  localeCompare s t :=
    if s.map UInt16.toNat < t.map UInt16.toNat then -1
    else if t.map UInt16.toNat < s.map UInt16.toNat then 1 else 0
  swap s t := by
    have hasymm : s.map UInt16.toNat < t.map UInt16.toNat →
        ¬ t.map UInt16.toNat < s.map UInt16.toNat := fun h => h.asymm
    grind
  trans s t u := by
    have hle : ∀ v w : JsString, (if v.map UInt16.toNat < w.map UInt16.toNat then (-1 : Int)
        else if w.map UInt16.toNat < v.map UInt16.toNat then 1 else 0) ≤ 0 ↔
        v.map UInt16.toNat ≤ w.map UInt16.toNat := by
      intro v w
      rw [← not_lt]
      have hasymm : v.map UInt16.toNat < w.map UInt16.toNat →
          ¬ w.map UInt16.toNat < v.map UInt16.toNat := fun h => h.asymm
      grind
    rw [hle, hle, hle]
    exact le_trans

/-- Ten comes before `1a`, that before two, and two before ten. -/
theorem not_consistent :
    ¬ decimals.Consistent .asc [.number 10, .string (ofString "1a"), .number 2] := by
  intro h
  exact absurd (h.trans (.number 10) (by simp) (.string (ofString "1a")) (by simp) (.number 2)
    (by simp) (by decide) (by decide)) (by decide +kernel)

end Texts

end TinyAgentOS.OfficeStudio
