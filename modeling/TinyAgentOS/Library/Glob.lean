import Mathlib.Data.List.Basic
import Mathlib.Tactic

/-!
# Wildcard patterns

A pattern is a list of pieces: a class, which stands for one character in it, and the
star, which stands for any characters.  It accepts a text that the pieces make up in
order.

Main results:

- `accepts_literal_append` and `accepts_replicate_append`: what a pattern accepts that begins with
  a text, or with so many characters of a class.
- `accepts_star`: the star accepts everything.
- `accepts_append`: what two patterns accept, the one behind the other.
- `cut_of_append_eq`: how two cuts of a text at a separator lie to each other.
-/

namespace Glob

variable {α : Type}

/-- A piece of a pattern. -/
inductive Piece (α : Type) where
  | one (p : α → Bool)
  | star

/-- The text is made up of the pieces. -/
def accepts : List (Piece α) → List α → Bool
  | [], text => text.isEmpty
  | .one _ :: _, [] => false
  | .one p :: ps, c :: text => p c && accepts ps text
  | .star :: ps, text => text.tails.any (accepts ps)

/-- The pattern of one text. -/
def literal [DecidableEq α] (text : List α) : List (Piece α) :=
  text.map fun c => .one fun d => d = c

theorem accepts_literal_append [DecidableEq α] (word : List α) (ps : List (Piece α))
    (text : List α) :
    accepts (literal word ++ ps) text = true ↔
      ∃ rest, text = word ++ rest ∧ accepts ps rest = true := by
  induction word generalizing text with
  | nil => simp [literal]
  | cons c word ih =>
    cases text with
    | nil => simp [literal, accepts]
    | cons d text =>
      have hstep : accepts (literal (c :: word) ++ ps) (d :: text) =
          (decide (d = c) && accepts (literal word ++ ps) text) := rfl
      rw [hstep, Bool.and_eq_true, decide_eq_true_eq, ih]
      constructor
      · rintro ⟨rfl, rest, rfl, hrest⟩
        exact ⟨rest, rfl, hrest⟩
      · rintro ⟨rest, heq, hrest⟩
        obtain ⟨rfl, rfl⟩ := List.cons.inj heq
        exact ⟨rfl, rest, rfl, hrest⟩

theorem accepts_replicate_append (p : α → Bool) (n : Nat) (ps : List (Piece α)) (text : List α) :
    accepts (List.replicate n (.one p) ++ ps) text = true ↔
      ∃ word rest, text = word ++ rest ∧ word.length = n ∧ (∀ c ∈ word, p c = true) ∧
        accepts ps rest = true := by
  induction n generalizing text with
  | zero =>
    constructor
    · exact fun h => ⟨[], text, rfl, rfl, fun c hc => by contradiction, h⟩
    · rintro ⟨word, rest, rfl, hlength, _, h⟩
      obtain rfl := List.length_eq_zero_iff.mp hlength
      exact h
  | succ n ih =>
    cases text with
    | nil =>
      refine iff_of_false (by simp [List.replicate_succ, accepts]) ?_
      rintro ⟨word, rest, heq, hlength, _⟩
      obtain ⟨rfl, _⟩ := List.append_eq_nil_iff.mp heq.symm
      contradiction
    | cons c text =>
      have hstep : accepts (List.replicate (n + 1) (.one p) ++ ps) (c :: text) =
          (p c && accepts (List.replicate n (.one p) ++ ps) text) := rfl
      rw [hstep, Bool.and_eq_true, ih]
      constructor
      · rintro ⟨hc, word, rest, rfl, hlength, hword, hrest⟩
        refine ⟨c :: word, rest, rfl, by rw [List.length_cons, hlength], ?_, hrest⟩
        exact List.forall_mem_cons.mpr ⟨hc, hword⟩
      · rintro ⟨word, rest, heq, hlength, hword, hrest⟩
        cases word with
        | nil => contradiction
        | cons d word =>
          obtain ⟨rfl, rfl⟩ := List.cons.inj heq
          obtain ⟨hc, hword⟩ := List.forall_mem_cons.mp hword
          exact ⟨hc, word, rest, rfl, Nat.succ.inj hlength, hword, hrest⟩

/-- The star accepts everything. -/
theorem accepts_star (text : List α) : accepts [.star] text = true := by
  refine List.any_eq_true.mpr ⟨[], ?_, rfl⟩
  exact (List.mem_tails _ _).mpr List.nil_suffix

theorem accepts_star_cons (ps : List (Piece α)) (text : List α) :
    accepts (.star :: ps) text = true ↔ ∃ u v, text = u ++ v ∧ accepts ps v = true := by
  have hstep : accepts (.star :: ps) text = text.tails.any (accepts ps) := by
    cases text <;> rfl
  rw [hstep, List.any_eq_true]
  constructor
  · rintro ⟨v, hv, haccepts⟩
    obtain ⟨u, hu⟩ := (List.mem_tails _ _).mp hv
    exact ⟨u, v, hu.symm, haccepts⟩
  · rintro ⟨u, v, rfl, haccepts⟩
    exact ⟨v, (List.mem_tails _ _).mpr (List.suffix_append u v), haccepts⟩

/-- Two patterns, the one behind the other. -/
theorem accepts_append (ps qs : List (Piece α)) (text : List α) :
    accepts (ps ++ qs) text = true ↔
      ∃ u v, text = u ++ v ∧ accepts ps u = true ∧ accepts qs v = true := by
  induction ps generalizing text with
  | nil =>
    constructor
    · exact fun h => ⟨[], text, rfl, rfl, h⟩
    · rintro ⟨u, v, rfl, hu, hv⟩
      obtain rfl := List.isEmpty_iff.mp hu
      exact hv
  | cons p ps ih =>
    cases p with
    | one p =>
      cases text with
      | nil =>
        refine iff_of_false (by simp [accepts]) ?_
        rintro ⟨u, v, heq, hu, _⟩
        obtain ⟨rfl, _⟩ := List.append_eq_nil_iff.mp heq.symm
        simp [accepts] at hu
      | cons c text =>
        rw [List.cons_append, accepts, Bool.and_eq_true, ih]
        constructor
        · rintro ⟨hc, u, v, rfl, hu, hv⟩
          exact ⟨c :: u, v, rfl, by rw [accepts, hc, hu, Bool.and_true], hv⟩
        · rintro ⟨u, v, heq, hu, hv⟩
          cases u with
          | nil => simp [accepts] at hu
          | cons d u =>
            obtain ⟨rfl, rfl⟩ := List.cons.inj heq
            rw [accepts, Bool.and_eq_true] at hu
            exact ⟨hu.1, u, v, rfl, hu.2, hv⟩
    | star =>
      rw [List.cons_append, accepts_star_cons]
      constructor
      · rintro ⟨u, rest, rfl, hrest⟩
        obtain ⟨v, w, rfl, hv, hw⟩ := (ih rest).mp hrest
        refine ⟨u ++ v, w, (List.append_assoc u v w).symm, ?_, hw⟩
        exact (accepts_star_cons ps _).mpr ⟨u, v, rfl, hv⟩
      · rintro ⟨u, w, rfl, hu, hw⟩
        obtain ⟨u, v, rfl, hv⟩ := (accepts_star_cons ps _).mp hu
        refine ⟨u, v ++ w, List.append_assoc u v w, ?_⟩
        exact (ih _).mpr ⟨v, w, rfl, hv, hw⟩

/-! ## Separators -/

/-- A text is cut at a separator.  The cut is not within a beginning that has no separator in
it. -/
theorem cut_of_notMem {sep : α} {u v r r' : List α} (hu : sep ∉ u)
    (h : u ++ r = v ++ sep :: r') : ∃ w, v = u ++ w ∧ r = w ++ sep :: r' := by
  induction u generalizing v with
  | nil => exact ⟨v, rfl, h⟩
  | cons c u ih =>
    rw [List.mem_cons, not_or] at hu
    cases v with
    | nil => exact absurd (List.cons.inj h).1.symm hu.1
    | cons d v =>
      obtain ⟨rfl, hrest⟩ := List.cons.inj h
      obtain ⟨w, rfl, hr⟩ := ih hu.2 hrest
      exact ⟨w, rfl, hr⟩

/-- Two cuts of a text at a separator, the one at the first: they are the same, or the other lies
behind it. -/
theorem cut_of_append_eq {sep : α} {u v r r' : List α} (hu : sep ∉ u)
    (h : u ++ sep :: r = v ++ sep :: r') :
    v = u ∧ r = r' ∨ ∃ w, v = u ++ sep :: w ∧ r = w ++ sep :: r' := by
  obtain ⟨w, rfl, hw⟩ := cut_of_notMem hu h
  cases w with
  | nil => exact Or.inl ⟨List.append_nil u, (List.cons.inj hw).2⟩
  | cons c w =>
    obtain ⟨rfl, hr⟩ := List.cons.inj hw
    exact Or.inr ⟨w, rfl, hr⟩

end Glob
