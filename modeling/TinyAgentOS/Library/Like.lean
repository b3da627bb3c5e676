import TinyAgentOS.Library.Glob

/-!
# LIKE patterns

The patterns of SQLite's `LIKE`: a percent sign stands for any characters, an underscore
for one, and a letter of ASCII for either case of it.  A pattern ends at its first NUL.

Main results:

- `fold_suffix_iff`: the ends of a text, up to case.
- `accepts_pieces_iff`: a pattern without wildcards accepts one text, up to case.
- `exists_of_accepts_pieces`: what it names is in what it accepts.
-/

namespace Like

open Glob

/-- A text up to its first NUL. -/
def cut (text : List Char) : List Char :=
  text.takeWhile fun c => c ≠ '\x00'

/-- A text in lower case. -/
def fold (text : List Char) : List Char :=
  text.map Char.toLower

def isWild (c : Char) : Bool :=
  c = '%' || c = '_'

/-- A character of a pattern. -/
def piece (c : Char) : Piece Char :=
  if c = '%' then .star
  else if c = '_' then .one fun _ => true
  else .one fun d => d.toLower = c.toLower

/-- `text LIKE pattern`. -/
def like (pattern text : List Char) : Bool :=
  accepts ((cut pattern).map piece) (cut text)

/-- `SQLITE_MAX_LIKE_PATTERN_LENGTH`, in bytes. -/
def maxPatternLength : Nat :=
  50000

/-- The pattern is too long for a text to be compared with it. -/
def isTooComplex (pattern : String) : Bool :=
  maxPatternLength < pattern.utf8ByteSize

/-- `text LIKE pattern`, where a pattern that is too long is an error. -/
def like? (pattern : String) (text : List Char) : Option Bool :=
  if isTooComplex pattern then none else some (like pattern.toList text)

/-! ## The end of a pattern -/

variable {u text x word : List Char} {c : Char}

theorem cut_append (h : '\x00' ∉ u) (v : List Char) : cut (u ++ v) = u ++ cut v := by
  apply List.takeWhile_append_of_pos
  intro c hc
  rw [decide_eq_true_eq]
  rintro rfl
  exact h hc

theorem cut_of_notMem (h : '\x00' ∉ text) : cut text = text := by
  have happend := cut_append h []
  have hnil : cut [] = [] := rfl
  rwa [hnil, List.append_nil] at happend

theorem cut_append_of_mem (h : '\x00' ∈ u) (v : List Char) : cut (u ++ v) = cut u := by
  induction u with
  | nil => contradiction
  | cons c u ih =>
    by_cases hc : c = '\x00'
    · simp [cut, hc]
    · have hu : '\x00' ∈ u := (List.mem_cons.mp h).resolve_left (Ne.symm hc)
      have htail := ih hu
      unfold cut at htail ⊢
      simp only [List.cons_append, List.takeWhile_cons, hc, ne_eq, not_false_eq_true,
        decide_true, if_true, htail]

/-! ## Case -/

theorem toNat_toLower (c : Char) :
    c.toLower.toNat = if 65 ≤ c.toNat ∧ c.toNat ≤ 90 then c.toNat + 32 else c.toNat := by
  have hval : (c.val ≥ 'A'.val ∧ c.val ≤ 'Z'.val) ↔ (65 ≤ c.toNat ∧ c.toNat ≤ 90) := by
    simp only [ge_iff_le, UInt32.le_iff_toNat_le]
    exact Iff.rfl
  unfold Char.toLower
  split
  · rename_i hupper
    rw [if_pos (hval.mp hupper)]
    have hle := (hval.mp hupper).2
    show (c.val + ('a'.val - 'A'.val)).toNat = c.val.toNat + 32
    rw [UInt32.toNat_add]
    have hlow : c.val.toNat ≤ 90 := hle
    have h32 : ('a'.val - 'A'.val).toNat = 32 := rfl
    omega
  · rename_i hlower
    rw [if_neg (fun h => hlower (hval.mpr h))]

/-- A character that is no letter of ASCII is its only case. -/
theorem eq_of_toLower_eq {d : Char} (h : d.toLower = c.toLower)
    (hc : ¬ (65 ≤ c.toNat ∧ c.toNat ≤ 90)) (hc' : ¬ (97 ≤ c.toNat ∧ c.toNat ≤ 122)) : d = c := by
  have hnat := congrArg Char.toNat h
  rw [toNat_toLower, toNat_toLower, if_neg hc] at hnat
  apply Char.toNat_inj.mp
  split at hnat
  · omega
  · exact hnat

theorem exists_mem_of_fold_eq (h : fold x = fold word)
    (hc : c ∈ x) : ∃ d ∈ word, c.toLower = d.toLower := by
  have hmem : c.toLower ∈ fold word := by
    rw [← h]
    exact List.mem_map_of_mem hc
  obtain ⟨d, hd, heq⟩ := List.mem_map.mp hmem
  exact ⟨d, hd, heq.symm⟩

/-- A text without letters is its only case. -/
theorem eq_of_fold_eq (h : fold x = fold word)
    (hword : ∀ c ∈ word, ¬ (65 ≤ c.toNat ∧ c.toNat ≤ 90) ∧ ¬ (97 ≤ c.toNat ∧ c.toNat ≤ 122)) :
    x = word := by
  induction word generalizing x with
  | nil => exact List.map_eq_nil_iff.mp h
  | cons c word ih =>
    obtain ⟨hc, hword⟩ := List.forall_mem_cons.mp hword
    cases x with
    | nil => contradiction
    | cons d x =>
      obtain ⟨hd, hx⟩ := List.cons.inj h
      rw [eq_of_toLower_eq hd hc.1 hc.2, ih hx hword]

/-- What a text ends in behind a mark, up to case. -/
theorem fold_suffix_iff {mark : Char} (hmark : ∀ d : Char, d.toLower = mark.toLower → d = mark)
    (word text : List Char) :
    fold (mark :: word) <:+ fold text ↔ ∃ x, fold x = fold word ∧ mark :: x <:+ text := by
  rw [fold, fold, List.suffix_map_iff]
  constructor
  · rintro ⟨y, hy, heq⟩
    cases y with
    | nil => contradiction
    | cons d x =>
      obtain ⟨hd, hx⟩ := List.cons.inj heq
      obtain rfl := hmark d hd.symm
      exact ⟨x, hx.symm, hy⟩
  · rintro ⟨x, hx, hsuffix⟩
    exact ⟨mark :: x, hsuffix, congrArg (mark.toLower :: ·) hx.symm⟩

/-! ## Acceptance -/

theorem accepts_piece_iff (hc : isWild c = false) (ps : List (Piece Char)) (text : List Char) :
    accepts (piece c :: ps) text = true ↔
      ∃ d rest, text = d :: rest ∧ d.toLower = c.toLower ∧ accepts ps rest = true := by
  have hne : c ≠ '%' ∧ c ≠ '_' := by
    simpa [isWild, not_or] using hc
  rw [piece, if_neg hne.1, if_neg hne.2]
  cases text with
  | nil => simp [accepts]
  | cons d rest =>
    rw [accepts, Bool.and_eq_true, decide_eq_true_eq]
    constructor
    · exact fun h => ⟨d, rest, rfl, h⟩
    · rintro ⟨d', rest', heq, h⟩
      obtain ⟨rfl, rfl⟩ := List.cons.inj heq
      exact h

/-- A pattern without wildcards accepts one text, up to case. -/
theorem accepts_pieces_iff (hword : word.all (fun c => !isWild c) = true) (text : List Char) :
    accepts (word.map piece) text = true ↔ fold text = fold word := by
  induction word generalizing text with
  | nil => simp [accepts, fold]
  | cons c word ih =>
    rw [List.all_cons, Bool.and_eq_true, Bool.not_eq_true'] at hword
    rw [List.map_cons, accepts_piece_iff hword.1]
    constructor
    · rintro ⟨d, rest, rfl, hd, hrest⟩
      have htail := (ih hword.2 rest).mp hrest
      simp only [fold, List.map_cons] at htail ⊢
      rw [hd, htail]
    · intro h
      cases text with
      | nil => simp [fold] at h
      | cons d rest =>
        obtain ⟨hd, htail⟩ := List.cons.inj h
        exact ⟨d, rest, rfl, hd, (ih hword.2 rest).mpr htail⟩

/-- What a pattern names is in what it accepts. -/
theorem exists_of_accepts_pieces (h : accepts (word.map piece) text = true) (hc : c ∈ word)
    (hwild : isWild c = false) : ∃ d ∈ text, d.toLower = c.toLower := by
  induction word generalizing text with
  | nil => contradiction
  | cons e word ih =>
    rw [List.map_cons, ← List.singleton_append] at h
    obtain ⟨u, v, rfl, hu, hv⟩ := (accepts_append _ _ _).mp h
    rcases List.mem_cons.mp hc with rfl | hc
    · obtain ⟨d, rest, rfl, hd, _⟩ := (accepts_piece_iff hwild [] u).mp hu
      exact ⟨d, List.mem_append_left v List.mem_cons_self, hd⟩
    · obtain ⟨d, hd, hcase⟩ := ih hv hc
      exact ⟨d, List.mem_append_right u hd, hcase⟩

end Like
