import Mathlib.Data.List.Infix
import Mathlib.Tactic

/-!
# The context window

The history that a bridge shows to its agent: the newest messages of a channel, without system
messages, cut to a number of messages and to a token budget.

Main results:

- `suffix_trimmed_iff`: the trimming loop keeps the longest suffix in the budget.
- `longestFit_iff`: the window is the longest suffix that fits, unless a limit of zero has to cut
  something off.
-/

namespace TinyAgentOS.Chat

/-! ## The builder -/

/-- The keys of a message that `build_context_window` reads; it does not tell an absent key
from a null. -/
structure ContextMessage where
  authorId : Option String
  authorType : Option String
  content : Option String
deriving DecidableEq

/-- A message of the window. -/
structure WindowMessage where
  authorId : Option String
  authorType : Option String
  content : String

/-- `estimate_tokens`. -/
def estimateTokens (text : Option String) : Nat :=
  match text with
  | none => 0
  | some text => if text = "" then 0 else max 1 (text.length / 4)

/-- `xs[start:]`: a negative start counts from the end. -/
def sliceFrom {α : Type} (xs : List α) (start : Int) : List α :=
  xs.drop (if start < 0 then xs.length + start else start).toNat

namespace ContextMessage

def tokens (m : ContextMessage) : Nat := estimateTokens m.content

/-- Not the echo of a slash command. -/
def eligible (m : ContextMessage) : Bool := m.authorType ≠ some "system"

def shown (m : ContextMessage) : WindowMessage := ⟨m.authorId, m.authorType, m.content.getD ""⟩

end ContextMessage

/-- The estimate for a list of messages. -/
def tokenSum (ms : List ContextMessage) : Nat := (ms.map ContextMessage.tokens).sum

/-- The trimming loop of `build_context_window`. -/
def trimmed (maxTokens : Int) : List ContextMessage → List ContextMessage
  | [] => []
  | m :: ms => if maxTokens < tokenSum (m :: ms) then trimmed maxTokens ms else m :: ms

/-- The messages in the window. -/
def windowOf (messages : List ContextMessage) (limit maxTokens : Int) : List ContextMessage :=
  let eligible := messages.filter ContextMessage.eligible
  trimmed maxTokens (if limit < eligible.length then sliceFrom eligible (-limit) else eligible)

/-- `build_context_window`. -/
def buildContextWindow (messages : List ContextMessage) (limit maxTokens : Int) :
    List WindowMessage :=
  (windowOf messages limit maxTokens).map ContextMessage.shown

/-! ## What fits -/

/-- A suffix of the eligible messages within both bounds. -/
structure Fits (limit maxTokens : Int) (eligible window : List ContextMessage) : Prop where
  suffix : window <:+ eligible
  count : (window.length : Int) ≤ limit
  budget : (tokenSum window : Int) ≤ maxTokens

/-- The builder returns the longest suffix that fits. -/
def LongestFit (messages : List ContextMessage) (limit maxTokens : Int) : Prop :=
  ∃ window, Fits limit maxTokens (messages.filter ContextMessage.eligible) window ∧
    (∀ other, Fits limit maxTokens (messages.filter ContextMessage.eligible) other →
      other <:+ window) ∧
    buildContextWindow messages limit maxTokens = window.map ContextMessage.shown

variable {window : List ContextMessage} {maxTokens limit : Int}

theorem tokenSum_le_of_suffix {ms : List ContextMessage} (h : window <:+ ms) :
    tokenSum window ≤ tokenSum ms := by
  obtain ⟨front, rfl⟩ := h
  simp [tokenSum]

theorem trimmed_suffix (maxTokens : Int) (ms : List ContextMessage) :
    trimmed maxTokens ms <:+ ms := by
  induction ms with
  | nil => exact List.suffix_rfl
  | cons m ms ih =>
    simp only [trimmed]
    split
    · exact ih.trans (List.suffix_cons m ms)
    · exact List.suffix_rfl

theorem tokenSum_trimmed_le (h : 0 ≤ maxTokens) (ms : List ContextMessage) :
    (tokenSum (trimmed maxTokens ms) : Int) ≤ maxTokens := by
  induction ms with
  | nil => simpa [trimmed, tokenSum] using h
  | cons m ms ih =>
    simp only [trimmed]
    split
    · exact ih
    · omega

/-- What is in the budget survives the trimming. -/
theorem suffix_trimmed_iff (h : 0 ≤ maxTokens) {ms : List ContextMessage} :
    window <:+ trimmed maxTokens ms ↔ window <:+ ms ∧ (tokenSum window : Int) ≤ maxTokens := by
  constructor
  · intro hwindow
    have hle := tokenSum_le_of_suffix hwindow
    have hbudget := tokenSum_trimmed_le h ms
    exact ⟨hwindow.trans (trimmed_suffix maxTokens ms), by omega⟩
  · rintro ⟨hwindow, hbudget⟩
    induction ms with
    | nil => simpa [trimmed] using hwindow
    | cons m ms ih =>
      simp only [trimmed]
      split
      · rename_i hover
        rcases List.suffix_cons_iff.mp hwindow with rfl | hrest
        · omega
        · exact ih hrest
      · exact hwindow

/-- A suffix of bounded length is a suffix of the last elements. -/
theorem suffix_drop_iff {α : Type} {xs window : List α} {n : Nat} :
    window <:+ xs.drop (xs.length - n) ↔ window <:+ xs ∧ window.length ≤ n := by
  constructor
  · intro h
    have hlength := h.length_le
    simp only [List.length_drop] at hlength
    exact ⟨h.trans (List.drop_suffix _ _), by omega⟩
  · rintro ⟨h, hlength⟩
    rw [List.suffix_iff_eq_drop.mp h]
    have hle := h.length_le
    exact List.drop_suffix_drop_left xs (by omega)

/-- A slice by a positive limit takes the last elements. -/
theorem slice_of_pos {α : Type} (xs : List α) (h : 0 < limit) :
    (if limit < xs.length then sliceFrom xs (-limit) else xs) =
      xs.drop (xs.length - limit.toNat) := by
  by_cases hlt : limit < xs.length
  · rw [if_pos hlt, sliceFrom, if_pos (by omega)]
    congr 1
    omega
  · rw [if_neg hlt, Nat.sub_eq_zero_of_le (by omega), List.drop_zero]

/-- `xs[-0:]` is the whole list. -/
theorem slice_zero {α : Type} (xs : List α) :
    (if 0 < (xs.length : Int) then sliceFrom xs (-0) else xs) = xs := by
  split
  · simp [sliceFrom]
  · rfl

theorem windowOf_zero (messages : List ContextMessage) (maxTokens : Int) :
    windowOf messages 0 maxTokens =
      trimmed maxTokens (messages.filter ContextMessage.eligible) := by
  simp only [windowOf]
  rw [slice_zero]

/-- A positive limit makes the window what the claim of the builder says. -/
theorem suffix_windowOf_iff (messages : List ContextMessage)
    (hlimit : 0 < limit) (hmax : 0 ≤ maxTokens) :
    window <:+ windowOf messages limit maxTokens ↔
      Fits limit maxTokens (messages.filter ContextMessage.eligible) window := by
  simp only [windowOf]
  rw [slice_of_pos _ hlimit, suffix_trimmed_iff hmax, suffix_drop_iff]
  constructor
  · rintro ⟨⟨hsuffix, hlength⟩, hbudget⟩
    exact ⟨hsuffix, by omega, hbudget⟩
  · rintro ⟨hsuffix, hcount, hbudget⟩
    exact ⟨⟨hsuffix, by omega⟩, hbudget⟩

/-- Nothing is left of a list when its newest message is over the budget. -/
theorem trimmed_eq_nil_iff (h : 0 ≤ maxTokens) (ms : List ContextMessage) :
    trimmed maxTokens ms = [] ↔ ∀ m ∈ ms.getLast?, maxTokens < m.tokens := by
  have hlast : ∀ m, [m] <:+ trimmed maxTokens ms ↔
      m ∈ ms.getLast? ∧ (m.tokens : Int) ≤ maxTokens := by
    intro m
    rw [suffix_trimmed_iff h]
    simp [List.singleton_suffix_iff_getLast?_eq_some, tokenSum]
  constructor
  · intro hnil m hm
    by_contra hfits
    have hsuffix := (hlast m).mpr ⟨hm, by omega⟩
    simp [hnil] at hsuffix
  · intro hover
    by_contra hne
    have hend := List.suffix_append (trimmed maxTokens ms).dropLast
      [(trimmed maxTokens ms).getLast hne]
    rw [List.dropLast_append_getLast hne] at hend
    obtain ⟨hm, hfits⟩ := (hlast _).mp hend
    have hlt := hover _ hm
    omega

/-- Under a limit of zero nothing may be left. -/
theorem LongestFit.newest_over {messages : List ContextMessage}
    (h : LongestFit messages limit maxTokens) (hzero : limit = 0) :
    ∀ m ∈ (messages.filter ContextMessage.eligible).getLast?, maxTokens < m.tokens := by
  obtain ⟨window, hfits, -, hwindow⟩ := h
  have hcount := hfits.count
  have hbudget := hfits.budget
  subst hzero
  have hnil : window = [] := List.length_eq_zero_iff.mp (by omega)
  rw [← trimmed_eq_nil_iff (by omega)]
  simpa [buildContextWindow, windowOf_zero, hnil] using hwindow

/-- The window is the longest suffix that fits if and only if one fits at all, and under a limit of
zero the newest eligible message, if there is one, is over the budget by itself. -/
theorem longestFit_iff (messages : List ContextMessage) (limit maxTokens : Int) :
    LongestFit messages limit maxTokens ↔
      0 ≤ maxTokens ∧ 0 ≤ limit ∧
        (limit = 0 → ∀ m ∈ (messages.filter ContextMessage.eligible).getLast?,
          maxTokens < m.tokens) := by
  constructor
  · intro h
    have hnewest := h.newest_over
    obtain ⟨window, hfits, -, -⟩ := h
    have hcount := hfits.count
    have hbudget := hfits.budget
    exact ⟨by omega, by omega, hnewest⟩
  · rintro ⟨hmax, hlimit, hzero⟩
    rcases eq_or_lt_of_le hlimit with rfl | hpos
    · have hnil := (trimmed_eq_nil_iff hmax _).mpr (hzero rfl)
      refine ⟨[], ⟨List.nil_suffix, le_rfl, by simpa [tokenSum] using hmax⟩, ?_, ?_⟩
      · intro other hother
        have hcount := hother.count
        have hother_nil : other = [] := List.length_eq_zero_iff.mp (by omega)
        simp [hother_nil]
      · simp [buildContextWindow, windowOf_zero, hnil]
    · have hall : ∀ window, window <:+ windowOf messages limit maxTokens ↔
          Fits limit maxTokens (messages.filter ContextMessage.eligible) window :=
        fun _ => suffix_windowOf_iff messages hpos hmax
      exact ⟨_, (hall _).mp List.suffix_rfl, fun other => (hall other).mpr, rfl⟩

/-- Under a limit of zero the whole history is returned. -/
theorem not_longestFit :
    ¬ LongestFit [⟨some "ada", some "user", some "Good morning"⟩] 0 4000 := by
  intro h
  exact absurd (h.newest_over rfl _ rfl) (by decide)

end TinyAgentOS.Chat
