import TinyAgentOS.Library.JsString
import TinyAgentOS.Registry.CanonicalId

/-!
# Handles of invited agents

The handle of an agent that redeems an invite is joined of slugs, with a number behind where an
active agent has it already.  Such a handle is its own slug.

Main results:

- `chars_slugify_of_tidy`: a text of words between single dashes is its own slug.
- `dedupeHandle_notMem`: a free handle is found among the first, one more than are taken.
-/

namespace TinyAgentOS.Registry

/-! ## Handles -/

/-- A label that is empty is none. -/
def labelParts : Option String → List (List Char)
  | none => []
  | some label => if label = "" then [] else [(slugify label).chars]

/-- `_derive_handle`.  No slug is empty. -/
def deriveHandle (projectSlug harness : String) (label : Option String) : List Char :=
  ['-'].intercalate ((slugify projectSlug).chars :: (slugify harness).chars :: labelParts label)

/-- `_derive_os_handle`: the alias, or else the harness. -/
def deriveOsHandle (displayName : Option String) (harness : String) (label : Option String) :
    List Char :=
  let name := strip isSpace (displayName.getD "").toList
  let base := if name = [] then slugify harness else slugify (String.ofList name)
  ['-'].intercalate (base.chars :: labelParts label)

/-- A handle with a number behind. -/
def numbered (base : List Char) (n : Nat) : List Char :=
  base ++ '-' :: Nat.toDigits 10 n

/-- The handles that are tried first. -/
def handleCandidates (base : List Char) (count : Nat) : List (List Char) :=
  base :: (List.range count).map fun i => numbered base (i + 2)

/-- `_dedupe_handle`, from the handles of the active agents: the first that is not taken. -/
def dedupeHandle (taken : List String) (base : List Char) : List Char :=
  ((handleCandidates base taken.length).find? fun handle => String.ofList handle ∉ taken).getD base

/-! ## Words between dashes -/

/-- Words of letters and digits between single dashes. -/
inductive Tidy : List Char → Prop where
  | single {c : Char} (hc : isSlugChar c = true) : Tidy [c]
  | cons {c : Char} {rest : List Char} (hc : isSlugChar c = true) (h : Tidy rest) :
      Tidy (c :: rest)
  | dash {c : Char} {rest : List Char} (hc : isSlugChar c = true) (h : Tidy rest) :
      Tidy (c :: '-' :: rest)

variable {c : Char} {text : List Char}

/-- A slug character is no dash. -/
theorem ne_dash_of_isSlugChar (hc : isSlugChar c = true) : c ≠ '-' := by
  rintro rfl
  exact absurd hc (by decide)

/-- Two tidy texts are joined by a dash. -/
theorem Tidy.append {text' : List Char} (h : Tidy text) (h' : Tidy text') :
    Tidy (text ++ '-' :: text') := by
  induction h with
  | single hc => exact .dash hc h'
  | cons hc _ ih => exact .cons hc ih
  | dash hc _ ih => exact .dash hc ih

/-- A tidy text has dashes and slug characters only. -/
theorem Tidy.slugChar (h : Tidy text) : ∀ c ∈ text, c = '-' ∨ isSlugChar c = true := by
  induction h with
  | single hc =>
    intro d hd
    rw [List.mem_singleton.mp hd]
    exact Or.inr hc
  | cons hc _ ih =>
    intro d hd
    rcases List.mem_cons.mp hd with rfl | hd
    · exact Or.inr hc
    · exact ih d hd
  | dash hc _ ih =>
    intro d hd
    rcases List.mem_cons.mp hd with rfl | hd
    · exact Or.inr hc
    · rcases List.mem_cons.mp hd with rfl | hd
      · exact Or.inl rfl
      · exact ih d hd

/-- It begins and ends with a letter or a digit. -/
theorem Tidy.ends (h : Tidy text) : (∃ c rest, text = c :: rest ∧ isSlugChar c = true) ∧
      ∃ front c, text = front ++ [c] ∧ isSlugChar c = true := by
  induction h with
  | @single c hc => exact ⟨⟨c, [], rfl, hc⟩, [], c, rfl, hc⟩
  | @cons c rest hc _ ih =>
    obtain ⟨_, front, d, rfl, hd⟩ := ih
    exact ⟨⟨c, _, rfl, hc⟩, c :: front, d, rfl, hd⟩
  | @dash c rest hc _ ih =>
    obtain ⟨_, front, d, rfl, hd⟩ := ih
    exact ⟨⟨c, _, rfl, hc⟩, c :: '-' :: front, d, rfl, hd⟩

variable {p : Char → Bool} {base : List Char}

/-- What stands around a tidy text is stripped, and the text is not. -/
theorem strip_append {pre post : List Char} (h : Tidy text)
    (hp : ∀ c, isSlugChar c = true → p c = false) (hpre : ∀ c ∈ pre, p c = true)
    (hpost : ∀ c ∈ post, p c = true) : strip p (pre ++ (text ++ post)) = text := by
  obtain ⟨⟨c, rest, hhead, hc⟩, front, d, hlast, hd⟩ := h.ends
  have hdrop : (text ++ post).dropWhile p = text ++ post := by
    rw [hhead, List.cons_append, List.dropWhile_cons_of_neg (by simp [hp c hc])]
  have hback : (text.reverse).dropWhile p = text.reverse := by
    rw [hlast, List.reverse_append, List.reverse_singleton, List.singleton_append,
      List.dropWhile_cons_of_neg (by simp [hp d hd])]
  have hpost' : ∀ c ∈ post.reverse, p c = true := fun c hmem =>
    hpost c (List.mem_reverse.mp hmem)
  rw [strip, List.dropWhile_append_of_pos hpre, hdrop, List.rdropWhile, List.reverse_append,
    List.dropWhile_append_of_pos hpost', hback, List.reverse_reverse]

/-- Nothing is stripped from a tidy text. -/
theorem Tidy.strip_eq (h : Tidy text)
    (hp : ∀ c, isSlugChar c = true → p c = false) : strip p text = text := by
  have hstrip : strip p ([] ++ (text ++ [])) = text := strip_append h hp (by simp) (by simp)
  simpa using hstrip

/-! ## Slugs are tidy -/

/-- What a text becomes: a tidy text, or nothing, with a dash at either end or none. -/
def Framed (inRun : Bool) (text : List Char) : Prop :=
  text = [] ∨ (inRun = false ∧ text = ['-']) ∨
    ∃ pre core post, text = pre ++ core ++ post ∧ Tidy core ∧
      (pre = [] ∨ inRun = false ∧ pre = ['-']) ∧ (post = [] ∨ post = ['-'])

/-- A substituted text is framed. -/
theorem framed_subDashes (inRun : Bool) (text : List Char) :
    Framed inRun (subDashes inRun text) := by
  induction text generalizing inRun with
  | nil => exact Or.inl rfl
  | cons c text ih =>
    rw [subDashes]
    by_cases hc : isSlugChar c = true
    · rw [if_pos hc]
      refine Or.inr (Or.inr ?_)
      rcases ih false with hnil | ⟨_, hdash⟩ | ⟨pre, core, post, heq, hcore, hpre, hpost⟩
      · rw [hnil]
        exact ⟨[], [c], [], rfl, .single hc, Or.inl rfl, Or.inl rfl⟩
      · rw [hdash]
        exact ⟨[], [c], ['-'], rfl, .single hc, Or.inl rfl, Or.inr rfl⟩
      · rw [heq]
        rcases hpre with rfl | ⟨_, rfl⟩
        · exact ⟨[], c :: core, post, rfl, .cons hc hcore, Or.inl rfl, hpost⟩
        · exact ⟨[], c :: '-' :: core, post, rfl, .dash hc hcore, Or.inl rfl, hpost⟩
    · rw [if_neg hc]
      cases inRun with
      | true => exact ih true
      | false =>
        rw [if_neg Bool.false_ne_true]
        rcases ih true with hnil | ⟨hrun, _⟩ | ⟨pre, core, post, heq, hcore, hpre, hpost⟩
        · rw [hnil]
          exact Or.inr (Or.inl ⟨rfl, rfl⟩)
        · contradiction
        · rw [heq]
          rcases hpre with rfl | ⟨hrun, _⟩
          · exact Or.inr (Or.inr ⟨['-'], core, post, rfl, hcore, Or.inr ⟨rfl, rfl⟩, hpost⟩)
          · contradiction

theorem dash_of_isSlugChar (c : Char) (hc : isSlugChar c = true) : (c == '-') = false :=
  beq_eq_false_iff_ne.mpr (ne_dash_of_isSlugChar hc)

/-- A framed text without its outer dashes is tidy, or empty. -/
theorem strip_framed {inRun : Bool} (h : Framed inRun text) :
    strip (· == '-') text = [] ∨ Tidy (strip (· == '-') text) := by
  rcases h with rfl | ⟨_, rfl⟩ | ⟨pre, core, post, rfl, hcore, hpre, hpost⟩
  · exact Or.inl rfl
  · exact Or.inl rfl
  · right
    rw [List.append_assoc, strip_append hcore dash_of_isSlugChar]
    · exact hcore
    · rcases hpre with rfl | ⟨_, rfl⟩
      · exact fun c hc => absurd hc List.not_mem_nil
      · simp
    · rcases hpost with rfl | rfl
      · exact fun c hc => absurd hc List.not_mem_nil
      · simp

/-- A slug is tidy. -/
theorem tidy_slugify (text : String) : Tidy (slugify text).chars := by
  unfold slugify
  dsimp only
  split
  · exact .cons (by decide) (.cons (by decide) (.cons (by decide) (.cons (by decide)
      (.single (by decide)))))
  · rename_i hne
    exact (strip_framed (framed_subDashes false _)).resolve_left hne

/-- Tidy parts are joined to a tidy text. -/
theorem tidy_intercalate {parts : List (List Char)} (hne : parts ≠ [])
    (h : ∀ part ∈ parts, Tidy part) : Tidy (['-'].intercalate parts) := by
  induction parts with
  | nil => contradiction
  | cons part parts ih =>
    cases parts with
    | nil => simpa [List.intercalate] using h part List.mem_cons_self
    | cons next parts =>
      have hrest := ih (List.cons_ne_nil _ _) fun p hp => h p (List.mem_cons_of_mem part hp)
      have hsplit : ['-'].intercalate (part :: next :: parts) =
          part ++ '-' :: ['-'].intercalate (next :: parts) := by
        simp [List.intercalate]
      rw [hsplit]
      exact (h part List.mem_cons_self).append hrest

/-- The codes of slug characters. -/
theorem code_of_isSlugChar (hc : isSlugChar c = true) :
    (97 ≤ c.toNat ∧ c.toNat ≤ 122) ∨ (48 ≤ c.toNat ∧ c.toNat ≤ 57) := by
  unfold isSlugChar Char.isLower Char.isDigit at hc
  simp only [Bool.or_eq_true, Bool.and_eq_true, decide_eq_true_eq, ge_iff_le,
    UInt32.le_iff_toNat_le] at hc
  exact hc

/-- Slug characters are lower case. -/
theorem lower_of_isSlugChar (hc : c = '-' ∨ isSlugChar c = true) : lower c = [c] := by
  rcases hc with rfl | hc
  · decide
  · have hcode := code_of_isSlugChar hc
    have hdotted : c ≠ 'İ' := by
      rintro rfl
      exact absurd hcode (by decide)
    have hkelvin : c ≠ '\u212A' := by
      rintro rfl
      exact absurd hcode (by decide)
    have hupper : ¬ (c.val ≥ 'A'.val ∧ c.val ≤ 'Z'.val) := by
      rintro ⟨hge, hle⟩
      have hge' : 65 ≤ c.toNat := hge
      have hle' : c.toNat ≤ 90 := hle
      omega
    rw [lower, if_neg hdotted, if_neg hkelvin]
    unfold Char.toLower
    rw [dif_neg hupper]

/-- A slug character is no space. -/
theorem isSpace_of_isSlugChar (c : Char) (hc : isSlugChar c = true) : isSpace c = false := by
  have hcode := code_of_isSlugChar hc
  rw [isSpace]
  simp only [Bool.or_eq_false_iff, Bool.and_eq_false_iff, decide_eq_false_iff_not,
    List.contains_eq_mem, List.mem_cons, List.not_mem_nil, or_false]
  omega

/-- Nothing is substituted in a tidy text. -/
theorem subDashes_of_tidy (h : Tidy text) (inRun : Bool) : subDashes inRun text = text := by
  induction h generalizing inRun with
  | single hc => rw [subDashes, if_pos hc, subDashes]
  | cons hc _ ih => rw [subDashes, if_pos hc, ih]
  | dash hc _ ih =>
    have hdash : ¬ isSlugChar '-' = true := by decide
    rw [subDashes, if_pos hc, subDashes, if_neg hdash, if_neg Bool.false_ne_true, ih]

/-- Such a text is its own slug. -/
theorem chars_slugify_of_tidy (h : Tidy text) : (slugify (String.ofList text)).chars = text := by
  have hlower : text.flatMap lower = text := by
    have hall : ∀ c ∈ text, lower c = [c] := fun c hc => lower_of_isSlugChar (h.slugChar c hc)
    calc
      text.flatMap lower = text.flatMap fun c => [c] := List.flatMap_congr hall
      _ = text := by simp
  have hspace : strip isSpace text = text := h.strip_eq isSpace_of_isSlugChar
  have hdash : strip (· == '-') text = text := h.strip_eq dash_of_isSlugChar
  have hne : text ≠ [] := by
    obtain ⟨⟨c, rest, rfl, _⟩, _⟩ := h.ends
    exact List.cons_ne_nil c rest
  simp only [slugify, String.toList_ofList, hlower, hspace, subDashes_of_tidy h, hdash, dif_neg hne]

/-- The parts of a label are tidy. -/
theorem tidy_labelParts (label : Option String) : ∀ part ∈ labelParts label, Tidy part := by
  intro part hpart
  cases label with
  | none => exact absurd hpart List.not_mem_nil
  | some label =>
    by_cases hempty : label = ""
    · rw [labelParts, if_pos hempty] at hpart
      exact absurd hpart List.not_mem_nil
    · rw [labelParts, if_neg hempty] at hpart
      rw [List.mem_singleton.mp hpart]
      exact tidy_slugify label

/-- A handle is tidy. -/
theorem tidy_deriveHandle (projectSlug harness : String) (label : Option String) :
    Tidy (deriveHandle projectSlug harness label) := by
  refine tidy_intercalate (List.cons_ne_nil _ _) fun part hpart => ?_
  rcases List.mem_cons.mp hpart with rfl | hpart
  · exact tidy_slugify projectSlug
  · rcases List.mem_cons.mp hpart with rfl | hpart
    · exact tidy_slugify harness
    · exact tidy_labelParts label part hpart

/-- An OS handle is tidy. -/
theorem tidy_deriveOsHandle (displayName : Option String) (harness : String)
    (label : Option String) : Tidy (deriveOsHandle displayName harness label) := by
  refine tidy_intercalate (List.cons_ne_nil _ _) fun part hpart => ?_
  rcases List.mem_cons.mp hpart with rfl | hpart
  · split
    · exact tidy_slugify harness
    · exact tidy_slugify _
  · exact tidy_labelParts label part hpart

/-- Digits are tidy. -/
theorem tidy_of_digits (hne : text ≠ []) (h : ∀ c ∈ text, c.isDigit = true) : Tidy text := by
  have hslug : ∀ c ∈ text, isSlugChar c = true := by
    intro c hc
    rw [isSlugChar, h c hc, Bool.or_true]
  induction text with
  | nil => contradiction
  | cons c text ih =>
    cases text with
    | nil => exact .single (hslug c List.mem_cons_self)
    | cons d text =>
      refine .cons (hslug c List.mem_cons_self) (ih (List.cons_ne_nil d text) ?_ ?_)
      · exact fun e he => h e (List.mem_cons_of_mem c he)
      · exact fun e he => hslug e (List.mem_cons_of_mem c he)

/-- A numbered handle is tidy. -/
theorem tidy_numbered (h : Tidy base) (n : Nat) : Tidy (numbered base n) :=
  h.append (tidy_of_digits Nat.toDigits_ne_nil fun _ hc =>
    Nat.isDigit_of_mem_toDigits (by decide) (by decide) hc)

/-! ## A free handle -/

/-- The candidates are different handles. -/
theorem nodup_handleCandidates (base : List Char) (count : Nat) :
    (handleCandidates base count).Nodup := by
  rw [handleCandidates, List.nodup_cons]
  constructor
  · intro hmem
    obtain ⟨i, _, hi⟩ := List.mem_map.mp hmem
    have hlength := congrArg List.length hi
    simp [numbered] at hlength
  · refine List.nodup_range.map fun i j hij => ?_
    have hdigits := List.append_cancel_left hij
    have hnumber := Js.toDigits_injective (List.cons.inj hdigits).2
    omega

/-- One more handles are tried than are taken. -/
theorem dedupeHandle_notMem (taken : List String) (base : List Char) :
    String.ofList (dedupeHandle taken base) ∉ taken := by
  rw [dedupeHandle]
  cases hfind : (handleCandidates base taken.length).find?
      fun handle => String.ofList handle ∉ taken with
  | some handle => simpa using List.find?_some hfind
  | none =>
    have hall : ∀ handle ∈ handleCandidates base taken.length, String.ofList handle ∈ taken := by
      simpa using List.find?_eq_none.mp hfind
    have hnodup : ((handleCandidates base taken.length).map String.ofList).Nodup :=
      (nodup_handleCandidates base _).map fun _ _ h => String.ofList_injective h
    have hsub : ((handleCandidates base taken.length).map String.ofList) ⊆ taken := by
      intro handle hmem
      obtain ⟨text, htext, rfl⟩ := List.mem_map.mp hmem
      exact hall text htext
    have hle := (hnodup.subperm hsub).length_le
    simp [handleCandidates] at hle

/-- A handle that was made free is tidy. -/
theorem tidy_dedupeHandle (h : Tidy base) (taken : List String) :
    Tidy (dedupeHandle taken base) := by
  rw [dedupeHandle]
  cases hfind : (handleCandidates base taken.length).find?
      fun handle => String.ofList handle ∉ taken with
  | none => exact h
  | some handle =>
    rcases List.mem_cons.mp (List.mem_of_find?_eq_some hfind) with rfl | hmem
    · exact h
    · obtain ⟨i, _, rfl⟩ := List.mem_map.mp hmem
      exact tidy_numbered h (i + 2)

end TinyAgentOS.Registry
