import TinyAgentOS.Library.JsonSearch

/-!
# Searching the text of a JSON object

A field with a plain value is looked for, as its text, in the text of an object.  The text begins
with a quotation mark and has neither commas nor brackets, so it is found in a field or nowhere;
and it is not found in a string.

Main results:

- `isPrintable_of_mem_dumps`: a JSON text is printable.
- `mark_infix_dumps_obj_iff`: what is found in an object is found in one of its fields.
- `not_mark_infix_fieldText_names`: it is not found in a list of strings.
-/

namespace Json

/-! ## Printable texts -/

theorem isPrintable_of_isDigit {c : Char} (hc : c.isDigit = true) : isPrintable c = true := by
  simp only [Char.isDigit, Bool.and_eq_true, decide_eq_true_eq] at hc
  have hge : 48 ≤ c.val.toNat := UInt32.le_iff_toNat_le.mp hc.1
  have hle : c.val.toNat ≤ 57 := UInt32.le_iff_toNat_le.mp hc.2
  simp only [isPrintable, Bool.and_eq_true, decide_eq_true_eq]
  constructor
  · exact UInt32.le_iff_toNat_le.mpr (le_trans (by decide : ' '.val.toNat ≤ 48) hge)
  · exact UInt32.le_iff_toNat_le.mpr (le_trans hle (by decide : 57 ≤ '~'.val.toNat))

theorem isPrintable_of_all_isDigit {ds : List Char} (h : ds.all Char.isDigit = true) :
    ∀ d ∈ ds, isPrintable d = true :=
  fun d hd => isPrintable_of_isDigit (List.all_eq_true.mp h d hd)

theorem isPrintable_sign (neg : Bool) : ∀ d ∈ sign neg, isPrintable d = true := by
  cases neg with
  | false | true => exact List.all_eq_true.mp rfl

theorem isPrintable_frac {frac : List Char} (h : isFraction frac = true) :
    ∀ d ∈ frac, isPrintable d = true := by
  cases frac with
  | nil => simp
  | cons c ds =>
    simp only [isFraction, Bool.and_eq_true, decide_eq_true_eq] at h
    obtain ⟨⟨rfl, _⟩, hds⟩ := h
    exact List.forall_mem_cons.mpr ⟨by decide, isPrintable_of_all_isDigit hds⟩

theorem isPrintable_exp {exp : List Char} (h : isExponent exp = true) :
    ∀ d ∈ exp, isPrintable d = true := by
  cases exp with
  | nil => simp
  | cons c cs =>
    simp only [isExponent, Bool.and_eq_true, Bool.or_eq_true, decide_eq_true_eq] at h
    obtain ⟨⟨hc, _⟩, hdigits⟩ := h
    have hmark : isPrintable c = true := by
      rcases hc with rfl | rfl <;> decide
    refine List.forall_mem_cons.mpr ⟨hmark, ?_⟩
    cases cs with
    | nil => simp
    | cons d ds =>
      rw [unsigned] at hdigits
      split at hdigits
      · rename_i hsign
        refine List.forall_mem_cons.mpr ⟨?_, isPrintable_of_all_isDigit hdigits⟩
        rcases hsign with rfl | rfl <;> decide
      · exact isPrintable_of_all_isDigit hdigits

/-- A number is printable. -/
theorem isPrintable_number (x : Number) : ∀ d ∈ x.text, isPrintable d = true := by
  intro d hd
  cases x with
  | int n =>
    rcases List.mem_append.mp hd with hd | hd
    · exact isPrintable_sign _ d hd
    · exact isPrintable_of_all_isDigit (all_decimal n.natAbs) d hd
  | float x =>
    simp only [Number.text, FloatText.text, List.mem_append] at hd
    rcases hd with hd | hd | hd | hd
    · exact isPrintable_sign _ d hd
    · exact isPrintable_of_all_isDigit (all_decimal x.whole) d hd
    · exact isPrintable_frac x.isFloat.1 d hd
    · exact isPrintable_exp x.isFloat.2.1 d hd

/-- A field is printable if its value is. -/
theorem isPrintable_fieldText {f : String × Value}
    (h : ∀ d ∈ dumps f.2, isPrintable d = true) : ∀ d ∈ fieldText f, isPrintable d = true := by
  intro d hd
  rcases List.mem_append.mp hd with hd | hd
  · exact isPrintable_quote _ d hd
  · have hmark : isPrintable ':' = true ∧ isPrintable ' ' = true := by decide
    rcases List.mem_cons.mp hd with rfl | hd
    · exact hmark.1
    · rcases List.mem_cons.mp hd with rfl | hd
      · exact hmark.2
      · exact h d hd

/-- A text in brackets. -/
theorem isPrintable_bracketed {left right : Char} {ts : List (List Char)}
    (hleft : isPrintable left = true) (hright : isPrintable right = true)
    (hts : ∀ t ∈ ts, ∀ d ∈ t, isPrintable d = true) :
    ∀ d ∈ left :: commas ts ++ [right], isPrintable d = true := by
  intro d hd
  rcases List.mem_append.mp hd with hd | hd
  · rcases List.mem_cons.mp hd with rfl | hd
    · exact hleft
    · exact isPrintable_commas hts d hd
  · rw [List.mem_singleton.mp hd]
    exact hright

/-- A JSON text is printable. -/
theorem isPrintable_of_mem_dumps (v : Value) : ∀ d ∈ dumps v, isPrintable d = true := by
  induction v using Value.nested with
  | const k => cases k <;> exact List.all_eq_true.mp rfl
  | num x => exact isPrintable_number x
  | str s => exact isPrintable_quote s.toList
  | arr items ih =>
    rw [dumps, dumpsItems_eq]
    refine isPrintable_bracketed (by decide) (by decide) fun t ht => ?_
    obtain ⟨v, hv, rfl⟩ := List.mem_map.mp ht
    exact ih v hv
  | obj fields ih =>
    rw [dumps, dumpsFields_eq]
    refine isPrintable_bracketed (by decide) (by decide) fun t ht => ?_
    obtain ⟨f, hf, rfl⟩ := List.mem_map.mp ht
    exact isPrintable_fieldText (ih f hf)

/-! ## Stretches without separators -/

section Stretches

variable {α : Type} {x u v : List α} {c : α}

/-- A prefix without a character ends before it. -/
theorem prefix_of_notMem (hc : c ∉ x) (h : x <+: u ++ c :: v) : x <+: u := by
  induction u generalizing x with
  | nil =>
    cases x with
    | nil => exact List.nil_prefix
    | cons d x =>
      obtain ⟨rfl, _⟩ := List.cons_prefix_cons.mp h
      exact absurd List.mem_cons_self hc
  | cons d u ih =>
    cases x with
    | nil => exact List.nil_prefix
    | cons e x =>
      obtain ⟨rfl, hrest⟩ := List.cons_prefix_cons.mp h
      exact List.cons_prefix_cons.mpr ⟨rfl, ih (fun hmem => hc (List.mem_cons_of_mem _ hmem)) hrest⟩

/-- A stretch without a separator is on one side of it. -/
theorem infix_of_notMem (hc : c ∉ x) (h : x <:+: u ++ c :: v) : x <:+: u ∨ x <:+: v := by
  induction u with
  | nil =>
    rcases List.infix_cons_iff.mp h with hbegins | hwithin
    · left
      exact (prefix_of_notMem (u := []) hc hbegins).isInfix
    · exact Or.inr hwithin
  | cons d u ih =>
    rcases List.infix_cons_iff.mp h with hbegins | hwithin
    · left
      exact (prefix_of_notMem (u := d :: u) hc hbegins).isInfix
    · rcases ih hwithin with hleft | hright
      · exact Or.inl (hleft.trans (List.infix_cons (List.infix_refl u)))
      · exact Or.inr hright

end Stretches

/-! ## Marks -/

/-- The text of a field, without what stands before and behind it. -/
def mark (key value : List Char) : List Char :=
  quoted key ++ ':' :: ' ' :: value

/-- A mark begins with the quoted key. -/
theorem mark_eq (key value : List Char) :
    mark key value = '"' :: (key ++ '"' :: ':' :: ' ' :: value) := by
  simp [mark, quoted]

section Mark

variable {key value : List Char} {c : Char}

theorem notMem_mark (hkey : c ∉ key) (hvalue : c ∉ value) (hc : c ≠ '"' ∧ c ≠ ':' ∧ c ≠ ' ') :
    c ∉ mark key value := by
  rw [mark_eq]
  simp only [List.mem_cons, List.mem_append, not_or]
  exact ⟨hc.1, hkey, hc.1, hc.2.1, hc.2.2, hvalue⟩

/-- A mark begins with a quotation mark. -/
theorem mark_infix_cons (hc : c ≠ '"') (text : List Char) :
    mark key value <:+: c :: text ↔ mark key value <:+: text := by
  rw [List.infix_cons_iff, mark_eq]
  apply or_iff_right
  intro hbegins
  exact hc (List.cons_prefix_cons.mp hbegins).1.symm

/-- A mark is not in a word without quotation marks. -/
theorem mark_infix_append {word : List Char} (hword : '"' ∉ word) (text : List Char) :
    mark key value <:+: word ++ text ↔ mark key value <:+: text := by
  induction word with
  | nil => rfl
  | cons c word ih =>
    rw [List.mem_cons, not_or] at hword
    rw [List.cons_append, mark_infix_cons (Ne.symm hword.1), ih hword.2]

variable {ts : List (List Char)} {rest : List Char}

/-- A mark without commas is in one of the texts. -/
theorem mark_infix_commas (hcomma : ',' ∉ mark key value)
    (h : mark key value <:+: commas ts) : ∃ t ∈ ts, mark key value <:+: t := by
  induction ts with
  | nil =>
    have hnil := List.infix_nil.mp h
    rw [mark_eq] at hnil
    contradiction
  | cons t ts ih =>
    cases ts with
    | nil => exact ⟨t, List.mem_cons_self, h⟩
    | cons t' ts =>
      rcases infix_of_notMem hcomma h with hfirst | hrest
      · exact ⟨t, List.mem_cons_self, hfirst⟩
      · obtain ⟨u, hu, hfound⟩ := ih ((mark_infix_cons (by decide) _).mp hrest)
        exact ⟨u, List.mem_cons_of_mem t hu, hfound⟩

/-- A text is among the texts between commas. -/
theorem infix_commas_of_mem {t : List Char} (h : t ∈ ts) : t <:+: commas ts := by
  induction ts with
  | nil => contradiction
  | cons u ts ih =>
    cases ts with
    | nil =>
      rw [List.mem_singleton.mp h]
      exact List.infix_refl _
    | cons u' ts =>
      rw [commas]
      · rcases List.mem_cons.mp h with rfl | h
        · exact (List.prefix_append t _).isInfix
        · have hrest := ih h
          refine hrest.trans ?_
          exact (List.suffix_append (u ++ [',', ' ']) (commas (u' :: ts))).isInfix.trans
            (by simp)
      · simp

/-- What is found in an object is found in one of its fields. -/
theorem mark_infix_dumps_obj_iff (hcomma : ',' ∉ mark key value) (hclose : '}' ∉ mark key value)
    (fields : List (String × Value)) :
    mark key value <:+: dumps (.obj fields) ↔ ∃ f ∈ fields, mark key value <:+: fieldText f := by
  rw [dumps, dumpsFields_eq, List.cons_append, mark_infix_cons (by decide)]
  constructor
  · intro h
    rcases infix_of_notMem hclose h with h | h
    · obtain ⟨t, ht, hfound⟩ := mark_infix_commas hcomma h
      obtain ⟨f, hf, rfl⟩ := List.mem_map.mp ht
      exact ⟨f, hf, hfound⟩
    · have hnil := List.infix_nil.mp h
      rw [mark_eq] at hnil
      contradiction
  · rintro ⟨f, hf, hfound⟩
    refine (hfound.trans (infix_commas_of_mem (List.mem_map_of_mem hf))).trans ?_
    exact (List.prefix_append _ ['}']).isInfix

/-! ## Strings -/

section

variable (hkey : ∀ c ∈ key, isPlain c = true)
include hkey

/-- The second quotation mark of a string is its last. -/
theorem prefix_behind_mark {s : List Char}
    (h : key ++ '"' :: ':' :: ' ' :: value <+: s.flatMap escape ++ '"' :: rest) :
    ':' :: ' ' :: value <+: rest := by
  have hquoted : key ++ ['"'] <+: s.flatMap escape ++ '"' :: rest := by
    refine List.IsPrefix.trans ?_ h
    exact ⟨':' :: ' ' :: value, by simp⟩
  have hs := (prefix_escape_iff hkey rest).mp hquoted
  have hplain : s.flatMap escape = key := by
    rw [← hs]
    calc
      key.flatMap escape = key.flatMap fun c => [c] :=
        List.flatMap_congr fun c hc => escape_of_isPlain (hkey c hc)
      _ = key := by simp
  rw [hplain, List.prefix_append_right_inj, List.cons_prefix_cons] at h
  exact h.2

/-- An escaped text holds no mark. -/
theorem not_mark_infix_escape
    (hbegins : ¬ ':' :: ' ' :: value <+: rest) (hrest : ¬ mark key value <:+: '"' :: rest)
    (s : List Char) : ¬ mark key value <:+: s.flatMap escape ++ '"' :: rest := by
  induction s with
  | nil => exact hrest
  | cons c s ih =>
    rw [List.flatMap_cons, List.append_assoc]
    by_cases hc : c = '"'
    · subst hc
      have hescape : escape '"' = ['\\', '"'] := rfl
      rw [hescape, List.cons_append, mark_infix_cons (by decide), List.singleton_append,
        List.infix_cons_iff, mark_eq, List.cons_prefix_cons, ← mark_eq]
      rintro (⟨_, hfound⟩ | hwithin)
      · exact hbegins (prefix_behind_mark hkey hfound)
      · exact ih hwithin
    · rw [mark_infix_append (notMem_escape hc)]
      exact ih

/-- A mark is not found in a string, nor in the name of a field. -/
theorem not_mark_infix_quote (hvalue : value ≠ []) (hrest : rest.length ≤ 2) (s : List Char) :
    ¬ mark key value <:+: quote s ++ rest := by
  have hlength : 0 < value.length := List.length_pos_of_ne_nil hvalue
  have hbegins : ¬ ':' :: ' ' :: value <+: rest := by
    intro h
    have hle := h.length_le
    simp only [List.length_cons] at hle
    omega
  have hwithin : ¬ mark key value <:+: '"' :: rest := by
    intro h
    have hle := h.length_le
    rw [mark_eq] at hle
    simp only [List.length_cons, List.length_append] at hle
    omega
  have htext : quote s ++ rest = '"' :: (s.flatMap escape ++ '"' :: rest) := by
    simp [quote]
  rw [htext, List.infix_cons_iff, mark_eq, List.cons_prefix_cons, ← mark_eq]
  rintro (⟨_, hfound⟩ | hfound)
  · exact hbegins (prefix_behind_mark hkey hfound)
  · exact not_mark_infix_escape hkey hbegins hwithin s hfound

/-- A mark is not found in a field whose value is a list of strings. -/
theorem not_mark_infix_fieldText_names
    (hcomma : ',' ∉ mark key value) (hopen : '[' ∉ mark key value)
    (hclose : ']' ∉ mark key value) (hvalue : value ≠ []) (name : String) (names : List String) :
    ¬ mark key value <:+: fieldText (name, .arr (names.map .str)) := by
  intro h
  have htext : fieldText (name, .arr (names.map .str)) =
      (quote name.toList ++ [':', ' ']) ++ '[' :: (commas (quotes names) ++ [']']) := by
    rw [fieldText, dumps_names]
    simp
  rw [htext] at h
  rcases infix_of_notMem hopen h with hname | hitems
  · exact not_mark_infix_quote hkey hvalue le_rfl name.toList hname
  · rcases infix_of_notMem hclose hitems with hitems | hnil
    · obtain ⟨t, ht, hfound⟩ := mark_infix_commas hcomma hitems
      obtain ⟨s, _, rfl⟩ := List.mem_map.mp ht
      rw [← List.append_nil (quote s.toList)] at hfound
      exact not_mark_infix_quote hkey hvalue (by simp) s.toList hfound
    · have hnil := List.infix_nil.mp hnil
      rw [mark_eq] at hnil
      contradiction

end

end Mark

end Json
