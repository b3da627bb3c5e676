import TinyAgentOS.Library.Json

/-!
# Searching the text of a JSON list

A plain text, set in quotation marks, is looked for in the text of a list of strings.
Escapes put further quotation marks there, and so do the commas.

Main results:

- `isPrintable_of_mem_dumps_names`: the text of such a list is printable.
- `quoted_infix_dumps_iff`: what such a search finds.
-/

namespace Json

/-- The printable ASCII characters. -/
def isPrintable (c : Char) : Bool :=
  ' ' ≤ c && c ≤ '~'

/-- A text in quotation marks. -/
def quoted (x : List Char) : List Char :=
  '"' :: (x ++ ['"'])

variable {c : Char} {x : List Char}

/-- Plain characters are printable and need no escape. -/
theorem isPlain_iff : isPlain c = true ↔ isPrintable c = true ∧ c ≠ '"' ∧ c ≠ '\\' := by
  simp [isPlain, isPrintable, and_assoc]

/-! ## Printable texts -/

/-- Hexadecimal digits are printable. -/
theorem isPrintable_hexDigits (n : Nat) : ∀ d ∈ hexDigits n, isPrintable d = true := by
  have hall : ∀ m < 16, isPrintable m.digitChar = true := by decide
  intro d hd
  obtain ⟨m, hm, rfl⟩ := List.mem_map.mp hd
  apply hall
  simp only [List.mem_cons, List.not_mem_nil, or_false] at hm
  omega

theorem isPrintable_unit (n : Nat) : ∀ d ∈ unit n, isPrintable d = true := by
  have hmark : isPrintable '\\' = true ∧ isPrintable 'u' = true := by decide
  exact List.forall_mem_cons.mpr ⟨hmark.1, List.forall_mem_cons.mpr
    ⟨hmark.2, isPrintable_hexDigits n⟩⟩

/-- An escaped character is printable. -/
theorem isPrintable_escape (c : Char) : ∀ d ∈ escape c, isPrintable d = true := by
  intro d hd
  unfold escape at hd
  split at hd
  · rename_i p hp
    have hall : ∀ p ∈ shortEscapes, isPrintable '\\' = true ∧ isPrintable p.2 = true := by decide
    have hprintable := hall p (List.mem_of_find?_eq_some hp)
    rcases List.mem_pair.mp hd with rfl | rfl
    · exact hprintable.1
    · exact hprintable.2
  · split at hd
    · rename_i hrange
      obtain rfl := List.mem_singleton.mp hd
      simp [isPrintable, hrange]
    · split at hd
      · exact isPrintable_unit _ d hd
      · rcases List.mem_append.mp hd with hd | hd
        · exact isPrintable_unit _ d hd
        · exact isPrintable_unit _ d hd

/-- A quoted text is printable. -/
theorem isPrintable_quote (s : List Char) : ∀ d ∈ quote s, isPrintable d = true := by
  intro d hd
  have hmark : isPrintable '"' = true := by decide
  simp only [quote, List.cons_append, List.mem_cons, List.mem_append, List.mem_flatMap,
    List.not_mem_nil, or_false] at hd
  rcases hd with rfl | ⟨c, _, hd⟩ | rfl
  · exact hmark
  · exact isPrintable_escape c d hd
  · exact hmark

/-- The texts of a list of strings. -/
def quotes (names : List String) : List (List Char) :=
  names.map fun s => quote s.toList

/-- A list of names is written between brackets. -/
theorem dumps_names (names : List String) :
    dumps (.arr (names.map .str)) = '[' :: (commas (quotes names) ++ [']']) := by
  have hitems : dumpsItems (names.map .str) = quotes names := by
    induction names with
    | nil => rfl
    | cons s names ih =>
      rw [List.map_cons, dumpsItems, ih, dumps]
      rfl
  rw [dumps, hitems]
  rfl

/-- Printable texts between commas are printable. -/
theorem isPrintable_commas {ts : List (List Char)}
    (hts : ∀ t ∈ ts, ∀ d ∈ t, isPrintable d = true) : ∀ d ∈ commas ts, isPrintable d = true := by
  induction ts with
  | nil =>
    intro d hd
    contradiction
  | cons t ts ih =>
    obtain ⟨ht, hts⟩ := List.forall_mem_cons.mp hts
    cases ts with
    | nil => exact ht
    | cons t' ts =>
      intro d hd
      have hmark : isPrintable ',' = true ∧ isPrintable ' ' = true := by decide
      rw [commas, List.mem_append, List.mem_cons, List.mem_cons] at hd
      · rcases hd with hd | rfl | rfl | hd
        · exact ht d hd
        · exact hmark.1
        · exact hmark.2
        · exact ih hts d hd
      · simp

/-- The text of a list of strings is printable. -/
theorem isPrintable_of_mem_dumps_names {names : List String} {d : Char}
    (hd : d ∈ dumps (.arr (names.map .str))) : isPrintable d = true := by
  have hquotes : ∀ t ∈ quotes names, ∀ d ∈ t, isPrintable d = true := by
    intro t ht
    obtain ⟨s, _, rfl⟩ := List.mem_map.mp ht
    exact isPrintable_quote s.toList
  have hmark : isPrintable '[' = true ∧ isPrintable ']' = true := by decide
  rw [dumps_names, List.mem_cons, List.mem_append, List.mem_singleton] at hd
  rcases hd with rfl | hd | rfl
  · exact hmark.1
  · exact isPrintable_commas hquotes d hd
  · exact hmark.2

/-! ## Stretches between quotation marks -/

/-- A quoted text does not begin at another character. -/
theorem quoted_infix_cons (hc : c ≠ '"') (text : List Char) :
    quoted x <:+: c :: text ↔ quoted x <:+: text := by
  rw [List.infix_cons_iff]
  apply or_iff_right
  intro hbegins
  exact hc (List.cons_prefix_cons.mp hbegins).1.symm

/-- A quoted text begins at a quotation mark, or behind it. -/
theorem quoted_infix_quotation (x text : List Char) :
    quoted x <:+: '"' :: text ↔ x ++ ['"'] <+: text ∨ quoted x <:+: text := by
  rw [List.infix_cons_iff, quoted, List.cons_prefix_cons]
  simp

/-- A quoted text is not in a word without quotation marks. -/
theorem quoted_infix_append {word : List Char} (hword : '"' ∉ word) (text : List Char) :
    quoted x <:+: word ++ text ↔ quoted x <:+: text := by
  induction word with
  | nil => rfl
  | cons c word ih =>
    rw [List.mem_cons, not_or] at hword
    rw [List.cons_append, quoted_infix_cons (Ne.symm hword.1), ih hword.2]

/-- The escape of a character has a quotation mark in it only if it is that of one. -/
theorem notMem_escape (hc : c ≠ '"') : '"' ∉ escape c := by
  unfold escape
  split
  · rename_i p hp
    have hall : ∀ p ∈ shortEscapes, p.1 ≠ '"' → '"' ∉ ['\\', p.2] := by decide
    have hpc : p.1 = c := by
      simpa using List.find?_some (p := fun p : Char × Char => decide (p.1 = c)) hp
    exact hall p (List.mem_of_find?_eq_some hp) (hpc ▸ hc)
  · have hdigits : ∀ n, '"' ∉ unit n := by
      intro n hmem
      have hall : ∀ m < 16, '"' ≠ m.digitChar := by decide
      have hdigit : '"' ∈ hexDigits n := by
        simpa [unit] using hmem
      obtain ⟨m, hm, heq⟩ := List.mem_map.mp hdigit
      refine hall m ?_ heq.symm
      simp only [List.mem_cons, List.not_mem_nil, or_false] at hm
      omega
    split
    · exact fun hmem => hc (List.mem_singleton.mp hmem).symm
    · split
      · exact hdigits _
      · rw [List.mem_append, not_or]
        exact ⟨hdigits _, hdigits _⟩

/-- A plain text up to a quotation mark begins the text of a string only if it is the string. -/
theorem prefix_escape_iff {s : List Char} (hx : ∀ c ∈ x, isPlain c = true) (rest : List Char) :
    x ++ ['"'] <+: s.flatMap escape ++ '"' :: rest ↔ x = s := by
  induction x generalizing s with
  | nil =>
    cases s with
    | nil => simp
    | cons d s =>
      obtain ⟨e, es, hescape, hne⟩ := escape_ne_quotation d
      simp [hescape, List.cons_prefix_cons, Ne.symm hne]
  | cons c x ih =>
    obtain ⟨hc, hx⟩ := List.forall_mem_cons.mp hx
    obtain ⟨-, hquotation, hslash⟩ := isPlain_iff.mp hc
    cases s with
    | nil => simp [List.cons_prefix_cons, hquotation]
    | cons d s =>
      cases hd : isPlain d with
      | true =>
        rw [List.flatMap_cons, escape_of_isPlain hd, List.cons_append, List.singleton_append,
          List.cons_append, List.cons_prefix_cons, ih hx, List.cons.injEq]
      | false =>
        obtain ⟨e, es, hescape⟩ := escape_of_not_isPlain hd
        have hne : c ≠ d := by
          rintro rfl
          rw [hc] at hd
          contradiction
        simp [hescape, List.cons_prefix_cons, hslash, hne]

/-- What is found from within a string on. -/
theorem quoted_infix_escape_iff {s : List Char} (hx : ∀ c ∈ x, isPlain c = true)
    (rest : List Char) :
    quoted x <:+: s.flatMap escape ++ '"' :: rest ↔
      '"' :: x <:+ s ∨ quoted x <:+: '"' :: rest := by
  induction s with
  | nil => simp
  | cons c s ih =>
    rw [List.flatMap_cons, List.append_assoc, List.suffix_cons_iff, List.cons.injEq]
    by_cases hc : c = '"'
    · have hescape : escape '"' = ['\\', '"'] := by decide
      rw [hc, hescape, List.cons_append, quoted_infix_cons (by decide), List.singleton_append,
        quoted_infix_quotation, prefix_escape_iff hx, ih]
      simp only [true_and, or_assoc]
    · rw [quoted_infix_append (notMem_escape hc), ih]
      simp only [Ne.symm hc, false_and, false_or]

/-- Two texts up to a quotation mark. -/
theorem prefix_quotation_iff {y : List Char} (hx : '"' ∉ x) (hy : '"' ∉ y) (rest : List Char) :
    x ++ ['"'] <+: y ++ '"' :: rest ↔ x = y := by
  induction x generalizing y with
  | nil =>
    cases y with
    | nil => simp
    | cons d y =>
      have hne : '"' ≠ d := (not_or.mp (List.mem_cons.not.mp hy)).1
      simp [List.cons_prefix_cons, hne]
  | cons c x ih =>
    rw [List.mem_cons, not_or] at hx
    cases y with
    | nil => simp [List.cons_prefix_cons, Ne.symm hx.1]
    | cons d y =>
      rw [List.mem_cons, not_or] at hy
      rw [List.cons_append, List.cons_append, List.cons_prefix_cons, ih hx.2 hy.2,
        List.cons.injEq]

/-- A bracket holds no quoted text. -/
theorem not_quoted_infix_close (x : List Char) : ¬ quoted x <:+: [']'] := by
  rw [quoted_infix_cons (by decide)]
  simp [quoted]

theorem notMem_of_isPlain (hx : ∀ c ∈ x, isPlain c = true) : '"' ∉ x :=
  fun hmem => (isPlain_iff.mp (hx '"' hmem)).2.1 rfl

/-- The first name between its quotation marks, and what follows. -/
theorem commas_quotes_cons (s : String) (names : List String) :
    commas (quotes (s :: names)) ++ [']'] =
      '"' :: (s.toList.flatMap escape ++ '"' ::
        (if names = [] then [']'] else ',' :: ' ' :: (commas (quotes names) ++ [']']))) := by
  cases names with
  | nil | cons => simp [quotes, commas, quote]

/-- What is found from a string of the list on. -/
theorem quoted_infix_commas_iff (hx : ∀ c ∈ x, isPlain c = true) (names : List String) :
    quoted x <:+: commas (quotes names) ++ [']'] ↔
      (∃ s ∈ names, '"' :: x <:+ '"' :: s.toList) ∨ x = [',', ' '] ∧ 2 ≤ names.length := by
  have hquotation := notMem_of_isPlain hx
  induction names with
  | nil => simp [quotes, commas, not_quoted_infix_close]
  | cons s names ih =>
    rw [commas_quotes_cons, quoted_infix_quotation, prefix_escape_iff hx,
      quoted_infix_escape_iff hx, quoted_infix_quotation, List.exists_mem_cons_iff,
      List.suffix_cons_iff, List.cons.injEq]
    cases names with
    | nil =>
      have hbegins : ¬ x ++ ['"'] <+: [']'] := by
        intro hbegins
        cases x with
        | nil | cons => simp [List.cons_prefix_cons] at hbegins
      simp [hbegins, not_quoted_infix_close]
    | cons s' names =>
      have hbegins : x ++ ['"'] <+: ',' :: ' ' :: (commas (quotes (s' :: names)) ++ [']']) ↔
          x = [',', ' '] := by
        rw [commas_quotes_cons]
        exact prefix_quotation_iff (y := [',', ' ']) hquotation (by decide) _
      rw [if_neg (List.cons_ne_nil s' names), hbegins, quoted_infix_cons (by decide),
        quoted_infix_cons (by decide)]
      simp only [ih, List.length_cons, true_and]
      have hlength : 2 ≤ names.length + 1 + 1 := by omega
      have hbetween (found : Prop) :
          x = [',', ' '] ∨ found ∨ x = [',', ' '] ∧ 2 ≤ names.length + 1 ↔
            found ∨ x = [',', ' '] := by
        rw [or_left_comm, or_iff_left_of_imp And.left]
      rw [hbetween, and_iff_left hlength, or_assoc, or_assoc]

/-- What a search for a plain text in quotation marks finds: a string, the rest of one behind a
quotation mark of its own, or what stands between two strings. -/
theorem quoted_infix_dumps_iff (hx : ∀ c ∈ x, isPlain c = true) (names : List String) :
    quoted x <:+: dumps (.arr (names.map .str)) ↔
      (∃ s ∈ names, '"' :: x <:+ '"' :: s.toList) ∨ x = [',', ' '] ∧ 2 ≤ names.length := by
  rw [dumps_names, quoted_infix_cons (by decide), quoted_infix_commas_iff hx]

end Json
