import TinyAgentOS.Browser.Rewriter
import TinyAgentOS.Registry.CanonicalId

/-!
# The candidates of an image

The rewriter takes the value apart at every comma.  A comma of the grammar ends a candidate only
where one stands behind a URL, or outside the parentheses of a descriptor.

Main results:

- `candidates_join`: pieces that are written one behind the other are read back.
- `preserved_of_commasSeparate`: the values in which every comma ends a candidate.
- `not_preserved`: a picture that is its own URL.
-/

namespace TinyAgentOS.Browser

open Registry (isSpace strip)

/-! ## The grammar -/

/-- An image candidate, before its descriptors are looked at. -/
structure Candidate where
  url : List Char
  descriptors : List (List Char)
deriving DecidableEq

/-- ASCII white space. -/
def isHtmlSpace (c : Char) : Bool := ['\t', '\n', '\x0c', '\r', ' '].contains c

/-- The descriptors that have been read, and the one that is being read. -/
structure Descriptors where
  done : List (List Char) := []
  current : List Char := []
  inParens : Bool := false

namespace Descriptors

def all (D : Descriptors) : List (List Char) :=
  if D.current = [] then D.done else D.done ++ [D.current]

def add (D : Descriptors) (c : Char) : Descriptors :=
  if D.inParens then { D with current := D.current ++ [c], inParens := c ≠ ')' }
  else if isHtmlSpace c then { done := D.all }
  else { D with current := D.current ++ [c], inParens := c = '(' }

end Descriptors

inductive SrcsetMode where
  | between
  | url (url : List Char)
  | descriptors (url : List Char) (D : Descriptors)

/-- The parser of the HTML standard, one character at a time. -/
def candidatesFrom : SrcsetMode → List Char → List Candidate
  | .between, [] => []
  | .between, c :: cs =>
    if isHtmlSpace c || c = ',' then candidatesFrom .between cs else candidatesFrom (.url [c]) cs
  | .url u, [] => [⟨u.rdropWhile (· = ','), []⟩]
  | .url u, c :: cs =>
    if isHtmlSpace c then
      if u.getLast? = some ',' then
        ⟨u.rdropWhile (· = ','), []⟩ :: candidatesFrom .between cs
      else candidatesFrom (.descriptors u {}) cs
    else candidatesFrom (.url (u ++ [c])) cs
  | .descriptors u D, [] => [⟨u, D.all⟩]
  | .descriptors u D, c :: cs =>
    if c = ',' && !D.inParens then ⟨u, D.all⟩ :: candidatesFrom .between cs
    else candidatesFrom (.descriptors u (D.add c)) cs

def candidates (srcset : List Char) : List Candidate := candidatesFrom .between srcset

/-! ## The rewriter -/

/-- The URL and the descriptor of an entry that is not blank. -/
def pieceOf (entry : List Char) : Option (List Char × List Char) :=
  let entry := strip isSpace entry
  if entry = [] then none
  else some (entry.takeWhile fun c => !isSpace c,
    (entry.dropWhile fun c => !isSpace c).dropWhile isSpace)

def pieces (srcset : List Char) : List (List Char × List Char) :=
  (srcset.splitOn ',').filterMap pieceOf

/-- `f"\x7bnew_url\x7d \x7bdescriptor\x7d".strip()`. -/
def entryText (p : List Char × List Char) : List Char := strip isSpace (p.1 ++ ' ' :: p.2)

/-- `_rewrite_srcset`, on one value. -/
def rewriteSrcset (one : List Char → Option (List Char)) (srcset : List Char) :
    Option (List Char) :=
  ((pieces srcset).mapM fun p => (one p.1).map fun url => (url, p.2)).map fun ps =>
    [',', ' '].intercalate (ps.map entryText)

/-- The rewritten value has the candidates of the other, each with its URL rewritten. -/
def Preserved (one : List Char → Option (List Char)) (srcset : List Char) : Prop :=
  ∀ out, rewriteSrcset one srcset = some out →
    ((candidates srcset).mapM fun c => (one c.url).map fun url => { c with url := url }) =
      some (candidates out)

/-- What the grammar makes of a piece that stands alone. -/
def candidateOf (p : List Char × List Char) : Candidate := ⟨p.1, (p.2.foldl Descriptors.add {}).all⟩

/-- The candidates are the pieces, and a piece that another one follows closes its parentheses. -/
structure CommasSeparate (srcset : List Char) : Prop where
  candidates_eq : candidates srcset = (pieces srcset).map candidateOf
  closed : ∀ p ∈ (pieces srcset).dropLast, (p.2.foldl Descriptors.add {}).inParens = false

/-! ## Pieces -/

/-- A piece as the rewriter writes it. -/
structure Tidy (p : List Char × List Char) : Prop where
  url_ne : p.1 ≠ []
  url_clean : ∀ c ∈ p.1, isSpace c = false ∧ c ≠ ','
  descriptor_clean : ',' ∉ p.2
  descriptor_last : ∀ c ∈ p.2.getLast?, isSpace c = false

theorem isSpace_of_isHtmlSpace {c : Char} (h : isHtmlSpace c = true) : isSpace c = true := by
  simp only [isHtmlSpace, List.contains_eq_mem, decide_eq_true_eq, List.mem_cons,
    List.not_mem_nil, or_false] at h
  rcases h with rfl | rfl | rfl | rfl | rfl <;> decide

theorem comma_notMem_of_mem_splitOn {text piece : List Char} (h : piece ∈ text.splitOn ',') :
    ',' ∉ piece := by
  induction text generalizing piece with
  | nil =>
    rw [List.splitOn_nil, List.mem_singleton] at h
    simp [h]
  | cons c text ih =>
    rw [List.splitOn_cons_eq_if_modifyHead] at h
    split at h
    · rcases List.mem_cons.mp h with rfl | h
      · exact List.not_mem_nil
      · exact ih h
    · rename_i hc
      cases hsplit : text.splitOn ',' with
      | nil => exact absurd hsplit (List.splitOn_ne_nil _ _)
      | cons first rest =>
        rw [hsplit, List.modifyHead_cons] at h
        rw [hsplit] at ih
        rcases List.mem_cons.mp h with rfl | h
        · have hfirst := ih List.mem_cons_self
          have hne : ',' ≠ c := fun heq => hc (beq_iff_eq.mpr heq.symm)
          simp [hfirst, hne]
        · exact ih (List.mem_cons_of_mem _ h)

theorem getLast?_dropWhile {α : Type} {p : α → Bool} {xs : List α} {x : α}
    (h : x ∈ (xs.dropWhile p).getLast?) : x ∈ xs.getLast? := by
  obtain ⟨front, hfront⟩ := List.dropWhile_suffix (l := xs) p
  rw [← hfront, List.getLast?_append, h]
  rfl

variable {p : List Char × List Char}

/-- The pieces of a srcset are tidy. -/
theorem tidy_of_mem_pieces {srcset : List Char} (h : p ∈ pieces srcset) : Tidy p := by
  obtain ⟨entry, hentry, hp⟩ := List.mem_filterMap.mp h
  have hcomma : ',' ∉ strip isSpace entry := fun hmem =>
    comma_notMem_of_mem_splitOn hentry
      ((List.dropWhile_suffix _).subset ((List.rdropWhile_prefix _ _).subset hmem))
  simp only [pieceOf] at hp
  split at hp
  · cases hp
  rename_i hne
  cases hp
  have hlast : ∀ c ∈ (strip isSpace entry).getLast?, isSpace c = false := by
    intro c hc
    have hkept := List.rdropWhile_last_not isSpace (entry.dropWhile isSpace) hne
    rw [List.getLast?_eq_getLast_of_ne_nil hne] at hc
    cases hc
    exact Bool.eq_false_iff.mpr hkept
  have hfirst : ∀ c ∈ (strip isSpace entry).head?, isSpace c = false := by
    intro c hc
    have hne' : entry.dropWhile isSpace ≠ [] := by
      intro hnil
      exact hne (by simp [strip, hnil])
    obtain ⟨tail, htail⟩ := List.rdropWhile_prefix isSpace (entry.dropWhile isSpace)
    have hhead : c ∈ (entry.dropWhile isSpace).head? := by
      rw [← htail, List.head?_append]
      exact Option.mem_def.mpr (by rw [← strip, Option.mem_def.mp hc]; rfl)
    have hkept := List.head_dropWhile_not isSpace hne'
    rw [List.head?_eq_some_head hne'] at hhead
    cases hhead
    exact hkept
  refine ⟨?_, ?_, ?_, ?_⟩
  · cases hstrip : strip isSpace entry with
    | nil => exact absurd hstrip hne
    | cons c rest =>
      have hc := hfirst c (by rw [hstrip]; rfl)
      simp [hc]
  · intro c hc
    refine ⟨by simpa using List.mem_takeWhile_imp hc, ?_⟩
    exact ne_of_mem_of_not_mem ((List.takeWhile_prefix _).subset hc) hcomma
  · intro hmem
    exact hcomma ((List.dropWhile_suffix _).subset ((List.dropWhile_suffix _).subset hmem))
  · intro c hc
    exact hlast c (getLast?_dropWhile (getLast?_dropWhile hc))

/-- What the rewriter writes for a piece. -/
theorem entryText_of_tidy (h : Tidy p) :
    entryText p = if p.2 = [] then p.1 else p.1 ++ ' ' :: p.2 := by
  obtain ⟨⟨url, descriptor⟩, hne, hclean, -, hlast⟩ := p, h
  obtain ⟨c, rest, rfl⟩ := List.exists_cons_of_ne_nil hne
  have hfirst : isSpace c = false := (hclean c List.mem_cons_self).1
  have hspace : isSpace ' ' = true := by decide
  simp only [entryText, strip, List.cons_append, List.dropWhile_cons, hfirst, Bool.false_eq_true,
    if_false]
  split
  · rename_i hnil
    subst hnil
    rw [← List.cons_append, List.rdropWhile_concat_pos _ _ _ hspace, List.rdropWhile_eq_self_iff]
    intro hcons
    simpa using (hclean _ (List.getLast_mem hcons)).1
  · rename_i hdescriptor
    rw [List.rdropWhile_eq_self_iff]
    intro hcons
    have hend := hlast _ (List.getLast?_eq_getLast_of_ne_nil hdescriptor)
    simpa [List.getLast_cons, hdescriptor] using hend

attribute [local simp] candidatesFrom

/-! ## Reading back -/

/-- A URL is read up to the next blank. -/
theorem candidatesFrom_url {url : List Char} (h : ∀ c ∈ url, isSpace c = false)
    (front rest : List Char) :
    candidatesFrom (.url front) (url ++ rest) = candidatesFrom (.url (front ++ url)) rest := by
  induction url generalizing front with
  | nil => simp
  | cons c url ih =>
    have hc : isHtmlSpace c = false := by
      by_contra hspace
      have hc := isSpace_of_isHtmlSpace (Bool.eq_true_of_not_eq_false hspace)
      exact absurd (h c List.mem_cons_self) (by simp [hc])
    rw [List.cons_append, candidatesFrom, if_neg (by simp [hc]),
      ih fun d hd => h d (List.mem_cons_of_mem c hd)]
    simp

/-- A tidy piece begins with its URL. -/
theorem candidatesFrom_between (h : Tidy p) (rest : List Char) :
    candidatesFrom .between (p.1 ++ rest) = candidatesFrom (.url p.1) rest := by
  obtain ⟨c, url, hurl⟩ := List.exists_cons_of_ne_nil h.url_ne
  have hclean := h.url_clean
  rw [hurl] at hclean ⊢
  obtain ⟨hspace, hcomma⟩ := hclean c List.mem_cons_self
  have hc : isHtmlSpace c = false := by
    by_contra hhtml
    have hc := isSpace_of_isHtmlSpace (Bool.eq_true_of_not_eq_false hhtml)
    exact absurd hspace (by simp [hc])
  rw [List.cons_append, candidatesFrom, if_neg (by simp [hc, hcomma]),
    candidatesFrom_url fun d hd => (hclean d (List.mem_cons_of_mem c hd)).1]
  rfl

/-- Descriptors are read up to the next comma. -/
theorem candidatesFrom_descriptors {descriptor : List Char} (h : ',' ∉ descriptor)
    (url : List Char) (D : Descriptors) (rest : List Char) :
    candidatesFrom (.descriptors url D) (descriptor ++ rest) =
      candidatesFrom (.descriptors url (descriptor.foldl Descriptors.add D)) rest := by
  induction descriptor generalizing D with
  | nil => rfl
  | cons c descriptor ih =>
    rw [List.mem_cons, not_or] at h
    rw [List.cons_append, candidatesFrom, if_neg (by simp [Ne.symm h.1]), ih h.2]
    rfl

theorem rdropWhile_url (h : Tidy p) : p.1.rdropWhile (· = ',') = p.1 := by
  rw [List.rdropWhile_eq_self_iff]
  intro hne
  simpa using (h.url_clean _ (List.getLast_mem hne)).2

/-- A space behind a URL. -/
theorem candidatesFrom_space (h : Tidy p) (rest : List Char) :
    candidatesFrom (.url p.1) (' ' :: rest) = candidatesFrom (.descriptors p.1 {}) rest := by
  have hspace : isHtmlSpace ' ' = true := by decide
  have hlast : p.1.getLast? ≠ some ',' := by
    intro hcomma
    exact (h.url_clean _ (List.mem_of_getLast? hcomma)).2 rfl
  rw [candidatesFrom, if_pos hspace, if_neg hlast]

/-- The last piece. -/
theorem candidates_entryText (h : Tidy p) :
    candidatesFrom .between (entryText p) = [candidateOf p] := by
  rw [entryText_of_tidy h]
  split
  · rename_i hnil
    have hread := candidatesFrom_between h []
    rw [List.append_nil] at hread
    rw [hread, candidatesFrom, rdropWhile_url h, candidateOf, hnil]
    rfl
  · have hread := candidatesFrom_descriptors h.descriptor_clean p.1 {} []
    rw [List.append_nil] at hread
    rw [candidatesFrom_between h, candidatesFrom_space h, hread, candidatesFrom]
    rfl

/-- A piece with another one behind it. -/
theorem candidates_entryText_append (h : Tidy p)
    (hclosed : (p.2.foldl Descriptors.add {}).inParens = false) (rest : List Char) :
    candidatesFrom .between (entryText p ++ ',' :: ' ' :: rest) =
      candidateOf p :: candidatesFrom .between rest := by
  have hspace : isHtmlSpace ' ' = true := by decide
  have hcomma : isHtmlSpace ',' = false := by decide
  rw [entryText_of_tidy h]
  split
  · rename_i hnil
    rw [candidatesFrom_between h, candidatesFrom, if_neg (by simp [hcomma]), candidatesFrom,
      if_pos hspace, if_pos (by simp), List.rdropWhile_concat_pos _ _ _ (by simp),
      rdropWhile_url h, candidateOf, hnil]
    rfl
  · rw [List.append_assoc, List.cons_append, candidatesFrom_between h, candidatesFrom_space h,
      candidatesFrom_descriptors h.descriptor_clean, candidatesFrom, if_pos (by simp [hclosed]),
      candidatesFrom, if_pos (by simp [hspace])]
    rfl

/-- Pieces that are written one behind the other are read back. -/
theorem candidates_join {ps : List (List Char × List Char)} (h : ∀ p ∈ ps, Tidy p)
    (hclosed : ∀ p ∈ ps.dropLast, (p.2.foldl Descriptors.add {}).inParens = false) :
    candidates ([',', ' '].intercalate (ps.map entryText)) = ps.map candidateOf := by
  induction ps with
  | nil => rfl
  | cons p ps ih =>
    have hp := h p List.mem_cons_self
    cases ps with
    | nil => simpa [List.intercalate, candidates] using candidates_entryText hp
    | cons q ps =>
      have hrest := ih (fun r hr => h r (List.mem_cons_of_mem p hr))
        fun r hr => hclosed r (List.mem_cons_of_mem p hr)
      have hshape : [',', ' '].intercalate ((p :: q :: ps).map entryText) =
          entryText p ++ ',' :: ' ' :: [',', ' '].intercalate ((q :: ps).map entryText) := by
        simp [List.intercalate]
      rw [hshape, candidates, candidates_entryText_append hp (hclosed p List.mem_cons_self)]
      exact congrArg _ hrest

/-- The rewritten pieces, and the rewritten candidates. -/
theorem mapM_rewrite {one : List Char → Option (List Char)} {ps qs : List (List Char × List Char)}
    (h : (ps.mapM fun p => (one p.1).map fun url => (url, p.2)) = some qs) :
    ((ps.map candidateOf).mapM fun c => (one c.url).map fun url => { c with url := url }) =
        some (qs.map candidateOf) ∧
      qs.map Prod.snd = ps.map Prod.snd ∧ ∀ q ∈ qs, ∃ p ∈ ps, one p.1 = some q.1 ∧ q.2 = p.2 := by
  induction ps generalizing qs with
  | nil =>
    cases h
    exact ⟨rfl, rfl, fun _ hq => (List.not_mem_nil hq).elim⟩
  | cons p ps ih =>
    cases hone : one p.1 with
    | none => simp [hone] at h
    | some url =>
      cases hrest : ps.mapM fun p => (one p.1).map fun url => (url, p.2) with
      | none => simp [hone, hrest] at h
      | some rest =>
        obtain ⟨hmap, hsnd, hall⟩ := ih hrest
        simp only [List.mapM_cons, hone, hrest, Option.map_some, Option.bind_eq_bind,
          Option.bind_some, Option.pure_def, Option.some.injEq] at h
        subst h
        refine ⟨?_, by simp [hsnd], ?_⟩
        · rw [List.map_cons, List.mapM_cons, hmap]
          simp [candidateOf, hone]
        · intro q hq
          rcases List.mem_cons.mp hq with rfl | hq
          · exact ⟨p, List.mem_cons_self, hone, rfl⟩
          · obtain ⟨r, hr, hr_one⟩ := hall q hq
            exact ⟨r, List.mem_cons_of_mem p hr, hr_one⟩

theorem isSpace_of_alwaysSafe {c : Char} (h : alwaysSafe c = true) : isSpace c = false := by
  unfold alwaysSafe Char.isAlphanum Char.isAlpha Char.isUpper Char.isLower Char.isDigit at h
  simp only [Bool.or_eq_true, Bool.and_eq_true, decide_eq_true_eq, UInt32.le_iff_toNat_le,
    ge_iff_le, List.contains_eq_mem, List.mem_cons, List.not_mem_nil, or_false] at h
  rcases h with h | rfl | rfl | rfl | rfl
  · change ((65 ≤ c.toNat ∧ c.toNat ≤ 90) ∨ (97 ≤ c.toNat ∧ c.toNat ≤ 122)) ∨
      (48 ≤ c.toNat ∧ c.toNat ≤ 57) at h
    rw [isSpace]
    simp only [Bool.or_eq_false_iff, Bool.and_eq_false_iff, decide_eq_false_iff_not,
      List.contains_eq_mem, List.mem_cons, List.not_mem_nil, or_false]
    omega
  all_goals decide

/-- A rewritten piece is tidy. -/
theorem tidy_rewriteOne {text : TextOps} {profileId base url : List Char} (h : Tidy p)
    (hone : rewriteOne text profileId base p.1 = some url) : Tidy (url, p.2) := by
  have hproxied : ∀ absolute, Tidy (proxyUrl profileId absolute, p.2) := by
    intro absolute
    refine ⟨by simp [proxyUrl], ?_, h.descriptor_clean, h.descriptor_last⟩
    intro c hc
    have hothers : ∀ d ∈ ['%', '/', '?', '=', '&'], isSpace d = false ∧ d ≠ ',' := by
      simp only [List.forall_mem_cons, List.not_mem_nil, false_implies, implies_true]
      decide
    rcases mem_proxyUrl hc with hsafe | hother
    · refine ⟨isSpace_of_alwaysSafe hsafe, ?_⟩
      rintro rfl
      cases hsafe
    · exact hothers c hother
  rw [rewriteOne] at hone
  split at hone
  · obtain ⟨absolute, -, hurl⟩ := Option.map_eq_some_iff.mp hone
    rw [← hurl]
    split
    · exact hproxied absolute
    · exact h
  · rw [← Option.some.inj hone]
    exact h

/-- Where every comma ends a candidate, rewriting keeps the candidates. -/
theorem preserved_of_commasSeparate {text : TextOps} {profileId base srcset : List Char}
    (h : CommasSeparate srcset) : Preserved (rewriteOne text profileId base) srcset := by
  intro out hout
  obtain ⟨qs, hqs, rfl⟩ := Option.map_eq_some_iff.mp hout
  obtain ⟨hmap, hsnd, hall⟩ := mapM_rewrite hqs
  have htidy : ∀ q ∈ qs, Tidy q := by
    intro q hq
    obtain ⟨p, hp, hone, hdescriptor⟩ := hall q hq
    have htidy := tidy_rewriteOne (tidy_of_mem_pieces hp) hone
    rwa [← hdescriptor] at htidy
  have hclosed : ∀ q ∈ qs.dropLast, (q.2.foldl Descriptors.add {}).inParens = false := by
    intro q hq
    have hmem : q.2 ∈ (pieces srcset).dropLast.map Prod.snd := by
      rw [List.map_dropLast, ← hsnd, ← List.map_dropLast]
      exact List.mem_map_of_mem hq
    obtain ⟨p, hp, hsame⟩ := List.mem_map.mp hmem
    rw [← hsame]
    exact h.closed p hp
  rw [h.candidates_eq, hmap, candidates_join htidy hclosed]

/-- Rewriting on a page. -/
def onPage (url : List Char) : Option (List Char) :=
  rewriteOne asciiText "p".toList "https://example.com/".toList url

theorem preserved_two :
    Preserved onPage "a.png 1x, b.png 2x".toList :=
  preserved_of_commasSeparate ⟨by decide, by decide⟩

/-- A picture that is its own URL comes apart. -/
theorem not_preserved : ¬ Preserved onPage "data:image/png;base64,AAAA 1x".toList := by
  intro h
  have hout := h _ rfl
  revert hout
  decide

end TinyAgentOS.Browser
