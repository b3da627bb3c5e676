import Mathlib.Data.List.DropRight
import Mathlib.Tactic

/-!
# Canonical ids of agents

The name of an agent is turned into a slug of lower-case letters, digits and dashes, and
its canonical id is the slug, the date and the time of the registration, with a
hexadecimal number behind where that id is taken.

Main results:

- `Slug.head_chars`: a slug begins with a letter or a digit.
- `Datetime.length_datePart` and `Datetime.length_timePart`: the date is eight digits, and the
  time six.
- `suffix_ne_dash`: the number behind an id has no dash.
-/

namespace TinyAgentOS.Registry

/-! ## Slugs -/

/-- `str.isspace`. -/
def isSpace (c : Char) : Bool :=
  (9 ≤ c.toNat && c.toNat ≤ 13) || (28 ≤ c.toNat && c.toNat ≤ 32) ||
    (0x2000 ≤ c.toNat && c.toNat ≤ 0x200a) ||
    [0x85, 0xa0, 0x1680, 0x2028, 0x2029, 0x202f, 0x205f, 0x3000].contains c.toNat

/-- `str.lower`.  A character whose lower case has no ASCII in it is left alone: the
substitution replaces either. -/
def lower (c : Char) : List Char :=
  if c = 'İ' then ['i', '\u0307'] else if c = '\u212A' then ['k'] else [c.toLower]

/-- The characters that `_SLUG_RE` keeps. -/
def isSlugChar (c : Char) : Bool := c.isLower || c.isDigit

/-- `_SLUG_RE.sub("-", text)`, from within a run of other characters or not. -/
def subDashes : Bool → List Char → List Char
  | _, [] => []
  | inRun, c :: cs =>
    if isSlugChar c then c :: subDashes false cs
    else if inRun then subDashes true cs
    else '-' :: subDashes true cs

/-- `str.strip`, of the characters that meet a test. -/
def strip (p : Char → Bool) (text : List Char) : List Char := (text.dropWhile p).rdropWhile p

/-- Letters, digits and dashes, beginning with no dash. -/
structure Slug where
  chars : List Char
  ne_nil : chars ≠ []
  slugChar_of_mem : ∀ c ∈ chars, c = '-' ∨ isSlugChar c = true
  head?_ne : chars.head? ≠ some '-'

variable {c : Char}

/-- A substituted text has dashes and slug characters only. -/
theorem mem_subDashes {inRun : Bool} {text : List Char}
    (h : c ∈ subDashes inRun text) : c = '-' ∨ isSlugChar c = true := by
  induction text generalizing inRun with
  | nil => contradiction
  | cons d text ih =>
    rw [subDashes] at h
    split at h
    · rename_i hd
      rcases List.mem_cons.mp h with rfl | hrest
      · exact Or.inr hd
      · exact ih hrest
    · split at h
      · exact ih h
      · rcases List.mem_cons.mp h with rfl | hrest
        · exact Or.inl rfl
        · exact ih hrest

/-- Stripping only takes characters away. -/
theorem strip_sublist (p : Char → Bool) (text : List Char) : (strip p text).Sublist text :=
  (List.rdropWhile_prefix p _).sublist.trans (List.dropWhile_suffix p).sublist

/-- A stripped text does not begin with a character that is stripped. -/
theorem head?_strip_ne (p : Char → Bool) (text : List Char) (hc : p c = true) :
    (strip p text).head? ≠ some c := by
  intro h
  have hbegins : strip p text <+: text.dropWhile p := List.rdropWhile_prefix p _
  have hhead : (text.dropWhile p).head? = some c := by
    obtain ⟨rest, hrest⟩ := hbegins
    rw [← hrest, List.head?_append, h, Option.some_or]
  have hnot := List.head?_dropWhile_not p text
  rw [hhead] at hnot
  simp [hc] at hnot

/-- The slug of a text with no letter or digit. -/
def agentSlug : Slug where
  chars := ['a', 'g', 'e', 'n', 't']
  ne_nil := List.cons_ne_nil _ _
  slugChar_of_mem c hc := by
    have hall : ['a', 'g', 'e', 'n', 't'].all isSlugChar = true := rfl
    exact Or.inr (List.all_eq_true.mp hall c hc)
  head?_ne := by simp

/-- `_slugify`. -/
def slugify (text : String) : Slug :=
  let slug := strip (· == '-') (subDashes false (strip isSpace (text.toList.flatMap lower)))
  if h : slug = [] then agentSlug
  else
    ⟨slug, h, fun _ hc => mem_subDashes ((strip_sublist _ _).subset hc),
      head?_strip_ne _ _ (by decide)⟩

/-- A slug begins with a slug character. -/
theorem Slug.head_chars (slug : Slug) : ∃ c rest, slug.chars = c :: rest ∧ isSlugChar c = true := by
  cases hchars : slug.chars with
  | nil => exact absurd hchars slug.ne_nil
  | cons c rest =>
    refine ⟨c, rest, rfl, ?_⟩
    have hhead := slug.head?_ne
    rw [hchars, List.head?_cons] at hhead
    rcases slug.slugChar_of_mem c (by rw [hchars]; exact List.mem_cons_self) with rfl | hc
    · exact absurd rfl hhead
    · exact hc

example : (slugify "  @taOSmd  Dev!").chars = "taosmd-dev".toList := by decide

/-! ## Dates -/

/-- The last digits of a number. -/
def padded : Nat → Nat → List Char
  | 0, _ => []
  | k + 1, n => padded k (n / 10) ++ [Nat.digitChar (n % 10)]

/-- A padded number has its width. -/
@[simp]
theorem length_padded (k n : Nat) : (padded k n).length = k := by
  induction k generalizing n with
  | zero => rfl
  | succ k ih => simp [padded, ih]

/-- A padded number has digits only. -/
theorem isDigit_of_mem_padded {k n : Nat} (h : c ∈ padded k n) : c.isDigit = true := by
  induction k generalizing n with
  | zero => contradiction
  | succ k ih =>
    rcases List.mem_append.mp h with hrest | hlast
    · exact ih hrest
    · rw [List.mem_singleton.mp hlast, Nat.isDigit_digitChar, decide_eq_true_iff]
      exact Nat.mod_lt n (by norm_num)

/-- Different digits are written differently. -/
theorem digitChar_inj : ∀ m < 10, ∀ n < 10, Nat.digitChar m = Nat.digitChar n → m = n := by
  decide

/-- A number is known by its last digits, where it has no others. -/
theorem padded_inj {k m n : Nat} (hm : m < 10 ^ k) (hn : n < 10 ^ k)
    (h : padded k m = padded k n) : m = n := by
  induction k generalizing m n with
  | zero => omega
  | succ k ih =>
    obtain ⟨hrest, hlast⟩ := List.append_inj' h rfl
    have hdigit := digitChar_inj _ (Nat.mod_lt m (by norm_num)) _ (Nat.mod_lt n (by norm_num))
      (List.singleton_inj.mp hlast)
    have hquotient := ih (m := m / 10) (n := n / 10) (by omega) (by omega) hrest
    omega

/-- An instant in UTC.  The year has four digits. -/
structure Datetime where
  year : Nat
  month : Nat
  day : Nat
  hour : Nat
  minute : Nat
  second : Nat
  year_bounds : 1000 ≤ year ∧ year < 10000 := by decide
  month_lt : month < 13 := by decide
  day_lt : day < 32 := by decide
  hour_lt : hour < 24 := by decide
  minute_lt : minute < 60 := by decide
  second_lt : second < 60 := by decide

namespace Datetime

/-- `strftime("%Y%m%d")`. -/
def datePart (ts : Datetime) : List Char :=
  padded 4 ts.year ++ padded 2 ts.month ++ padded 2 ts.day

/-- `strftime("%H%M%S")`. -/
def timePart (ts : Datetime) : List Char :=
  padded 2 ts.hour ++ padded 2 ts.minute ++ padded 2 ts.second

/-- A date takes eight digits. -/
@[simp]
theorem length_datePart (ts : Datetime) : ts.datePart.length = 8 := by simp [datePart]

/-- A time takes six digits. -/
@[simp]
theorem length_timePart (ts : Datetime) : ts.timePart.length = 6 := by simp [timePart]

variable {ts : Datetime}

theorem isDigit_of_mem_datePart {c : Char} (h : c ∈ ts.datePart) : c.isDigit = true := by
  simp only [datePart, List.mem_append] at h
  rcases h with (h | h) | h <;> exact isDigit_of_mem_padded h

theorem isDigit_of_mem_timePart {c : Char} (h : c ∈ ts.timePart) : c.isDigit = true := by
  simp only [timePart, List.mem_append] at h
  rcases h with (h | h) | h <;> exact isDigit_of_mem_padded h

end Datetime

/-- A second of one minute. -/
def stamp (k : Nat) : Datetime where
  year := 2026
  month := 1
  day := 1
  hour := 12
  minute := 0
  second := k % 60
  second_lt := Nat.mod_lt k (by norm_num)

/-! ## Canonical ids -/

/-- `mint_canonical_id`. -/
def mintCanonicalId (slug : Slug) (ts : Datetime) : List Char :=
  slug.chars ++ '-' :: ts.datePart ++ '-' :: ts.timePart

/-- `-\x7bsuffix_n:02x\x7d`, from the second try on. -/
def suffix (n : Nat) : List Char :=
  if n = 0 then []
  else '-' :: (List.replicate (2 - (Nat.toDigits 16 n).length) '0' ++ Nat.toDigits 16 n)

/-- The id that a registration tries after so many collisions. -/
def candidate (slug : Slug) (ts : Datetime) (n : Nat) : String :=
  String.ofList (mintCanonicalId slug ts ++ suffix n)

example : candidate (slugify "Alpha") (stamp 7) 11 = "alpha-20260101-120007-0b" := rfl

/-- No hexadecimal digit is a dash. -/
theorem digitChar_ne_dash : ∀ n < 16, Nat.digitChar n ≠ '-' := by
  decide

/-- No dash is among the hexadecimal digits of a number. -/
theorem mem_toDigitsCore_ne_dash {fuel n : Nat} {ds : List Char} (hds : ∀ c ∈ ds, c ≠ '-') :
    ∀ c ∈ Nat.toDigitsCore 16 fuel n ds, c ≠ '-' := by
  induction fuel generalizing n ds with
  | zero => exact hds
  | succ fuel ih =>
    have hcons : ∀ c ∈ Nat.digitChar (n % 16) :: ds, c ≠ '-' := by
      intro c hc
      rcases List.mem_cons.mp hc with rfl | hrest
      · exact digitChar_ne_dash _ (Nat.mod_lt n (by norm_num))
      · exact hds c hrest
    rw [Nat.toDigitsCore]
    split
    · exact hcons
    · exact ih hcons

/-- What is behind the time is nothing, or a dash and no other. -/
theorem suffix_ne_dash (n : Nat) :
    suffix n = [] ∨ ∃ digits, suffix n = '-' :: digits ∧ ∀ c ∈ digits, c ≠ '-' := by
  unfold suffix
  split
  · exact Or.inl rfl
  · refine Or.inr ⟨_, rfl, ?_⟩
    intro c hc
    rcases List.mem_append.mp hc with hzero | hdigit
    · rw [List.eq_of_mem_replicate hzero]
      decide
    · exact mem_toDigitsCore_ne_dash (fun d hd => by contradiction) c hdigit

/-- `_RESERVED_PREFIXES`, less the dash at the end of each. -/
def reservedWords : List (List Char) :=
  [['u', 's', 'e', 'r'], ['h', 'u', 'm', 'a', 'n'], ['a', 'd', 'm', 'i', 'n'],
    ['t', 'a', 'o', 's']]

/-- `_check_reserved_prefix`: the slug or the name stands for a reserved word. -/
def isReserved (slug : Slug) (rawName : String) : Bool :=
  reservedWords.any fun word =>
    slug.chars == word || (word ++ ['-']).isPrefixOf slug.chars ||
      (rawName.toList.flatMap lower).filter isSlugChar == word

end TinyAgentOS.Registry
