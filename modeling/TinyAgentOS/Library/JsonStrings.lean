import Mathlib.Data.List.Basic
import Mathlib.Tactic

/-!
# JSON strings

The text of a string is ASCII: the printable characters stand for themselves, except the
quotation mark and the backslash, and every other character is escaped, beyond the basic
plane as a surrogate pair.

Main results:

- `scanChar_escape`: a character is read back from its escape.
- `scanString_append`: a string is read back from its text.
-/

namespace Json

/-! ## Code units -/

/-- Four hexadecimal digits. -/
def hexDigits (n : Nat) : List Char :=
  [n / 4096 % 16, n / 256 % 16, n / 16 % 16, n % 16].map Nat.digitChar

def hexValue (c : Char) : Option Nat :=
  if '0' ≤ c ∧ c ≤ '9' then some (c.toNat - 48)
  else if 'a' ≤ c ∧ c ≤ 'f' then some (c.toNat - 87)
  else if 'A' ≤ c ∧ c ≤ 'F' then some (c.toNat - 55)
  else none

/-- Read four hexadecimal digits. -/
def scanHex : List Char → Option (Nat × List Char)
  | a :: b :: c :: d :: rest => do
      let a ← hexValue a
      let b ← hexValue b
      let c ← hexValue c
      let d ← hexValue d
      return (a * 4096 + b * 256 + c * 16 + d, rest)
  | _ => none

variable {n : Nat} {c : Char}

/-- A hexadecimal digit is read back. -/
theorem hexValue_digitChar (hn : n < 16) : hexValue n.digitChar = some n := by
  have hall : ∀ m < 16, hexValue m.digitChar = some m := by decide
  exact hall n hn

/-- Four hexadecimal digits are read back. -/
theorem scanHex_hexDigits (hn : n < 65536) (rest : List Char) :
    scanHex (hexDigits n ++ rest) = some (n, rest) := by
  have hmod : ∀ m, hexValue (m % 16).digitChar = some (m % 16) := fun m =>
    hexValue_digitChar (Nat.mod_lt m (by norm_num))
  simp only [hexDigits, List.map_cons, List.map_nil, List.cons_append, List.nil_append, scanHex,
    hmod, Option.bind_eq_bind, Option.bind_some, Option.pure_def, Option.some.injEq,
    Prod.mk.injEq, and_true]
  omega

/-- The escape of a code unit. -/
def unit (n : Nat) : List Char :=
  '\\' :: 'u' :: hexDigits n

/-- A character of one code unit, or the first of a pair. -/
def scanUnit (cs : List Char) : Option (Char × List Char) :=
  match scanHex cs with
  | none => none
  | some (n, rest) =>
    if 0xd800 ≤ n ∧ n ≤ 0xdbff then
      match rest with
      | '\\' :: 'u' :: rest =>
        match scanHex rest with
        | none => none
        | some (m, rest) =>
          if 0xdc00 ≤ m ∧ m ≤ 0xdfff then
            some (Char.ofNat (0x10000 + (n - 0xd800) * 0x400 + (m - 0xdc00)), rest)
          else none
      | _ => none
    -- A half of a pair is no character.
    else if 0xdc00 ≤ n ∧ n ≤ 0xdfff then none
    else some (Char.ofNat n, rest)

/-! ## Characters -/

/-- The characters that are escaped by a letter, or by themselves. -/
def shortEscapes : List (Char × Char) :=
  [('"', '"'), ('\\', '\\'), (Char.ofNat 8, 'b'), (Char.ofNat 12, 'f'), ('\n', 'n'), ('\r', 'r'),
    ('\t', 't')]

/-- `py_encode_basestring_ascii` on one character. -/
def escape (c : Char) : List Char :=
  match shortEscapes.find? fun p => p.1 = c with
  | some p => ['\\', p.2]
  | none =>
    if ' ' ≤ c ∧ c ≤ '~' then [c]
    else if c.toNat < 0x10000 then unit c.toNat
    else
      unit (0xd800 + (c.toNat - 0x10000) / 0x400) ++ unit (0xdc00 + (c.toNat - 0x10000) % 0x400)

/-- What follows a backslash. -/
def scanEscape : List Char → Option (Char × List Char)
  | [] => none
  | c :: rest =>
    if c = 'u' then scanUnit rest
    else if c = '/' then some (c, rest)
    else (shortEscapes.find? fun p => p.2 = c).map fun p => (p.1, rest)

/-- A character of a string. -/
def scanChar : List Char → Option (Char × List Char)
  | [] => none
  | c :: rest =>
    if c = '\\' then scanEscape rest
    else if c.toNat < ' '.toNat then none
    else some (c, rest)

/-- The printable ASCII characters but the quotation mark and the backslash. -/
def isPlain (c : Char) : Bool :=
  ' ' ≤ c && c ≤ '~' && c ≠ '"' && c ≠ '\\'

/-- A plain character has no short escape. -/
theorem find?_shortEscapes (hc : isPlain c = true) :
    (shortEscapes.find? fun p => p.1 = c) = none := by
  rw [List.find?_eq_none]
  intro p hp hpc
  have hall : ∀ p ∈ shortEscapes, isPlain p.1 = false := by decide
  have hfalse := hall p hp
  rw [decide_eq_true_eq] at hpc
  rw [hpc, hc] at hfalse
  contradiction

/-- A plain character stands for itself. -/
theorem escape_of_isPlain (hc : isPlain c = true) : escape c = [c] := by
  have hrange : ' ' ≤ c ∧ c ≤ '~' := by
    simp only [isPlain, Bool.and_eq_true, decide_eq_true_eq] at hc
    exact hc.1.1
  simp only [escape, find?_shortEscapes hc, if_pos hrange]

/-- Every other character is escaped. -/
theorem escape_of_not_isPlain (hc : isPlain c = false) :
    ∃ d rest, escape c = '\\' :: d :: rest := by
  unfold escape
  split
  · rename_i p _
    exact ⟨p.2, [], rfl⟩
  · rename_i hnone
    split
    · rename_i hrange
      have hquote : c ≠ '"' := by
        rintro rfl
        contradiction
      have hslash : c ≠ '\\' := by
        rintro rfl
        contradiction
      simp [isPlain, hrange.1, hrange.2, hquote, hslash] at hc
    · split
      · exact ⟨'u', _, rfl⟩
      · exact ⟨'u', _, rfl⟩

/-- A unit that is no surrogate is a character. -/
theorem scanUnit_of_lt (hn : n < 0x10000) (hbmp : n < 0xd800 ∨ 0xdfff < n)
    (rest : List Char) : scanUnit (hexDigits n ++ rest) = some (Char.ofNat n, rest) := by
  have hhigh : ¬ (0xd800 ≤ n ∧ n ≤ 0xdbff) := by omega
  have hlow : ¬ (0xdc00 ≤ n ∧ n ≤ 0xdfff) := by omega
  rw [scanUnit, scanHex_hexDigits hn]
  exact (if_neg hhigh).trans (if_neg hlow)

/-- A surrogate pair is one character. -/
theorem scanUnit_pair {high low : Nat} (hhigh : 0xd800 ≤ high ∧ high ≤ 0xdbff)
    (hlow : 0xdc00 ≤ low ∧ low ≤ 0xdfff) (rest : List Char) :
    scanUnit (hexDigits high ++ (unit low ++ rest)) =
      some (Char.ofNat (0x10000 + (high - 0xd800) * 0x400 + (low - 0xdc00)), rest) := by
  have hfirst : high < 65536 := by omega
  have hsecond : low < 65536 := by omega
  rw [scanUnit, scanHex_hexDigits hfirst]
  simp only [if_pos hhigh, unit, List.cons_append, scanHex_hexDigits hsecond, if_pos hlow]

/-- An escaped unit is read by its digits. -/
theorem scanChar_unit (rest : List Char) :
    scanChar (unit n ++ rest) = scanUnit (hexDigits n ++ rest) :=
  rfl

/-- A short escape is read back. -/
theorem scanChar_shortEscape {p : Char × Char} (hp : p ∈ shortEscapes) (rest : List Char) :
    scanChar ('\\' :: p.2 :: rest) = some (p.1, rest) := by
  have hletter : ∀ p ∈ shortEscapes, p.2 ≠ 'u' ∧ p.2 ≠ '/' ∧
      (shortEscapes.find? fun q => q.2 = p.2) = some p := by decide
  obtain ⟨hu, hsolidus, hfind⟩ := hletter p hp
  have hstart : scanChar ('\\' :: p.2 :: rest) = scanEscape (p.2 :: rest) := rfl
  rw [hstart, scanEscape, if_neg hu, if_neg hsolidus, hfind]
  rfl

/-- A character is read back from its escape. -/
theorem scanChar_escape (c : Char) (rest : List Char) :
    scanChar (escape c ++ rest) = some (c, rest) := by
  unfold escape
  split
  · rename_i p hp
    have hc : p.1 = c := by
      simpa using List.find?_some (p := fun p : Char × Char => decide (p.1 = c)) hp
    rw [← hc]
    exact scanChar_shortEscape (List.mem_of_find?_eq_some hp) rest
  · split
    · rename_i hnone hrange
      have hslash : c ≠ '\\' := by
        rintro rfl
        contradiction
      have hcontrol : ¬ c.toNat < ' '.toNat := not_lt.mpr hrange.1
      rw [List.singleton_append, scanChar, if_neg hslash, if_neg hcontrol]
    · have hvalid : c.toNat < 0xd800 ∨ 0xdfff < c.toNat ∧ c.toNat < 0x110000 := c.valid
      split
      · rename_i hunit
        rw [scanChar_unit, scanUnit_of_lt hunit (by omega), Char.ofNat_toNat]
      · rename_i hunit
        have hhigh : 0xd800 ≤ 0xd800 + (c.toNat - 0x10000) / 0x400 ∧
            0xd800 + (c.toNat - 0x10000) / 0x400 ≤ 0xdbff := by omega
        have hlow : 0xdc00 ≤ 0xdc00 + (c.toNat - 0x10000) % 0x400 ∧
            0xdc00 + (c.toNat - 0x10000) % 0x400 ≤ 0xdfff := by omega
        have hsum : 0x10000 + (0xd800 + (c.toNat - 0x10000) / 0x400 - 0xd800) * 0x400 +
            (0xdc00 + (c.toNat - 0x10000) % 0x400 - 0xdc00) = c.toNat := by omega
        rw [List.append_assoc, scanChar_unit, scanUnit_pair hhigh hlow, hsum, Char.ofNat_toNat]

/-! ## Strings -/

/-- The text of a string. -/
def quote (s : List Char) : List Char :=
  '"' :: s.flatMap escape ++ ['"']

/-- The rest of a string, after its opening quotation mark. -/
def scanString : Nat → List Char → Option (List Char × List Char)
  | 0, _ => none
  | _ + 1, [] => none
  | fuel + 1, c :: cs =>
    if c = '"' then some ([], cs)
    else
      match scanChar (c :: cs) with
      | none => none
      | some (c, rest) => (scanString fuel rest).map fun p => (c :: p.1, p.2)

/-- An escaped character does not begin with a quotation mark. -/
theorem escape_ne_quotation (c : Char) : ∃ d ds, escape c = d :: ds ∧ d ≠ '"' := by
  cases hc : isPlain c with
  | true =>
    refine ⟨c, [], escape_of_isPlain hc, ?_⟩
    rintro rfl
    contradiction
  | false =>
    obtain ⟨d, rest, h⟩ := escape_of_not_isPlain hc
    exact ⟨'\\', d :: rest, h, by decide⟩

/-- A string is read back from its text. -/
theorem scanString_append (s rest : List Char) {fuel : Nat} (hfuel : s.length < fuel) :
    scanString fuel (s.flatMap escape ++ '"' :: rest) = some (s, rest) := by
  induction s generalizing fuel with
  | nil =>
    cases fuel with
    | zero => contradiction
    | succ fuel => rfl
  | cons c s ih =>
    cases fuel with
    | zero => contradiction
    | succ fuel =>
      obtain ⟨d, ds, hescape, hne⟩ := escape_ne_quotation c
      have hchar := scanChar_escape c (s.flatMap escape ++ '"' :: rest)
      rw [hescape] at hchar
      rw [List.flatMap_cons, hescape, List.append_assoc, List.cons_append, scanString, if_neg hne]
      rw [List.cons_append] at hchar
      rw [hchar]
      have hrest := ih (Nat.lt_of_succ_lt_succ hfuel)
      simp only [hrest, Option.map_some]

end Json
