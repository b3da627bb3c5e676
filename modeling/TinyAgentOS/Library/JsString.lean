import Mathlib.Data.List.DropRight
import Mathlib.Tactic

/-!
# Strings of UTF-16 units

A string of JavaScript is a list of 16-bit units, of which two may stand for one character and
any may stand alone.

Main results:

- `trim_eq_nil_iff`: the texts of which nothing is left when they are trimmed.
- `toDigits_injective`: the decimal text of a number names it.
-/

namespace Js

abbrev JsString := List UInt16

/-- The units of a character. -/
def utf16 (c : Char) : JsString :=
  if c.toNat < 0x10000 then [UInt16.ofNat c.toNat]
  else
    [UInt16.ofNat (0xd800 + (c.toNat - 0x10000) / 0x400),
      UInt16.ofNat (0xdc00 + (c.toNat - 0x10000) % 0x400)]

/-- The units of a literal. -/
def ofString (s : String) : JsString :=
  s.toList.flatMap utf16

/-- White space and line terminators. -/
def isSpace (u : UInt16) : Bool :=
  (9 ≤ u && u ≤ 13) || (0x2000 ≤ u && u ≤ 0x200a) ||
    [0x20, 0xa0, 0x1680, 0x2028, 0x2029, 0x202f, 0x205f, 0x3000, 0xfeff].contains u

/-- `String.prototype.trim`. -/
def trim (text : JsString) : JsString :=
  (text.dropWhile isSpace).rdropWhile isSpace

/-- Trimming leaves nothing of white space alone. -/
theorem trim_eq_nil_iff {text : JsString} : trim text = [] ↔ ∀ u ∈ text, isSpace u = true := by
  unfold trim
  constructor
  · intro h
    rw [List.rdropWhile_eq_nil_iff] at h
    have hempty : text.dropWhile isSpace = [] := by
      by_contra hne
      have hfirst := List.head_dropWhile_not isSpace hne
      rw [h _ (List.head_mem hne)] at hfirst
      contradiction
    exact List.dropWhile_eq_nil_iff.mp hempty
  · intro h
    rw [List.dropWhile_eq_nil_iff.mpr h]
    rfl

/-- Numbers written alike are equal. -/
theorem toDigits_injective {m n : Nat} (h : Nat.toDigits 10 m = Nat.toDigits 10 n) : m = n := by
  have hvalue := congrArg (fun ds => Nat.ofDigitChars 10 ds 0) h
  simpa [Nat.ofDigitChars_toDigits] using hvalue

end Js
