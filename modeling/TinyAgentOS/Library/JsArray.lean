import Mathlib.Data.Rat.Floor
import Mathlib.Tactic

/-!
# Numbers as positions in an array

A number says where a slice begins or ends: its fraction is dropped, a negative number counts
from the end, and a number that is no place in the array is brought to its nearest end.

Main results:

- `Js.sliceTo_append_sliceFrom`: two slices at one number are the whole.
-/

namespace Js

/-- A number of the language, where the two zeros are one. -/
inductive JsNumber where
  | nan
  | inf (negative : Bool)
  | finite (q : Rat)
deriving DecidableEq

/-- The fraction is dropped. -/
def trunc (q : Rat) : Int :=
  if q < 0 then q.ceil else q.floor

/-- The place a slice of so many elements begins or ends. -/
def JsNumber.position (len : Nat) : JsNumber → Nat
  | nan => 0
  | inf negative => if negative then 0 else len
  | finite q =>
    if trunc q < 0 then ((len : Int) + trunc q).toNat else min (trunc q).toNat len

namespace JsNumber

def ofNat (n : Nat) : JsNumber :=
  finite n

/-- `a < b`. -/
def lt : JsNumber → JsNumber → Bool
  | nan, _ => false
  | _, nan => false
  | inf a, inf b => a && !b
  | inf a, finite _ => a
  | finite _, inf b => !b
  | finite p, finite q => p < q

/-- `a <= b`. -/
def le : JsNumber → JsNumber → Bool
  | nan, _ => false
  | _, nan => false
  | inf a, inf b => a || !b
  | inf a, finite _ => a
  | finite _, inf b => !b
  | finite p, finite q => p ≤ q

/-- `a === b`. -/
def same (a b : JsNumber) : Bool :=
  a ≠ nan && a = b

/-- `Math.min`. -/
def min (a b : JsNumber) : JsNumber :=
  if a = nan ∨ b = nan then nan else if a.lt b then a else b

/-- `Math.max`. -/
def max (a b : JsNumber) : JsNumber :=
  if a = nan ∨ b = nan then nan else if a.lt b then b else a

end JsNumber

section Slices

variable {α : Type}

/-- `xs.slice(0, n)`. -/
def sliceTo (xs : List α) (n : JsNumber) : List α :=
  xs.take (n.position xs.length)

/-- `xs.slice(n)`. -/
def sliceFrom (xs : List α) (n : JsNumber) : List α :=
  xs.drop (n.position xs.length)

theorem sliceTo_append_sliceFrom (xs : List α) (n : JsNumber) :
    sliceTo xs n ++ sliceFrom xs n = xs :=
  List.take_append_drop _ xs

/-- `xs[i]`. -/
def at? (xs : List α) (i : Int) : Option α :=
  if i < 0 then none else xs[i.toNat]?

/-- A number that is no less than zero and less than the length, or no number, is a place of an
array that has one. -/
theorem JsNumber.position_lt {len : Nat} (hlen : 0 < len) {n : JsNumber}
    (hneg : n.lt (ofNat 0) = false) (hlt : (ofNat len).le n = false) : n.position len < len := by
  cases n with
  | nan => exact hlen
  | inf negative =>
    cases negative with
    | true => exact hlen
    | false => contradiction
  | finite q =>
    have hq : 0 ≤ q := by simpa [lt, ofNat] using hneg
    have hqlen : q < len := by simpa [le, ofNat] using hlt
    have htrunc : trunc q = q.floor := by rw [trunc, if_neg (not_lt.mpr hq)]
    have hnonneg : ¬ q.floor < 0 := by
      rw [Rat.floor_lt_iff]
      exact not_lt.mpr (by exact_mod_cast hq)
    have hfloor : q.floor < len := Rat.floor_lt_iff.mpr (by exact_mod_cast hqlen)
    rw [position, htrunc, if_neg hnonneg]
    omega

theorem at?_natCast (xs : List α) (n : Nat) : at? xs n = xs[n]? := by
  have hneg : ¬ (n : Int) < 0 := by omega
  rw [at?, if_neg hneg, Int.toNat_natCast]

end Slices

end Js
