import TinyAgentOS.Library.JsString

/-!
# Strings and numbers in JSON texts

The writer escapes what must be escaped, and a surrogate that stands alone; the reader is a
machine that takes one unit at a time.  Of a number the text is read; what number it stands for is
left to whoever uses the text.

Main results:

- `Js.scanString_quoteUnits`: a string is read back from its text.
- `Js.scanNumber_append`: the text of a number is read up to its end.
-/

namespace Js

/-- The unit of a character of the basic plane. -/
def unit (c : Char) : UInt16 :=
  UInt16.ofNat c.toNat

/-! ## Strings -/

def hexDigit (n : Nat) : UInt16 :=
  UInt16.ofNat (if n < 10 then 48 + n else 87 + n)

def hexValue (u : UInt16) : Option Nat :=
  if 48 ≤ u ∧ u ≤ 57 then some (u.toNat - 48)
  else if 97 ≤ u ∧ u ≤ 102 then some (u.toNat - 87)
  else if 65 ≤ u ∧ u ≤ 70 then some (u.toNat - 55)
  else none

def isHigh (u : UInt16) : Bool :=
  0xd800 ≤ u && u ≤ 0xdbff

def isLow (u : UInt16) : Bool :=
  0xdc00 ≤ u && u ≤ 0xdfff

/-- `\uXXXX`. -/
def unicodeEscape (u : UInt16) : JsString :=
  [unit '\\', unit 'u', hexDigit (u.toNat / 4096), hexDigit (u.toNat / 256 % 16),
    hexDigit (u.toNat / 16 % 16), hexDigit (u.toNat % 16)]

/-- The letters after a backslash, with the units that they stand for. -/
def letters : List (UInt16 × UInt16) :=
  [(unit 'b', 8), (unit 't', 9), (unit 'n', 10), (unit 'f', 12), (unit 'r', 13),
    (unit '"', unit '"'), (unit '\\', unit '\\')]

def escapeUnit (u : UInt16) : JsString :=
  match letters.find? fun e => e.2 = u with
  | some e => [unit '\\', e.1]
  | none => if u < 32 ∨ isHigh u ∨ isLow u then unicodeEscape u else [u]

/-- The units of a string as they are written: a pair of surrogates stays as it is. -/
def quoteUnits : JsString → JsString
  | [] => []
  | [u] => escapeUnit u
  | u :: v :: us =>
    if isHigh u ∧ isLow v then u :: v :: quoteUnits us
    else escapeUnit u ++ quoteUnits (v :: us)

inductive StringState where
  | plain
  | escaped
  | hex (left value : Nat)

/-- What a letter after a backslash stands for; a slash stands for itself. -/
def unescape (u : UInt16) : Option UInt16 :=
  if u = unit '/' then some u else (letters.find? fun e => e.1 = u).map Prod.snd

/-- A string is read up to its closing quotation mark. -/
def scanString : StringState → JsString → Option (JsString × JsString)
  | _, [] => none
  | .plain, u :: us =>
    if u = unit '"' then some ([], us)
    else if u = unit '\\' then scanString .escaped us
    else if u < 32 then none
    else (scanString .plain us).map fun p => (u :: p.1, p.2)
  | .escaped, u :: us =>
    if u = unit 'u' then scanString (.hex 3 0) us
    else
      match unescape u with
      | none => none
      | some v => (scanString .plain us).map fun p => (v :: p.1, p.2)
  | .hex left value, u :: us =>
    match hexValue u with
    | none => none
    | some d =>
      match left with
      | 0 =>
        (scanString .plain us).map fun p => (UInt16.ofNat (value * 16 + d) :: p.1, p.2)
      | left + 1 => scanString (.hex left (value * 16 + d)) us

section Strings

theorem hexValue_hexDigit {n : Nat} (h : n < 16) : hexValue (hexDigit n) = some n := by
  have hall : ∀ n < 16, hexValue (hexDigit n) = some n := by decide
  exact hall n h

/-- Four digits are read back. -/
theorem scanString_unicodeEscape (u : UInt16) (us : JsString) :
    scanString .plain (unicodeEscape u ++ us) =
      (scanString .plain us).map fun p => (u :: p.1, p.2) := by
  have hu : u.toNat < 65536 := u.toNat_lt
  have hvalue : (((0 * 16 + u.toNat / 4096) * 16 + u.toNat / 256 % 16) * 16 +
      u.toNat / 16 % 16) * 16 + u.toNat % 16 = u.toNat := by omega
  have hdigit : ∀ (n left value : Nat) (us : JsString), n < 16 →
      scanString (.hex (left + 1) value) (hexDigit n :: us) =
        scanString (.hex left (value * 16 + n)) us := by
    intro n left value us hn
    simp only [scanString, hexValue_hexDigit hn]
  have hlast : ∀ (n value : Nat) (us : JsString), n < 16 →
      scanString (.hex 0 value) (hexDigit n :: us) =
        (scanString .plain us).map fun p => (UInt16.ofNat (value * 16 + n) :: p.1, p.2) := by
    intro n value us hn
    simp only [scanString, hexValue_hexDigit hn]
  calc
    scanString .plain (unicodeEscape u ++ us) =
        scanString (.hex 3 0) (hexDigit (u.toNat / 4096) :: hexDigit (u.toNat / 256 % 16) ::
          hexDigit (u.toNat / 16 % 16) :: hexDigit (u.toNat % 16) :: us) := rfl
    _ = _ := by
      rw [hdigit _ _ _ _ (by omega), hdigit _ _ _ _ (by omega), hdigit _ _ _ _ (by omega),
        hlast _ _ _ (by omega), hvalue, UInt16.ofNat_toNat]

/-- A unit that needs no escape. -/
theorem scanString_cons {u : UInt16} (hquote : u ≠ unit '"') (hbackslash : u ≠ unit '\\')
    (hcontrol : ¬ u < 32) (us : JsString) :
    scanString .plain (u :: us) = (scanString .plain us).map fun p => (u :: p.1, p.2) := by
  rw [scanString, if_neg hquote, if_neg hbackslash, if_neg hcontrol]

theorem scanString_letter {e : UInt16 × UInt16} (he : e ∈ letters) (us : JsString) :
    scanString .plain (unit '\\' :: e.1 :: us) =
      (scanString .plain us).map fun p => (e.2 :: p.1, p.2) := by
  have hall : letters.all (fun e => e.1 ≠ unit 'u' && unescape e.1 = some e.2) = true := by decide
  have hletter := List.all_eq_true.mp hall e he
  rw [Bool.and_eq_true, decide_eq_true_eq, decide_eq_true_eq] at hletter
  obtain ⟨hne, hunescape⟩ := hletter
  have hbackslash : ∀ us, scanString .plain (unit '\\' :: us) = scanString .escaped us :=
    fun us => rfl
  rw [hbackslash, scanString, if_neg hne, hunescape]

/-- A unit is read back from its escape. -/
theorem scanString_escapeUnit (u : UInt16) (us : JsString) :
    scanString .plain (escapeUnit u ++ us) =
      (scanString .plain us).map fun p => (u :: p.1, p.2) := by
  cases hfind : letters.find? fun e => e.2 = u with
  | some e =>
    have heq : e.2 = u := by simpa using List.find?_some hfind
    rw [escapeUnit, hfind, ← heq]
    exact scanString_letter (List.mem_of_find?_eq_some hfind) us
  | none =>
    have hnone := List.find?_eq_none.mp hfind
    have hquote : u ≠ unit '"' := by
      rintro rfl
      exact hnone (unit '"', unit '"') (by decide) (by decide)
    have hbackslash : u ≠ unit '\\' := by
      rintro rfl
      exact hnone (unit '\\', unit '\\') (by decide) (by decide)
    rw [escapeUnit, hfind]
    by_cases hescape : u < 32 ∨ isHigh u = true ∨ isLow u = true
    · simp only [if_pos hescape]
      exact scanString_unicodeEscape u us
    · simp only [if_neg hescape]
      exact scanString_cons hquote hbackslash (fun hlt => hescape (Or.inl hlt)) us

theorem scanString_surrogate {u : UInt16} (h : 0xd800 ≤ u) (us : JsString) :
    scanString .plain (u :: us) = (scanString .plain us).map fun p => (u :: p.1, p.2) := by
  have hle : (0xd800 : UInt16).toNat ≤ u.toNat := UInt16.le_iff_toNat_le.mp h
  have hsmall : ∀ v : UInt16, v.toNat < 0xd800 → u ≠ v := by
    rintro v hv rfl
    exact absurd hle (not_le.mpr hv)
  refine scanString_cons (hsmall _ (by decide)) (hsmall _ (by decide)) ?_ us
  intro hlt
  have hlt' : u.toNat < 32 := UInt16.lt_iff_toNat_lt.mp hlt
  have hle' : 0xd800 ≤ u.toNat := hle
  omega

/-- A string is read back from its text. -/
theorem scanString_quoteUnits (s rest : JsString) :
    scanString .plain (quoteUnits s ++ unit '"' :: rest) = some (s, rest) := by
  induction s using quoteUnits.induct with
  | case1 => rfl
  | case2 u =>
    rw [quoteUnits, scanString_escapeUnit]
    rfl
  | case3 u v us hpair ih =>
    have hhigh : 0xd800 ≤ u := by
      have h := hpair.1
      simp only [isHigh, Bool.and_eq_true, decide_eq_true_eq] at h
      exact h.1
    have hlow : 0xd800 ≤ v := by
      have h := hpair.2
      simp only [isLow, Bool.and_eq_true, decide_eq_true_eq] at h
      have hbounds : (0xd800 : UInt16) ≤ 0xdc00 := by decide
      exact UInt16.le_trans hbounds h.1
    rw [quoteUnits, if_pos hpair, List.cons_append, List.cons_append, scanString_surrogate hhigh,
      scanString_surrogate hlow, ih]
    rfl
  | case4 u v us hpair ih =>
    rw [quoteUnits, if_neg hpair, List.append_assoc, scanString_escapeUnit, ih]
    rfl

end Strings

/-! ## Numbers -/

def isDigit (u : UInt16) : Bool :=
  48 ≤ u && u ≤ 57

/-- How far a number was read. -/
inductive NumberState where
  | start
  | minus
  | zero
  | whole
  | point
  | fraction
  | mark
  | sign
  | exponent
deriving DecidableEq

namespace NumberState

/-- After the whole part comes a point or an exponent. -/
def afterWhole (u : UInt16) : Option NumberState :=
  if u = unit '.' then some point
  else if u = unit 'e' ∨ u = unit 'E' then some mark
  else none

def next : NumberState → UInt16 → Option NumberState
  | start, u =>
    if u = unit '-' then some minus
    else if u = unit '0' then some zero
    else if isDigit u then some whole
    else none
  | minus, u => if u = unit '0' then some zero else if isDigit u then some whole else none
  | zero, u => afterWhole u
  | whole, u => if isDigit u then some whole else afterWhole u
  | point, u => if isDigit u then some fraction else none
  | fraction, u =>
    if isDigit u then some fraction
    else if u = unit 'e' ∨ u = unit 'E' then some mark
    else none
  | mark, u =>
    if u = unit '+' ∨ u = unit '-' then some sign
    else if isDigit u then some exponent
    else none
  | sign, u => if isDigit u then some exponent else none
  | exponent, u => if isDigit u then some exponent else none

/-- A number may end here. -/
def accepts : NumberState → Bool
  | zero | whole | fraction | exponent => true
  | start | minus | point | mark | sign => false

end NumberState

/-- The text of a number is read as far as it goes. -/
def scanNumber : NumberState → JsString → Option (JsString × JsString)
  | st, [] => if st.accepts then some ([], []) else none
  | st, u :: us =>
    match st.next u with
    | some st' => (scanNumber st' us).map fun p => (u :: p.1, p.2)
    | none => if st.accepts then some ([], u :: us) else none

/-- The whole text is the text of a number. -/
def IsNumberText (text : JsString) : Prop :=
  scanNumber .start text = some (text, [])

/-- The text does not go on with a number. -/
def Ends (rest : JsString) : Prop :=
  ∀ u us, rest = u :: us →
    isDigit u = false ∧ u ≠ unit '.' ∧ u ≠ unit 'e' ∧ u ≠ unit 'E'

section Numbers

theorem ends_nil : Ends [] := by
  intro u us h
  contradiction

theorem NumberState.next_of_ends {st : NumberState} (hst : st.accepts = true) {u : UInt16}
    {us : JsString} (h : Ends (u :: us)) : st.next u = none := by
  obtain ⟨hdigit, hpoint, hsmall, hcapital⟩ := h u us rfl
  have hmark : ¬ (u = unit 'e' ∨ u = unit 'E') := by
    rintro (heq | heq)
    · exact hsmall heq
    · exact hcapital heq
  cases st with
  | zero => rw [next, afterWhole, if_neg hpoint, if_neg hmark]
  | whole => rw [next, hdigit, if_neg Bool.false_ne_true, afterWhole, if_neg hpoint, if_neg hmark]
  | fraction => rw [next, hdigit, if_neg Bool.false_ne_true, if_neg hmark]
  | exponent => rw [next, hdigit, if_neg Bool.false_ne_true]
  | start | minus | point | mark | sign => contradiction

/-- The text of a number is read up to its end. -/
theorem scanNumber_append {st : NumberState} {text rest : JsString}
    (htext : scanNumber st text = some (text, [])) (hrest : Ends rest) :
    scanNumber st (text ++ rest) = some (text, rest) := by
  induction text generalizing st with
  | nil =>
    have haccepts : st.accepts = true := by
      by_contra hno
      rw [scanNumber, if_neg hno] at htext
      contradiction
    cases rest with
    | nil => exact htext
    | cons u us =>
      rw [List.nil_append, scanNumber, NumberState.next_of_ends haccepts hrest,
        if_pos haccepts]
  | cons u us ih =>
    rw [scanNumber] at htext
    cases hnext : st.next u with
    | none =>
      rw [hnext] at htext
      by_cases haccepts : st.accepts = true
      · simp [haccepts] at htext
      · simp [haccepts] at htext
    | some st' =>
      rw [hnext] at htext
      obtain ⟨p, hp, heq⟩ := Option.map_eq_some_iff.mp htext
      have hus : scanNumber st' us = some (us, []) := by
        obtain ⟨hfirst, hsecond⟩ := Prod.mk.inj heq
        obtain ⟨_, htail⟩ := List.cons.inj hfirst
        rw [hp, ← htail, ← hsecond]
      rw [List.cons_append, scanNumber, hnext]
      simp only [ih hus, Option.map_some]

/-- A number begins with a digit or a minus. -/
theorem IsNumberText.exists_cons {text : JsString} (h : IsNumberText text) :
    ∃ u us, text = u :: us ∧ (u = unit '-' ∨ isDigit u = true) := by
  cases text with
  | nil => contradiction
  | cons u us =>
    refine ⟨u, us, rfl, ?_⟩
    by_contra hno
    obtain ⟨hminus, hdigit⟩ := not_or.mp hno
    have hzero : u ≠ unit '0' := by
      rintro rfl
      exact hdigit rfl
    rw [IsNumberText, scanNumber, NumberState.next, if_neg hminus, if_neg hzero,
      if_neg hdigit] at h
    contradiction

end Numbers

end Js
