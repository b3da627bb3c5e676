import TinyAgentOS.Library.Dict
import TinyAgentOS.Library.JsonStrings

/-!
# JSON values

Values and their texts, with the separators and the escapes of Python's writer.  A float is
kept as its digits; of the fields of one name in a text the last counts.

Main results:

- `scanNumber_append`: a number is read back from its text.
- `sepBy_commas`: items are read back that stand between commas.
- `parseValue_dumps` and `loads_dumps`: a value is read back from its text.
-/

namespace Json

open Collections

/-! ## Digits -/

/-- The text does not begin with a digit. -/
def NoDigit (rest : List Char) : Prop :=
  ∀ c cs, rest = c :: cs → c.isDigit = false

variable {rest ds : List Char}

theorem takeWhile_digits (hds : ds.all Char.isDigit = true)
    (hrest : NoDigit rest) : (ds ++ rest).takeWhile Char.isDigit = ds := by
  induction ds with
  | nil =>
    cases rest with
    | nil => rfl
    | cons c cs => simp [hrest c cs rfl]
  | cons d ds ih =>
    rw [List.all_cons, Bool.and_eq_true] at hds
    rw [List.cons_append, List.takeWhile_cons_of_pos hds.1, ih hds.2]

theorem dropWhile_digits (hds : ds.all Char.isDigit = true)
    (hrest : NoDigit rest) : (ds ++ rest).dropWhile Char.isDigit = rest := by
  induction ds with
  | nil =>
    cases rest with
    | nil => rfl
    | cons c cs => simp [hrest c cs rfl]
  | cons d ds ih =>
    rw [List.all_cons, Bool.and_eq_true] at hds
    rw [List.cons_append, List.dropWhile_cons_of_pos hds.1, ih hds.2]

/-- A whole number in decimal. -/
def decimal (n : Nat) : List Char :=
  Nat.toDigits 10 n

theorem all_decimal (n : Nat) : (decimal n).all Char.isDigit = true := by
  rw [List.all_eq_true]
  intro c hc
  exact Nat.isDigit_of_mem_toDigits (by norm_num) (by norm_num) hc

theorem decimal_ne_nil (n : Nat) : decimal n ≠ [] :=
  Nat.toDigits_ne_nil

/-- Only zero begins with a zero. -/
theorem decimal_of_zero_cons {n : Nat} (h : decimal n = '0' :: ds) : n = 0 ∧ ds = [] := by
  induction n using Nat.strong_induction_on generalizing ds with
  | _ n ih =>
    by_cases hn : n < 10
    · have hdigit : ∀ m < 10, m.digitChar = '0' → m = 0 := by decide
      rw [decimal, Nat.toDigits_of_lt_base hn] at h
      obtain ⟨hc, hds⟩ := List.cons.inj h
      exact ⟨hdigit n hn hc, hds.symm⟩
    · rw [decimal, Nat.toDigits_of_base_le (by norm_num) (not_lt.mp hn)] at h
      cases hq : decimal (n / 10) with
      | nil => exact absurd hq (decimal_ne_nil _)
      | cons c cs =>
        rw [decimal] at hq
        rw [hq] at h
        obtain ⟨rfl, _⟩ := List.cons.inj h
        have hzero := (ih (n / 10) (by omega) hq).1
        omega

/-! ## Numbers -/

/-- The part of a float after a point, or nothing. -/
def isFraction : List Char → Bool
  | [] => true
  | c :: ds => c = '.' && ds ≠ [] && ds.all Char.isDigit

/-- The sign of an exponent is left out. -/
def unsigned : List Char → List Char
  | [] => []
  | c :: cs => if c = '+' ∨ c = '-' then cs else c :: cs

/-- The exponent of a float, or nothing. -/
def isExponent : List Char → Bool
  | [] => true
  | c :: cs => (c = 'e' || c = 'E') && unsigned cs ≠ [] && (unsigned cs).all Char.isDigit

/-- A finite float, by its text. -/
structure FloatText where
  neg : Bool
  whole : Nat
  frac : List Char
  exp : List Char
  isFloat : isFraction frac = true ∧ isExponent exp = true ∧ (frac ≠ [] ∨ exp ≠ [])

def sign (neg : Bool) : List Char :=
  if neg then ['-'] else []

def FloatText.text (x : FloatText) : List Char :=
  sign x.neg ++ (decimal x.whole ++ (x.frac ++ x.exp))

def intText (n : Int) : List Char :=
  sign (n < 0) ++ decimal n.natAbs

inductive Number where
  | int (n : Int)
  | float (x : FloatText)

def Number.text : Number → List Char
  | .int n => intText n
  | .float x => x.text

/-- `0|[1-9]\d*`. -/
def scanWhole : List Char → Option (Nat × List Char)
  | [] => none
  | c :: cs =>
    if c = '0' then some (0, cs)
    else if c.isDigit then
      some (Nat.ofDigitChars 10 ((c :: cs).takeWhile Char.isDigit) 0,
        (c :: cs).dropWhile Char.isDigit)
    else none

/-- `(\.\d+)?`. -/
def scanFraction : List Char → List Char × List Char
  | [] => ([], [])
  | c :: cs =>
    if c = '.' ∧ cs.takeWhile Char.isDigit ≠ [] then
      (c :: cs.takeWhile Char.isDigit, cs.dropWhile Char.isDigit)
    else ([], c :: cs)

/-- `([eE][-+]?\d+)?`. -/
def scanExponent : List Char → List Char × List Char
  | [] => ([], [])
  | c :: cs =>
    let ds := (unsigned cs).takeWhile Char.isDigit
    if (c = 'e' ∨ c = 'E') ∧ ds ≠ [] then
      (c :: cs.take (cs.length - (unsigned cs).length) ++ ds,
        (unsigned cs).dropWhile Char.isDigit)
    else ([], c :: cs)

/-- A float if there is a fraction or an exponent. -/
def number (neg : Bool) (whole : Nat) (frac exp : List Char) : Number :=
  if h : isFraction frac = true ∧ isExponent exp = true ∧ (frac ≠ [] ∨ exp ≠ []) then
    .float ⟨neg, whole, frac, exp, h⟩
  else .int (if neg then -whole else whole)

/-- What follows the sign of a number. -/
def scanUnsigned (neg : Bool) (cs : List Char) : Option (Number × List Char) :=
  match scanWhole cs with
  | none => none
  | some (whole, cs) =>
    let (frac, cs) := scanFraction cs
    let (exp, cs) := scanExponent cs
    some (number neg whole frac exp, cs)

def scanNumber : List Char → Option (Number × List Char)
  | [] => none
  | c :: cs => if c = '-' then scanUnsigned true cs else scanUnsigned false (c :: cs)

/-- The text does not go on with a number. -/
def Ends (rest : List Char) : Prop :=
  ∀ c cs, rest = c :: cs → c.isDigit = false ∧ c ≠ '.' ∧ c ≠ 'e' ∧ c ≠ 'E'

theorem Ends.noDigit (h : Ends rest) : NoDigit rest :=
  fun c cs heq => (h c cs heq).1

theorem ends_nil : Ends [] := by
  intro c cs h
  contradiction

/-- A decimal reads back. -/
theorem scanWhole_decimal (n : Nat) (hrest : NoDigit rest) :
    scanWhole (decimal n ++ rest) = some (n, rest) := by
  cases hd : decimal n with
  | nil => exact absurd hd (decimal_ne_nil n)
  | cons c cs =>
    have hall := all_decimal n
    rw [List.cons_append, scanWhole]
    by_cases hc : c = '0'
    · rw [hc] at hd
      obtain ⟨rfl, rfl⟩ := decimal_of_zero_cons hd
      rw [if_pos hc, List.nil_append]
    · have hdigit : c.isDigit = true := by
        rw [hd, List.all_cons, Bool.and_eq_true] at hall
        exact hall.1
      rw [if_neg hc, if_pos hdigit, ← List.cons_append, ← hd, takeWhile_digits hall hrest,
        dropWhile_digits hall hrest, decimal, Nat.ofDigitChars_ten_toDigits]

/-- A fraction reads back. -/
theorem scanFraction_append {frac : List Char} (hfrac : isFraction frac = true)
    (hrest : NoDigit rest) (hpoint : ∀ c cs, rest = c :: cs → c ≠ '.') :
    scanFraction (frac ++ rest) = (frac, rest) := by
  cases frac with
  | nil =>
    cases rest with
    | nil => rfl
    | cons c cs => simp [scanFraction, hpoint c cs rfl]
  | cons c ds =>
    simp only [isFraction, Bool.and_eq_true, decide_eq_true_eq] at hfrac
    obtain ⟨⟨hc, hne⟩, hall⟩ := hfrac
    rw [List.cons_append, scanFraction, takeWhile_digits hall hrest,
      dropWhile_digits hall hrest, if_pos ⟨hc, hne⟩]

theorem unsigned_append {cs : List Char} (hcs : unsigned cs ≠ []) :
    unsigned (cs ++ rest) = unsigned cs ++ rest := by
  cases cs with
  | nil => contradiction
  | cons c cs =>
    by_cases hc : c = '+' ∨ c = '-'
    · simp only [List.cons_append, unsigned, if_pos hc]
    · simp only [List.cons_append, unsigned, if_neg hc]

/-- The sign of an exponent is what `unsigned` leaves out. -/
theorem take_append_unsigned (cs : List Char) :
    cs.take (cs.length - (unsigned cs).length) ++ unsigned cs = cs := by
  cases cs with
  | nil => rfl
  | cons c cs =>
    by_cases hc : c = '+' ∨ c = '-'
    · simp [unsigned, if_pos hc]
    · simp [unsigned, if_neg hc]

/-- An exponent reads back. -/
theorem scanExponent_append {exp : List Char} (hexp : isExponent exp = true)
    (hrest : NoDigit rest) (hmark : ∀ c cs, rest = c :: cs → c ≠ 'e' ∧ c ≠ 'E') :
    scanExponent (exp ++ rest) = (exp, rest) := by
  cases exp with
  | nil =>
    cases rest with
    | nil => rfl
    | cons c cs => simp [scanExponent, hmark c cs rfl]
  | cons c cs =>
    simp only [isExponent, Bool.and_eq_true, Bool.or_eq_true, decide_eq_true_eq] at hexp
    obtain ⟨⟨hc, hne⟩, hall⟩ := hexp
    have hlength : (unsigned cs).length ≤ cs.length := by
      have h := congrArg List.length (take_append_unsigned cs)
      rw [List.length_append] at h
      omega
    have htake : (cs ++ rest).take ((cs ++ rest).length - (unsigned cs ++ rest).length) =
        cs.take (cs.length - (unsigned cs).length) := by
      rw [List.length_append, List.length_append, Nat.add_sub_add_right,
        List.take_append_of_le_length (Nat.sub_le _ _)]
    rw [List.cons_append, scanExponent, unsigned_append hne, takeWhile_digits hall hrest,
      dropWhile_digits hall hrest, if_pos ⟨hc, hne⟩, htake, List.cons_append,
      take_append_unsigned]

theorem number_int (n : Int) : number (n < 0) n.natAbs [] [] = .int n := by
  have hnot : ¬ (isFraction [] = true ∧ isExponent [] = true ∧
      (([] : List Char) ≠ [] ∨ ([] : List Char) ≠ [])) := by simp
  rw [number, dif_neg hnot]
  by_cases hn : n < 0
  · simp only [hn, decide_true, if_true]
    congr 1
    omega
  · simp only [hn, decide_false, Bool.false_eq_true, if_false]
    congr 1
    omega

theorem number_float (x : FloatText) : number x.neg x.whole x.frac x.exp = .float x := by
  rw [number, dif_pos x.isFloat]

/-- A sign reads back. -/
theorem scanNumber_sign (neg : Bool) (whole : Nat) (rest : List Char) :
    scanNumber (sign neg ++ (decimal whole ++ rest)) =
      scanUnsigned neg (decimal whole ++ rest) := by
  cases neg with
  | true => rfl
  | false =>
    cases hd : decimal whole with
    | nil => exact absurd hd (decimal_ne_nil whole)
    | cons c cs =>
      have hc : c ≠ '-' := by
        rintro rfl
        have hall := all_decimal whole
        rw [hd] at hall
        simp at hall
      show scanNumber (c :: cs ++ rest) = _
      rw [List.cons_append, scanNumber, if_neg hc]

/-- The parts of a number are read back. -/
theorem scanNumber_parts (neg : Bool) (whole : Nat) {frac exp : List Char}
    (hfrac : isFraction frac = true) (hexp : isExponent exp = true) (hrest : Ends rest) :
    scanNumber (sign neg ++ (decimal whole ++ (frac ++ (exp ++ rest)))) =
      some (number neg whole frac exp, rest) := by
  have hafter : ∀ c cs, exp ++ rest = c :: cs → c.isDigit = false ∧ c ≠ '.' := by
    intro c cs h
    cases exp with
    | nil => exact ⟨(hrest c cs h).1, (hrest c cs h).2.1⟩
    | cons d ds =>
      simp only [isExponent, Bool.and_eq_true, Bool.or_eq_true, decide_eq_true_eq] at hexp
      obtain ⟨rfl, _⟩ := List.cons.inj h
      rcases hexp.1.1 with rfl | rfl <;> decide
  have hdigit : NoDigit (frac ++ (exp ++ rest)) := by
    intro c cs h
    cases frac with
    | nil => exact (hafter c cs h).1
    | cons d ds =>
      simp only [isFraction, Bool.and_eq_true, decide_eq_true_eq] at hfrac
      obtain ⟨rfl, _⟩ := List.cons.inj h
      rw [hfrac.1.1]
      rfl
  rw [scanNumber_sign, scanUnsigned, scanWhole_decimal whole hdigit]
  simp only [scanFraction_append hfrac (fun c cs h => (hafter c cs h).1)
      (fun c cs h => (hafter c cs h).2),
    scanExponent_append hexp hrest.noDigit (fun c cs h => (hrest c cs h).2.2)]

/-- A number is read back from its text. -/
theorem scanNumber_append (x : Number) (hrest : Ends rest) :
    scanNumber (x.text ++ rest) = some (x, rest) := by
  cases x with
  | int n =>
    have hfrac : isFraction [] = true := rfl
    have hexp : isExponent [] = true := rfl
    have hparts := scanNumber_parts (n < 0) n.natAbs hfrac hexp hrest
    rw [number_int] at hparts
    rw [Number.text, intText, List.append_assoc]
    exact hparts
  | float x =>
    have hparts := scanNumber_parts x.neg x.whole x.isFloat.1 x.isFloat.2.1 hrest
    rw [number_float] at hparts
    rw [Number.text, FloatText.text, List.append_assoc, List.append_assoc, List.append_assoc]
    exact hparts

/-! ## Constants -/

inductive Constant where
  | null
  | true
  | false
  | nan
  | infinity
  | negInfinity
deriving DecidableEq

def Constant.text : Constant → List Char
  | .null => ['n', 'u', 'l', 'l']
  | .true => ['t', 'r', 'u', 'e']
  | .false => ['f', 'a', 'l', 's', 'e']
  | .nan => ['N', 'a', 'N']
  | .infinity => ['I', 'n', 'f', 'i', 'n', 'i', 't', 'y']
  | .negInfinity => ['-', 'I', 'n', 'f', 'i', 'n', 'i', 't', 'y']

def constants : List Constant :=
  [.null, .true, .false, .nan, .infinity, .negInfinity]

def scanConstant (cs : List Char) : Option (Constant × List Char) :=
  (constants.find? fun k => k.text.isPrefixOf cs).map fun k => (k, cs.drop k.text.length)

/-- A constant reads back. -/
theorem scanConstant_append (k : Constant) (rest : List Char) :
    scanConstant (k.text ++ rest) = some (k, rest) := by
  cases k <;> rfl

/-- No constant begins like a number. -/
theorem scanConstant_number (x : Number) (rest : List Char) :
    scanConstant (x.text ++ rest) = none := by
  have hnumber : ∃ neg whole tail, x.text ++ rest = sign neg ++ (decimal whole ++ tail) := by
    cases x with
    | int n => exact ⟨n < 0, n.natAbs, rest, by rw [Number.text, intText, List.append_assoc]⟩
    | float x =>
      refine ⟨x.neg, x.whole, x.frac ++ x.exp ++ rest, ?_⟩
      rw [Number.text, FloatText.text, List.append_assoc, List.append_assoc]
  obtain ⟨neg, whole, tail, htext⟩ := hnumber
  have hall := all_decimal whole
  rw [htext, scanConstant, Option.map_eq_none_iff, List.find?_eq_none]
  intro k _ hbegins
  cases hd : decimal whole with
  | nil => exact decimal_ne_nil whole hd
  | cons c cs =>
    rw [hd, List.all_cons, Bool.and_eq_true] at hall
    have hc := hall.1
    rw [hd] at hbegins
    obtain ⟨suffix, hsuffix⟩ := List.isPrefixOf_iff_prefix.mp hbegins
    have hfirst : ∀ k : Constant, ∀ d ds, k.text = d :: ds →
        d.isDigit = Bool.false ∧ (d = '-' → ∃ e es, ds = e :: es ∧ e.isDigit = Bool.false) := by
      intro k d ds h
      cases k <;> cases h <;> simp
    cases hk : k.text with
    | nil => cases k <;> contradiction
    | cons d ds =>
      obtain ⟨hdigit, hminus⟩ := hfirst k d ds hk
      rw [hk] at hsuffix
      cases neg with
      | false =>
        obtain ⟨rfl, _⟩ := List.cons.inj hsuffix
        rw [hc] at hdigit
        contradiction
      | true =>
        obtain ⟨hd', htail⟩ := List.cons.inj hsuffix
        obtain ⟨e, es, rfl, he⟩ := hminus hd'
        obtain ⟨rfl, _⟩ := List.cons.inj htail
        rw [hc] at he
        contradiction

/-! ## Values -/

inductive Value where
  | const (k : Constant)
  | num (x : Number)
  | str (s : String)
  | arr (items : List Value)
  | obj (fields : List (String × Value))

/-- Texts, separated as Python does. -/
def commas : List (List Char) → List Char
  | [] => []
  | [t] => t
  | t :: ts => t ++ ',' :: ' ' :: commas ts

mutual

/-- `json.dumps`. -/
def dumps : Value → List Char
  | .const k => k.text
  | .num x => x.text
  | .str s => quote s.toList
  | .arr items => '[' :: commas (dumpsItems items) ++ [']']
  | .obj fields => '{' :: commas (dumpsFields fields) ++ ['}']

def dumpsItems : List Value → List (List Char)
  | [] => []
  | v :: vs => dumps v :: dumpsItems vs

def dumpsFields : List (String × Value) → List (List Char)
  | [] => []
  | (key, v) :: fields => (quote key.toList ++ ':' :: ' ' :: dumps v) :: dumpsFields fields

end

mutual

/-- The fields of an object have different names. -/
def Value.distinct : Value → Bool
  | .const _ => true
  | .num _ => true
  | .str _ => true
  | .arr items => distinctItems items
  | .obj fields => (fields.map Prod.fst).Nodup && distinctFields fields

def distinctItems : List Value → Bool
  | [] => true
  | v :: vs => v.distinct && distinctItems vs

def distinctFields : List (String × Value) → Bool
  | [] => true
  | (_, v) :: fields => v.distinct && distinctFields fields

end

/-! ## Reading -/

def isSpace (c : Char) : Bool :=
  c = ' ' || c = '\t' || c = '\n' || c = '\r'

/-- Skip white space. -/
def skip (cs : List Char) : List Char :=
  cs.dropWhile isSpace

section Items

variable {α : Type} (item : List Char → Option (α × List Char)) (close : Char)

/-- Items between commas, up to a closing character. -/
def sepBy : Nat → List Char → Option (List α × List Char)
  | 0, _ => none
  | fuel + 1, cs =>
    match item cs with
    | none => none
    | some (x, rest) =>
      match skip rest with
      | [] => none
      | c :: rest =>
        if c = close then some ([x], rest)
        else if c = ',' then (sepBy fuel (skip rest)).map fun p => (x :: p.1, p.2)
        else none

/-- An opening character has been read. -/
def closed (cs : List Char) : Option (List α × List Char) :=
  match skip cs with
  | [] => none
  | c :: rest =>
    if c = close then some ([], rest) else sepBy item close (rest.length + 1) (c :: rest)

end Items

/-- A name in quotation marks, a colon and a value. -/
def scanField (value : List Char → Option (Value × List Char)) :
    List Char → Option ((String × Value) × List Char)
  | [] => none
  | c :: cs =>
    if c = '"' then
      match scanString (cs.length + 1) cs with
      | none => none
      | some (key, rest) =>
        match skip rest with
        | [] => none
        | d :: rest =>
          if d = ':' then
            (value (skip rest)).map fun p => ((String.ofList key, p.1), p.2)
          else none
    else none

/-- Of the fields of one name the last counts. -/
def collapse (fields : List (String × Value)) : List (String × Value) :=
  fields.foldl (fun d f => Dict.setIn f.1 f.2 d) []

/-- `scan_once`, with a bound on the depth. -/
def parseValue : Nat → List Char → Option (Value × List Char)
  | 0, _ => none
  | _ + 1, [] => none
  | fuel + 1, c :: cs =>
    if c = '"' then
      (scanString (cs.length + 1) cs).map fun p => (.str (String.ofList p.1), p.2)
    else if c = '[' then
      (closed (parseValue fuel) ']' cs).map fun p => (.arr p.1, p.2)
    else if c = '{' then
      (closed (scanField (parseValue fuel)) '}' cs).map fun p => (.obj (collapse p.1), p.2)
    else
      match scanConstant (c :: cs) with
      | some (k, rest) => some (.const k, rest)
      | none => (scanNumber (c :: cs)).map fun p => (.num p.1, p.2)

/-- `json.loads`. -/
def loads (text : List Char) : Option Value :=
  match parseValue (text.length + 1) (skip text) with
  | some (v, rest) => if skip rest = [] then some v else none
  | none => none

/-! ## The round trip -/

/-- A value is an item or a field's value, or has none. -/
@[elab_as_elim]
theorem Value.nested {P : Value → Prop} (const : ∀ k, P (.const k)) (num : ∀ x, P (.num x))
    (str : ∀ s, P (.str s)) (arr : ∀ items, (∀ v ∈ items, P v) → P (.arr items))
    (obj : ∀ fields, (∀ f ∈ fields, P f.2) → P (.obj fields)) (v : Value) : P v := by
  refine @Value.rec P (fun items => ∀ v ∈ items, P v) (fun fields => ∀ f ∈ fields, P f.2)
    (fun f => P f.2) const num str arr obj ?_ ?_ ?_ ?_ ?_ v
  · intro v hv
    contradiction
  · intro v items hv hitems
    exact List.forall_mem_cons.mpr ⟨hv, hitems⟩
  · intro f hf
    contradiction
  · intro f fields hf hfields
    exact List.forall_mem_cons.mpr ⟨hf, hfields⟩
  · intro key v hv
    exact hv

theorem dumpsItems_eq (items : List Value) : dumpsItems items = items.map dumps := by
  induction items with
  | nil => rfl
  | cons v vs ih => rw [dumpsItems, ih, List.map_cons]

/-- The text of a field. -/
def fieldText (f : String × Value) : List Char :=
  quote f.1.toList ++ ':' :: ' ' :: dumps f.2

theorem dumpsFields_eq (fields : List (String × Value)) :
    dumpsFields fields = fields.map fieldText := by
  induction fields with
  | nil => rfl
  | cons f fields ih => rw [dumpsFields, ih, List.map_cons, fieldText]

/-- Items are distinct when each is. -/
theorem distinctItems_iff {items : List Value} :
    distinctItems items = true ↔ ∀ v ∈ items, v.distinct = true := by
  induction items with
  | nil => simp [distinctItems]
  | cons v vs ih => simp [distinctItems, ih]

variable {fields : List (String × Value)}

/-- Fields are distinct when the value of each is. -/
theorem distinctFields_iff : distinctFields fields = true ↔ ∀ f ∈ fields, f.2.distinct = true := by
  induction fields with
  | nil => simp [distinctFields]
  | cons f fields ih => simp [distinctFields, ih]

/-- The text begins with a character that is neither white space nor the closing one. -/
def Begins (close : Char) (text : List Char) : Prop :=
  ∃ c cs, text = c :: cs ∧ isSpace c = false ∧ c ≠ close

/-- Nothing is skipped before a value. -/
theorem Begins.skip_append {close : Char} {text : List Char} (h : Begins close text)
    (rest : List Char) : skip (text ++ rest) = text ++ rest := by
  obtain ⟨c, cs, rfl, hspace, _⟩ := h
  rw [List.cons_append, skip, List.dropWhile_cons_of_neg (by simp [hspace])]

theorem commas_cons_cons (t u : List Char) (ts : List (List Char)) :
    commas (t :: u :: ts) = t ++ ',' :: ' ' :: commas (u :: ts) :=
  rfl

theorem length_le_commas (ts : List (List Char)) : ts.length ≤ (commas ts).length + 1 := by
  induction ts with
  | nil => simp
  | cons t ts ih =>
    cases ts with
    | nil => simp
    | cons u ts =>
      simp only [commas, List.length_append, List.length_cons] at ih ⊢
      omega

/-- A part is no longer than the text. -/
theorem length_le_of_mem_commas {t : List Char} {ts : List (List Char)} (ht : t ∈ ts) :
    t.length ≤ (commas ts).length := by
  induction ts with
  | nil => contradiction
  | cons u ts ih =>
    cases ts with
    | nil =>
      rw [List.mem_singleton.mp ht]
      exact le_refl _
    | cons w ts =>
      simp only [commas, List.length_append, List.length_cons] at ih ⊢
      rcases List.mem_cons.mp ht with rfl | ht
      · omega
      · have h := ih ht
        omega

section Items

variable {α : Type} {item : List Char → Option (α × List Char)} {close : Char}
  {text : α → List Char}

variable {xs : List α}

/-- A list begins like its first value. -/
theorem begins_commas {x : α} (hx : Begins close (text x)) :
    Begins close (commas ((x :: xs).map text)) := by
  obtain ⟨c, cs, hc, hrest⟩ := hx
  cases xs with
  | nil => exact ⟨c, cs, hc, hrest⟩
  | cons y ys =>
    refine ⟨c, cs ++ ',' :: ' ' :: commas ((y :: ys).map text), ?_, hrest⟩
    rw [List.map_cons, List.map_cons, commas_cons_cons, hc, List.cons_append]

/-- Items are read back that stand between commas. -/
theorem sepBy_commas (hspace : isSpace close = false) (hcomma : close ≠ ',')
    (hends : ∀ rest, Ends (close :: rest)) {x : α}
    (hitem : ∀ y ∈ x :: xs, ∀ rest, Ends rest → item (text y ++ rest) = some (y, rest))
    (hbegins : ∀ y ∈ x :: xs, Begins close (text y)) {fuel : Nat} (hfuel : xs.length < fuel)
    (rest : List Char) :
    sepBy item close fuel (commas ((x :: xs).map text) ++ close :: rest) =
      some (x :: xs, rest) := by
  induction xs generalizing x fuel with
  | nil =>
    cases fuel with
    | zero => contradiction
    | succ fuel =>
      have hskip : skip (close :: rest) = close :: rest := by
        rw [skip, List.dropWhile_cons_of_neg (by simp [hspace])]
      have hx := hitem x List.mem_cons_self (close :: rest) (hends rest)
      simp only [List.map_cons, List.map_nil, commas, sepBy, hx, hskip, if_true]
  | cons y ys ih =>
    cases fuel with
    | zero => contradiction
    | succ fuel =>
      have hcommaEnds : ∀ cs, Ends (',' :: cs) := by
        intro cs c ds h
        obtain ⟨rfl, _⟩ := List.cons.inj h
        decide
      have htail := ih (fun z hz => hitem z (List.mem_cons_of_mem x hz))
        (fun z hz => hbegins z (List.mem_cons_of_mem x hz)) (Nat.lt_of_succ_lt_succ hfuel)
      have hx := hitem x List.mem_cons_self
        (',' :: ' ' :: (commas ((y :: ys).map text) ++ close :: rest)) (hcommaEnds _)
      have hskip : ∀ cs, skip (',' :: cs) = ',' :: cs := fun cs => rfl
      have hblank : ∀ cs, skip (' ' :: cs) = skip cs := fun cs => rfl
      have hy : Begins close (commas ((y :: ys).map text)) :=
        begins_commas (hbegins y (List.mem_cons_of_mem x List.mem_cons_self))
      have hcommas : commas ((x :: y :: ys).map text) ++ close :: rest =
          text x ++ ',' :: ' ' :: (commas ((y :: ys).map text) ++ close :: rest) := by
        simp [commas_cons_cons]
      rw [hcommas]
      simp only [sepBy, hx, hskip, if_neg hcomma.symm, if_true, hblank, hy.skip_append,
        htail, Option.map_some]

/-- Items are read back after their opening character. -/
theorem closed_commas (hspace : isSpace close = false) (hcomma : close ≠ ',')
    (hends : ∀ rest, Ends (close :: rest))
    (hitem : ∀ y ∈ xs, ∀ rest, Ends rest → item (text y ++ rest) = some (y, rest))
    (hbegins : ∀ y ∈ xs, Begins close (text y)) (rest : List Char) :
    closed item close (commas (xs.map text) ++ close :: rest) = some (xs, rest) := by
  cases xs with
  | nil =>
    have hskip : skip (close :: rest) = close :: rest := by
      rw [skip, List.dropWhile_cons_of_neg (by simp [hspace])]
    simp only [closed, List.map_nil, commas, List.nil_append, hskip, if_true]
  | cons x xs =>
    have hfirst : Begins close (commas ((x :: xs).map text)) :=
      begins_commas (hbegins x List.mem_cons_self)
    have hlength := length_le_commas ((x :: xs).map text)
    have hskip := hfirst.skip_append (close :: rest)
    obtain ⟨c, cs, hc, _, hne⟩ := hfirst
    have hfuel : xs.length < (cs ++ close :: rest).length + 1 := by
      rw [hc] at hlength
      simp only [List.length_map, List.length_cons, List.length_append] at hlength ⊢
      omega
    have hall := sepBy_commas hspace hcomma hends hitem hbegins hfuel rest
    rw [hc, List.cons_append] at hskip hall
    rw [closed, hc, List.cons_append, hskip]
    simp only [if_neg hne, hall]

end Items

/-- Fields of different names all count. -/
theorem collapse_of_nodup (hnodup : (fields.map Prod.fst).Nodup) : collapse fields = fields := by
  have hfold : ∀ rest acc : List (String × Value), ((acc ++ rest).map Prod.fst).Nodup →
      rest.foldl (fun d f => Dict.setIn f.1 f.2 d) acc = acc ++ rest := by
    intro rest
    induction rest with
    | nil =>
      intro acc _
      rw [List.foldl_nil, List.append_nil]
    | cons f rest ih =>
      intro acc hacc
      have hnew : f.1 ∉ acc.map Prod.fst := by
        rw [List.map_append, List.nodup_append] at hacc
        intro hmem
        exact hacc.2.2 f.1 hmem f.1 (by simp) rfl
      rw [List.foldl_cons, Dict.setIn_of_notMem hnew, ih _ (by simpa using hacc), List.append_assoc,
        List.singleton_append]
  exact hfold fields [] hnodup

theorem length_le_flatMap_escape (s : List Char) : s.length ≤ (s.flatMap escape).length := by
  induction s with
  | nil => simp
  | cons c s ih =>
    obtain ⟨d, ds, hescape, _⟩ := escape_ne_quotation c
    rw [List.flatMap_cons, hescape, List.length_append, List.length_cons, List.length_cons]
    omega

/-- A string is read back where the bound is the length of what is left. -/
theorem scanString_quote (s : String) (rest : List Char) :
    scanString ((s.toList.flatMap escape ++ '"' :: rest).length + 1)
      (s.toList.flatMap escape ++ '"' :: rest) = some (s.toList, rest) := by
  apply scanString_append
  have hlength := length_le_flatMap_escape s.toList
  rw [List.length_append]
  omega

theorem quote_append (s rest : List Char) :
    quote s ++ rest = '"' :: (s.flatMap escape ++ '"' :: rest) := by
  simp [quote]

/-- A number begins with a sign or a digit. -/
theorem exists_number_cons (x : Number) :
    ∃ c cs, x.text = c :: cs ∧ (c = '-' ∨ c.isDigit = true) := by
  have hsign : ∀ neg whole tail, ∃ c cs, sign neg ++ (decimal whole ++ tail) = c :: cs ∧
      (c = '-' ∨ c.isDigit = true) := by
    intro neg whole tail
    cases neg with
    | true => exact ⟨'-', _, rfl, Or.inl rfl⟩
    | false =>
      cases hd : decimal whole with
      | nil => exact absurd hd (decimal_ne_nil whole)
      | cons c cs =>
        have hall := all_decimal whole
        rw [hd, List.all_cons, Bool.and_eq_true] at hall
        exact ⟨c, _, rfl, Or.inr hall.1⟩
  cases x with
  | int n =>
    obtain ⟨c, cs, h, hc⟩ := hsign (n < 0) n.natAbs []
    rw [List.append_nil] at h
    exact ⟨c, cs, h, hc⟩
  | float x => exact hsign x.neg x.whole (x.frac ++ x.exp)

/-- A value begins with neither space nor a closing bracket. -/
theorem begins_dumps {close : Char} (hclose : close = ']' ∨ close = '}') (v : Value) :
    Begins close (dumps v) := by
  cases v with
  | const k => cases k <;> exact ⟨_, _, rfl, rfl, by rcases hclose with rfl | rfl <;> decide⟩
  | num x =>
    obtain ⟨c, cs, hc, hfirst⟩ := exists_number_cons x
    refine ⟨c, cs, hc, ?_, ?_⟩
    · cases hspace : isSpace c with
      | false => rfl
      | true =>
        simp only [isSpace, Bool.or_eq_true, decide_eq_true_eq] at hspace
        rcases hspace with ((rfl | rfl) | rfl) | rfl <;> revert hfirst <;> decide
    · rintro rfl
      rcases hclose with rfl | rfl <;> revert hfirst <;> decide
  | str s => exact ⟨'"', _, rfl, rfl, by rcases hclose with rfl | rfl <;> decide⟩
  | arr items => exact ⟨'[', _, rfl, rfl, by rcases hclose with rfl | rfl <;> decide⟩
  | obj fields => exact ⟨'{', _, rfl, rfl, by rcases hclose with rfl | rfl <;> decide⟩

theorem ends_close {close : Char} (hclose : close = ']' ∨ close = '}') (rest : List Char) :
    Ends (close :: rest) := by
  intro c cs h
  obtain ⟨rfl, _⟩ := List.cons.inj h
  rcases hclose with rfl | rfl <;> decide

/-- A field is read back where its value is. -/
theorem scanField_fieldText {value : List Char → Option (Value × List Char)} {f : String × Value}
    (hvalue : value (dumps f.2 ++ rest) = some (f.2, rest)) :
    scanField value (fieldText f ++ rest) = some (f, rest) := by
  have hcolon : ∀ cs, skip (':' :: ' ' :: cs) = ':' :: ' ' :: cs := fun cs => rfl
  have hblank : ∀ cs, skip (' ' :: cs) = skip cs := fun cs => rfl
  have hskip := (begins_dumps (Or.inl rfl) f.2).skip_append rest
  have htext : fieldText f ++ rest =
      '"' :: (f.1.toList.flatMap escape ++ '"' :: ':' :: ' ' :: (dumps f.2 ++ rest)) := by
    simp [fieldText, quote]
  rw [htext, scanField, if_pos rfl, scanString_quote]
  simp only [hcolon, if_true, hblank, hskip, hvalue, Option.map_some, String.ofList_toList]

theorem begins_fieldText {close : Char} (hclose : close = ']' ∨ close = '}')
    (f : String × Value) : Begins close (fieldText f) :=
  ⟨'"', _, rfl, rfl, by rcases hclose with rfl | rfl <;> decide⟩

/-- A value is read back from its text. -/
theorem parseValue_dumps (v : Value) (hv : v.distinct = true) {fuel : Nat}
    (hfuel : (dumps v).length ≤ fuel) (hrest : Ends rest) :
    parseValue fuel (dumps v ++ rest) = some (v, rest) := by
  induction v using Value.nested generalizing fuel rest with
  | const k =>
    cases fuel with
    | zero =>
      exfalso
      revert hfuel
      cases k <;> decide
    | succ fuel =>
      have hscan := scanConstant_append k rest
      have hfirst : ∃ c cs, k.text = c :: cs ∧ c ≠ '"' ∧ c ≠ '[' ∧ c ≠ '{' := by
        cases k <;> exact ⟨_, _, rfl, by decide, by decide, by decide⟩
      obtain ⟨c, cs, hc, hquote, harr, hobj⟩ := hfirst
      rw [dumps, hc, List.cons_append]
      rw [hc, List.cons_append] at hscan
      simp only [parseValue, if_neg hquote, if_neg harr, if_neg hobj, hscan]
  | num x =>
    cases fuel with
    | zero =>
      obtain ⟨c, cs, hc, _⟩ := exists_number_cons x
      rw [dumps, hc] at hfuel
      contradiction
    | succ fuel =>
      have hconst := scanConstant_number x rest
      have hscan := scanNumber_append x hrest
      obtain ⟨c, cs, hc, hfirst⟩ := exists_number_cons x
      have hquote : c ≠ '"' := by
        rintro rfl
        revert hfirst
        decide
      have harr : c ≠ '[' := by
        rintro rfl
        revert hfirst
        decide
      have hobj : c ≠ '{' := by
        rintro rfl
        revert hfirst
        decide
      rw [dumps, hc, List.cons_append]
      rw [hc, List.cons_append] at hconst hscan
      simp only [parseValue, if_neg hquote, if_neg harr, if_neg hobj, hconst, hscan,
        Option.map_some]
  | str s =>
    cases fuel with
    | zero => contradiction
    | succ fuel =>
      rw [dumps, quote_append, parseValue, if_pos rfl, scanString_quote, Option.map_some,
        String.ofList_toList]
  | arr items ih =>
    cases fuel with
    | zero => contradiction
    | succ fuel =>
      have hitem : ∀ v ∈ items, ∀ rest, Ends rest →
          parseValue fuel (dumps v ++ rest) = some (v, rest) := by
        intro v hmem rest hrest
        have hlength := length_le_of_mem_commas (List.mem_map_of_mem (f := dumps) hmem)
        refine ih v hmem (distinctItems_iff.mp hv v hmem) ?_ hrest
        simp only [dumps, dumpsItems_eq, List.length_append, List.length_cons] at hfuel
        omega
      have hclosed := closed_commas rfl (by decide) (ends_close (Or.inl rfl)) hitem
        (fun v _ => begins_dumps (Or.inl rfl) v) rest
      have htext : dumps (.arr items) ++ rest =
          '[' :: (commas (items.map dumps) ++ ']' :: rest) := by
        simp [dumps, dumpsItems_eq]
      rw [htext, parseValue, if_neg (by decide), if_pos rfl, hclosed, Option.map_some]
  | obj fields ih =>
    cases fuel with
    | zero => contradiction
    | succ fuel =>
      simp only [Value.distinct, Bool.and_eq_true, decide_eq_true_eq] at hv
      have hitem : ∀ f ∈ fields, ∀ rest, Ends rest →
          scanField (parseValue fuel) (fieldText f ++ rest) = some (f, rest) := by
        intro f hmem rest hrest
        have hlength := length_le_of_mem_commas (List.mem_map_of_mem (f := fieldText) hmem)
        apply scanField_fieldText
        refine ih f hmem (distinctFields_iff.mp hv.2 f hmem) ?_ hrest
        simp only [dumps, dumpsFields_eq, List.length_append, List.length_cons] at hfuel
        simp only [fieldText, List.length_append, List.length_cons] at hlength
        omega
      have hclosed := closed_commas rfl (by decide) (ends_close (Or.inr rfl)) hitem
        (fun f _ => begins_fieldText (Or.inr rfl) f) rest
      have htext : dumps (.obj fields) ++ rest =
          '{' :: (commas (fields.map fieldText) ++ '}' :: rest) := by
        simp [dumps, dumpsFields_eq]
      rw [htext, parseValue, if_neg (by decide), if_neg (by decide), if_pos rfl, hclosed,
        Option.map_some, collapse_of_nodup hv.1]

/-- `loads` undoes `dumps`. -/
theorem loads_dumps (v : Value) (hv : v.distinct = true) : loads (dumps v) = some v := by
  have hskip := (begins_dumps (Or.inl rfl) v).skip_append []
  have hparse := parseValue_dumps v hv (Nat.le_succ (dumps v).length) ends_nil
  rw [List.append_nil] at hskip hparse
  rw [loads, hskip, hparse]
  rfl

end Json
