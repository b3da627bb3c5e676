import TinyAgentOS.Library.Dict
import TinyAgentOS.Library.JsJsonText

/-!
# JSON values of JavaScript

`JSON.stringify` writes values without blanks, and a number that is not finite as
`null`; `JSON.parse` reads them back.  What a number is, and how its text is made and
read, is a parameter with the laws that the language gives: the text of a finite number is read
back as that number, the two zeros being one.

Main results:

- `Js.parse_stringify`: a value is read back with `null` for the numbers that are not finite.
- `Js.settled_eq_iff`: exactly a value without such numbers is read back as it is.
- `Js.distinct_of_parse`: in a value that was read no two members have one name.
-/

namespace Js

open Collections

/-- The numbers of the language. -/
structure JsonNumbers (ν : Type) where
  ofText : JsString → ν
  text : ν → JsString
  isFinite : ν → Bool
  one : ν
  isNumberText : ∀ x, isFinite x = true → IsNumberText (text x)
  ofText_text : ∀ x, isFinite x = true → ofText (text x) = x
  finite_one : isFinite one = true

/-- Every text of a number is a number of its own. -/
def textNumbers : JsonNumbers JsString where
  ofText := id
  text := id
  isFinite text := decide (scanNumber .start text = some (text, []))
  one := ofString "1"
  isNumberText _ h := by simpa [IsNumberText] using h
  ofText_text _ _ := rfl
  finite_one := by decide

inductive JsonValue (ν : Type) where
  | null
  | bool (b : Bool)
  | number (x : ν)
  | string (s : JsString)
  | array (items : List (JsonValue ν))
  | object (members : List (JsString × JsonValue ν))

variable {ν : Type}

/-! ## Writing -/

def commas : List JsString → JsString
  | [] => []
  | [t] => t
  | t :: ts => t ++ unit ',' :: commas ts

def quote (s : JsString) : JsString :=
  unit '"' :: quoteUnits s ++ [unit '"']

def boolText (b : Bool) : JsString :=
  ofString (if b then "true" else "false")

def numberText (N : JsonNumbers ν) (x : ν) : JsString :=
  if N.isFinite x then N.text x else ofString "null"

mutual

/-- `JSON.stringify`. -/
def stringify (N : JsonNumbers ν) : JsonValue ν → JsString
  | .null => ofString "null"
  | .bool b => boolText b
  | .number x => numberText N x
  | .string s => quote s
  | .array items => unit '[' :: commas (stringifyItems N items) ++ [unit ']']
  | .object members => unit '\x7b' :: commas (stringifyMembers N members) ++ [unit '\x7d']

def stringifyItems (N : JsonNumbers ν) : List (JsonValue ν) → List JsString
  | [] => []
  | v :: vs => stringify N v :: stringifyItems N vs

def stringifyMembers (N : JsonNumbers ν) : List (JsString × JsonValue ν) → List JsString
  | [] => []
  | (name, v) :: members =>
    (quote name ++ unit ':' :: stringify N v) :: stringifyMembers N members

end

/-! ## Reading -/

def isBlank (u : UInt16) : Bool :=
  u = unit ' ' || u = unit '\t' || u = unit '\n' || u = unit '\r'

/-- Skip the blanks. -/
def skip (us : JsString) : JsString :=
  us.dropWhile isBlank

section Items

variable {α : Type} (item : JsString → Option (α × JsString)) (close : UInt16)

/-- Items between commas, up to a closing unit. -/
def sepBy : Nat → JsString → Option (List α × JsString)
  | 0, _ => none
  | fuel + 1, us =>
    match item us with
    | none => none
    | some (x, rest) =>
      match skip rest with
      | [] => none
      | u :: rest =>
        if u = close then some ([x], rest)
        else if u = unit ',' then (sepBy fuel (skip rest)).map fun p => (x :: p.1, p.2)
        else none

/-- An opening unit has been read. -/
def closed (us : JsString) : Option (List α × JsString) :=
  match skip us with
  | [] => none
  | u :: rest =>
    if u = close then some ([], rest) else sepBy item close (rest.length + 1) (u :: rest)

end Items

/-- A name in quotation marks, a colon and a value. -/
def scanMember (value : JsString → Option (JsonValue ν × JsString)) :
    JsString → Option ((JsString × JsonValue ν) × JsString)
  | [] => none
  | u :: us =>
    if u = unit '"' then
      match scanString .plain us with
      | none => none
      | some (name, rest) =>
        match skip rest with
        | [] => none
        | v :: rest =>
          if v = unit ':' then (value (skip rest)).map fun p => ((name, p.1), p.2) else none
    else none

/-- Of the members of one name the last counts. -/
def collapse (members : List (JsString × JsonValue ν)) : List (JsString × JsonValue ν) :=
  members.foldl (fun d m => Dict.setIn m.1 m.2 d) []

/-- The words of the grammar. -/
def words : List (JsString × JsonValue ν) :=
  [(ofString "null", .null), (ofString "true", .bool true), (ofString "false", .bool false)]

def scanWord (us : JsString) : Option (JsonValue ν × JsString) :=
  (words.find? fun w => w.1.isPrefixOf us).map fun w => (w.2, us.drop w.1.length)

/-- A value, with a bound on the depth. -/
def parseValue (N : JsonNumbers ν) : Nat → JsString → Option (JsonValue ν × JsString)
  | 0, _ => none
  | _ + 1, [] => none
  | fuel + 1, u :: us =>
    if u = unit '"' then (scanString .plain us).map fun p => (.string p.1, p.2)
    else if u = unit '[' then
      (closed (parseValue N fuel) (unit ']') us).map fun p => (.array p.1, p.2)
    else if u = unit '\x7b' then
      (closed (scanMember (parseValue N fuel)) (unit '\x7d') us).map fun p =>
        (.object (collapse p.1), p.2)
    else
      match scanWord (u :: us) with
      | some p => some p
      | none => (scanNumber .start (u :: us)).map fun p => (.number (N.ofText p.1), p.2)

/-- `JSON.parse`, where `none` is a `SyntaxError`. -/
def parse (N : JsonNumbers ν) (text : JsString) : Option (JsonValue ν) :=
  match parseValue N (text.length + 1) (skip text) with
  | some (v, rest) => if skip rest = [] then some v else none
  | none => none

/-! ## Values -/

/-- `s[name]`, where `none` is `undefined`. -/
def prop (members : List (JsString × JsonValue ν)) (name : String) : Option (JsonValue ν) :=
  Dict.lookupIn (ofString name) members

/-- `typeof value === "string"`. -/
def isString : Option (JsonValue ν) → Bool
  | some (.string _) => true
  | _ => false

mutual

/-- No two members of an object have one name. -/
def JsonValue.distinct : JsonValue ν → Bool
  | .null => true
  | .bool _ => true
  | .number _ => true
  | .string _ => true
  | .array items => distinctItems items
  | .object members => (members.map Prod.fst).Nodup && distinctMembers members

def distinctItems : List (JsonValue ν) → Bool
  | [] => true
  | v :: vs => v.distinct && distinctItems vs

def distinctMembers : List (JsString × JsonValue ν) → Bool
  | [] => true
  | (_, v) :: members => v.distinct && distinctMembers members

end

mutual

/-- A value with `null` for the numbers that are not finite. -/
def settled (N : JsonNumbers ν) : JsonValue ν → JsonValue ν
  | .null => .null
  | .bool b => .bool b
  | .number x => if N.isFinite x then .number x else .null
  | .string s => .string s
  | .array items => .array (settledItems N items)
  | .object members => .object (settledMembers N members)

def settledItems (N : JsonNumbers ν) : List (JsonValue ν) → List (JsonValue ν)
  | [] => []
  | v :: vs => settled N v :: settledItems N vs

def settledMembers (N : JsonNumbers ν) :
    List (JsString × JsonValue ν) → List (JsString × JsonValue ν)
  | [] => []
  | (name, v) :: members => (name, settled N v) :: settledMembers N members

end

mutual

/-- All numbers are finite. -/
def JsonValue.finite (N : JsonNumbers ν) : JsonValue ν → Bool
  | .null => true
  | .bool _ => true
  | .number x => N.isFinite x
  | .string _ => true
  | .array items => finiteItems N items
  | .object members => finiteMembers N members

def finiteItems (N : JsonNumbers ν) : List (JsonValue ν) → Bool
  | [] => true
  | v :: vs => v.finite N && finiteItems N vs

def finiteMembers (N : JsonNumbers ν) : List (JsString × JsonValue ν) → Bool
  | [] => true
  | (_, v) :: members => v.finite N && finiteMembers N members

end

/-! ## Lists of values -/

/-- A value is an item or a member's value, or has none. -/
@[elab_as_elim]
theorem JsonValue.nested {P : JsonValue ν → Prop} (null : P .null) (bool : ∀ b, P (.bool b))
    (number : ∀ x, P (.number x)) (string : ∀ s, P (.string s))
    (array : ∀ items, (∀ v ∈ items, P v) → P (.array items))
    (object : ∀ members, (∀ m ∈ members, P m.2) → P (.object members)) (v : JsonValue ν) : P v := by
  refine @JsonValue.rec ν P (fun items => ∀ v ∈ items, P v) (fun members => ∀ m ∈ members, P m.2)
    (fun m => P m.2) null bool number string array object ?_ ?_ ?_ ?_ ?_ v
  · intro v hv
    contradiction
  · intro v items hv hitems
    exact List.forall_mem_cons.mpr ⟨hv, hitems⟩
  · intro m hm
    contradiction
  · intro m members hm hmembers
    exact List.forall_mem_cons.mpr ⟨hm, hmembers⟩
  · intro name v hv
    exact hv

section Lists

variable (N : JsonNumbers ν)

/-- The text of a member. -/
def memberText (m : JsString × JsonValue ν) : JsString :=
  quote m.1 ++ unit ':' :: stringify N m.2

/-- The items are written one by one. -/
theorem stringifyItems_eq (items : List (JsonValue ν)) :
    stringifyItems N items = items.map (stringify N) := by
  induction items with
  | nil => rfl
  | cons v vs ih => rw [stringifyItems, ih, List.map_cons]

/-- The members are written one by one. -/
theorem stringifyMembers_eq (members : List (JsString × JsonValue ν)) :
    stringifyMembers N members = members.map (memberText N) := by
  induction members with
  | nil => rfl
  | cons m members ih => rw [stringifyMembers, ih, List.map_cons, memberText]

theorem settledItems_eq (items : List (JsonValue ν)) :
    settledItems N items = items.map (settled N) := by
  induction items with
  | nil => rfl
  | cons v vs ih => rw [settledItems, ih, List.map_cons]

theorem settledMembers_eq (members : List (JsString × JsonValue ν)) :
    settledMembers N members = members.map fun m => (m.1, settled N m.2) := by
  induction members with
  | nil => rfl
  | cons m members ih => rw [settledMembers, ih, List.map_cons]

variable {items : List (JsonValue ν)} {members : List (JsString × JsonValue ν)}

theorem distinctItems_iff : distinctItems items = true ↔ ∀ v ∈ items, v.distinct = true := by
  induction items with
  | nil => simp [distinctItems]
  | cons v vs ih => simp [distinctItems, ih]

theorem distinctMembers_iff :
    distinctMembers members = true ↔ ∀ m ∈ members, m.2.distinct = true := by
  induction members with
  | nil => simp [distinctMembers]
  | cons m members ih => simp [distinctMembers, ih]

theorem finiteItems_iff : finiteItems N items = true ↔ ∀ v ∈ items, v.finite N = true := by
  induction items with
  | nil => simp [finiteItems]
  | cons v vs ih => simp [finiteItems, ih]

theorem finiteMembers_iff :
    finiteMembers N members = true ↔ ∀ m ∈ members, m.2.finite N = true := by
  induction members with
  | nil => simp [finiteMembers]
  | cons m members ih => simp [finiteMembers, ih]

theorem map_eq_self_iff {α : Type} {f : α → α} {xs : List α} :
    xs.map f = xs ↔ ∀ x ∈ xs, f x = x := by
  induction xs with
  | nil => simp
  | cons x xs ih => simp [ih]

/-- Exactly a value whose numbers are finite is left as it is. -/
theorem settled_eq_iff (v : JsonValue ν) : settled N v = v ↔ v.finite N = true := by
  induction v using JsonValue.nested with
  | null | bool | string => exact iff_of_true rfl rfl
  | number x =>
    by_cases hfinite : N.isFinite x = true
    · exact iff_of_true (if_pos hfinite) hfinite
    · refine iff_of_false ?_ hfinite
      rw [settled, if_neg hfinite]
      intro h
      contradiction
  | array items ih =>
    rw [settled, settledItems_eq, JsonValue.array.injEq, map_eq_self_iff, JsonValue.finite,
      finiteItems_iff]
    exact forall₂_congr ih
  | object members ih =>
    rw [settled, settledMembers_eq, JsonValue.object.injEq, map_eq_self_iff, JsonValue.finite,
      finiteMembers_iff]
    refine forall₂_congr fun m hm => ?_
    rw [Prod.ext_iff, and_iff_right rfl]
    exact ih m hm

end Lists

/-- The keys of an object that is distinct are. -/
theorem nodup_of_distinct {members : List (JsString × JsonValue ν)}
    (h : (JsonValue.object members).distinct = true) : (members.map Prod.fst).Nodup := by
  simp only [JsonValue.distinct, Bool.and_eq_true, decide_eq_true_eq] at h
  exact h.1

theorem isString_iff {v : Option (JsonValue ν)} :
    isString v = true ↔ ∃ s, v = some (.string s) := by
  constructor
  · intro h
    cases v with
    | none => contradiction
    | some w =>
      cases w with
      | string s => exact ⟨s, rfl⟩
      | _ => contradiction
  · rintro ⟨s, rfl⟩
    rfl

/-! ## Separators -/

/-- The text begins with a unit that is neither a blank nor the closing one. -/
def Begins (close : UInt16) (text : JsString) : Prop :=
  ∃ u us, text = u :: us ∧ isBlank u = false ∧ u ≠ close

/-- No blank comes before a text that begins so. -/
theorem Begins.skip_append {close : UInt16} {text : JsString} (h : Begins close text)
    (rest : JsString) : skip (text ++ rest) = text ++ rest := by
  obtain ⟨u, us, rfl, hblank, _⟩ := h
  rw [List.cons_append, skip, List.dropWhile_cons_of_neg (by simp [hblank])]

theorem commas_cons_cons (t t' : JsString) (ts : List JsString) :
    commas (t :: t' :: ts) = t ++ unit ',' :: commas (t' :: ts) :=
  rfl

/-- Texts between commas are no more than their characters and one. -/
theorem length_le_commas (ts : List JsString) : ts.length ≤ (commas ts).length + 1 := by
  induction ts with
  | nil => simp
  | cons t ts ih =>
    cases ts with
    | nil => simp
    | cons t' ts =>
      simp only [commas_cons_cons, List.length_append, List.length_cons] at ih ⊢
      omega

/-- A text is no longer than the texts between commas. -/
theorem length_le_of_mem_commas {t : JsString} {ts : List JsString} (ht : t ∈ ts) :
    t.length ≤ (commas ts).length := by
  induction ts with
  | nil => contradiction
  | cons t' ts ih =>
    cases ts with
    | nil =>
      rw [List.mem_singleton.mp ht]
      exact le_refl _
    | cons t'' ts =>
      rw [commas_cons_cons, List.length_append, List.length_cons]
      rcases List.mem_cons.mp ht with rfl | ht
      · omega
      · have h := ih ht
        omega

section Items

variable {α β : Type} {item : JsString → Option (β × JsString)} {close : UInt16}
  {text : α → JsString} {result : α → β}

variable {xs : List α}

variable {x : α} {fuel : Nat} {P : β → Prop}

/-- Texts between commas begin as the first does. -/
theorem begins_commas (hx : Begins close (text x)) :
    Begins close (commas ((x :: xs).map text)) := by
  obtain ⟨u, us, hu, hrest⟩ := hx
  cases xs with
  | nil => exact ⟨u, us, hu, hrest⟩
  | cons y ys =>
    refine ⟨u, us ++ unit ',' :: commas ((y :: ys).map text), ?_, hrest⟩
    rw [List.map_cons, List.map_cons, commas_cons_cons, hu, List.cons_append]

/-- Items are read back that stand between commas. -/
theorem sepBy_commas (hblank : isBlank close = false) (hcomma : close ≠ unit ',')
    (hends : ∀ rest, Ends (close :: rest))
    (hitem : ∀ y ∈ x :: xs, ∀ rest, Ends rest → item (text y ++ rest) = some (result y, rest))
    (hbegins : ∀ y ∈ x :: xs, Begins close (text y)) (hfuel : xs.length < fuel) (rest : JsString) :
    sepBy item close fuel (commas ((x :: xs).map text) ++ close :: rest) =
      some ((x :: xs).map result, rest) := by
  induction xs generalizing x fuel with
  | nil =>
    cases fuel with
    | zero => contradiction
    | succ fuel =>
      have hskip : skip (close :: rest) = close :: rest := by
        rw [skip, List.dropWhile_cons_of_neg (by simp [hblank])]
      have hx := hitem x List.mem_cons_self (close :: rest) (hends rest)
      simp only [List.map_cons, List.map_nil, commas, sepBy, hx, hskip, if_true]
  | cons y ys ih =>
    cases fuel with
    | zero => contradiction
    | succ fuel =>
      have hcommaEnds : ∀ us, Ends (unit ',' :: us) := by
        intro us u vs h
        obtain ⟨rfl, _⟩ := List.cons.inj h
        decide
      have htail := ih (fun z hz => hitem z (List.mem_cons_of_mem x hz))
        (fun z hz => hbegins z (List.mem_cons_of_mem x hz)) (Nat.lt_of_succ_lt_succ hfuel)
      have hx := hitem x List.mem_cons_self
        (unit ',' :: (commas ((y :: ys).map text) ++ close :: rest)) (hcommaEnds _)
      have hskip : ∀ us, skip (unit ',' :: us) = unit ',' :: us := fun us => rfl
      have hy : Begins close (commas ((y :: ys).map text)) :=
        begins_commas (hbegins y (List.mem_cons_of_mem x List.mem_cons_self))
      have hcommas : commas ((x :: y :: ys).map text) ++ close :: rest =
          text x ++ unit ',' :: (commas ((y :: ys).map text) ++ close :: rest) := by
        simp [commas_cons_cons]
      rw [hcommas]
      simp only [sepBy, hx, hskip, if_neg hcomma.symm, if_true, hy.skip_append, htail,
        Option.map_some]
      rfl

/-- Items are read back after their opening unit. -/
theorem closed_commas (hblank : isBlank close = false) (hcomma : close ≠ unit ',')
    (hends : ∀ rest, Ends (close :: rest))
    (hitem : ∀ y ∈ xs, ∀ rest, Ends rest → item (text y ++ rest) = some (result y, rest))
    (hbegins : ∀ y ∈ xs, Begins close (text y)) (rest : JsString) :
    closed item close (commas (xs.map text) ++ close :: rest) = some (xs.map result, rest) := by
  cases xs with
  | nil =>
    have hskip : skip (close :: rest) = close :: rest := by
      rw [skip, List.dropWhile_cons_of_neg (by simp [hblank])]
    simp only [closed, List.map_nil, commas, List.nil_append, hskip, if_true]
  | cons x xs =>
    have hfirst : Begins close (commas ((x :: xs).map text)) :=
      begins_commas (hbegins x List.mem_cons_self)
    have hlength := length_le_commas ((x :: xs).map text)
    have hskip := hfirst.skip_append (close :: rest)
    obtain ⟨u, us, hu, _, hne⟩ := hfirst
    have hfuel : xs.length < (us ++ close :: rest).length + 1 := by
      rw [hu] at hlength
      simp only [List.length_map, List.length_cons, List.length_append] at hlength ⊢
      omega
    have hall := sepBy_commas hblank hcomma hends hitem hbegins hfuel rest
    rw [hu, List.cons_append] at hskip hall
    rw [closed, hu, List.cons_append, hskip]
    simp only [if_neg hne, hall]

/-- What holds of every item that can be read holds of the items. -/
theorem forall_of_sepBy (hitem : ∀ us x rest, item us = some (x, rest) → P x) {us rest : JsString}
    {xs : List β} (h : sepBy item close fuel us = some (xs, rest)) : ∀ x ∈ xs, P x := by
  induction fuel generalizing us xs with
  | zero => contradiction
  | succ fuel ih =>
    rw [sepBy] at h
    cases hx : item us with
    | none =>
      rw [hx] at h
      contradiction
    | some p =>
      obtain ⟨x, after⟩ := p
      rw [hx] at h
      cases hskip : skip after with
      | nil =>
        simp only [hskip] at h
        contradiction
      | cons u after' =>
        simp only [hskip] at h
        by_cases hclose : u = close
        · rw [if_pos hclose] at h
          cases h
          exact List.forall_mem_singleton.mpr (hitem us x after hx)
        · rw [if_neg hclose] at h
          by_cases hcomma : u = unit ','
          · rw [if_pos hcomma] at h
            obtain ⟨q, hq, heq⟩ := Option.map_eq_some_iff.mp h
            cases heq
            exact List.forall_mem_cons.mpr ⟨hitem us x after hx, ih hq⟩
          · rw [if_neg hcomma] at h
            contradiction

/-- What holds of every item that is read holds of the items of a list. -/
theorem forall_of_closed (hitem : ∀ us x rest, item us = some (x, rest) → P x)
    {us rest : JsString} {xs : List β} (h : closed item close us = some (xs, rest)) :
    ∀ x ∈ xs, P x := by
  rw [closed] at h
  cases hskip : skip us with
  | nil =>
    rw [hskip] at h
    contradiction
  | cons u after =>
    simp only [hskip] at h
    by_cases hclose : u = close
    · rw [if_pos hclose] at h
      cases h
      intro x hx
      contradiction
    · rw [if_neg hclose] at h
      exact forall_of_sepBy hitem h

end Items

/-! ## Words and numbers -/

/-- A word is read back. -/
theorem scanWord_append {w : JsString × JsonValue ν} (hw : w ∈ words) (rest : JsString) :
    scanWord (w.1 ++ rest) = some (w.2, rest) := by
  rcases hw with _ | ⟨_, _ | ⟨_, _ | ⟨_, hw⟩⟩⟩
  · rfl
  · rfl
  · rfl
  · contradiction

/-- No word begins like a number. -/
theorem scanWord_of_digit {u : UInt16} (hu : u = unit '-' ∨ isDigit u = true) (us : JsString) :
    scanWord (ν := ν) (u :: us) = none := by
  have hne : ∀ c ∈ ['n', 't', 'f'], unit c ≠ u := by
    rintro c hc rfl
    revert hu
    rcases hc with _ | ⟨_, _ | ⟨_, _ | ⟨_, hc⟩⟩⟩
    · decide
    · decide
    · decide
    · contradiction
  have hfirst : ∀ w ∈ words (ν := ν), ∃ c ∈ ['n', 't', 'f'], ∃ vs, w.1 = unit c :: vs := by
    rintro w (_ | ⟨_, _ | ⟨_, _ | ⟨_, hw⟩⟩⟩)
    · exact ⟨'n', by decide, _, rfl⟩
    · exact ⟨'t', by decide, _, rfl⟩
    · exact ⟨'f', by decide, _, rfl⟩
    · contradiction
  rw [scanWord, Option.map_eq_none_iff, List.find?_eq_none]
  intro w hw hbegins
  obtain ⟨c, hc, vs, hvs⟩ := hfirst w hw
  obtain ⟨suffix, hsuffix⟩ := List.isPrefixOf_iff_prefix.mp hbegins
  rw [hvs] at hsuffix
  exact hne c hc (List.cons.inj hsuffix).1

/-! ## The round trip -/

section RoundTrip

variable (N : JsonNumbers ν)

theorem exists_boolText (b : Bool) : (boolText b, JsonValue.bool b) ∈ words (ν := ν) := by
  cases b with
  | true => exact List.mem_cons_of_mem _ List.mem_cons_self
  | false => exact List.mem_cons_of_mem _ (List.mem_cons_of_mem _ List.mem_cons_self)

/-- The text of a value begins with a unit that closes nothing. -/
theorem begins_stringify {close : UInt16} (hclose : close = unit ']' ∨ close = unit '\x7d')
    (v : JsonValue ν) : Begins close (stringify N v) := by
  have hne : ∀ u, u ≠ unit ']' → u ≠ unit '\x7d' → u ≠ close := by
    rintro u h₁ h₂ rfl
    exact hclose.elim h₁ h₂
  cases v with
  | null => exact ⟨unit 'n', _, rfl, rfl, hne _ (by decide) (by decide)⟩
  | bool b =>
    cases b with
    | true => exact ⟨unit 't', _, rfl, rfl, hne _ (by decide) (by decide)⟩
    | false => exact ⟨unit 'f', _, rfl, rfl, hne _ (by decide) (by decide)⟩
  | number x =>
    by_cases hfinite : N.isFinite x = true
    · obtain ⟨u, us, hu, hfirst⟩ := (N.isNumberText x hfinite).exists_cons
      refine ⟨u, us, ?_, ?_, hne _ ?_ ?_⟩
      · rw [stringify, numberText, if_pos hfinite, hu]
      · cases hblank : isBlank u with
        | false => rfl
        | true =>
          simp only [isBlank, Bool.or_eq_true, decide_eq_true_eq] at hblank
          rcases hblank with ((rfl | rfl) | rfl) | rfl <;> revert hfirst <;> decide
      · rintro rfl
        revert hfirst
        decide
      · rintro rfl
        revert hfirst
        decide
    · refine ⟨unit 'n', ofString "ull", ?_, rfl, hne _ (by decide) (by decide)⟩
      rw [stringify, numberText, if_neg hfinite]
      rfl
  | string s => exact ⟨unit '"', _, rfl, rfl, hne _ (by decide) (by decide)⟩
  | array items => exact ⟨unit '[', _, rfl, rfl, hne _ (by decide) (by decide)⟩
  | object members => exact ⟨unit '\x7b', _, rfl, rfl, hne _ (by decide) (by decide)⟩

/-- A number ends before a bracket. -/
theorem ends_close {close : UInt16} (hclose : close = unit ']' ∨ close = unit '\x7d')
    (rest : JsString) : Ends (close :: rest) := by
  intro u us h
  obtain ⟨rfl, _⟩ := List.cons.inj h
  rcases hclose with rfl | rfl <;> decide

/-- A word is read where a value is read. -/
theorem parseValue_word {w : JsString × JsonValue ν} (hw : w ∈ words) (fuel : Nat)
    (rest : JsString) : parseValue N (fuel + 1) (w.1 ++ rest) = some (w.2, rest) := by
  have hscan := scanWord_append hw rest
  have hfirst : ∃ u us, w.1 = u :: us ∧ u ≠ unit '"' ∧ u ≠ unit '[' ∧ u ≠ unit '\x7b' := by
    rcases hw with _ | ⟨_, _ | ⟨_, _ | ⟨_, hw⟩⟩⟩
    · exact ⟨unit 'n', _, rfl, by decide, by decide, by decide⟩
    · exact ⟨unit 't', _, rfl, by decide, by decide, by decide⟩
    · exact ⟨unit 'f', _, rfl, by decide, by decide, by decide⟩
    · contradiction
  obtain ⟨u, us, hu, hquote, harray, hobject⟩ := hfirst
  rw [hu, List.cons_append] at hscan ⊢
  simp only [parseValue, if_neg hquote, if_neg harray, if_neg hobject, hscan]

variable {rest us : JsString} {v : JsonValue ν}

/-- A finite number is read where a value is read. -/
theorem parseValue_number {x : ν} (hfinite : N.isFinite x = true) (fuel : Nat) (hrest : Ends rest) :
    parseValue N (fuel + 1) (N.text x ++ rest) = some (.number x, rest) := by
  have hscan := scanNumber_append (N.isNumberText x hfinite) hrest
  obtain ⟨u, us, hu, hfirst⟩ := (N.isNumberText x hfinite).exists_cons
  have hword := scanWord_of_digit (ν := ν) hfirst (us ++ rest)
  have hquote : u ≠ unit '"' := by
    rintro rfl
    revert hfirst
    decide
  have harray : u ≠ unit '[' := by
    rintro rfl
    revert hfirst
    decide
  have hobject : u ≠ unit '\x7b' := by
    rintro rfl
    revert hfirst
    decide
  have htext : N.text x ++ rest = u :: (us ++ rest) := by rw [hu, List.cons_append]
  rw [htext] at hscan ⊢
  simp only [parseValue, if_neg hquote, if_neg harray, if_neg hobject, hword, hscan,
    Option.map_some, N.ofText_text x hfinite]

variable {members : List (JsString × JsonValue ν)} {m : JsString × JsonValue ν}
  {value : JsString → Option (JsonValue ν × JsString)} {fuel : Nat}

/-- Members of different names all count. -/
theorem collapse_of_nodup (hnodup : (members.map Prod.fst).Nodup) : collapse members = members := by
  induction members using List.reverseRecOn with
  | nil => rfl
  | append_singleton members m ih =>
    rw [List.map_append, List.nodup_append] at hnodup
    have hnew : m.1 ∉ members.map Prod.fst := by
      intro hmem
      exact hnodup.2.2 m.1 hmem m.1 (by simp) rfl
    rw [collapse, List.foldl_append, List.foldl_cons, List.foldl_nil, ← collapse,
      ih hnodup.1, Dict.setIn_of_notMem hnew]

/-- A member is read back where its value is. -/
theorem scanMember_memberText {w : JsonValue ν}
    (hvalue : value (stringify N m.2 ++ rest) = some (w, rest)) :
    scanMember value (memberText N m ++ rest) = some ((m.1, w), rest) := by
  have hcolon : ∀ us, skip (unit ':' :: us) = unit ':' :: us := fun us => rfl
  have hskip := (begins_stringify N (Or.inl rfl) m.2).skip_append rest
  have htext : memberText N m ++ rest =
      unit '"' :: (quoteUnits m.1 ++ unit '"' :: unit ':' :: (stringify N m.2 ++ rest)) := by
    simp [memberText, quote]
  rw [htext, scanMember, if_pos rfl, scanString_quoteUnits]
  simp only [hcolon, if_true, hskip, hvalue, Option.map_some]

/-- A value is read back from its text. -/
theorem parseValue_stringify (v : JsonValue ν) (hv : v.distinct = true)
    (hfuel : (stringify N v).length ≤ fuel) (hrest : Ends rest) :
    parseValue N fuel (stringify N v ++ rest) = some (settled N v, rest) := by
  induction v using JsonValue.nested generalizing fuel rest with
  | null =>
    cases fuel with
    | zero => contradiction
    | succ fuel =>
      exact parseValue_word N (w := (ofString "null", .null)) (by simp [words]) fuel rest
  | bool b =>
    cases fuel with
    | zero => cases b <;> contradiction
    | succ fuel => exact parseValue_word N (exists_boolText b) fuel rest
  | number x =>
    cases fuel with
    | zero =>
      obtain ⟨u, us, hu, _⟩ := begins_stringify N (Or.inl rfl) (.number x)
      rw [hu] at hfuel
      contradiction
    | succ fuel =>
      rw [stringify, numberText, settled]
      by_cases hfinite : N.isFinite x = true
      · rw [if_pos hfinite, if_pos hfinite]
        exact parseValue_number N hfinite fuel hrest
      · rw [if_neg hfinite, if_neg hfinite]
        exact parseValue_word N (w := (ofString "null", .null)) (by simp [words]) fuel rest
  | string s =>
    cases fuel with
    | zero => contradiction
    | succ fuel =>
      have htext : stringify N (.string s) ++ rest =
          unit '"' :: (quoteUnits s ++ unit '"' :: rest) := by
        simp [stringify, quote]
      rw [htext, parseValue, if_pos rfl, scanString_quoteUnits, Option.map_some, settled]
  | array items ih =>
    cases fuel with
    | zero => contradiction
    | succ fuel =>
      have hitem : ∀ v ∈ items, ∀ rest, Ends rest →
          parseValue N fuel (stringify N v ++ rest) = some (settled N v, rest) := by
        intro v hmem rest hrest
        have hlength := length_le_of_mem_commas (List.mem_map_of_mem (f := stringify N) hmem)
        refine ih v hmem (distinctItems_iff.mp hv v hmem) ?_ hrest
        simp only [stringify, stringifyItems_eq, List.length_append, List.length_cons] at hfuel
        omega
      have hclosed := closed_commas rfl (by decide) (ends_close (Or.inl rfl)) hitem
        (fun v _ => begins_stringify N (Or.inl rfl) v) rest
      have htext : stringify N (.array items) ++ rest =
          unit '[' :: (commas (items.map (stringify N)) ++ unit ']' :: rest) := by
        simp [stringify, stringifyItems_eq]
      rw [htext, parseValue, if_neg (by decide), if_pos rfl, hclosed, Option.map_some, settled,
        settledItems_eq]
  | object members ih =>
    cases fuel with
    | zero => contradiction
    | succ fuel =>
      simp only [JsonValue.distinct, Bool.and_eq_true, decide_eq_true_eq] at hv
      have hitem : ∀ m ∈ members, ∀ rest, Ends rest →
          scanMember (parseValue N fuel) (memberText N m ++ rest) =
            some ((m.1, settled N m.2), rest) := by
        intro m hmem rest hrest
        have hlength :=
          length_le_of_mem_commas (List.mem_map_of_mem (f := memberText N) hmem)
        apply scanMember_memberText
        refine ih m hmem (distinctMembers_iff.mp hv.2 m hmem) ?_ hrest
        simp only [stringify, stringifyMembers_eq, List.length_append,
          List.length_cons] at hfuel
        simp only [memberText, List.length_append, List.length_cons] at hlength
        omega
      have hclosed := closed_commas rfl (by decide) (ends_close (Or.inr rfl)) hitem
        (fun m _ => ⟨unit '"', _, rfl, rfl, by decide⟩) rest
      have htext : stringify N (.object members) ++ rest =
          unit '\x7b' :: (commas (members.map (memberText N)) ++ unit '\x7d' :: rest) := by
        simp [stringify, stringifyMembers_eq]
      have hnames : ((members.map fun m => (m.1, settled N m.2)).map Prod.fst).Nodup := by
        simpa [Function.comp_def] using hv.1
      rw [htext, parseValue, if_neg (by decide), if_neg (by decide), if_pos rfl, hclosed,
        Option.map_some, collapse_of_nodup hnames, settled, settledMembers_eq]

/-- `JSON.parse` after `JSON.stringify`. -/
theorem parse_stringify (v : JsonValue ν) (hv : v.distinct = true) :
    parse N (stringify N v) = some (settled N v) := by
  have hskip := (begins_stringify N (Or.inl rfl) v).skip_append []
  have hparse := parseValue_stringify N v hv (Nat.le_succ (stringify N v).length) ends_nil
  rw [List.append_nil] at hskip hparse
  rw [parse, hskip, hparse]
  rfl

/-! ## Names -/

omit N in
/-- Members that have been collapsed are distinct. -/
theorem distinct_collapse (h : ∀ m ∈ members, m.2.distinct = true) :
    (JsonValue.object (collapse members)).distinct = true := by
  induction members using List.reverseRecOn with
  | nil => rfl
  | append_singleton members m ih =>
    have hbefore := ih fun m' hm' => h m' (List.mem_append_left _ hm')
    simp only [JsonValue.distinct, Bool.and_eq_true, decide_eq_true_eq] at hbefore ⊢
    rw [collapse, List.foldl_append, List.foldl_cons, List.foldl_nil, ← collapse]
    refine ⟨Dict.nodup_setIn hbefore.1, distinctMembers_iff.mpr ?_⟩
    intro m' hm'
    rcases Dict.mem_setIn hm' with hmem | heq
    · exact distinctMembers_iff.mp hbefore.2 m' hmem
    · rw [heq]
      exact h m (List.mem_append_right _ List.mem_cons_self)

/-- A word is distinct. -/
theorem distinct_of_scanWord (h : scanWord us = some (v, rest)) : v.distinct = true := by
  obtain ⟨w, hw, heq⟩ := Option.map_eq_some_iff.mp h
  cases heq
  rcases List.mem_of_find?_eq_some hw with _ | ⟨_, _ | ⟨_, _ | ⟨_, hmem⟩⟩⟩
  · rfl
  · rfl
  · rfl
  · contradiction

/-- A member that is read is distinct if its value is. -/
theorem distinct_of_scanMember (hvalue : ∀ us v rest, value us = some (v, rest) → v.distinct = true)
    (h : scanMember value us = some (m, rest)) : m.2.distinct = true := by
  cases us with
  | nil => contradiction
  | cons u us =>
    by_cases hquote : u = unit '"'
    · rw [scanMember, if_pos hquote] at h
      cases hscan : scanString .plain us with
      | none =>
        rw [hscan] at h
        contradiction
      | some p =>
        cases hskip : skip p.2 with
        | nil =>
          simp only [hscan, hskip] at h
          contradiction
        | cons w after =>
          simp only [hscan, hskip] at h
          by_cases hcolon : w = unit ':'
          · rw [if_pos hcolon] at h
            obtain ⟨q, hq, heq⟩ := Option.map_eq_some_iff.mp h
            cases heq
            exact hvalue _ _ _ hq
          · rw [if_neg hcolon] at h
            contradiction
    · rw [scanMember, if_neg hquote] at h
      contradiction

/-- A value that is read is distinct. -/
theorem distinct_of_parseValue (h : parseValue N fuel us = some (v, rest)) : v.distinct = true := by
  induction fuel generalizing us rest v with
  | zero => contradiction
  | succ fuel ih =>
    cases us with
    | nil => contradiction
    | cons u us =>
      rw [parseValue] at h
      by_cases hquote : u = unit '"'
      · rw [if_pos hquote] at h
        obtain ⟨p, _, heq⟩ := Option.map_eq_some_iff.mp h
        cases heq
        rfl
      · rw [if_neg hquote] at h
        by_cases harray : u = unit '['
        · rw [if_pos harray] at h
          obtain ⟨p, hp, heq⟩ := Option.map_eq_some_iff.mp h
          cases heq
          exact distinctItems_iff.mpr (forall_of_closed (fun _ _ _ hread => ih hread) hp)
        · rw [if_neg harray] at h
          by_cases hobject : u = unit '\x7b'
          · rw [if_pos hobject] at h
            obtain ⟨p, hp, heq⟩ := Option.map_eq_some_iff.mp h
            cases heq
            refine distinct_collapse (forall_of_closed (fun _ _ _ hread => ?_) hp)
            exact distinct_of_scanMember (fun _ _ _ hvalue => ih hvalue) hread
          · rw [if_neg hobject] at h
            cases hword : scanWord (ν := ν) (u :: us) with
            | some p =>
              rw [hword] at h
              cases h
              exact distinct_of_scanWord hword
            | none =>
              rw [hword] at h
              obtain ⟨p, _, heq⟩ := Option.map_eq_some_iff.mp h
              cases heq
              rfl

/-- In a value that was read no two members have one name. -/
theorem distinct_of_parse {text : JsString} (h : parse N text = some v) : v.distinct = true := by
  rw [parse] at h
  cases hread : parseValue N (text.length + 1) (skip text) with
  | none =>
    rw [hread] at h
    contradiction
  | some p =>
    simp only [hread] at h
    by_cases hend : skip p.2 = []
    · rw [if_pos hend] at h
      cases h
      exact distinct_of_parseValue N hread
    · rw [if_neg hend] at h
      contradiction

end RoundTrip

/-! ## Reading what is written -/

section ExactReader

variable {α β : Type} {read : α → Option β}

variable {as : List α}

/-- A reader that takes exactly what is written reads lists of it. -/
theorem mapM_eq_some_iff {write : β → α} (h : ∀ a b, read a = some b ↔ write b = a) {bs : List β} :
    as.mapM read = some bs ↔ bs.map write = as := by
  induction as generalizing bs with
  | nil => simp
  | cons a as ih =>
    simp only [List.mapM_cons, Option.bind_eq_bind, Option.bind_eq_some_iff, Option.pure_def,
      Option.some.injEq]
    constructor
    · rintro ⟨b, hb, rest, hrest, rfl⟩
      rw [List.map_cons, (h a b).mp hb, ih.mp hrest]
    · intro hmap
      cases bs with
      | nil => contradiction
      | cons b bs =>
        rw [List.map_cons, List.cons.injEq] at hmap
        exact ⟨b, (h a b).mpr hmap.1, bs, ih.mpr hmap.2, rfl⟩

theorem exists_mapM (h : ∀ a ∈ as, ∃ b, read a = some b) : ∃ bs, as.mapM read = some bs := by
  induction as with
  | nil => exact ⟨[], rfl⟩
  | cons a as ih =>
    obtain ⟨bs, hbs⟩ := ih fun a' ha' => h a' (List.mem_cons_of_mem a ha')
    obtain ⟨b, hb⟩ := h a List.mem_cons_self
    exact ⟨b :: bs, by simp [List.mapM_cons, hb, hbs]⟩

end ExactReader

end Js
