import TinyAgentOS.Library.JsJson

/-!
# Tables of the database view

A table is kept as a JSON text.  What is read back is checked column by column and row by row: a
column keeps the members that the check does not ask for, and a row the cells whose names are ids of
columns, whatever they hold.
-/

namespace TinyAgentOS.OfficeStudio

open Collections Js

variable {ν : Type}

/-! ## Conversions -/

/-- A day of the calendar. -/
structure CivilDate where
  year : Int
  month : Nat
  day : Nat
  inRange : 1 ≤ month ∧ month ≤ 12 ∧ 1 ≤ day ∧ day ≤ 31

/-- What the language makes of values of other types: `Number` and `String`, and the day,
in UTC, that `Date.parse` finds in a text. -/
structure Conversions (ν : Type) extends JsonNumbers ν where
  zero : ν
  finite_zero : isFinite zero = true
  isTruthy : ν → Bool
  numberOfText : JsString → ν
  numberOfValue : JsonValue ν → ν
  textOfValue : JsonValue ν → JsString
  dateOfText : JsString → Option CivilDate

def digit (n : Nat) : UInt16 :=
  UInt16.ofNat (48 + n % 10)

def twoDigits (n : Nat) : JsString :=
  [digit (n / 10), digit n]

def fourDigits (n : Nat) : JsString :=
  twoDigits (n / 100) ++ twoDigits n

/-- A year that has more than four digits, or is before the first, has a sign and six digits. -/
def yearText (year : Int) : JsString :=
  if 0 ≤ year ∧ year ≤ 9999 then fourDigits year.toNat
  else
    (if year < 0 then unit '-' else unit '+') ::
      (twoDigits (year.natAbs / 10000) ++ fourDigits year.natAbs)

/-- The day in `toISOString`. -/
def isoDate (d : CivilDate) : JsString :=
  yearText d.year ++ unit '-' :: twoDigits d.month ++ unit '-' :: twoDigits d.day

/-- `toISOString().slice(0, 10)`, where the time is never reached. -/
def isoDay (d : CivilDate) : JsString :=
  (isoDate d).take 10

/-! ## Columns and rows -/

inductive ColumnType where
  | text
  | number
  | checkbox
  | date
deriving DecidableEq

def ColumnType.name : ColumnType → JsString
  | text => ofString "text"
  | number => ofString "number"
  | checkbox => ofString "checkbox"
  | date => ofString "date"

/-- `VALID_TYPES`. -/
def validTypes : List ColumnType :=
  [.text, .number, .checkbox, .date]

def defaultValueForType : ColumnType → JsonValue ν
  | .checkbox => .bool false
  | .number => .null
  | .text | .date => .string []

def typeOf? : Option (JsonValue ν) → Option ColumnType
  | some (.string s) => validTypes.find? fun t => t.name = s
  | _ => none

def isValidColumn : JsonValue ν → Bool
  | .object members =>
    isString (prop members "id") && isString (prop members "name") &&
      (typeOf? (prop members "type")).isSome
  | _ => false

/-- An object that passed the check.  Like every object it has no two members of one name. -/
structure Column (ν : Type) where
  members : List (JsString × JsonValue ν)
  valid : isValidColumn (.object members) = true
  distinct : (JsonValue.object members).distinct = true

/-- The id of a value that is a column. -/
def columnId : JsonValue ν → JsString
  | .object members =>
    match prop members "id" with
    | some (.string id) => id
    | _ => []
  | _ => []

/-- The type of a value that is a column. -/
def columnType : JsonValue ν → ColumnType
  | .object members => (typeOf? (prop members "type")).getD .text
  | _ => .text

namespace Column

def value (c : Column ν) : JsonValue ν :=
  .object c.members

def id (c : Column ν) : JsString :=
  columnId c.value

def type (c : Column ν) : ColumnType :=
  columnType c.value

end Column

def toColumn? : JsonValue ν → Option (Column ν)
  | .object members =>
    if h : isValidColumn (.object members) = true ∧ (JsonValue.object members).distinct = true then
      some ⟨members, h.1, h.2⟩
    else none
  | _ => none

structure Row (ν : Type) where
  id : JsString
  cells : Dict JsString (JsonValue ν)

def protoName : JsString :=
  ofString "__proto__"

/-- `cells[id] = value`: no cell is made by that name which is the prototype's. -/
def assignCell (cells : Dict JsString (JsonValue ν)) (id : JsString) (value : JsonValue ν) :
    Dict JsString (JsonValue ν) :=
  if id = protoName then cells else cells.set id value

/-- `newRow`, with what is drawn for its id. -/
def newRow (columns : List (Column ν)) (drawn : JsString) : Row ν where
  id := ofString "row-" ++ drawn
  cells := columns.foldl (fun cells c => assignCell cells c.id (defaultValueForType c.type))
    Dict.empty

/-- An object of three texts has distinct names. -/
theorem distinct_texts {a b c : String} {x y z : JsString}
    (h : [ofString a, ofString b, ofString c].Nodup) :
    (JsonValue.object (ν := ν) [(ofString a, .string x), (ofString b, .string y),
      (ofString c, .string z)]).distinct = true := by
  simp only [JsonValue.distinct, distinctMembers, Bool.and_true, decide_eq_true_eq, List.map_cons,
    List.map_nil]
  exact h

/-- `newColumn`, with what is drawn for its id. -/
def newColumn (name : JsString) (type : ColumnType) (drawn : JsString) : Column ν where
  members :=
    [(ofString "id", .string (ofString "col-" ++ drawn)), (ofString "name", .string name),
      (ofString "type", .string type.name)]
  valid := by cases type <;> rfl
  distinct := distinct_texts (by decide)

/-! ## What a column is changed to -/

def columnNames : List String :=
  ["id", "name", "type"]

/-- The names of a column are spelled apart. -/
theorem columnNames_injective : ∀ x ∈ columnNames, ∀ y ∈ columnNames,
    ofString x = ofString y → x = y := by
  decide

variable {members : List (JsString × JsonValue ν)}

/-- What a member is after a text was written. -/
theorem prop_setText {a b : String}
    (ha : a ∈ columnNames) (hb : b ∈ columnNames) (text : JsString) :
    prop (Dict.setIn (ofString a) (.string text) members) b =
      if a = b then some (.string text) else prop members b := by
  have hiff : ofString a = ofString b ↔ a = b :=
    ⟨columnNames_injective a ha b hb, fun heq => heq ▸ rfl⟩
  simp only [prop, Dict.lookupIn_setIn, hiff]

/-- Setting a text keeps the names distinct. -/
theorem distinct_setText
    (h : (JsonValue.object members).distinct = true) (name : JsString) (text : JsString) :
    (JsonValue.object (Dict.setIn name (.string text) members)).distinct = true := by
  simp only [JsonValue.distinct, Bool.and_eq_true, decide_eq_true_eq] at h ⊢
  refine ⟨Dict.nodup_setIn h.1, distinctMembers_iff.mpr fun m hm => ?_⟩
  rcases Dict.mem_setIn hm with hold | rfl
  · exact distinctMembers_iff.mp h.2 m hold
  · rfl

/-- The name of a type reads back. -/
theorem typeOf?_name (t : ColumnType) : typeOf? (ν := ν) (some (.string t.name)) = some t := by
  have hnames : ∀ t : ColumnType, (validTypes.find? fun t' => t'.name = t.name) = some t := by
    intro t
    cases t <;> decide
  exact hnames t

namespace Column

/-- `{ ...c, name }`. -/
def rename (c : Column ν) (name : JsString) : Column ν where
  members := Dict.setIn (ofString "name") (.string name) c.members
  valid := by
    have h := c.valid
    simp only [isValidColumn, Bool.and_eq_true] at h ⊢
    rw [prop_setText (by decide) (by decide), prop_setText (by decide) (by decide),
      prop_setText (by decide) (by decide)]
    exact ⟨⟨h.1.1, rfl⟩, h.2⟩
  distinct := distinct_setText c.distinct _ name

/-- `{ ...c, type }`. -/
def retype (c : Column ν) (type : ColumnType) : Column ν where
  members := Dict.setIn (ofString "type") (.string type.name) c.members
  valid := by
    have h := c.valid
    simp only [isValidColumn, Bool.and_eq_true] at h ⊢
    rw [prop_setText (by decide) (by decide), prop_setText (by decide) (by decide),
      prop_setText (by decide) (by decide)]
    refine ⟨h.1, ?_⟩
    rw [if_pos rfl, typeOf?_name]
    rfl
  distinct := distinct_setText c.distinct _ type.name

end Column

/-! ## Tables -/

/-- The version is always one. -/
structure DbTable (ν : Type) where
  columns : List (Column ν)
  rows : List (Row ν)

/-- What is drawn for the ids of a blank table. -/
structure BlankIds where
  column : JsString
  row : JsString

def blankTable (ids : BlankIds) : DbTable ν :=
  let nameCol := newColumn (ofString "Name") .text ids.column
  ⟨[nameCol], [newRow [nameCol] ids.row]⟩

/-- `Boolean`. -/
def truthy (E : Conversions ν) : Option (JsonValue ν) → Bool
  | none | some .null => false
  | some (.bool b) => b
  | some (.number x) => E.isTruthy x
  | some (.string s) => s ≠ []
  | some (.array _) | some (.object _) => true

/-- `Number`, of what is neither missing nor empty. -/
def toNumber (E : Conversions ν) : JsonValue ν → ν
  | .null => E.zero
  | .bool b => if b then E.one else E.zero
  | .number x => x
  | .string s => E.numberOfText s
  | .array items => E.numberOfValue (.array items)
  | .object members => E.numberOfValue (.object members)

/-- `String`, of what is neither missing nor `null`. -/
def toText (E : Conversions ν) : JsonValue ν → JsString
  | .null => ofString "null"
  | .bool b => boolText b
  | .number x => E.text x
  | .string s => s
  | .array items => E.textOfValue (.array items)
  | .object members => E.textOfValue (.object members)

def coerceValue (E : Conversions ν) (value : Option (JsonValue ν)) :
    ColumnType → JsonValue ν
  | .checkbox => .bool (truthy E value)
  | .number =>
    match value with
    | none | some .null | some (.string []) => .null
    | some v => if E.isFinite (toNumber E v) then .number (toNumber E v) else .null
  | .date =>
    match value with
    | some (.string (u :: us)) =>
      match E.dateOfText (u :: us) with
      | none => .null
      | some d => .string (isoDay d)
    | _ => .null
  | .text =>
    match value with
    | none | some .null => .string []
    | some v => .string (toText E v)

namespace DbTable

def addColumn (t : DbTable ν) (type : Option ColumnType) (drawn : JsString) : DbTable ν :=
  let type := type.getD .text
  let col := newColumn (ofString ("Column " ++ Nat.repr (t.columns.length + 1))) type drawn
  { columns := t.columns ++ [col]
    rows := t.rows.map fun r => { r with cells := r.cells.set col.id (defaultValueForType type) } }

def removeColumn (t : DbTable ν) (columnId : JsString) : DbTable ν :=
  if t.columns.length ≤ 1 then t
  else
    { columns := t.columns.filter fun c => c.id ≠ columnId
      rows := t.rows.map fun r => { r with cells := r.cells.pop columnId } }

def renameColumn (t : DbTable ν) (columnId name : JsString) : DbTable ν :=
  { t with columns := t.columns.map fun c => if c.id = columnId then c.rename name else c }

/-- A row without the cell is read as `undefined`, whatever the name of the cell. -/
def changeType (E : Conversions ν) (t : DbTable ν) (columnId : JsString) (type : ColumnType) :
    DbTable ν where
  columns := t.columns.map fun c => if c.id = columnId then c.retype type else c
  rows := t.rows.map fun r =>
    { r with cells := r.cells.set columnId (coerceValue E (r.cells.get? columnId) type) }

def addRow (t : DbTable ν) (drawn : JsString) : DbTable ν :=
  { t with rows := t.rows ++ [newRow t.columns drawn] }

def removeRow (t : DbTable ν) (rowId : JsString) : DbTable ν :=
  { t with rows := t.rows.filter fun r => r.id ≠ rowId }

def setCell (t : DbTable ν) (rowId columnId : JsString) (value : JsonValue ν) : DbTable ν :=
  { t with
    rows := t.rows.map fun r =>
      if r.id = rowId then { r with cells := r.cells.set columnId value } else r }

end DbTable

/-! ## The text of a table -/

def rowValue (r : Row ν) : JsonValue ν :=
  .object [(ofString "id", .string r.id), (ofString "cells", .object r.cells.entries)]

def tableValue (E : Conversions ν) (t : DbTable ν) : JsonValue ν :=
  .object
    [(ofString "version", .number E.one), (ofString "columns", .array (t.columns.map Column.value)),
      (ofString "rows", .array (t.rows.map rowValue))]

def serializeTable (E : Conversions ν) (t : DbTable ν) : JsString :=
  stringify E.toJsonNumbers (tableValue E t)

/-- The name of an element of an array. -/
def indexName (i : Nat) : JsString :=
  (Nat.toDigits 10 i).map unit

/-- `Object.entries`, of an object or an array. -/
def entriesOf : JsonValue ν → Option (List (JsString × JsonValue ν))
  | .object members => some members
  | .array items => some (items.zipIdx.map fun p => (indexName p.2, p.1))
  | _ => none

/-- The cells of a value that is a row. -/
def rowCells : JsonValue ν → Option (List (JsString × JsonValue ν))
  | .object members => (prop members "cells").bind entriesOf
  | _ => none

def rowId : JsonValue ν → JsString
  | .object members =>
    match prop members "id" with
    | some (.string id) => id
    | _ => []
  | _ => []

def isValidRow : JsonValue ν → Bool
  | .object members =>
    isString (prop members "id") && (rowCells (.object members)).isSome
  | _ => false

/-- Cells that are of no column are left out. -/
def cellsOf (ids : List JsString) (entries : List (JsString × JsonValue ν)) :
    Dict JsString (JsonValue ν) :=
  entries.foldl (fun cells e => if e.1 ∈ ids then assignCell cells e.1 e.2 else cells) Dict.empty

def rowOf (ids : List JsString) (v : JsonValue ν) : Row ν :=
  ⟨rowId v, cellsOf ids ((rowCells v).getD [])⟩

/-- The table of a value, or none if the value is malformed. -/
def tableOf : JsonValue ν → Option (DbTable ν)
  | .object members =>
    match prop members "columns", prop members "rows" with
    | some (.array columns), some (.array rows) =>
      if columns.isEmpty || !rows.all isValidRow then none
      else
        (columns.mapM toColumn?).map fun columns =>
          ⟨columns, rows.map (rowOf (columns.map Column.id))⟩
    | _, _ => none
  | _ => none

def parseTableContent (E : Conversions ν) (content : JsString) (ids : BlankIds) : DbTable ν :=
  if trim content = [] then blankTable ids
  else
    match parse E.toJsonNumbers content with
    | none => blankTable ids
    | some parsed => (tableOf parsed).getD (blankTable ids)

end TinyAgentOS.OfficeStudio
