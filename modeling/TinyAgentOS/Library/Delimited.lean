import Mathlib.Data.List.Basic
import Mathlib.Tactic

/-!
# Delimited text

Tables of texts over any alphabet, written row by row.  A field that has a separator, a line
feed or a quote in it stands between quotes, and its quotes are doubled.  The reader goes through
the text once, with the field, the row and the rows it has gathered so far.

Main results:

- `Dialect.read_quoted`: a quoted field is read back.
- `Dialect.read_writeRow`: a row is read back with the line feed behind it.
- `Dialect.read_write`: a table is read back.
-/

namespace Delimited

/-- The symbols of a notation. -/
structure Dialect (α : Type) where
  quote : α
  separator : α
  newline : α
  separator_ne_quote : separator ≠ quote
  newline_ne_quote : newline ≠ quote
  newline_ne_separator : newline ≠ separator

/-- What the reader has gathered. -/
structure Reader (α : Type) where
  rows : List (List (List α))
  row : List (List α)
  field : List α
  inQuotes : Bool

namespace Reader

variable {α : Type}

def init : Reader α := ⟨[], [], [], false⟩

def add (st : Reader α) (c : α) : Reader α :=
  { st with field := st.field ++ [c] }

def endField (st : Reader α) : Reader α :=
  { st with row := st.row ++ [st.field], field := [] }

def endRow (st : Reader α) : Reader α :=
  { st with rows := st.rows ++ [st.row ++ [st.field]], row := [], field := [] }

end Reader

namespace Dialect

variable {α : Type} [DecidableEq α]

/-- One symbol, taken by itself. -/
def step (d : Dialect α) (st : Reader α) (c : α) : Reader α :=
  if st.inQuotes then
    if c = d.quote then { st with inQuotes := false } else st.add c
  else if c = d.quote then { st with inQuotes := true }
  else if c = d.separator then st.endField
  else if c = d.newline then st.endRow
  else st.add c

/-- The reader's loop.  Within quotes, two quotes are one. -/
def read (d : Dialect α) : Reader α → List α → Reader α
  | st, [] => st
  | st, [c] => d.step st c
  | st, c :: next :: rest =>
    if st.inQuotes ∧ c = d.quote ∧ next = d.quote then d.read (st.add d.quote) rest
    else d.read (d.step st c) (next :: rest)

/-- The symbols that only a quoted field may have. -/
def isSpecial (d : Dialect α) (c : α) : Bool :=
  c = d.quote || c = d.separator || c = d.newline

def doubled (d : Dialect α) (field : List α) : List α :=
  field.flatMap fun c => if c = d.quote then [c, c] else [c]

def quoted (d : Dialect α) (field : List α) : List α :=
  d.quote :: (d.doubled field ++ [d.quote])

def writeField (d : Dialect α) (field : List α) : List α :=
  if field.any d.isSpecial then d.quoted field else field

def writeRow (d : Dialect α) (row : List (List α)) : List α :=
  [d.separator].intercalate (row.map d.writeField)

/-- Each row with a line feed behind it. -/
def write (d : Dialect α) (rows : List (List (List α))) : List α :=
  rows.flatMap fun row => d.writeRow row ++ [d.newline]

variable (d : Dialect α)

/-! ## Fields -/

variable {rest : List α} {st : Reader α}

/-- A symbol that is no escape. -/
theorem read_cons {c : α} (h : ¬ (st.inQuotes = true ∧ c = d.quote ∧ rest.head? = some d.quote)) :
    d.read st (c :: rest) = d.read (d.step st c) rest := by
  cases rest with
  | nil => rfl
  | cons next rest =>
    rw [read, if_neg]
    simpa using h

/-- A doubled quote is read as one. -/
theorem read_escape (hquotes : st.inQuotes = true) (rest : List α) :
    d.read st (d.quote :: d.quote :: rest) = d.read (st.add d.quote) rest := by
  rw [read, if_pos ⟨hquotes, rfl, rfl⟩]

theorem doubled_cons (c : α) (field : List α) : d.doubled (c :: field) =
    (if c = d.quote then [c, c] else [c]) ++ d.doubled field :=
  List.flatMap_cons

theorem head?_doubled (field : List α) : (d.doubled field).head? = field.head? := by
  cases field with
  | nil => rfl
  | cons c field =>
    rw [doubled_cons]
    by_cases hc : c = d.quote <;> simp [hc]

/-- Within quotes, up to the closing one. -/
theorem read_doubled (hquotes : st.inQuotes = true) (field : List α)
    (hrest : rest.head? ≠ some d.quote) :
    d.read st (d.doubled field ++ d.quote :: rest) =
      d.read { st with field := st.field ++ field, inQuotes := false } rest := by
  induction field generalizing st with
  | nil =>
    have hclose : d.step st d.quote = { st with inQuotes := false } := by
      simp [step, hquotes]
    have hread : d.read st (d.quote :: rest) = d.read (d.step st d.quote) rest :=
      d.read_cons fun h => hrest h.2.2
    simpa [doubled, hclose] using hread
  | cons c field ih =>
    have hadd : (st.add c).inQuotes = true := hquotes
    have hgathered : (st.add c).field ++ field = st.field ++ c :: field := by
      simp [Reader.add]
    have hstep : d.read st (d.doubled (c :: field) ++ d.quote :: rest) =
        d.read (st.add c) (d.doubled field ++ d.quote :: rest) := by
      rw [doubled_cons, List.append_assoc]
      by_cases hc : c = d.quote
      · rw [if_pos hc, hc]
        exact d.read_escape hquotes _
      · rw [if_neg hc, List.singleton_append, d.read_cons fun h => hc h.2.1]
        simp [step, hquotes, hc]
    rw [hstep, ih hadd, hgathered]
    rfl

/-- A quoted field is read back. -/
theorem read_quoted (hquotes : st.inQuotes = false) (field : List α)
    (hrest : rest.head? ≠ some d.quote) :
    d.read st (d.quoted field ++ rest) = d.read { st with field := st.field ++ field } rest := by
  have hopen : d.read st (d.quoted field ++ rest) =
      d.read { st with inQuotes := true } (d.doubled field ++ d.quote :: rest) := by
    rw [quoted, List.cons_append, List.append_assoc, List.singleton_append,
      d.read_cons (by simp [hquotes])]
    simp [step, hquotes]
  rw [hopen, d.read_doubled rfl field hrest]
  cases st
  cases hquotes
  rfl

/-- A plain field is read back. -/
theorem read_plain (hquotes : st.inQuotes = false) {field : List α}
    (hplain : field.any d.isSpecial = false) (rest : List α) :
    d.read st (field ++ rest) = d.read { st with field := st.field ++ field } rest := by
  induction field generalizing st with
  | nil => simp
  | cons c field ih =>
    simp only [List.any_cons, Bool.or_eq_false_iff] at hplain
    have hc : c ≠ d.quote ∧ c ≠ d.separator ∧ c ≠ d.newline := by
      simpa [isSpecial, and_assoc] using hplain.1
    have hstep : d.read st (c :: field ++ rest) = d.read (st.add c) (field ++ rest) := by
      rw [List.cons_append, d.read_cons (by simp [hquotes])]
      simp [step, hquotes, hc.1, hc.2.1, hc.2.2]
    have hadded : (st.add c).inQuotes = false := hquotes
    rw [hstep, ih hadded hplain.2]
    simp [Reader.add]

/-- A written field is read back. -/
theorem read_writeField (hquotes : st.inQuotes = false) (field : List α)
    (hrest : rest.head? ≠ some d.quote) :
    d.read st (d.writeField field ++ rest) =
      d.read { st with field := st.field ++ field } rest := by
  unfold writeField
  by_cases hspecial : field.any d.isSpecial = true
  · rw [if_pos hspecial]
    exact d.read_quoted hquotes field hrest
  · rw [if_neg hspecial]
    exact d.read_plain hquotes (Bool.not_eq_true _ ▸ hspecial) rest

/-! ## Rows -/

theorem writeRow_cons (field : List α) {row : List (List α)} (hrow : row ≠ []) :
    d.writeRow (field :: row) = d.writeField field ++ d.separator :: d.writeRow row := by
  cases row with
  | nil => contradiction
  | cons next row => simp [writeRow, List.intercalate]

/-- A separator ends the field. -/
theorem read_separator (hquotes : st.inQuotes = false) (rest : List α) :
    d.read st (d.separator :: rest) = d.read st.endField rest := by
  rw [d.read_cons (by simp [hquotes])]
  simp [step, hquotes, d.separator_ne_quote]

/-- A line feed ends the row. -/
theorem read_newline (hquotes : st.inQuotes = false) (rest : List α) :
    d.read st (d.newline :: rest) = d.read st.endRow rest := by
  rw [d.read_cons (by simp [hquotes])]
  simp [step, hquotes, d.newline_ne_quote, d.newline_ne_separator]

/-- A row that has a field, behind the fields of the row so far. -/
theorem read_writeRow {row : List (List α)} (hrow : row ≠ []) (rows : List (List (List α)))
    (before : List (List α)) (rest : List α) :
    d.read ⟨rows, before, [], false⟩ (d.writeRow row ++ d.newline :: rest) =
      d.read ⟨rows ++ [before ++ row], [], [], false⟩ rest := by
  induction row generalizing before with
  | nil => contradiction
  | cons field row ih =>
    cases row with
    | nil =>
      have hone : d.writeRow [field] = d.writeField field := by
        simp [writeRow, List.intercalate]
      have hnewline : (d.newline :: rest).head? ≠ some d.quote := by
        simp [d.newline_ne_quote]
      rw [hone, d.read_writeField rfl field hnewline, d.read_newline rfl]
      simp [Reader.endRow]
    | cons next row =>
      have hseparator : (d.separator :: (d.writeRow (next :: row) ++ d.newline :: rest)).head? ≠
          some d.quote := by
        simp [d.separator_ne_quote]
      rw [d.writeRow_cons field (List.cons_ne_nil next row), List.append_assoc,
        List.cons_append, d.read_writeField rfl field hseparator, d.read_separator rfl]
      have hnext := ih (List.cons_ne_nil next row) (before ++ [field])
      rw [List.append_assoc] at hnext
      exact hnext

/-! ## Tables -/

/-- A table whose rows have fields is read back. -/
theorem read_write {rows : List (List (List α))} (hrows : ∀ row ∈ rows, row ≠ [])
    (before : List (List (List α))) :
    d.read ⟨before, [], [], false⟩ (d.write rows) = ⟨before ++ rows, [], [], false⟩ := by
  induction rows generalizing before with
  | nil => simp [write, read]
  | cons row rows ih =>
    have hwrite : d.write (row :: rows) = d.writeRow row ++ d.newline :: d.write rows := by
      simp [write]
    rw [hwrite, d.read_writeRow (hrows row List.mem_cons_self),
      ih (fun row' hmem => hrows row' (List.mem_cons_of_mem _ hmem))]
    simp

end Dialect

end Delimited
