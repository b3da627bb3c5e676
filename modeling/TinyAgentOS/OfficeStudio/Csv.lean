import TinyAgentOS.Library.Delimited
import TinyAgentOS.Library.JsString

/-!
# CSV files of a sheet

A sheet is a list of cells with their positions.  It is exported as the grid of the texts that
the cells show, and imported by a reader that first makes one of all line endings.

Main results:

- `sheetToCsv_eq`: the export is the grid of the texts on display.
- `parseCsv_csvText`: what the import makes of a grid.
- `csvRoundTrip_iff`: the sheets that are imported as they were shown.
-/

namespace TinyAgentOS.OfficeStudio

open Js Delimited

/-! ## Sheets -/

/-- What a cell holds; a number is of a type of its own. -/
inductive CellContent (ν : Type) where
  | text (s : JsString)
  | number (x : ν)
  | boolean (b : Bool)

/-- The fields of a cell that the export reads. -/
structure Cell (ν : Type) where
  v : Option (CellContent ν)
  m : Option (CellContent ν)

structure CellWithRowAndCol (ν : Type) where
  r : Nat
  c : Nat
  v : Option (Cell ν)

def comma : UInt16 := 44

def quotation : UInt16 := 34

def lf : UInt16 := 10

def cr : UInt16 := 13

section Export

variable {ν : Type} (numberText : ν → JsString)

/-- `String`. -/
def CellContent.toText : CellContent ν → JsString
  | .text s => s
  | .number x => numberText x
  | .boolean b => if b then ofString "true" else ofString "false"

def cellDisplayValue (cell : Option (Cell ν)) : JsString :=
  match cell with
  | none => []
  | some cell =>
    match cell.m, cell.v with
    | some m, _ => m.toText numberText
    | none, some v => v.toText numberText
    | none, none => []

/-- `/[",\n\r]/`. -/
def needsEscape (u : UInt16) : Bool :=
  u = quotation || u = comma || u = lf || u = cr

def csvEscape (value : JsString) : JsString :=
  if value.any needsEscape then
    quotation :: ((value.flatMap fun u => if u = quotation then [u, u] else [u]) ++ [quotation])
  else value

/-- The last row and the last column with a text; `-1` where there is none. -/
def lastNonEmpty (celldata : List (CellWithRowAndCol ν)) : Int × Int :=
  celldata.foldl
    (fun last entry =>
      if entry.v.isNone || cellDisplayValue numberText entry.v = [] then last
      else (max last.1 entry.r, max last.2 entry.c))
    (-1, -1)

def writeCell (maxRow maxCol : Nat) (grid : List (List JsString)) (entry : CellWithRowAndCol ν) :
    List (List JsString) :=
  if maxRow < entry.r ∨ maxCol < entry.c then grid
  else grid.modify entry.r fun row => row.set entry.c (cellDisplayValue numberText entry.v)

def join (separator : JsString) (texts : List JsString) : JsString :=
  separator.intercalate texts

/-- The text of a grid. -/
def csvText (grid : List (List JsString)) : JsString :=
  join [cr, lf] (grid.map fun row => join [comma] (row.map csvEscape)) ++ [cr, lf]

def sheetToCsv (celldata : List (CellWithRowAndCol ν)) : JsString :=
  let last := lastNonEmpty numberText celldata
  if last.1 < 0 ∨ last.2 < 0 then []
  else
    let maxRow := last.1.toNat
    let maxCol := last.2.toNat
    csvText (celldata.foldl (writeCell numberText maxRow maxCol)
      (List.replicate (maxRow + 1) (List.replicate (maxCol + 1) [])))

/-! ## What is on display -/

/-- The text at a position, of the last cell there. -/
def textAt (celldata : List (CellWithRowAndCol ν)) (r c : Nat) : JsString :=
  ((celldata.filter fun entry => entry.r = r && entry.c = c).getLast?.map fun entry =>
    cellDisplayValue numberText entry.v).getD []

/-- The cells with a text. -/
def shown (celldata : List (CellWithRowAndCol ν)) : List (CellWithRowAndCol ν) :=
  celldata.filter fun entry => cellDisplayValue numberText entry.v ≠ []

/-- The rows up to the last one with a text. -/
def rowCount (celldata : List (CellWithRowAndCol ν)) : Nat :=
  ((shown numberText celldata).map fun entry => entry.r + 1).foldr max 0

def colCount (celldata : List (CellWithRowAndCol ν)) : Nat :=
  ((shown numberText celldata).map fun entry => entry.c + 1).foldr max 0

/-- The rectangle of the texts on display. -/
def displayGrid (celldata : List (CellWithRowAndCol ν)) : List (List JsString) :=
  (List.range (rowCount numberText celldata)).map fun r =>
    (List.range (colCount numberText celldata)).map fun c => textAt numberText celldata r c

end Export

/-! ## Import -/

/-- `replace(/\r\n/g, "\n")`. -/
def replaceCrLf : JsString → JsString
  | [] => []
  | [u] => [u]
  | u :: next :: rest =>
    if u = cr ∧ next = lf then lf :: replaceCrLf rest else u :: replaceCrLf (next :: rest)

/-- `replace(/\r/g, "\n")`. -/
def replaceCr (text : JsString) : JsString :=
  text.map fun u => if u = cr then lf else u

def normalized (text : JsString) : JsString :=
  replaceCr (replaceCrLf text)

def csvDialect : Dialect UInt16 where
  quote := quotation
  separator := comma
  newline := lf
  separator_ne_quote := by decide
  newline_ne_quote := by decide
  newline_ne_separator := by decide

def parseCsv (text : JsString) : Except String (List (List JsString)) :=
  let st := csvDialect.read Reader.init (normalized text)
  if st.inQuotes then .error "Unterminated quoted field in CSV file"
  else
    let rows := st.endRow.rows
    let rows := if 1 < rows.length ∧ rows.getLast? = some [[]] then rows.dropLast else rows
    if trim text = [] then .ok [] else .ok rows

/-! ## The grid that is exported -/

section Grid

variable {ν : Type} (numberText : ν → JsString)

theorem foldr_max_eq (values : List Nat) (bound : Nat) :
    values.foldr max bound = max (values.foldr max 0) bound := by
  induction values with
  | nil => simp
  | cons value values ih =>
    simp only [List.foldr_cons, ih]
    omega

/-- What is shown of the entries, one after the other. -/
theorem shown_append (before after : List (CellWithRowAndCol ν)) :
    shown numberText (before ++ after) = shown numberText before ++ shown numberText after := by
  simp [shown]

/-- More entries have no fewer rows. -/
theorem rowCount_append (before after : List (CellWithRowAndCol ν)) :
    rowCount numberText (before ++ after) =
      max (rowCount numberText before) (rowCount numberText after) := by
  simp only [rowCount, shown_append, List.map_append, List.foldr_append]
  exact foldr_max_eq _ _

/-- More entries have no fewer columns. -/
theorem colCount_append (before after : List (CellWithRowAndCol ν)) :
    colCount numberText (before ++ after) =
      max (colCount numberText before) (colCount numberText after) := by
  simp only [colCount, shown_append, List.map_append, List.foldr_append]
  exact foldr_max_eq _ _

/-- The last row and column are one less than the numbers of them. -/
theorem lastNonEmpty_eq (celldata : List (CellWithRowAndCol ν)) :
    lastNonEmpty numberText celldata =
      ((rowCount numberText celldata : Int) - 1, (colCount numberText celldata : Int) - 1) := by
  induction celldata using List.reverseRecOn with
  | nil => rfl
  | append_singleton celldata entry ih =>
    rw [rowCount_append, colCount_append]
    unfold lastNonEmpty at ih ⊢
    rw [List.foldl_append, ih, List.foldl_cons, List.foldl_nil]
    by_cases hempty : cellDisplayValue numberText entry.v = []
    · simp [hempty, rowCount, colCount, shown]
    · have hsome : entry.v.isNone = false := by
        cases hv : entry.v with
        | none => simp [hv, cellDisplayValue] at hempty
        | some cell => rfl
      simp only [hempty, hsome, rowCount, colCount, shown, List.filter_cons, List.filter_nil,
        decide_false, Bool.or_false, Bool.false_eq_true, if_false, ne_eq, not_false_eq_true,
        decide_true, if_true, List.map_cons, List.map_nil, List.foldr_cons, List.foldr_nil]
      refine Prod.ext ?_ ?_ <;> simp only <;> omega

/-- There are rows where there are columns. -/
theorem rowCount_eq_zero_iff (celldata : List (CellWithRowAndCol ν)) :
    rowCount numberText celldata = 0 ↔ colCount numberText celldata = 0 := by
  unfold rowCount colCount
  cases shown numberText celldata with
  | nil => simp
  | cons entry rest =>
    simp only [List.map_cons, List.foldr_cons]
    omega

/-- A later entry covers an earlier one. -/
theorem textAt_append (celldata : List (CellWithRowAndCol ν)) (entry : CellWithRowAndCol ν)
    (r c : Nat) : textAt numberText (celldata ++ [entry]) r c =
      if entry.r = r ∧ entry.c = c then cellDisplayValue numberText entry.v
      else textAt numberText celldata r c := by
  unfold textAt
  by_cases hpos : entry.r = r ∧ entry.c = c
  · simp [List.filter_append, hpos.1, hpos.2]
  · rw [if_neg hpos, List.filter_append]
    have hnone : [entry].filter (fun e => e.r = r && e.c = c) = [] := by
      simpa using hpos
    rw [hnone, List.append_nil]

theorem modify_map_range {β : Type} (n i : Nat) (f : Nat → β) (g : β → β) :
    ((List.range n).map f).modify i g =
      (List.range n).map fun k => if k = i then g (f k) else f k := by
  apply List.ext_getElem
  · simp
  · intro k hk hk'
    simp [List.getElem_modify, eq_comm]

theorem set_map_range {β : Type} (n i : Nat) (f : Nat → β) (x : β) :
    ((List.range n).map f).set i x = (List.range n).map fun k => if k = i then x else f k := by
  apply List.ext_getElem
  · simp
  · intro k hk hk'
    simp [List.getElem_set, eq_comm]

/-- The cells written one after the other show what the last cell of each position shows. -/
theorem foldl_writeCell (maxRow maxCol : Nat) (celldata : List (CellWithRowAndCol ν)) :
    celldata.foldl (writeCell numberText maxRow maxCol)
        (List.replicate (maxRow + 1) (List.replicate (maxCol + 1) [])) =
      (List.range (maxRow + 1)).map fun r =>
        (List.range (maxCol + 1)).map fun c => textAt numberText celldata r c := by
  induction celldata using List.reverseRecOn with
  | nil =>
    apply List.ext_getElem
    · simp
    · intro r hr hr'
      apply List.ext_getElem
      · simp
      · intro c hc hc'
        simp [textAt]
  | append_singleton celldata entry ih =>
    rw [List.foldl_append, ih, List.foldl_cons, List.foldl_nil]
    simp only [textAt_append]
    unfold writeCell
    by_cases hout : maxRow < entry.r ∨ maxCol < entry.c
    · rw [if_pos hout]
      apply List.map_congr_left
      intro r hr
      apply List.map_congr_left
      intro c hc
      rw [List.mem_range] at hr hc
      rw [if_neg]
      omega
    · rw [if_neg hout, modify_map_range]
      apply List.map_congr_left
      intro r hr
      by_cases hrow : r = entry.r
      · rw [if_pos hrow, set_map_range]
        apply List.map_congr_left
        intro c hc
        simp only [hrow, true_and, eq_comm]
      · rw [if_neg hrow]
        apply List.map_congr_left
        intro c hc
        rw [if_neg fun h => hrow h.1.symm]

/-- The export is the grid of the texts on display. -/
theorem sheetToCsv_eq (celldata : List (CellWithRowAndCol ν)) :
    sheetToCsv numberText celldata =
      if displayGrid numberText celldata = [] then []
      else csvText (displayGrid numberText celldata) := by
  have hcols := rowCount_eq_zero_iff numberText celldata
  have hgrid : displayGrid numberText celldata = [] ↔ rowCount numberText celldata = 0 := by
    simp [displayGrid]
  simp only [sheetToCsv, lastNonEmpty_eq, hgrid]
  by_cases hzero : rowCount numberText celldata = 0
  · rw [if_pos hzero, if_pos (by omega)]
  · have hrows : ((rowCount numberText celldata : Int) - 1).toNat + 1 =
        rowCount numberText celldata := by omega
    have hcolumns : ((colCount numberText celldata : Int) - 1).toNat + 1 =
        colCount numberText celldata := by omega
    rw [if_neg hzero, if_neg (by omega), foldl_writeCell, hrows, hcolumns]
    rfl

/-- No row of a grid is empty. -/
theorem displayGrid_rows {celldata : List (CellWithRowAndCol ν)} {row : List JsString}
    (hrow : row ∈ displayGrid numberText celldata) : row ≠ [] := by
  have hcols := rowCount_eq_zero_iff numberText celldata
  simp only [displayGrid, List.mem_map, List.mem_range] at hrow
  obtain ⟨r, hr, rfl⟩ := hrow
  simp only [ne_eq, List.map_eq_nil_iff, List.range_eq_nil]
  omega

end Grid

/-! ## Line endings -/

/-- A line end becomes one line feed. -/
theorem normalized_crLf (rest : JsString) :
    normalized (cr :: lf :: rest) = lf :: normalized rest := by
  simp only [normalized, replaceCrLf, replaceCr, and_self, if_true, List.map_cons]
  rw [if_neg (by decide)]

theorem normalized_cons {u : UInt16} {rest : JsString} (h : ¬ (u = cr ∧ rest.head? = some lf)) :
    normalized (u :: rest) = (if u = cr then lf else u) :: normalized rest := by
  cases rest with
  | nil => rfl
  | cons next rest =>
    have hpair : ¬ (u = cr ∧ next = lf) := by simpa using h
    simp only [normalized, replaceCrLf, if_neg hpair, replaceCr, List.map_cons]

theorem normalized_of_ne {u : UInt16} (hu : u ≠ cr) (rest : JsString) :
    normalized (u :: rest) = u :: normalized rest := by
  rw [normalized_cons fun h => hu h.1, if_neg hu]

/-- Texts are taken apart where no pair of line endings is. -/
theorem normalized_append (x : JsString) {y : JsString} (hy : y.head? ≠ some lf) :
    normalized (x ++ y) = normalized x ++ normalized y := by
  induction x using replaceCrLf.induct with
  | case1 => rfl
  | case2 u =>
    rw [List.singleton_append, normalized_cons fun h => hy h.2, normalized_cons (by simp)]
    rfl
  | case3 u next rest hpair ih =>
    rw [hpair.1, hpair.2, List.cons_append, List.cons_append, normalized_crLf, normalized_crLf,
      ih, List.cons_append]
  | case4 u next rest hpair ih =>
    have hno : ¬ (u = cr ∧ (next :: rest).head? = some lf) := by simpa using hpair
    have hno' : ¬ (u = cr ∧ (next :: rest ++ y).head? = some lf) := by simpa using hpair
    rw [List.cons_append, normalized_cons hno', normalized_cons hno, ih, List.cons_append]

theorem cr_notMem_normalized (text : JsString) : cr ∉ normalized text := by
  simp only [normalized, replaceCr, List.mem_map, not_exists, not_and]
  intro u _
  by_cases hu : u = cr
  · rw [if_pos hu]
    decide
  · rw [if_neg hu]
    exact hu

theorem normalized_of_notMem {text : JsString} (h : cr ∉ text) : normalized text = text := by
  induction text with
  | nil => rfl
  | cons u rest ih =>
    rw [List.mem_cons, not_or] at h
    have hu : u ≠ cr := Ne.symm h.1
    rw [normalized_of_ne hu, ih h.2]

theorem normalized_eq_self_iff (text : JsString) : normalized text = text ↔ cr ∉ text := by
  constructor
  · intro h
    rw [← h]
    exact cr_notMem_normalized text
  · exact normalized_of_notMem

/-! ## Fields with one line ending -/

/-- Doubled quotes are normalized alike. -/
theorem normalized_doubled (text : JsString) :
    normalized (csvDialect.doubled text) = csvDialect.doubled (normalized text) := by
  have hcr : ∀ rest, csvDialect.doubled (cr :: rest) = cr :: csvDialect.doubled rest := fun rest =>
    csvDialect.doubled_cons cr rest
  have hlf : ∀ rest, csvDialect.doubled (lf :: rest) = lf :: csvDialect.doubled rest := fun rest =>
    csvDialect.doubled_cons lf rest
  have hother : ∀ u rest, u ≠ cr →
      normalized (csvDialect.doubled rest) = csvDialect.doubled (normalized rest) →
      normalized (csvDialect.doubled (u :: rest)) =
        csvDialect.doubled (normalized (u :: rest)) := by
    intro u rest hu ih
    rw [normalized_of_ne hu, csvDialect.doubled_cons, csvDialect.doubled_cons, ← ih]
    by_cases hquote : u = csvDialect.quote
    · rw [if_pos hquote, List.cons_append, List.singleton_append, normalized_of_ne hu,
        normalized_of_ne hu]
      rfl
    · rw [if_neg hquote, List.singleton_append, normalized_of_ne hu]
      rfl
  induction text using replaceCrLf.induct with
  | case1 => rfl
  | case2 u =>
    by_cases hu : u = cr
    · rw [hu]
      rfl
    · exact hother u [] hu rfl
  | case3 u next rest hpair ih =>
    rw [hpair.1, hpair.2, hcr, hlf, normalized_crLf, normalized_crLf, hlf, ih]
  | case4 u next rest hpair ih =>
    by_cases hu : u = cr
    · have hnext : next ≠ lf := fun h => hpair ⟨hu, h⟩
      have hhead : (csvDialect.doubled (next :: rest)).head? ≠ some lf := by
        rw [csvDialect.head?_doubled]
        simpa using hnext
      rw [hu, hcr, normalized_cons fun h => hhead h.2,
        normalized_cons fun h => hnext (by simpa using h.2), if_pos rfl, hlf, ih]
    · exact hother u (next :: rest) hu ih

/-- A text is quoted or not as it is when it is normalized. -/
theorem any_isSpecial_normalized (text : JsString) :
    (normalized text).any csvDialect.isSpecial = text.any needsEscape := by
  have hunit : ∀ u, csvDialect.isSpecial (if u = cr then lf else u) = needsEscape u := by
    intro u
    by_cases hcr : u = cr
    · rw [hcr]
      rfl
    · simp [Dialect.isSpecial, needsEscape, csvDialect, hcr]
  induction text using replaceCrLf.induct with
  | case1 => rfl
  | case2 u =>
    rw [normalized_cons (by simp), List.any_cons, hunit, List.any_cons]
    rfl
  | case3 u next rest hpair ih =>
    rw [hpair.1, hpair.2, normalized_crLf, List.any_cons, List.any_cons, List.any_cons, ih]
    rfl
  | case4 u next rest hpair ih =>
    have hno : ¬ (u = cr ∧ (next :: rest).head? = some lf) := by simpa using hpair
    rw [normalized_cons hno, List.any_cons, hunit, ih]
    rfl

/-- A field that is escaped is a field of the normal text. -/
theorem normalized_csvEscape (text : JsString) :
    normalized (csvEscape text) = csvDialect.writeField (normalized text) := by
  unfold csvEscape Dialect.writeField
  rw [any_isSpecial_normalized]
  by_cases hescape : text.any needsEscape = true
  · rw [if_pos hescape, if_pos hescape, normalized_of_ne (by decide), Dialect.quoted,
      normalized_append _ (by decide), ← normalized_doubled]
    rfl
  · rw [if_neg hescape, if_neg hescape]

/-- A row is normalized field by field. -/
theorem normalized_row (row : List JsString) :
    normalized (join [comma] (row.map csvEscape)) = csvDialect.writeRow (row.map normalized) := by
  unfold join
  induction row with
  | nil => rfl
  | cons text row ih =>
    cases row with
    | nil =>
      simpa [List.intercalate, Dialect.writeRow] using normalized_csvEscape text
    | cons next row =>
      have hjoin : [comma].intercalate ((text :: next :: row).map csvEscape) =
          csvEscape text ++ comma :: [comma].intercalate ((next :: row).map csvEscape) := by
        simp [List.intercalate]
      have hrow : (next :: row).map normalized ≠ [] := by simp
      rw [hjoin, normalized_append _ (by simp; decide), normalized_of_ne (by decide), ih,
        normalized_csvEscape]
      exact (csvDialect.writeRow_cons _ hrow).symm

variable {grid : List (List JsString)}

/-- The text of one more row. -/
theorem csvText_cons {row : List JsString} (hgrid : grid ≠ []) :
    csvText (row :: grid) = join [comma] (row.map csvEscape) ++ cr :: lf :: csvText grid := by
  cases grid with
  | nil => contradiction
  | cons next grid => simp [csvText, join, List.intercalate]

/-- The line endings made one, the export is a table of the normal texts. -/
theorem normalized_csvText (hgrid : grid ≠ []) :
    normalized (csvText grid) = csvDialect.write (grid.map fun row => row.map normalized) := by
  induction grid with
  | nil => contradiction
  | cons row grid ih =>
    cases grid with
    | nil =>
      have hone : csvText [row] = join [comma] (row.map csvEscape) ++ [cr, lf] := by
        simp [csvText, join, List.intercalate]
      rw [hone, normalized_append _ (by decide), normalized_row]
      simp [Dialect.write]
      rfl
    | cons next grid =>
      have hhead : (cr :: lf :: csvText (next :: grid)).head? ≠ some lf := by
        rw [List.head?_cons]
        decide
      rw [csvText_cons (List.cons_ne_nil next grid), normalized_append _ hhead,
        normalized_row, normalized_crLf, ih (List.cons_ne_nil next grid)]
      simp [Dialect.write, csvDialect]

/-! ## What the import makes of an export -/

/-- A written grid is read back normalized, unless it is blank. -/
theorem parseCsv_csvText (hgrid : grid ≠ []) (hrows : ∀ row ∈ grid, row ≠ []) :
    parseCsv (csvText grid) =
      .ok (if trim (csvText grid) = [] then [] else grid.map fun row => row.map normalized) := by
  have hfields : ∀ row ∈ grid.map fun row => row.map normalized, row ≠ [] := by
    intro row hrow
    simp only [List.mem_map] at hrow
    obtain ⟨row, hmem, rfl⟩ := hrow
    simpa using hrows row hmem
  have hread := csvDialect.read_write hfields []
  rw [← normalized_csvText hgrid] at hread
  have hlength :
      1 < ((grid.map fun row : List JsString => row.map normalized) ++ [[[]]]).length := by
    have hpos := List.length_pos_of_ne_nil hgrid
    simp only [List.length_append, List.length_map, List.length_singleton]
    omega
  simp only [parseCsv, Reader.init, hread, Bool.false_eq_true, if_false, Reader.endRow,
    List.nil_append]
  by_cases hblank : trim (csvText grid) = []
  · rw [if_pos hblank, if_pos hblank]
  · rw [if_neg hblank, if_neg hblank, if_pos ⟨hlength, List.getLast?_concat⟩,
      List.dropLast_concat]

/-- White space that is not escaped. -/
def Blank (text : JsString) : Prop :=
  ∀ u ∈ text, isSpace u = true ∧ needsEscape u = false

/-- A field is blank when its text is. -/
theorem blank_csvEscape_iff (text : JsString) :
    (∀ u ∈ csvEscape text, isSpace u = true) ↔ Blank text := by
  unfold csvEscape Blank
  by_cases hescape : text.any needsEscape = true
  · rw [if_pos hescape]
    constructor
    · intro h
      have hquote := h quotation List.mem_cons_self
      contradiction
    · intro h
      rw [List.any_eq_true] at hescape
      obtain ⟨u, hmem, hu⟩ := hescape
      rw [(h u hmem).2] at hu
      contradiction
  · rw [if_neg hescape]
    rw [Bool.not_eq_true, List.any_eq_false] at hescape
    constructor
    · intro h u hmem
      exact ⟨h u hmem, by simpa using hescape u hmem⟩
    · intro h u hmem
      exact (h u hmem).1

/-- A row is blank when it is one blank field. -/
theorem blank_join_iff (row : List JsString) :
    (∀ u ∈ join [comma] (row.map csvEscape), isSpace u = true) ↔
      row.length ≤ 1 ∧ ∀ text ∈ row, Blank text := by
  cases row with
  | nil => simp [join, List.intercalate]
  | cons text row =>
    cases row with
    | nil => simpa [join, List.intercalate] using blank_csvEscape_iff text
    | cons next row =>
      have hcomma : comma ∈ join [comma] ((text :: next :: row).map csvEscape) := by
        simp [join, List.intercalate]
      constructor
      · intro h
        have hspace := h comma hcomma
        contradiction
      · intro h
        simp at h

/-- The text of a grid is that of its rows. -/
theorem csvText_eq_flatMap (hgrid : grid ≠ []) :
    csvText grid = grid.flatMap fun row => join [comma] (row.map csvEscape) ++ [cr, lf] := by
  induction grid with
  | nil => contradiction
  | cons row grid ih =>
    cases grid with
    | nil => simp [csvText, join, List.intercalate]
    | cons next grid =>
      rw [csvText_cons (List.cons_ne_nil next grid), ih (List.cons_ne_nil next grid)]
      simp

/-- The exports that look empty to the import. -/
theorem trim_csvText_iff (hgrid : grid ≠ []) : trim (csvText grid) = [] ↔
      ∀ row ∈ grid, row.length ≤ 1 ∧ ∀ text ∈ row, Blank text := by
  rw [trim_eq_nil_iff, csvText_eq_flatMap hgrid]
  constructor
  · intro h row hrow
    rw [← blank_join_iff]
    intro u hu
    exact h u (List.mem_flatMap.mpr ⟨row, hrow, List.mem_append_left _ hu⟩)
  · intro h u hu
    obtain ⟨row, hrow, hmem⟩ := List.mem_flatMap.mp hu
    rcases List.mem_append.mp hmem with hmem | hmem
    · exact (blank_join_iff row).mpr (h row hrow) u hmem
    · rcases List.mem_pair.mp hmem with rfl | rfl <;> rfl

/-- No carriage return is shown, and something that is no blank line. -/
structure Legible (grid : List (List JsString)) : Prop where
  noReturn : ∀ row ∈ grid, ∀ text ∈ row, cr ∉ text
  visible : ¬ ∀ row ∈ grid, row.length ≤ 1 ∧ ∀ text ∈ row, Blank text

/-- A grid stays when it has no carriage return. -/
theorem map_normalized_eq_iff (grid : List (List JsString)) :
    (grid.map fun row => row.map normalized) = grid ↔
      ∀ row ∈ grid, ∀ text ∈ row, cr ∉ text := by
  have hmap : ∀ {β : Type} (f : β → β) (xs : List β), xs.map f = xs ↔ ∀ x ∈ xs, f x = x := by
    intro β f xs
    induction xs with
    | nil => simp
    | cons x xs ih => simp [ih]
  simp only [hmap, normalized_eq_self_iff]

/-- A sheet is imported as it was shown exactly when nothing was shown, or the texts are
legible. -/
theorem csvRoundTrip_iff {ν : Type} (numberText : ν → JsString)
    (celldata : List (CellWithRowAndCol ν)) :
    parseCsv (sheetToCsv numberText celldata) = .ok (displayGrid numberText celldata) ↔
      displayGrid numberText celldata = [] ∨ Legible (displayGrid numberText celldata) := by
  rw [sheetToCsv_eq]
  by_cases hgrid : displayGrid numberText celldata = []
  · rw [if_pos hgrid, hgrid]
    exact iff_of_true rfl (Or.inl rfl)
  · rw [if_neg hgrid, parseCsv_csvText hgrid fun row hrow => displayGrid_rows numberText hrow,
      Except.ok.injEq, or_iff_right hgrid]
    by_cases hblank : trim (csvText (displayGrid numberText celldata)) = []
    · rw [if_pos hblank]
      refine iff_of_false (Ne.symm hgrid) ?_
      intro h
      exact h.visible ((trim_csvText_iff hgrid).mp hblank)
    · rw [if_neg hblank, map_normalized_eq_iff]
      constructor
      · intro h
        exact ⟨h, fun hall => hblank ((trim_csvText_iff hgrid).mpr hall)⟩
      · exact Legible.noReturn

/-- A carriage return comes back as a line feed. -/
theorem not_csvRoundTrip :
    ¬ ∀ celldata : List (CellWithRowAndCol Empty),
      parseCsv (sheetToCsv Empty.elim celldata) = .ok (displayGrid Empty.elim celldata) := by
  intro h
  have hreturn := h [⟨0, 0, some ⟨some (.text [97, 13, 98]), none⟩⟩]
  revert hreturn
  decide

end TinyAgentOS.OfficeStudio
