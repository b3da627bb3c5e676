import TinyAgentOS.OfficeStudio.Table

/-!
# Tables whose rows fit their columns

Main results:

- `kept_iff`: the tables whose rows fit their columns and that are read back as they were written.
- `fits_parseTableContent_iff`: the contents that are read as such a table.
-/

namespace TinyAgentOS.OfficeStudio

open Collections Js

variable {ν : Type}

/-! ## The values of a type -/

/-- A day of four, two and two digits. -/
def isDateText : JsString → Bool
  | [y₁, y₂, y₃, y₄, dash, m₁, m₂, dash', d₁, d₂] =>
    [y₁, y₂, y₃, y₄, m₁, m₂, d₁, d₂].all isDigit && dash = unit '-' && dash' = unit '-'
  | _ => false

def hasType : ColumnType → JsonValue ν → Bool
  | .text, .string _ => true
  | .number, .number _ | .number, .null => true
  | .checkbox, .bool _ => true
  | .date, .string s => s = [] || isDateText s
  | .date, .null => true
  | _, _ => false

attribute [local simp] isDateText coerceValue

theorem isDigit_digit (n : Nat) : isDigit (digit n) = true := by
  have hdigits : ∀ m < 10, isDigit (UInt16.ofNat (48 + m)) = true := by decide
  exact hdigits _ (Nat.mod_lt n (by decide))

/-- The day of a date is four, two and two digits exactly when the year has no sign. -/
theorem isDateText_isoDay (d : CivilDate) :
    isDateText (isoDay d) = true ↔ 0 ≤ d.year ∧ d.year ≤ 9999 := by
  by_cases hyear : 0 ≤ d.year ∧ d.year ≤ 9999
  · refine iff_of_true ?_ hyear
    simp [isoDay, isoDate, yearText, hyear, fourDigits, twoDigits, isDateText, isDigit_digit]
  · refine iff_of_false ?_ hyear
    have hsign : isDigit (if d.year < 0 then unit '-' else unit '+') = false := by
      by_cases hneg : d.year < 0
      · rw [if_pos hneg]
        decide
      · rw [if_neg hneg]
        decide
    simp [isoDay, isoDate, yearText, hyear, fourDigits, twoDigits, isDateText, hsign]

/-- A default has its type. -/
theorem hasType_defaultValue (t : ColumnType) :
    hasType t (defaultValueForType (ν := ν) t) = true := by
  cases t <;> rfl

/-- A default is finite. -/
theorem finite_defaultValue (N : JsonNumbers ν) (t : ColumnType) :
    (defaultValueForType t).finite N = true := by
  cases t <;> rfl

variable {v : JsonValue ν}

/-- The values of a type hold no others. -/
theorem distinct_of_hasType {t : ColumnType} (h : hasType t v = true) : v.distinct = true := by
  cases v with
  | array | object => cases t <;> contradiction
  | null | bool | number | string => rfl

/-- No text in the cell stands for a day of a year that takes a sign. -/
def ReadsDay (E : Conversions ν) (value : Option (JsonValue ν)) : Prop :=
  ∀ s d, value = some (.string s) → s ≠ [] → E.dateOfText s = some d → 0 ≤ d.year ∧ d.year ≤ 9999

section

variable (E : Conversions ν) (value : Option (JsonValue ν))
include E value

/-- What a value becomes in a column of numbers. -/
theorem coerceValue_number : coerceValue E value .number = .null ∨
      ∃ x, E.isFinite x = true ∧ coerceValue E value .number = .number x := by
  simp only [coerceValue]
  split
  · exact Or.inl rfl
  · exact Or.inl rfl
  · exact Or.inl rfl
  · rename_i v _ _
    by_cases hfinite : E.isFinite (toNumber E v) = true
    · exact Or.inr ⟨_, hfinite, if_pos hfinite⟩
    · exact Or.inl (if_neg hfinite)

/-- What a value becomes in a column of dates. -/
theorem coerceValue_date : (∃ s d, value = some (.string s) ∧ s ≠ [] ∧ E.dateOfText s = some d ∧
        coerceValue E value .date = .string (isoDay d)) ∨
      (coerceValue E value .date = .null ∧ ReadsDay E value) := by
  simp only [coerceValue]
  split
  · rename_i u us
    cases hday : E.dateOfText (u :: us) with
    | some d => exact Or.inl ⟨u :: us, d, rfl, List.cons_ne_nil u us, hday, rfl⟩
    | none =>
      refine Or.inr ⟨rfl, ?_⟩
      rintro s d hs _ hd
      cases hs
      rw [hday] at hd
      contradiction
  · rename_i hother
    refine Or.inr ⟨rfl, ?_⟩
    rintro s d rfl hne _
    cases s with
    | nil => contradiction
    | cons u us => exact absurd rfl (hother u us)

/-- A coerced value has its type, unless it is no day. -/
theorem hasType_coerceValue (t : ColumnType) :
    hasType t (coerceValue E value t) = true ↔ (t = .date → ReadsDay E value) := by
  cases t with
  | checkbox => exact iff_of_true rfl nofun
  | number =>
    refine iff_of_true ?_ nofun
    rcases coerceValue_number E value with hnull | ⟨x, _, hx⟩
    · rw [hnull]
      rfl
    · rw [hx]
      rfl
  | text =>
    refine iff_of_true ?_ nofun
    simp only [coerceValue]
    split <;> rfl
  | date =>
    rcases coerceValue_date E value with ⟨s, d, rfl, hs, hd, hday⟩ | ⟨hnull, hreads⟩
    · have hne : isoDay d ≠ [] := by simp [isoDay, isoDate, yearText]
      rw [hday, hasType, decide_eq_false hne, Bool.false_or, isDateText_isoDay]
      constructor
      · rintro hyear _ s' d' hs' _ hd'
        cases hs'
        rw [hd] at hd'
        cases hd'
        exact hyear
      · exact fun h => h rfl s d rfl hs hd
    · rw [hnull]
      exact iff_of_true rfl fun _ => hreads

/-- A coerced value is finite. -/
theorem finite_coerceValue (t : ColumnType) :
    (coerceValue E value t).finite E.toJsonNumbers = true := by
  cases t with
  | checkbox => rfl
  | number =>
    rcases coerceValue_number E value with hnull | ⟨x, hfinite, hx⟩
    · rw [hnull]
      rfl
    · rw [hx]
      exact hfinite
  | text =>
    simp only [coerceValue]
    split <;> rfl
  | date =>
    rcases coerceValue_date E value with ⟨s, d, _, _, _, hday⟩ | ⟨hnull, _⟩
    · rw [hday]
      rfl
    · rw [hnull]
      rfl

end

/-! ## The cells that are read -/

/-- A cell of a column, that can be made. -/
def isCell (ids : List JsString) (e : JsString × JsonValue ν) : Bool :=
  ids.contains e.1 && e.1 ≠ protoName

/-- A cell is that of a column with a plain id. -/
theorem isCell_iff {ids : List JsString} {e : JsString × JsonValue ν} :
    isCell ids e = true ↔ e.1 ∈ ids ∧ e.1 ≠ protoName := by
  simp [isCell]

variable {entries : List (JsString × JsonValue ν)}

/-- The cells that are read are those of the columns. -/
theorem foldl_cellsOf (ids : List JsString) {cells : Dict JsString (JsonValue ν)}
    (hnodup : (cells.entries.map Prod.fst ++ entries.map Prod.fst).Nodup) :
    (entries.foldl (fun cells e => if e.1 ∈ ids then assignCell cells e.1 e.2 else cells)
      cells).entries = cells.entries ++ entries.filter (isCell ids) := by
  induction entries generalizing cells with
  | nil => simp
  | cons e entries ih =>
    have hsub : (cells.entries.map Prod.fst ++ entries.map Prod.fst).Nodup :=
      hnodup.sublist ((List.sublist_cons_self _ _).append_left _)
    rw [List.foldl_cons]
    by_cases hcell : e.1 ∈ ids ∧ e.1 ≠ protoName
    · have hkey : e.1 ∉ cells.entries.map Prod.fst := by
        intro hmem
        exact (List.nodup_append.mp hnodup).2.2 _ hmem _ List.mem_cons_self rfl
      have hset : (cells.set e.1 e.2).entries = cells.entries ++ [e] :=
        Dict.setIn_of_notMem hkey
      rw [if_pos hcell.1, assignCell, if_neg hcell.2, ih, hset, List.append_assoc,
        List.filter_cons_of_pos (isCell_iff.mpr hcell)]
      · rfl
      · rw [hset]
        simpa using hnodup
    · rw [List.filter_cons_of_neg fun hmade => hcell (isCell_iff.mp hmade)]
      by_cases hid : e.1 ∈ ids
      · have hproto : e.1 = protoName := by
          by_contra hne
          exact hcell ⟨hid, hne⟩
        rw [if_pos hid, assignCell, if_pos hproto]
        exact ih hsub
      · rw [if_neg hid]
        exact ih hsub

/-- Of entries with names of their own those are kept that are cells of columns. -/
theorem entries_cellsOf (ids : List JsString) (hnodup : (entries.map Prod.fst).Nodup) :
    (cellsOf ids entries).entries = entries.filter (isCell ids) := by
  have hempty : ((Dict.empty : Dict JsString (JsonValue ν)).entries.map Prod.fst ++
      entries.map Prod.fst).Nodup := hnodup
  exact foldl_cellsOf ids hempty

theorem map_unit_indexName (n : Nat) :
    (indexName n).map (fun u => Char.ofNat u.toNat) = Nat.toDigits 10 n := by
  have hunit : ∀ c ∈ Nat.toDigits 10 n, Char.ofNat (unit c).toNat = c := by
    intro c hc
    have hdigit := Nat.isDigit_of_mem_toDigits (by decide) (by decide) hc
    have hlt : c.toNat < 2 ^ 16 := by
      simp only [Char.isDigit, Bool.and_eq_true, decide_eq_true_eq, ge_iff_le] at hdigit
      have hle : c.toNat ≤ 57 := hdigit.2
      omega
    rw [unit, UInt16.toNat_ofNat_of_lt' hlt, Char.ofNat_toNat]
  rw [indexName, List.map_map]
  exact (List.map_congr_left hunit).trans (List.map_id _)

theorem indexName_injective {m n : Nat} (h : indexName m = indexName n) : m = n := by
  refine toDigits_injective ?_
  rw [← map_unit_indexName, ← map_unit_indexName, h]

/-- The entries of a value have distinct names. -/
theorem nodup_entriesOf (hv : v.distinct = true) (h : entriesOf v = some entries) :
    (entries.map Prod.fst).Nodup := by
  cases v with
  | object members =>
    cases h
    exact nodup_of_distinct hv
  | array items =>
    cases h
    have hnames : (items.zipIdx.map fun p => (indexName p.2, p.1)).map Prod.fst =
        (List.range' 0 items.length).map indexName := by
      rw [List.map_map, ← List.zipIdx_map_snd 0 items, List.map_map]
      rfl
    rw [hnames]
    have hrange : (List.range' 0 items.length).Nodup := List.nodup_range'
    exact hrange.map fun m n h => indexName_injective h
  | _ => contradiction

/-! ## What is asked of a table -/

namespace DbTable

def ids (t : DbTable ν) : List JsString :=
  t.columns.map Column.id

structure Kept (E : Conversions ν) (t : DbTable ν) : Prop where
  nonempty : t.columns ≠ []
  complete : ∀ r ∈ t.rows, r.cells.keys.Perm t.ids
  typed : ∀ r ∈ t.rows, ∀ c ∈ t.columns, ∀ v, r.cells.get? c.id = some v →
    hasType c.type v = true
  roundTrip : ∀ ids, parseTableContent E (serializeTable E t) ids = t

/-- A row with one cell for each column, of its type, that is read back as it was written. -/
structure FitsRow (E : Conversions ν) (columns : List (Column ν)) (r : Row ν) : Prop where
  complete : r.cells.keys.Perm (columns.map Column.id)
  typed : ∀ c ∈ columns, ∀ v, r.cells.get? c.id = some v → hasType c.type v = true
  named : protoName ∉ columns.map Column.id
  finite : ∀ e ∈ r.cells.entries, e.2.finite E.toJsonNumbers = true

structure Fits (E : Conversions ν) (t : DbTable ν) : Prop where
  nonempty : t.columns ≠ []
  finite : ∀ c ∈ t.columns, c.value.finite E.toJsonNumbers = true
  rows : ∀ r ∈ t.rows, FitsRow E t.columns r

/-! ## The round trip -/

end DbTable

/-- A column is read from its value alone. -/
theorem toColumn?_eq_some_iff (v : JsonValue ν) (c : Column ν) :
    toColumn? v = some c ↔ c.value = v := by
  constructor
  · intro h
    cases v with
    | object members =>
      by_cases hboth : isValidColumn (.object members) = true ∧
          (JsonValue.object members).distinct = true
      · rw [toColumn?, dif_pos hboth] at h
        cases h
        rfl
      · rw [toColumn?, dif_neg hboth] at h
        contradiction
    | _ => contradiction
  · rintro rfl
    have hboth : isValidColumn (.object c.members) = true ∧
        (JsonValue.object c.members).distinct = true := ⟨c.valid, c.distinct⟩
    rw [Column.value, toColumn?, dif_pos hboth]

/-- The value of a row has distinct names. -/
theorem distinct_rowValue {r : Row ν} (h : ∀ e ∈ r.cells.entries, e.2.distinct = true) :
    (rowValue r).distinct = true := by
  have hnames : [ofString "id", ofString "cells"].Nodup := by decide
  have hcells : distinctMembers r.cells.entries = true := distinctMembers_iff.mpr h
  simp only [rowValue, JsonValue.distinct, distinctMembers, hcells, Bool.and_true,
    decide_eq_true r.cells.nodup, decide_eq_true_eq, List.map_cons, List.map_nil]
  exact hnames

/-- The value of a table has distinct names. -/
theorem distinct_tableValue (E : Conversions ν) {t : DbTable ν}
    (h : ∀ r ∈ t.rows, ∀ e ∈ r.cells.entries, e.2.distinct = true) :
    (tableValue E t).distinct = true := by
  have hnames : [ofString "version", ofString "columns", ofString "rows"].Nodup := by decide
  have hcolumns : distinctItems (t.columns.map Column.value) = true := by
    refine distinctItems_iff.mpr fun v hv => ?_
    obtain ⟨c, _, rfl⟩ := List.mem_map.mp hv
    exact c.distinct
  have hrows : distinctItems (t.rows.map rowValue) = true := by
    refine distinctItems_iff.mpr fun v hv => ?_
    obtain ⟨r, hr, rfl⟩ := List.mem_map.mp hv
    exact distinct_rowValue (h r hr)
  simp only [tableValue, JsonValue.distinct, distinctMembers, hcolumns, hrows, Bool.and_true,
    decide_eq_true_eq, List.map_cons, List.map_nil]
  exact hnames

/-- The text of a table is not blank. -/
theorem trim_serializeTable (E : Conversions ν) (t : DbTable ν) :
    trim (serializeTable E t) ≠ [] := by
  intro hempty
  have hspace := trim_eq_nil_iff.mp hempty (unit '\x7b') List.mem_cons_self
  revert hspace
  decide

/-- A row as it is read back. -/
def settledRow (E : Conversions ν) (ids : List JsString) (r : Row ν) : Row ν :=
  ⟨r.id, cellsOf ids (settledMembers E.toJsonNumbers r.cells.entries)⟩

/-- The cells of a written row. -/
theorem rowCells_settled (N : JsonNumbers ν) (r : Row ν) :
    rowCells (settled N (rowValue r)) = some (settledMembers N r.cells.entries) := by
  have hname : ofString "id" ≠ ofString "cells" := by decide
  simp [rowValue, settled, settledMembers, rowCells, prop, Dict.lookupIn, hname, entriesOf]

/-- A written row is valid. -/
theorem isValidRow_settled (N : JsonNumbers ν) (r : Row ν) :
    isValidRow (settled N (rowValue r)) = true := by
  have hcells := rowCells_settled N r
  simp only [rowValue, settled, settledMembers] at hcells ⊢
  rw [isValidRow, hcells]
  rfl

/-- A written row is read back. -/
theorem rowOf_settled (E : Conversions ν) (ids : List JsString) (r : Row ν) :
    rowOf ids (settled E.toJsonNumbers (rowValue r)) = settledRow E ids r := by
  have hid : rowId (settled E.toJsonNumbers (rowValue r)) = r.id := rfl
  rw [rowOf, hid, rowCells_settled]
  rfl

/-- A table as it is read back. -/
theorem parseTableContent_serializeTable (E : Conversions ν) {t : DbTable ν}
    (h : ∀ r ∈ t.rows, ∀ e ∈ r.cells.entries, e.2.distinct = true) (ids : BlankIds) :
    parseTableContent E (serializeTable E t) ids =
      if t.columns = [] then blankTable ids
      else
        (((t.columns.map fun c => settled E.toJsonNumbers c.value).mapM toColumn?).map
          fun columns => ⟨columns, t.rows.map (settledRow E (columns.map Column.id))⟩).getD
            (blankTable ids) := by
  have hparse := parse_stringify E.toJsonNumbers (tableValue E t) (distinct_tableValue E h)
  have hsettled : tableOf (settled E.toJsonNumbers (tableValue E t)) =
      if t.columns = [] then none
      else ((t.columns.map fun c => settled E.toJsonNumbers c.value).mapM toColumn?).map
        fun columns => ⟨columns, t.rows.map (settledRow E (columns.map Column.id))⟩ := by
    have hcolumns : ofString "version" ≠ ofString "columns" := by decide
    have hrows : ofString "version" ≠ ofString "rows" ∧
        ofString "columns" ≠ ofString "rows" := by decide
    have hvalid : (t.rows.map fun r => settled E.toJsonNumbers (rowValue r)).all isValidRow =
        true := by
      simp [isValidRow_settled]
    simp only [tableValue, settled, settledMembers, settledItems_eq, tableOf, prop, Dict.lookupIn,
      if_neg hcolumns, if_neg hrows.1, if_neg hrows.2, if_true, List.map_map, Function.comp_def,
      List.isEmpty_iff, List.map_eq_nil_iff, hvalid, Bool.not_true, Bool.or_false, rowOf_settled]
  rw [parseTableContent, if_neg (trim_serializeTable E t), serializeTable, hparse]
  by_cases hempty : t.columns = []
  · simp only [hsettled, if_pos hempty, Option.getD_none]
  · simp only [hsettled, if_neg hempty]

/-- Rows are equal that have the same id and cells. -/
theorem row_eq_iff {r r' : Row ν} : r = r' ↔ r.id = r'.id ∧ r.cells.entries = r'.cells.entries := by
  obtain ⟨id, entries, _⟩ := r
  obtain ⟨id', entries', _⟩ := r'
  simp only [Row.mk.injEq, Dict.mk.injEq]

/-- A row is read back exactly when its cells are cells of columns and its numbers are finite. -/
theorem settledRow_eq_iff (E : Conversions ν) (ids : List JsString) (r : Row ν) :
    settledRow E ids r = r ↔
      ∀ e ∈ r.cells.entries, isCell ids e = true ∧ e.2.finite E.toJsonNumbers = true := by
  have hmembers := settledMembers_eq E.toJsonNumbers r.cells.entries
  have hnames : (settledMembers E.toJsonNumbers r.cells.entries).map Prod.fst =
      r.cells.entries.map Prod.fst := by
    rw [hmembers, List.map_map]
    rfl
  have hentries := entries_cellsOf ids (hnames ▸ r.cells.nodup)
  have hread : (settledRow E ids r).cells.entries =
      (r.cells.entries.filter (isCell ids)).map fun m => (m.1, settled E.toJsonNumbers m.2) := by
    rw [settledRow, hentries, hmembers, List.filter_map]
    rfl
  rw [row_eq_iff, hread]
  constructor
  · rintro ⟨_, h⟩
    have hlength := congrArg List.length h
    rw [List.length_map, List.length_filter_eq_length_iff] at hlength
    rw [List.filter_eq_self.mpr hlength, map_eq_self_iff] at h
    intro e he
    exact ⟨hlength e he, (settled_eq_iff _ _).mp (congrArg Prod.snd (h e he))⟩
  · intro h
    refine ⟨rfl, ?_⟩
    rw [List.filter_eq_self.mpr fun e he => (h e he).1, map_eq_self_iff]
    intro e he
    rw [(settled_eq_iff _ _).mpr (h e he).2]

/-! ## New rows -/

/-- The cells of a new row. -/
theorem cells_newRow (columns : List (Column ν)) (drawn : JsString) : (newRow columns drawn).cells =
      cellsOf (columns.map Column.id)
        (columns.map fun c => (c.id, defaultValueForType c.type)) := by
  rw [newRow, cellsOf, List.foldl_map]
  refine List.foldl_ext _ _ _ fun cells c hc => ?_
  rw [if_pos (List.mem_map_of_mem hc)]

/-- A new row has a default for each column. -/
theorem entries_newRow {columns : List (Column ν)} (hnodup : (columns.map Column.id).Nodup)
    (hproto : protoName ∉ columns.map Column.id) (drawn : JsString) :
    (newRow columns drawn).cells.entries =
      columns.map fun c => (c.id, defaultValueForType c.type) := by
  have hnames : (columns.map fun c => (c.id, defaultValueForType (ν := ν) c.type)).map Prod.fst =
      columns.map Column.id := by
    rw [List.map_map]
    rfl
  rw [cells_newRow, entries_cellsOf _ (hnames ▸ hnodup)]
  refine List.filter_eq_self.mpr fun e he => ?_
  obtain ⟨c, hc, rfl⟩ := List.mem_map.mp he
  have hid := List.mem_map_of_mem (f := Column.id) hc
  exact isCell_iff.mpr ⟨hid, fun heq => hproto (heq ▸ hid)⟩

namespace DbTable

/-- A new row fits exactly the columns whose ids name cells of their own. -/
theorem fitsRow_newRow (E : Conversions ν) (columns : List (Column ν)) (drawn : JsString) :
    FitsRow E columns (newRow columns drawn) ↔
      (columns.map Column.id).Nodup ∧ protoName ∉ columns.map Column.id := by
  constructor
  · exact fun h => ⟨h.complete.nodup_iff.mp (newRow columns drawn).cells.nodup, h.named⟩
  · rintro ⟨hnodup, hproto⟩
    have hentries := entries_newRow hnodup hproto drawn
    refine ⟨?_, ?_, hproto, ?_⟩
    · rw [Dict.keys, hentries, List.map_map]
      exact List.Perm.refl _
    · intro c hc v hv
      have hmem := Dict.mem_of_lookupIn hv
      rw [hentries] at hmem
      obtain ⟨c', hc', heq⟩ := List.mem_map.mp hmem
      obtain ⟨hid, rfl⟩ := Prod.mk.inj heq
      rw [List.inj_on_of_nodup_map hnodup hc' hc hid]
      exact hasType_defaultValue c.type
    · intro e he
      rw [hentries] at he
      obtain ⟨c, _, rfl⟩ := List.mem_map.mp he
      exact finite_defaultValue _ c.type

theorem protoName_ne (drawn : JsString) : protoName ≠ ofString "col-" ++ drawn := by
  have hfirst : protoName.head? ≠ (ofString "col-").head? := by decide
  intro heq
  rw [heq] at hfirst
  exact hfirst rfl

theorem fits_blankTable (E : Conversions ν) (ids : BlankIds) : Fits E (blankTable ids) := by
  refine ⟨List.cons_ne_nil _ _, ?_, ?_⟩
  · intro c hc
    rw [List.mem_singleton.mp hc]
    rfl
  · intro r hr
    rw [List.mem_singleton.mp hr]
    refine (fitsRow_newRow E _ _).mpr ⟨List.nodup_singleton _, ?_⟩
    exact fun hmem => protoName_ne ids.column (List.mem_singleton.mp hmem)

/-! ## The tables that are read back -/

variable {r : Row ν} {columns : List (Column ν)} {row : JsonValue ν}

/-- A cell is that of a column. -/
theorem exists_column (h : r.cells.keys.Perm (columns.map Column.id)) {e : JsString × JsonValue ν}
    (he : e ∈ r.cells.entries) : ∃ c ∈ columns, c.id = e.1 ∧ r.cells.get? c.id = some e.2 := by
  obtain ⟨c, hc, hid⟩ := List.mem_map.mp (h.subset (List.mem_map_of_mem he))
  exact ⟨c, hc, hid, hid ▸ Dict.lookupIn_of_mem r.cells.nodup he⟩

/-- The cells of a complete row have distinct names. -/
theorem distinct_cells (hcomplete : r.cells.keys.Perm (columns.map Column.id))
    (htyped : ∀ c ∈ columns, ∀ v, r.cells.get? c.id = some v → hasType c.type v = true) :
    ∀ e ∈ r.cells.entries, e.2.distinct = true := by
  intro e he
  obtain ⟨c, hc, _, hcell⟩ := exists_column hcomplete he
  exact distinct_of_hasType (htyped c hc e.2 hcell)

/-- The rows of a table fit its columns, and it is read back as it was written, exactly when it
fits and its numbers are finite. -/
theorem kept_iff (E : Conversions ν) (t : DbTable ν) : t.Kept E ↔ t.Fits E := by
  constructor
  · intro h
    have hread := h.roundTrip ⟨[], []⟩
    rw [parseTableContent_serializeTable E fun r hr =>
      distinct_cells (h.complete r hr) (h.typed r hr), if_neg h.nonempty] at hread
    cases hmap : (t.columns.map fun c => settled E.toJsonNumbers c.value).mapM toColumn? with
    | none =>
      rw [hmap, Option.map_none, Option.getD_none] at hread
      rw [← hread]
      exact fits_blankTable E _
    | some columns =>
      rw [hmap, Option.map_some, Option.getD_some] at hread
      obtain rfl : columns = t.columns := congrArg DbTable.columns hread
      have hrows := map_eq_self_iff.mp (congrArg DbTable.rows hread)
      have hvalues := List.map_inj_left.mp ((mapM_eq_some_iff toColumn?_eq_some_iff).mp hmap)
      refine ⟨h.nonempty, fun c hc => (settled_eq_iff _ _).mp (hvalues c hc).symm, ?_⟩
      intro r hr
      have hcells := (settledRow_eq_iff E _ r).mp (hrows r hr)
      refine ⟨h.complete r hr, h.typed r hr, ?_, fun e he => (hcells e he).2⟩
      intro hproto
      obtain ⟨e, he, hname⟩ := List.mem_map.mp ((h.complete r hr).symm.subset hproto)
      exact (isCell_iff.mp (hcells e he).1).2 hname
  · intro h
    refine ⟨h.nonempty, fun r hr => (h.rows r hr).complete, fun r hr => (h.rows r hr).typed, ?_⟩
    intro ids
    have hvalues : (t.columns.map fun c => settled E.toJsonNumbers c.value) =
        t.columns.map Column.value :=
      List.map_inj_left.mpr fun c hc => (settled_eq_iff _ _).mpr (h.finite c hc)
    have hrows : t.rows.map (settledRow E (t.columns.map Column.id)) = t.rows := by
      refine map_eq_self_iff.mpr fun r hr => (settledRow_eq_iff E _ r).mpr fun e he => ?_
      have hfits := h.rows r hr
      obtain ⟨c, hc, hid, _⟩ := exists_column hfits.complete he
      have hmem := List.mem_map_of_mem (f := Column.id) hc
      rw [hid] at hmem
      exact ⟨isCell_iff.mpr ⟨hmem, fun heq => hfits.named (heq ▸ hmem)⟩, hfits.finite e he⟩
    rw [parseTableContent_serializeTable E fun r hr =>
      distinct_cells (h.rows r hr).complete (h.rows r hr).typed, if_neg h.nonempty, hvalues,
      (mapM_eq_some_iff toColumn?_eq_some_iff).mpr rfl, Option.map_some, hrows]
    rfl

/-! ## What is loaded -/

/-- A row that has a value of its type for each column. -/
structure WellFormedRow (E : Conversions ν) (columns : List (JsonValue ν)) (row : JsonValue ν) :
    Prop where
  distinct : (columns.map columnId).Nodup
  named : protoName ∉ columns.map columnId
  cells : ∀ c ∈ columns, ∃ v, (columnId c, v) ∈ (rowCells row).getD [] ∧
    hasType (columnType c) v = true ∧ v.finite E.toJsonNumbers = true

/-- A content that is no table is read as a blank one. -/
def WellFormedContent (E : Conversions ν) (content : JsString) : Prop :=
  ∀ members columns rows, trim content ≠ [] →
    parse E.toJsonNumbers content = some (.object members) →
    prop members "columns" = some (.array columns) → prop members "rows" = some (.array rows) →
    columns ≠ [] → columns.all isValidColumn = true → rows.all isValidRow = true →
    (∀ c ∈ columns, c.finite E.toJsonNumbers = true) ∧ ∀ row ∈ rows, WellFormedRow E columns row

/-- The cells that are read are distinct. -/
theorem nodup_rowCells (hrow : row.distinct = true) :
    (((rowCells row).getD []).map Prod.fst).Nodup := by
  cases hcells : rowCells row with
  | none => exact List.nodup_nil
  | some entries =>
    cases row with
    | object members =>
      obtain ⟨v, hv, hentries⟩ := Option.bind_eq_some_iff.mp hcells
      simp only [JsonValue.distinct, Bool.and_eq_true] at hrow
      exact nodup_entriesOf
        (distinctMembers_iff.mp hrow.2 _ (Dict.mem_of_lookupIn hv)) hentries
    | _ => contradiction

/-- A row that is read fits the columns exactly when it has a value of its type for each. -/
theorem fitsRow_rowOf (E : Conversions ν) (columns : List (Column ν)) (hrow : row.distinct = true) :
    FitsRow E columns (rowOf (columns.map Column.id) row) ↔
      WellFormedRow E (columns.map Column.value) row := by
  have hids : (columns.map Column.value).map columnId = columns.map Column.id := by
    rw [List.map_map]
    rfl
  have hnames := nodup_rowCells hrow
  have hentries : (rowOf (columns.map Column.id) row).cells.entries =
      ((rowCells row).getD []).filter (isCell (columns.map Column.id)) :=
    entries_cellsOf _ hnames
  have hcell : ∀ {id v}, (rowOf (columns.map Column.id) row).cells.get? id = some v →
      (id, v) ∈ (rowCells row).getD [] := by
    intro id v hv
    have hmem := Dict.mem_of_lookupIn hv
    rw [hentries] at hmem
    exact (List.mem_filter.mp hmem).1
  constructor
  · intro h
    refine ⟨?_, ?_, ?_⟩
    · rw [hids]
      exact h.complete.nodup_iff.mp (rowOf _ row).cells.nodup
    · rw [hids]
      exact h.named
    · intro value hvalue
      obtain ⟨c, hc, rfl⟩ := List.mem_map.mp hvalue
      obtain ⟨v, hv⟩ := Dict.mem_keys_iff.mp
        (h.complete.symm.subset (List.mem_map_of_mem (f := Column.id) hc))
      exact ⟨v, hcell hv, h.typed c hc v hv, h.finite _ (Dict.mem_of_lookupIn hv)⟩
  · rintro ⟨hdistinct, hnamed, hcells⟩
    rw [hids] at hdistinct hnamed
    have hvalue : ∀ c ∈ columns, ∀ v, (c.id, v) ∈ (rowCells row).getD [] →
        hasType c.type v = true ∧ v.finite E.toJsonNumbers = true := by
      intro c hc v hv
      obtain ⟨w, hw, htyped, hfinite⟩ := hcells c.value (List.mem_map_of_mem hc)
      have hsame := (Dict.lookupIn_of_mem hnames hw).symm.trans (Dict.lookupIn_of_mem hnames hv)
      cases hsame
      exact ⟨htyped, hfinite⟩
    refine ⟨?_, fun c hc v hv => (hvalue c hc v (hcell hv)).1, hnamed, ?_⟩
    · refine (List.perm_ext_iff_of_nodup (rowOf _ row).cells.nodup hdistinct).mpr fun id => ?_
      rw [hentries]
      constructor
      · intro hid
        obtain ⟨e, he, rfl⟩ := List.mem_map.mp hid
        exact (isCell_iff.mp (List.mem_filter.mp he).2).1
      · intro hid
        obtain ⟨c, hc, rfl⟩ := List.mem_map.mp hid
        obtain ⟨v, hv, _, _⟩ := hcells c.value (List.mem_map_of_mem hc)
        have hmade : isCell (columns.map Column.id) (c.id, v) = true :=
          isCell_iff.mpr ⟨hid, fun heq => hnamed (heq ▸ hid)⟩
        exact List.mem_map_of_mem (f := Prod.fst) (List.mem_filter.mpr ⟨hv, hmade⟩)
    · intro e he
      rw [hentries] at he
      obtain ⟨hmem, hmade⟩ := List.mem_filter.mp he
      obtain ⟨c, hc, hid⟩ := List.mem_map.mp (isCell_iff.mp hmade).1
      exact (hvalue c hc e.2 (hid ▸ hmem)).2

variable {t : DbTable ν}

/-- What an object is read as. -/
theorem tableOf_eq_some_iff {members : List (JsString × JsonValue ν)} :
    tableOf (.object members) = some t ↔
      ∃ rows, prop members "columns" = some (.array (t.columns.map Column.value)) ∧
        prop members "rows" = some (.array rows) ∧ t.columns ≠ [] ∧ rows.all isValidRow = true ∧
        t.rows = rows.map (rowOf t.ids) := by
  constructor
  · intro h
    rw [tableOf] at h
    split at h
    · rename_i columns rows hcolumns hrows
      by_cases hout : (columns.isEmpty || !rows.all isValidRow) = true
      · rw [if_pos hout] at h
        contradiction
      · rw [if_neg hout] at h
        obtain ⟨cs, hmap, rfl⟩ := Option.map_eq_some_iff.mp h
        obtain rfl := (mapM_eq_some_iff toColumn?_eq_some_iff).mp hmap
        rw [Bool.or_eq_true, not_or, List.isEmpty_iff, List.map_eq_nil_iff] at hout
        exact ⟨rows, hcolumns, hrows, hout.1, by simpa using hout.2, rfl⟩
    · contradiction
  · rintro ⟨rows, hcolumns, hrows, hne, hvalid, hread⟩
    have hempty : ¬ ((t.columns.map Column.value).isEmpty || !rows.all isValidRow) = true := by
      simp [hne, hvalid]
    simp only [tableOf, hcolumns, hrows, if_neg hempty,
      (mapM_eq_some_iff toColumn?_eq_some_iff).mpr rfl, Option.map_some, Option.some.injEq]
    rw [← ids, ← hread]

/-- Valid columns with distinct names are read. -/
theorem exists_columns {values : List (JsonValue ν)} (hdistinct : distinctItems values = true)
    (hvalid : values.all isValidColumn = true) :
    ∃ columns : List (Column ν), columns.map Column.value = values := by
  have hread : ∀ v ∈ values, ∃ c, toColumn? v = some c := by
    intro v hv
    have hcolumn := List.all_eq_true.mp hvalid v hv
    cases v with
    | object members =>
      exact ⟨⟨members, hcolumn, distinctItems_iff.mp hdistinct _ hv⟩,
        dif_pos ⟨hcolumn, distinctItems_iff.mp hdistinct _ hv⟩⟩
    | _ => contradiction
  obtain ⟨columns, hcolumns⟩ := exists_mapM hread
  exact ⟨columns, (mapM_eq_some_iff toColumn?_eq_some_iff).mp hcolumns⟩

/-- A table is read from an object. -/
theorem object_of_tableOf {parsed : JsonValue ν} (h : tableOf parsed = some t) :
    ∃ members, parsed = .object members := by
  cases parsed with
  | object members => exact ⟨members, rfl⟩
  | _ => contradiction

/-- What is read of rows fits exactly when each has a value of its type for each column. -/
theorem fits_iff_of_rows (E : Conversions ν) {rows : List (JsonValue ν)}
    (hne : t.columns ≠ []) (hrow : ∀ row ∈ rows, row.distinct = true)
    (hread : t.rows = rows.map (rowOf t.ids)) :
    t.Fits E ↔
      (∀ c ∈ t.columns.map Column.value, c.finite E.toJsonNumbers = true) ∧
        ∀ row ∈ rows, WellFormedRow E (t.columns.map Column.value) row := by
  constructor
  · intro h
    refine ⟨?_, fun row hmem => ?_⟩
    · intro value hvalue
      obtain ⟨c, hc, rfl⟩ := List.mem_map.mp hvalue
      exact h.finite c hc
    · refine (fitsRow_rowOf E t.columns (hrow row hmem)).mp (h.rows _ ?_)
      rw [hread]
      exact List.mem_map_of_mem hmem
  · rintro ⟨hfinite, hrows⟩
    refine ⟨hne, fun c hc => hfinite _ (List.mem_map_of_mem hc), ?_⟩
    rw [hread]
    intro r hr
    obtain ⟨row, hmem, rfl⟩ := List.mem_map.mp hr
    exact (fitsRow_rowOf E t.columns (hrow row hmem)).mpr (hrows row hmem)

/-- What is read fits exactly when the content is well formed. -/
theorem fits_parseTableContent_iff (E : Conversions ν) (content : JsString) (ids : BlankIds) :
    (parseTableContent E content ids).Fits E ↔ WellFormedContent E content := by
  by_cases htrim : trim content = []
  · rw [parseTableContent, if_pos htrim]
    exact iff_of_true (fits_blankTable E ids) fun _ _ _ hne => absurd htrim hne
  · rw [parseTableContent, if_neg htrim]
    cases hparse : parse E.toJsonNumbers content with
    | none =>
      refine iff_of_true (fits_blankTable E ids) fun members _ _ _ hparsed => ?_
      rw [hparse] at hparsed
      contradiction
    | some parsed =>
      have hdistinct := distinct_of_parse E.toJsonNumbers hparse
      cases htable : tableOf parsed with
      | none =>
        simp only [htable, Option.getD_none]
        refine iff_of_true (fits_blankTable E ids) ?_
        intro members values rows _ hparsed hcolumns hrows hne hvalid hvalidRows
        obtain rfl := Option.some.inj (hparse.symm.trans hparsed)
        simp only [JsonValue.distinct, Bool.and_eq_true] at hdistinct
        obtain ⟨columns, rfl⟩ := exists_columns
          (distinctMembers_iff.mp hdistinct.2 _ (Dict.mem_of_lookupIn hcolumns)) hvalid
        have hread : tableOf (.object members) =
            some ⟨columns, rows.map (rowOf (columns.map Column.id))⟩ :=
          tableOf_eq_some_iff.mpr
            ⟨rows, hcolumns, hrows, fun hnil => hne (List.map_eq_nil_iff.mpr hnil),
              hvalidRows, rfl⟩
        rw [htable] at hread
        contradiction
      | some t =>
        simp only [htable, Option.getD_some]
        obtain ⟨members, rfl⟩ := object_of_tableOf htable
        obtain ⟨rows, hcolumns, hrows, hne, hvalidRows, hread⟩ :=
          tableOf_eq_some_iff.mp htable
        simp only [JsonValue.distinct, Bool.and_eq_true] at hdistinct
        have hrow : ∀ row ∈ rows, row.distinct = true :=
          distinctItems_iff.mp (distinctMembers_iff.mp hdistinct.2 _ (Dict.mem_of_lookupIn hrows))
        rw [fits_iff_of_rows E hne hrow hread]
        constructor
        · intro h members' values rows' _ hparsed hcolumns' hrows' _ _ _
          obtain rfl := JsonValue.object.inj (Option.some.inj (hparse.symm.trans hparsed))
          obtain rfl := JsonValue.array.inj (Option.some.inj (hcolumns.symm.trans hcolumns'))
          obtain rfl := JsonValue.array.inj (Option.some.inj (hrows.symm.trans hrows'))
          exact h
        · intro h
          refine h members _ rows htrim hparse hcolumns hrows
            (fun hnil => hne (List.map_eq_nil_iff.mp hnil)) ?_ hvalidRows
          refine List.all_eq_true.mpr fun value hvalue => ?_
          obtain ⟨c, _, rfl⟩ := List.mem_map.mp hvalue
          exact c.valid

end DbTable

end TinyAgentOS.OfficeStudio
