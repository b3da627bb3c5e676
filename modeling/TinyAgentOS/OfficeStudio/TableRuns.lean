import TinyAgentOS.Library.Transition
import TinyAgentOS.OfficeStudio.TableFits

/-!
# Runs of a table

Main results:

- `fits_apply_iff`: the operations after which the rows still fit the columns.
- `tableLaw_iff`: the runs in which they always do and every table is read back.
-/

namespace TinyAgentOS.OfficeStudio

open Collections Js Transition

variable {ν : Type}

/-! ## Columns that are changed -/

namespace Column

theorem id_rename (c : Column ν) (name : JsString) : (c.rename name).id = c.id := by
  have hid : prop (Dict.setIn (ofString "name") (.string name) c.members) "id" =
      prop c.members "id" := prop_setText (by decide) (by decide) name
  simp only [id, value, rename, columnId, hid]

theorem type_rename (c : Column ν) (name : JsString) : (c.rename name).type = c.type := by
  have htype : prop (Dict.setIn (ofString "name") (.string name) c.members) "type" =
      prop c.members "type" := prop_setText (by decide) (by decide) name
  simp only [type, value, rename, columnType, htype]

theorem id_retype (c : Column ν) (t : ColumnType) : (c.retype t).id = c.id := by
  have hid : prop (Dict.setIn (ofString "type") (.string t.name) c.members) "id" =
      prop c.members "id" := prop_setText (by decide) (by decide) t.name
  simp only [id, value, retype, columnId, hid]

theorem type_newColumn (name : JsString) (t : ColumnType) (drawn : JsString) :
    (newColumn (ν := ν) name t drawn).type = t := by
  cases t <;> rfl

theorem type_retype (c : Column ν) (t : ColumnType) : (c.retype t).type = t := by
  have htype : prop (Dict.setIn (ofString "type") (.string t.name) c.members) "type" =
      some (.string t.name) := prop_setText (by decide) (by decide) t.name
  simp only [type, value, retype, columnType, htype, typeOf?_name, Option.getD_some]

end Column

/-- Setting a text keeps the numbers finite. -/
theorem finite_setText {N : JsonNumbers ν} {members : List (JsString × JsonValue ν)}
    (h : (JsonValue.object members).finite N = true) (name text : JsString) :
    (JsonValue.object (Dict.setIn name (.string text) members)).finite N = true := by
  refine (finiteMembers_iff N).mpr fun m hm => ?_
  rcases Dict.mem_setIn hm with hold | rfl
  · exact (finiteMembers_iff N).mp h m hold
  · rfl

namespace DbTable

variable {E : Conversions ν} {columns : List (Column ν)} {r : Row ν}

/-! ## Rows that are changed -/

/-- A row fits a column more exactly when that column's id is new. -/
theorem fitsRow_addCell (h : FitsRow E columns r) {c : Column ν} (hproto : c.id ≠ protoName)
    {v : JsonValue ν} (hv : hasType c.type v = true) (hfinite : v.finite E.toJsonNumbers = true) :
    FitsRow E (columns ++ [c]) { r with cells := r.cells.set c.id v } ↔
      c.id ∉ columns.map Column.id := by
  constructor
  · intro hfits hmem
    have hnodup := hfits.complete.nodup_iff.mp (r.cells.set c.id v).nodup
    rw [List.map_append, List.nodup_append] at hnodup
    exact hnodup.2.2 _ hmem _ (List.mem_singleton.mpr rfl) rfl
  · intro hnew
    have hkey : c.id ∉ r.cells.entries.map Prod.fst := fun hmem =>
      hnew (h.complete.subset hmem)
    have hentries : (r.cells.set c.id v).entries = r.cells.entries ++ [(c.id, v)] :=
      Dict.setIn_of_notMem hkey
    refine ⟨?_, ?_, ?_, ?_⟩
    · simp only [Dict.keys, hentries, List.map_append]
      exact h.complete.append_right _
    · intro c' hc' w hw
      rcases List.mem_append.mp hc' with hold | hadded
      · have hne : c.id ≠ c'.id := fun heq => hnew (heq ▸ List.mem_map_of_mem hold)
        rw [Dict.get?_set_of_ne _ _ hne] at hw
        exact h.typed c' hold w hw
      · rw [List.mem_singleton.mp hadded] at hw ⊢
        rw [Dict.get?_set_self] at hw
        cases hw
        exact hv
    · rw [List.map_append, List.mem_append]
      rintro (hold | hadded)
      · exact h.named hold
      · exact hproto (List.mem_singleton.mp hadded).symm
    · intro e he
      rw [hentries] at he
      rcases List.mem_append.mp he with hold | hadded
      · exact h.finite e hold
      · rw [List.mem_singleton.mp hadded]
        exact hfinite

/-- A row fits without a column and its cell. -/
theorem fitsRow_removeCell (h : FitsRow E columns r) (id : JsString) :
    FitsRow E (columns.filter fun c => c.id ≠ id) { r with cells := r.cells.pop id } := by
  have hsub : ((columns.filter fun c => c.id ≠ id).map Column.id).Sublist
      (columns.map Column.id) := List.filter_sublist.map _
  have hnodup := h.complete.nodup_iff.mp r.cells.nodup
  refine ⟨?_, ?_, fun hmem => h.named (hsub.subset hmem), ?_⟩
  · refine (List.perm_ext_iff_of_nodup (r.cells.pop id).nodup (hnodup.sublist hsub)).mpr ?_
    intro k
    have hkey : k ∈ (r.cells.pop id).keys ↔ k ≠ id ∧ k ∈ r.cells.keys := by
      simp only [Dict.mem_keys_iff, Dict.get?_pop]
      by_cases hk : id = k
      · simp [hk]
      · simp [hk, Ne.symm hk]
    refine hkey.trans ?_
    rw [h.complete.mem_iff]
    constructor
    · rintro ⟨hk, hmem⟩
      obtain ⟨c, hc, rfl⟩ := List.mem_map.mp hmem
      exact List.mem_map_of_mem (List.mem_filter.mpr ⟨hc, decide_eq_true hk⟩)
    · intro hmem
      obtain ⟨c, hc, rfl⟩ := List.mem_map.mp hmem
      obtain ⟨hold, hne⟩ := List.mem_filter.mp hc
      exact ⟨of_decide_eq_true hne, List.mem_map_of_mem hold⟩
  · intro c hc v hv
    obtain ⟨hold, hne⟩ := List.mem_filter.mp hc
    rw [Dict.get?_pop_of_ne _ (of_decide_eq_true hne).symm] at hv
    exact h.typed c hold v hv
  · intro e he
    exact h.finite e ((Dict.popIn_sublist id r.cells.entries).subset he)

/-- A row in which a cell is written fits exactly when the value is of the column's type and its
numbers are finite; of the other columns neither id nor type is changed. -/
theorem fitsRow_setCell (h : FitsRow E columns r) {columns' : List (Column ν)} {id : JsString}
    (hid : id ∈ columns.map Column.id) (hids : columns'.map Column.id = columns.map Column.id)
    (hothers : ∀ c' ∈ columns', c'.id ≠ id → ∃ c ∈ columns, c.id = c'.id ∧ c.type = c'.type)
    (v : JsonValue ν) : FitsRow E columns' { r with cells := r.cells.set id v } ↔
      (∀ c' ∈ columns', c'.id = id → hasType c'.type v = true) ∧
        v.finite E.toJsonNumbers = true := by
  constructor
  · intro hfits
    have hcell := Dict.get?_set_self r.cells id v
    refine ⟨?_, hfits.finite _ (Dict.mem_of_lookupIn hcell)⟩
    rintro c' hc' rfl
    exact hfits.typed c' hc' v hcell
  · rintro ⟨htyped, hfinite⟩
    refine ⟨?_, ?_, hids ▸ h.named, ?_⟩
    · rw [hids]
      have hkeys := List.perm_ext_iff_of_nodup (r.cells.set id v).nodup r.cells.nodup
      refine (hkeys.mpr fun k => ?_).trans h.complete
      refine Dict.mem_keys_setIn.trans (or_iff_right_of_imp ?_)
      rintro rfl
      exact h.complete.symm.subset hid
    · intro c' hc' w hw
      by_cases heq : c'.id = id
      · rw [heq, Dict.get?_set_self] at hw
        cases hw
        exact htyped c' hc' heq
      · obtain ⟨c, hc, hsame, htype⟩ := hothers c' hc' heq
        rw [Dict.get?_set_of_ne _ _ (Ne.symm heq), ← hsame] at hw
        rw [← htype]
        exact h.typed c hc w hw
    · intro e he
      rcases Dict.mem_setIn he with hold | rfl
      · exact h.finite e hold
      · exact hfinite

/-- Only the ids and the types of the columns count. -/
theorem fitsRow_congr (h : FitsRow E columns r) {columns' : List (Column ν)}
    (hids : columns'.map Column.id = columns.map Column.id)
    (hsame : ∀ c' ∈ columns', ∃ c ∈ columns, c.id = c'.id ∧ c.type = c'.type) :
    FitsRow E columns' r := by
  refine ⟨hids ▸ h.complete, ?_, hids ▸ h.named, h.finite⟩
  intro c' hc' v hv
  obtain ⟨c, hc, hid, htype⟩ := hsame c' hc'
  rw [← htype]
  exact h.typed c hc v (hid ▸ hv)

end DbTable

/-! ## Runs -/

inductive TableOp (ν : Type) where
  | addColumn (type : Option ColumnType) (drawn : JsString)
  | removeColumn (columnId : JsString)
  | renameColumn (columnId name : JsString)
  | changeType (columnId : JsString) (type : ColumnType)
  | addRow (drawn : JsString)
  | removeRow (rowId : JsString)
  | setCell (rowId columnId : JsString) (value : JsonValue ν)

namespace DbTable

def apply (E : Conversions ν) (t : DbTable ν) : TableOp ν → DbTable ν
  | .addColumn type drawn => t.addColumn type drawn
  | .removeColumn columnId => t.removeColumn columnId
  | .renameColumn columnId name => t.renameColumn columnId name
  | .changeType columnId type => t.changeType E columnId type
  | .addRow drawn => t.addRow drawn
  | .removeRow rowId => t.removeRow rowId
  | .setCell rowId columnId value => t.setCell rowId columnId value

/-- The columns and rows that are named are there, and a cell is set to a value of its type. -/
def meant (t : DbTable ν) : TableOp ν → Bool
  | .removeColumn columnId | .renameColumn columnId _ | .changeType columnId _ =>
    t.ids.contains columnId
  | .removeRow rowId => t.rows.any fun r => r.id = rowId
  | .setCell rowId columnId value =>
    (t.rows.any fun r => r.id = rowId) &&
      t.columns.any fun c => c.id = columnId && hasType c.type value
  | .addColumn _ _ | .addRow _ => true

def step (E : Conversions ν) (t : DbTable ν) (op : TableOp ν) : Option (DbTable ν) :=
  if t.meant op then some (t.apply E op) else none

/-- In every state each row has one cell for each column, of its type, there is a column, and the
table is read back as it was written. -/
def TableLaw (E : Conversions ν) (content : JsString) (ids : BlankIds) (ops : List (TableOp ν)) :
    Prop :=
  ∀ before after t, ops = before ++ after →
    run (step E) (parseTableContent E content ids) before = some t → t.Kept E

/-- The id of a new column is new, a column is left, a new row has cells for all columns, no text
becomes a day of a year that takes a sign, and no number that is not finite is set. -/
def Careful (E : Conversions ν) (t : DbTable ν) : TableOp ν → Prop
  | .addColumn _ drawn => t.rows ≠ [] → ofString "col-" ++ drawn ∉ t.ids
  | .removeColumn columnId => t.columns.length ≤ 1 ∨ ∃ c ∈ t.columns, c.id ≠ columnId
  | .changeType columnId type =>
    type = .date → ∀ r ∈ t.rows, ReadsDay E (r.cells.get? columnId)
  | .addRow _ => t.ids.Nodup ∧ protoName ∉ t.ids
  | .setCell _ _ value => value.finite E.toJsonNumbers = true
  | .renameColumn _ _ | .removeRow _ => True

variable {t : DbTable ν}

/-- Rows that are changed alike. -/
theorem fits_iff_of_rows_map (hne : t.columns ≠ [])
    (hfinite : ∀ c ∈ t.columns, c.value.finite E.toJsonNumbers = true) {rows : List (Row ν)}
    {f : Row ν → Row ν} (hrows : t.rows = rows.map f) {P : Row ν → Prop}
    (hrow : ∀ r ∈ rows, FitsRow E t.columns (f r) ↔ P r) : t.Fits E ↔ ∀ r ∈ rows, P r := by
  constructor
  · intro h r hr
    refine (hrow r hr).mp (h.rows _ ?_)
    rw [hrows]
    exact List.mem_map_of_mem hr
  · intro h
    refine ⟨hne, hfinite, ?_⟩
    rw [hrows]
    intro r' hr'
    obtain ⟨r, hr, rfl⟩ := List.mem_map.mp hr'
    exact (hrow r hr).mpr (h r hr)

/-- An added column fits where its id is new or there are no rows. -/
theorem fits_addColumn (h : t.Fits E) (type : Option ColumnType) (drawn : JsString) :
    (t.addColumn type drawn).Fits E ↔
      (t.rows ≠ [] → ofString "col-" ++ drawn ∉ t.ids) := by
  have hiff := fits_iff_of_rows_map (t := t.addColumn type drawn) (E := E)
    (P := fun _ => ofString "col-" ++ drawn ∉ t.ids) (by simp [addColumn]) ?_ rfl ?_
  · rw [hiff]
    constructor
    · intro hall hne
      obtain ⟨r, hr⟩ := List.exists_mem_of_ne_nil _ hne
      exact hall r hr
    · exact fun hnew r hr => hnew (List.ne_nil_of_mem hr)
  · intro c hc
    rcases List.mem_append.mp hc with hold | hadded
    · exact h.finite c hold
    · rw [List.mem_singleton.mp hadded]
      rfl
  · intro r hr
    refine fitsRow_addCell (h.rows r hr) (c := newColumn _ _ drawn)
      (Ne.symm (protoName_ne drawn)) ?_ ?_
    · rw [Column.type_newColumn]
      exact hasType_defaultValue _
    · exact finite_defaultValue _ _

/-- A removed column leaves one, or is the only one. -/
theorem fits_removeColumn (h : t.Fits E) (columnId : JsString) : (t.removeColumn columnId).Fits E ↔
      t.columns.length ≤ 1 ∨ ∃ c ∈ t.columns, c.id ≠ columnId := by
  by_cases hlast : t.columns.length ≤ 1
  · rw [removeColumn, if_pos hlast]
    exact iff_of_true h (Or.inl hlast)
  · rw [removeColumn, if_neg hlast, or_iff_right hlast]
    constructor
    · intro hfits
      obtain ⟨c, hc⟩ := List.exists_mem_of_ne_nil _ hfits.nonempty
      obtain ⟨hmem, hne⟩ := List.mem_filter.mp hc
      exact ⟨c, hmem, of_decide_eq_true hne⟩
    · rintro ⟨c, hc, hne⟩
      refine ⟨List.ne_nil_of_mem (List.mem_filter.mpr ⟨hc, decide_eq_true hne⟩), ?_, ?_⟩
      · exact fun c' hc' => h.finite c' (List.mem_filter.mp hc').1
      · intro r' hr'
        obtain ⟨r, hr, rfl⟩ := List.mem_map.mp hr'
        exact fitsRow_removeCell (h.rows r hr) columnId

/-- A renamed column fits. -/
theorem fits_renameColumn (h : t.Fits E) (columnId name : JsString) :
    (t.renameColumn columnId name).Fits E := by
  have hsame : ∀ c : Column ν, (if c.id = columnId then c.rename name else c).id = c.id ∧
      (if c.id = columnId then c.rename name else c).type = c.type := by
    intro c
    by_cases hid : c.id = columnId
    · rw [if_pos hid]
      exact ⟨c.id_rename name, c.type_rename name⟩
    · rw [if_neg hid]
      exact ⟨rfl, rfl⟩
  refine ⟨fun hnil => h.nonempty (List.map_eq_nil_iff.mp hnil), ?_, ?_⟩
  · intro c' hc'
    obtain ⟨c, hc, rfl⟩ := List.mem_map.mp hc'
    by_cases hid : c.id = columnId
    · rw [if_pos hid]
      exact finite_setText (h.finite c hc) _ name
    · rw [if_neg hid]
      exact h.finite c hc
  · intro r hr
    refine fitsRow_congr (h.rows r hr) ?_ ?_
    · rw [renameColumn, List.map_map]
      exact List.map_congr_left fun c _ => (hsame c).1
    · intro c' hc'
      obtain ⟨c, hc, rfl⟩ := List.mem_map.mp hc'
      exact ⟨c, hc, (hsame c).1.symm, (hsame c).2.symm⟩

/-- A type is changed to dates where the cells read as days. -/
theorem fits_changeType (h : t.Fits E) {columnId : JsString} (hid : columnId ∈ t.ids)
    (type : ColumnType) : (t.changeType E columnId type).Fits E ↔
      (type = .date → ∀ r ∈ t.rows, ReadsDay E (r.cells.get? columnId)) := by
  have hids : ∀ c : Column ν, (if c.id = columnId then c.retype type else c).id = c.id := by
    intro c
    by_cases heq : c.id = columnId
    · rw [if_pos heq]
      exact c.id_retype type
    · rw [if_neg heq]
  have hiff := fits_iff_of_rows_map (t := t.changeType E columnId type) (E := E)
    (P := fun r => type = .date → ReadsDay E (r.cells.get? columnId)) ?_ ?_ rfl ?_
  · rw [hiff]
    exact ⟨fun hall htype r hr => hall r hr htype, fun hall r hr htype => hall htype r hr⟩
  · exact fun hnil => h.nonempty (List.map_eq_nil_iff.mp hnil)
  · intro c' hc'
    obtain ⟨c, hc, rfl⟩ := List.mem_map.mp hc'
    by_cases heq : c.id = columnId
    · rw [if_pos heq]
      exact finite_setText (h.finite c hc) _ _
    · rw [if_neg heq]
      exact h.finite c hc
  · intro r hr
    have hids' : (t.changeType E columnId type).columns.map Column.id =
        t.columns.map Column.id := by
      rw [changeType, List.map_map]
      exact List.map_congr_left fun c _ => hids c
    have hcell := fitsRow_setCell (h.rows r hr) hid hids' ?_
      (coerceValue E (r.cells.get? columnId) type)
    · rw [hcell, and_iff_left (finite_coerceValue E _ type),
        ← hasType_coerceValue E (r.cells.get? columnId) type]
      constructor
      · intro htyped
        obtain ⟨c, hc, heq⟩ := List.mem_map.mp hid
        have hretyped := htyped _ (List.mem_map_of_mem hc) ((hids c).trans heq)
        rwa [if_pos heq, Column.type_retype] at hretyped
      · intro htyped c' hc' hid'
        obtain ⟨c, _, rfl⟩ := List.mem_map.mp hc'
        rwa [if_pos ((hids c).symm.trans hid'), Column.type_retype]
    · intro c' hc' hne
      obtain ⟨c, hc, rfl⟩ := List.mem_map.mp hc'
      rw [hids] at hne
      rw [if_neg hne]
      exact ⟨c, hc, rfl, rfl⟩

/-- A cell fits that is finite. -/
theorem fits_setCell (h : t.Fits E) {rowId columnId : JsString} {value : JsonValue ν}
    (hrow : ∃ r ∈ t.rows, r.id = rowId)
    (hcolumn : ∃ c ∈ t.columns, c.id = columnId ∧ hasType c.type value = true) :
    (t.setCell rowId columnId value).Fits E ↔ value.finite E.toJsonNumbers = true := by
  obtain ⟨c, hc, rfl, htype⟩ := hcolumn
  have hiff := fits_iff_of_rows_map (t := t.setCell rowId c.id value) (E := E)
    (P := fun r => r.id = rowId → value.finite E.toJsonNumbers = true) h.nonempty h.finite rfl ?_
  · rw [hiff]
    constructor
    · intro hall
      obtain ⟨r, hr, hid⟩ := hrow
      exact hall r hr hid
    · exact fun hfinite _ _ _ => hfinite
  · intro r hr
    by_cases hid : r.id = rowId
    · have hnodup := (h.rows r hr).complete.nodup_iff.mp r.cells.nodup
      have htyped : ∀ c' ∈ t.columns, c'.id = c.id → hasType c'.type value = true := by
        intro c' hc' heq
        rwa [List.inj_on_of_nodup_map hnodup hc' hc heq]
      rw [if_pos hid, forall_prop_of_true hid]
      exact (fitsRow_setCell (h.rows r hr) (List.mem_map_of_mem hc) rfl
        (fun c' hc' _ => ⟨c', hc', rfl, rfl⟩) value).trans (and_iff_right htyped)
    · rw [if_neg hid]
      exact iff_of_true (h.rows r hr) fun heq => absurd heq hid

/-- A row fits where the ids of the columns are plain. -/
theorem fits_addRow (h : t.Fits E) (drawn : JsString) :
    (t.addRow drawn).Fits E ↔ t.ids.Nodup ∧ protoName ∉ t.ids := by
  rw [ids, ← fitsRow_newRow E t.columns drawn]
  constructor
  · exact fun hfits => hfits.rows _ (List.mem_append_right _ List.mem_cons_self)
  · intro hrow
    refine ⟨h.nonempty, h.finite, fun r hr => ?_⟩
    rcases List.mem_append.mp hr with hold | hadded
    · exact h.rows r hold
    · rw [List.mem_singleton.mp hadded]
      exact hrow

theorem fits_removeRow (h : t.Fits E) (rowId : JsString) : (t.removeRow rowId).Fits E :=
  ⟨h.nonempty, h.finite, fun r hr => h.rows r (List.mem_filter.mp hr).1⟩

/-- The operations after which the rows still fit the columns. -/
theorem fits_apply_iff (h : t.Fits E) {op : TableOp ν} (hmeant : t.meant op = true) :
    (t.apply E op).Fits E ↔ t.Careful E op := by
  cases op with
  | addColumn type drawn => exact fits_addColumn h type drawn
  | removeColumn columnId => exact fits_removeColumn h columnId
  | renameColumn columnId name => exact iff_of_true (fits_renameColumn h columnId name) trivial
  | changeType columnId type => exact fits_changeType h (List.contains_iff_mem.mp hmeant) type
  | addRow drawn => exact fits_addRow h drawn
  | removeRow rowId => exact iff_of_true (fits_removeRow h rowId) trivial
  | setCell rowId columnId value =>
    simp only [meant, Bool.and_eq_true, List.any_eq_true, decide_eq_true_eq] at hmeant
    exact fits_setCell h hmeant.1 hmeant.2

/-- The runs in which every table has rows that fit its columns and is read back: the content is
well formed or no table, and each operation that is meant is careful. -/
theorem tableLaw_iff (E : Conversions ν) (content : JsString) (ids : BlankIds)
    (ops : List (TableOp ν)) :
    TableLaw E content ids ops ↔
      WellFormedContent E content ∧
        Guarded (step E) (fun t op => t.meant op = true → t.Careful E op)
          (parseTableContent E content ids) ops := by
  have hstep : ∀ t op t', t.Fits E → step E t op = some t' →
      (t'.Kept E ↔ (t.meant op = true → t.Careful E op)) := by
    intro t op t' h hstep
    by_cases hmeant : t.meant op = true
    · rw [step, if_pos hmeant] at hstep
      cases hstep
      rw [kept_iff, fits_apply_iff h hmeant, forall_prop_of_true hmeant]
    · rw [step, if_neg hmeant] at hstep
      contradiction
  have hidle : ∀ t op, step E t op = none → t.meant op = true → t.Careful E op := by
    intro t op hnone hmeant
    rw [step, if_pos hmeant] at hnone
    contradiction
  have hexact : (parseTableContent E content ids).Fits E →
      (EveryStep (step E) (fun _ _ t' => t'.Kept E) (parseTableContent E content ids) ops ↔
        Guarded (step E) (fun t op => t.meant op = true → t.Careful E op)
          (parseTableContent E content ids) ops) := by
    refine fun hinit => everyStep_iff_guarded hidle ?_ hstep hinit ops
    intro t op t' h hcareful hnext
    exact (kept_iff E t').mp ((hstep t op t' h hnext).mpr hcareful)
  rw [← fits_parseTableContent_iff E content ids]
  constructor
  · intro h
    have hinit := h [] ops _ rfl rfl
    have hfits := (kept_iff E _).mp hinit
    exact ⟨hfits, (hexact hfits).mp ((states_iff_everyStep hinit ops).mp h)⟩
  · rintro ⟨hfits, hcareful⟩
    have hinit := (kept_iff E _).mpr hfits
    exact (states_iff_everyStep hinit ops).mpr ((hexact hfits).mpr hcareful)

/-- A number is its text. -/
def textConversions : Conversions JsString where
  toJsonNumbers := textNumbers
  zero := ofString "0"
  finite_zero := by decide
  isTruthy text := text ≠ ofString "0"
  numberOfText text := text
  numberOfValue _ := ofString "NaN"
  textOfValue _ := ofString "[object Object]"
  dateOfText _ := none

/-- A row without a cell. -/
def sparse : JsString :=
  ofString ("\x7b\"columns\":[\x7b\"id\":\"a\",\"name\":\"A\",\"type\":\"number\"\x7d]," ++
    "\"rows\":[\x7b\"id\":\"r\",\"cells\":\x7b\x7d\x7d]\x7d")

/-- The row is loaded as it is. -/
theorem not_tableLaw : ¬ TableLaw textConversions sparse ⟨ofString "1", ofString "2"⟩ [] := by
  intro h
  have hcounts : ((parseTableContent textConversions sparse ⟨ofString "1", ofString "2"⟩).rows.map
        fun r => r.cells.keys.length) = [0] ∧
      (parseTableContent textConversions sparse ⟨ofString "1", ofString "2"⟩).ids.length = 1 := by
    decide +kernel
  have hkept := h [] [] _ rfl (run_nil _)
  revert hcounts hkept
  generalize parseTableContent textConversions sparse ⟨ofString "1", ofString "2"⟩ = t
  rintro ⟨hrows, hids⟩ hkept
  have hnone : 0 ∈ t.rows.map fun r => r.cells.keys.length := by
    rw [hrows]
    exact List.mem_cons_self
  obtain ⟨r, hr, hcells⟩ := List.mem_map.mp hnone
  have hsame := (hkept.complete r hr).length_eq
  rw [hcells, hids] at hsame
  contradiction

end DbTable

end TinyAgentOS.OfficeStudio
