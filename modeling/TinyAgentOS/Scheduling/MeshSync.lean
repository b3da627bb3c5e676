import TinyAgentOS.Library.LastWriter
import Mathlib.Data.List.Infix
import Mathlib.Data.String.Basic
import Mathlib.Order.RelClasses

/-!
# Deltas between nodes

A delta is a list of records of one table.  Importing one writes each record over
the local row with its primary key; the timestamps of the two are not compared.
The schemas of the tables are the memory databases' own.

Main results:

- `importAll_apply`: the content of a table after deltas in any order.
- `converges_iff`: the arrivals after each of which the newest rows stand.
- `older_replaces_newer`: an older version that arrives late.
-/

namespace TinyAgentOS.Scheduling
namespace MeshSync

open LastWriter

/-! ## Tables -/

/-- `SYNCABLE_TABLES`, with their timestamp columns. -/
def syncableTables : List (String × String) :=
  [("kg_triples", "created_at"), ("kg_entities", "created_at"), ("vector_memory", "created_at"),
    ("archive_index", "timestamp"), ("crystals", "created_at"), ("insights", "created_at")]

def IsSyncable (table : String) : Prop := table ∈ syncableTables.map Prod.fst

instance (table : String) : Decidable (IsSyncable table) :=
  inferInstanceAs (Decidable (_ ∈ _))

/-- A value of a column. -/
inductive Value where
  | null
  | number (x : Int)
  | text (s : String)
deriving DecidableEq

/-- SQLite's order of values: by storage class first. -/
def Value.before : Value → Value → Bool
  | null, null => false
  | null, _ => true
  | number x, number y => x < y
  | number _, text _ => true
  | text s, text t => s < t
  | _, _ => false

theorem Value.before_irrefl (v : Value) : ¬v.before v = true := by
  cases v <;> simp [before]

theorem Value.before_trans {u v w : Value} (huv : u.before v = true) (hvw : v.before w = true) :
    u.before w = true := by
  cases u <;> cases v <;> cases w <;> simp only [before, decide_eq_true_eq, reduceCtorEq] at *
  · exact lt_trans huv hvw
  · exact lt_trans huv hvw

instance : IsStrictOrder Value fun v w => v.before w = true where
  irrefl := Value.before_irrefl
  trans _ _ _ := Value.before_trans

instance : PartialOrder Value :=
  partialOrderOfSO fun v w => v.before w = true

instance (v w : Value) : Decidable (v < w) :=
  inferInstanceAs (Decidable (v.before w = true))

/-- A row as a dict: its columns and their values. -/
abbrev Record := List (String × Value)

/-- The value of the table's timestamp column. -/
def timestamp (table : String) (record : Record) : Value :=
  ((syncableTables.lookup table).bind fun column => record.lookup column).getD .null

/-- What a database knows of a table.  A table that it lacks has no columns. -/
structure TableSchema (κ : Type) where
  columns : List String
  /-- The row that `INSERT OR REPLACE` stores, or nothing where the statement raises. -/
  stored : Record → Option Record
  primaryKey : Record → κ

/-! ## What a table is offered -/

/-- A table and the records to import into it. -/
abbrev Delta := String × List Record

section Offers

variable {κ : Type}

/-- The row that a record of a delta becomes, if its columns are known and it is accepted. -/
def TableSchema.importRecord (schema : TableSchema κ) (record : Record) : Option Record :=
  if record.all fun column => column.1 ∈ schema.columns then schema.stored record else none

/-- The rows that the records of a delta become, where there is a table for them. -/
def TableSchema.importRecords (schema : TableSchema κ) (table : String) (records : List Record) :
    List Record :=
  if IsSyncable table ∧ schema.columns ≠ [] then records.filterMap schema.importRecord else []

variable (schemas : String → TableSchema κ)

/-- The row of a table that an arriving record becomes. -/
def accept (table : String) (arrival : String × Record) : Option Record :=
  if arrival.1 = table ∧ IsSyncable table ∧ (schemas table).columns ≠ [] then
    (schemas table).importRecord arrival.2
  else none

/-- The records of the deltas, each with its table. -/
def arrivals (deltas : List Delta) : List (String × Record) :=
  deltas.flatMap fun delta => delta.2.map fun record => (delta.1, record)

/-- The rows that a table is offered. -/
def offered (table : String) (arrived : List (String × Record)) : List Record :=
  arrived.filterMap (accept schemas table)

variable {schemas}

theorem offered_append (table : String) (arrived arrived' : List (String × Record)) :
    offered schemas table (arrived ++ arrived') =
      offered schemas table arrived ++ offered schemas table arrived' :=
  List.filterMap_append

/-- What one delta offers a table. -/
theorem offered_delta (table : String) (delta : Delta) :
    offered schemas table (delta.2.map fun record => (delta.1, record)) =
      if delta.1 = table then (schemas table).importRecords table delta.2 else [] := by
  unfold offered TableSchema.importRecords
  rw [List.filterMap_map]
  by_cases htable : delta.1 = table
  · by_cases hcond : IsSyncable table ∧ (schemas table).columns ≠ []
    · rw [if_pos htable, if_pos hcond]
      congr 1
      funext record
      simp only [Function.comp, accept, htable, hcond, and_self, if_true, ne_eq,
        not_false_eq_true]
    · rw [if_pos htable, if_neg hcond]
      apply List.filterMap_eq_nil_iff.mpr
      intro record _
      simp only [Function.comp, accept, hcond, and_false, if_false]
  · rw [if_neg htable]
    apply List.filterMap_eq_nil_iff.mpr
    intro record _
    simp only [Function.comp, accept, htable, false_and, if_false]

end Offers

/-! ## Imports -/

section Import

variable {κ : Type} [DecidableEq κ]

/-- `import_delta` and `_import_delta_sync`: the content, and the number imported. -/
def importDelta (schema : TableSchema κ) (table : String) (content : Keyed schema.primaryKey)
    (records : List Record) : Keyed schema.primaryKey × Nat :=
  if records = [] ∨ ¬IsSyncable table then (content, 0)
  else if schema.columns = [] then (content, 0)
  else
    records.foldl
      (fun acc record =>
        match schema.importRecord record with
        | some row => (acc.1.replace row, acc.2 + 1)
        | none => acc)
      (content, 0)

variable (schemas : String → TableSchema κ)

/-- The tables of a node. -/
abbrev Database := (table : String) → Keyed (schemas table).primaryKey

variable {schemas}

def importInto (db : Database schemas) (delta : Delta) : Database schemas :=
  Function.update db delta.1 (importDelta (schemas delta.1) delta.1 (db delta.1) delta.2).1

/-- Import deltas in the order they arrive. -/
def importAll (db : Database schemas) (deltas : List Delta) : Database schemas :=
  deltas.foldl importInto db

/-- A delta writes these rows one after another, and counts them. -/
theorem importDelta_eq (schema : TableSchema κ) (table : String)
    (content : Keyed schema.primaryKey) (records : List Record) :
    importDelta schema table content records =
      (content.replaceAll (schema.importRecords table records),
        (schema.importRecords table records).length) := by
  have hfold : ∀ (n : Nat) (content : Keyed schema.primaryKey),
      records.foldl (fun acc record =>
        match schema.importRecord record with
        | some row => (acc.1.replace row, acc.2 + 1)
        | none => acc) (content, n) =
        (content.replaceAll (records.filterMap schema.importRecord),
          n + (records.filterMap schema.importRecord).length) := by
    induction records with
    | nil => intro n content; rfl
    | cons record records ih =>
      intro n content
      rw [List.foldl_cons, List.filterMap_cons]
      cases schema.importRecord record with
      | none => exact ih n content
      | some row =>
        rw [ih (n + 1) (content.replace row), List.length_cons, Nat.add_right_comm]
        rfl
  unfold importDelta TableSchema.importRecords
  by_cases hsync : IsSyncable table
  · by_cases hcolumns : schema.columns = []
    · by_cases hempty : records = [] <;> simp [hsync, hcolumns, hempty, Keyed.replaceAll]
    · by_cases hempty : records = []
      · simp [hempty, Keyed.replaceAll]
      · simp only [hempty, hsync, hcolumns, not_true_eq_false, or_self, if_false, ne_eq,
          not_false_eq_true, and_self, if_true, hfold, Nat.zero_add]
  · simp [hsync, Keyed.replaceAll]

/-- The deltas, in whatever batches, write the rows offered in the order of their arrival. -/
theorem importAll_apply (db : Database schemas) (deltas : List Delta) (table : String) :
    importAll db deltas table =
      (db table).replaceAll (offered schemas table (arrivals deltas)) := by
  induction deltas generalizing db with
  | nil => rfl
  | cons delta deltas ih =>
    have harrivals : arrivals (delta :: deltas) =
        (delta.2.map fun record => (delta.1, record)) ++ arrivals deltas := by
      simp [arrivals]
    rw [show importAll db (delta :: deltas) = importAll (importInto db delta) deltas from rfl, ih,
      harrivals, offered_append, offered_delta, Keyed.replaceAll, Keyed.replaceAll,
      List.foldl_append]
    congr 1
    unfold importInto
    by_cases htable : delta.1 = table
    · subst htable
      rw [Function.update_self, importDelta_eq, if_pos rfl]
      rfl
    · rw [Function.update_of_ne (Ne.symm htable)]
      simp [htable]

/-! ## Convergence -/

variable (db : Database schemas) (deltas : List Delta)

/-- After each record that arrives, the tables hold the newest row of each key, of those they
started with and those they were offered. -/
def NewestStand : Prop :=
  ∀ arrived, arrived <+: arrivals deltas → ∀ table,
    Settled (timestamp table) ((db table).rows ++ offered schemas table arrived)
      (importAll db (arrived.map fun a => (a.1, [a.2])) table)

/-- The newest rows stand, and so other nodes where they do, that were offered the same rows in
any order and any number of times, hold the same. -/
def Converges : Prop :=
  NewestStand db deltas ∧
    ∀ (db' : Database schemas) (deltas' : List Delta), NewestStand db' deltas' →
      (∀ table x, x ∈ (db table).rows ++ offered schemas table (arrivals deltas) ↔
        x ∈ (db' table).rows ++ offered schemas table (arrivals deltas')) →
      ∀ table r, r ∈ (importAll db deltas table).rows ↔ r ∈ (importAll db' deltas' table).rows

/-- Of each key, the rows arrive from the oldest to the newest. -/
def ArriveInOrder : Prop :=
  ∀ table, InOrder (schemas table).primaryKey (timestamp table)
    ((db table).rows ++ offered schemas table (arrivals deltas))

variable {db deltas}

theorem arrivals_singletons (arrived : List (String × Record)) :
    arrivals (arrived.map fun a => (a.1, [a.2])) = arrived := by
  unfold arrivals
  induction arrived with
  | nil => rfl
  | cons a arrived ih => rw [List.map_cons, List.flatMap_cons, ih]; rfl

theorem newestStand_iff : NewestStand db deltas ↔ ArriveInOrder db deltas := by
  unfold NewestStand ArriveInOrder
  simp only [importAll_apply, arrivals_singletons]
  constructor
  · intro hstand table
    apply (Keyed.settled_prefixes_iff _ _).mp
    intro written hwritten
    obtain ⟨arrived, harrived, rfl⟩ := List.prefix_filterMap_iff.mp hwritten
    exact hstand arrived harrived table
  · intro horder arrived harrived table
    exact (Keyed.settled_prefixes_iff _ _).mpr (horder table) _ (harrived.filterMap _)

theorem NewestStand.settled (h : NewestStand db deltas) (table : String) :
    Settled (timestamp table)
      ((db table).rows ++ offered schemas table (arrivals deltas)) (importAll db deltas table) := by
  have hall := h (arrivals deltas) List.prefix_rfl table
  rwa [importAll_apply, arrivals_singletons, ← importAll_apply] at hall

variable (db deltas)

/-- Nodes converge on the newest rows exactly when the rows of each key arrive in order. -/
theorem converges_iff : Converges db deltas ↔ ArriveInOrder db deltas := by
  rw [← newestStand_iff]
  constructor
  · rintro ⟨hstand, _⟩
    exact hstand
  · intro hstand
    refine ⟨hstand, ?_⟩
    intro db' deltas' hstand' hoffered table
    exact (hstand.settled table).mem_iff (hstand'.settled table) (hoffered table)

end Import

/-- A table of triples, with the subject as its key. -/
def tripleSchema : TableSchema (Option Value) where
  columns := ["subject", "object", "created_at"]
  stored := some
  primaryKey record := record.lookup "subject"

/-- A version of a triple. -/
def triple (object : String) (createdAt : Int) : Record :=
  [("subject", .text "jay"), ("object", .text object), ("created_at", .number createdAt)]

/-- A node without any records. -/
def emptyNode : Database fun _ => tripleSchema := fun _ => ⟨[], List.nodup_nil⟩

/-- A version arrives after a newer one, and replaces it. -/
theorem older_replaces_newer :
    ¬Converges emptyNode
      [("kg_triples", [triple "new" 2]), ("kg_triples", [triple "old" 1])] := by
  rintro ⟨hstand, _⟩
  have hsettled := hstand.settled "kg_triples"
  have hnewest := ((hsettled (triple "old" 1)).mp (by decide)).2 (triple "new" 2) (by decide) rfl
  exact absurd hnewest (by decide)

end MeshSync
end TinyAgentOS.Scheduling
