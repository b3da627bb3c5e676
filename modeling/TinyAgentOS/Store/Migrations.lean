import Mathlib.Data.Finset.Image
import Mathlib.Data.List.Sort
import Mathlib.Tactic
import TinyAgentOS.Library.Transition

/-!
# Schema migrations

A store opens its database with an ordered list of migrations.  The runner
brings the tracking table into its current form, stamps a database that holds
tables but no record of the store, and otherwise executes what the record
lacks.  A run is a sequence of opens by any stores; a migration that raises
ends its open and leaves what was recorded before it.

The user's part of the database is opaque: only its number of tables is read.

Main results:

- `runMigrations_effect`: what one open may do.
- `Invariant.step`: the bookkeeping over a sequence of orderly opens.
- `scheduled_of_orderly`: the runs in which each migration runs exactly when it should.
-/

namespace TinyAgentOS.Store

open Transition

variable {δ : Type}

abbrev Version := Int

/-- A step leaves a schema, and the text of an exception when it raises. -/
structure Migration (δ : Type) where
  version : Version
  step : δ → δ × Option String

/-- A row of the tracking table; nothing reads its `applied_at`. -/
abbrev TrackingRow := String × Version

/-- The forms of `schema_migrations` on disk. -/
inductive Tracking where
  | absent
  /-- Before namespaces: `PRIMARY KEY(version)`. -/
  | versionOnly (rows : Finset Version)
  /-- The column was added, the key was not rebuilt. -/
  | versionKey (rows : Finset TrackingRow)
  | composite (rows : Finset TrackingRow)

/-- A database file: the user's tables and the tracking table. -/
structure Database (δ : Type) where
  user : δ
  tracking : Tracking

/-- `CREATE TABLE IF NOT EXISTS`. -/
def createTracking : Tracking → Tracking
  | .absent => .composite ∅
  | tracking => tracking

/-- `_ensure_namespace_column`: rows without a store name become legacy rows. -/
def ensureNamespaceColumn : Tracking → Finset TrackingRow
  | .absent => ∅
  | .versionOnly rows => rows.image fun v => ("legacy", v)
  | .versionKey rows => rows
  | .composite rows => rows

/-- The rows an open works with. -/
def Database.rows (db : Database δ) : Finset TrackingRow :=
  ensureNamespaceColumn (createTracking db.tracking)

/-- Versions recorded for a namespace. -/
def recordedVersions (rows : Finset TrackingRow) (ns : String) : Finset Version :=
  (rows.filter fun row => row.1 = ns).image Prod.snd

/-- Versions of a migration list. -/
def versions (migrations : List (Migration δ)) : List Version :=
  migrations.map Migration.version

/-- `sorted(migrations, key=version)`. -/
def sortedMigrations (migrations : List (Migration δ)) : List (Migration δ) :=
  migrations.insertionSort fun a b => a.version ≤ b.version

/-- What an open leaves. -/
structure OpenResult (δ : Type) where
  db : Database δ
  baselined : Option Version
  executed : List Version
  error : Option String

/-- What the loop over the pending migrations leaves. -/
structure Applied (δ : Type) where
  user : δ
  rows : Finset TrackingRow
  executed : List Version
  error : Option String

/-- The loop: skip what is recorded, record each step that returns. -/
def applyPending (applied : Finset Version) (ns : String) :
    List (Migration δ) → δ → Finset TrackingRow → Applied δ
  | [], user, rows => ⟨user, rows, [], none⟩
  | m :: ms, user, rows =>
    if m.version ∈ applied then applyPending applied ns ms user rows
    else
      match m.step user with
      | (user', some exc) => ⟨user', rows, [], some exc⟩
      | (user', none) =>
        let rest := applyPending applied ns ms user' (insert (ns, m.version) rows)
        { rest with executed := m.version :: rest.executed }

/-- `run_migrations`. -/
def runMigrations (userTables : δ → Nat) (db : Database δ) (migrations : List (Migration δ))
    (ns : String) : OpenResult δ :=
  match (versions migrations).max? with
  | none => ⟨⟨db.user, .composite db.rows⟩, none, [], none⟩
  | some latestVersion =>
    if (recordedVersions db.rows ns).card = 0 ∧ 0 < userTables db.user then
      ⟨⟨db.user, .composite (insert (ns, latestVersion) db.rows)⟩, some latestVersion, [], none⟩
    else
      let r := applyPending (recordedVersions db.rows ns) ns (sortedMigrations migrations)
        db.user db.rows
      ⟨⟨r.user, .composite r.rows⟩, none, r.executed, r.error⟩

/-- `run_migrations_async` awaits the same statements in the same order. -/
def runMigrationsAsync (userTables : δ → Nat) (db : Database δ)
    (migrations : List (Migration δ)) (ns : String) : OpenResult δ :=
  runMigrations userTables db migrations ns

/-! ## One open -/

@[simp]
theorem rows_composite (user : δ) (rows : Finset TrackingRow) :
    (Database.mk user (.composite rows)).rows = rows :=
  rfl

variable {ns : String} {rows : Finset TrackingRow} {migrations : List (Migration δ)}

/-- The recorded versions of a store. -/
@[simp]
theorem mem_recordedVersions {v : Version} : v ∈ recordedVersions rows ns ↔ (ns, v) ∈ rows := by
  simp [recordedVersions]

/-- The versions an open has left to execute, in execution order. -/
def pendingVersions (rows : Finset TrackingRow) (ns : String)
    (migrations : List (Migration δ)) : List Version :=
  ((sortedMigrations migrations).filter fun m => m.version ∉ recordedVersions rows ns).map
    Migration.version

/-- The pending versions are presented and not recorded. -/
theorem mem_pendingVersions {v : Version} :
    v ∈ pendingVersions rows ns migrations ↔ v ∈ versions migrations ∧ (ns, v) ∉ rows := by
  simp only [pendingVersions, sortedMigrations, versions, List.mem_map, List.mem_filter,
    List.mem_insertionSort, decide_eq_true_eq, mem_recordedVersions]
  constructor
  · rintro ⟨m, ⟨hm, hrow⟩, rfl⟩
    exact ⟨⟨m, hm, rfl⟩, hrow⟩
  · rintro ⟨⟨m, hm, rfl⟩, hrow⟩
    exact ⟨m, ⟨hm, hrow⟩, rfl⟩

/-- Distinct versions are executed in strictly ascending order. -/
theorem pendingVersions_pairwise (hnodup : (versions migrations).Nodup) :
    (pendingVersions rows ns migrations).Pairwise (· < ·) := by
  have hperm : (versions (sortedMigrations migrations)).Perm (versions migrations) :=
    (List.perm_insertionSort _ migrations).map Migration.version
  have hsorted : (versions (sortedMigrations migrations)).Pairwise (· ≤ ·) := by
    have hsort : (sortedMigrations migrations).Pairwise fun a b => a.version ≤ b.version := by
      have : Std.Total (fun a b : Migration δ => a.version ≤ b.version) :=
        ⟨fun a b => le_total a.version b.version⟩
      have : IsTrans (Migration δ) (fun a b => a.version ≤ b.version) :=
        ⟨fun a b c => le_trans⟩
      exact List.pairwise_insertionSort _ migrations
    exact List.pairwise_map.mpr hsort
  have hstrict : (versions (sortedMigrations migrations)).Pairwise (· < ·) :=
    (hsorted.and (hperm.nodup_iff.mpr hnodup)).imp fun ⟨hle, hne⟩ => lt_of_le_of_ne hle hne
  exact hstrict.sublist (List.filter_sublist.map Migration.version)

/-- The loop executes a prefix of what is pending, all of it unless a step raises, and
records exactly what it executed. -/
theorem applyPending_spec (applied : Finset Version) (ns : String) (ms : List (Migration δ))
    (user : δ) (rows : Finset TrackingRow) : let r := applyPending applied ns ms user rows
    let pending := (ms.filter fun m => m.version ∉ applied).map Migration.version
    r.executed <+: pending ∧ (r.error = none → r.executed = pending) ∧
      ∀ ns' v, (ns', v) ∈ r.rows ↔ (ns', v) ∈ rows ∨ ns' = ns ∧ v ∈ r.executed := by
  induction ms generalizing user rows with
  | nil => simp [applyPending]
  | cons m ms ih =>
    simp only [applyPending]
    split
    · rename_i happlied
      simpa [happlied] using ih user rows
    · rename_i hpending
      split
      · simp
      · rename_i user' _
        obtain ⟨hinit, hall, hrows⟩ := ih user' (insert (ns, m.version) rows)
        simp only [List.filter_cons, hpending, not_false_eq_true, decide_true, if_true,
          List.map_cons]
        refine ⟨(List.cons_prefix_cons).mpr ⟨rfl, hinit⟩, ?_, ?_⟩
        · intro herror
          rw [hall herror]
        · intro ns' v
          rw [hrows, Finset.mem_insert, Prod.mk.injEq, List.mem_cons]
          tauto

/-- Everything one open of a namespace may do to the record. -/
structure OpenEffect (rows : Finset TrackingRow) (ns : String) (presented : List Version)
    (r : OpenResult δ) : Prop where
  rows_iff : ∀ ns' v, (ns', v) ∈ r.db.rows ↔
    (ns', v) ∈ rows ∨ ns' = ns ∧ (v ∈ r.executed ∨ r.baselined = some v)
  ascending : r.executed.Pairwise (· < ·)
  executed_pending : ∀ v ∈ r.executed, v ∈ presented ∧ (ns, v) ∉ rows
  below_rest : ∀ u ∈ r.executed, ∀ v ∈ presented, (ns, v) ∉ r.db.rows → u < v
  baselined_top : ∀ b, r.baselined = some b →
    (∀ v, (ns, v) ∉ rows) ∧ r.executed = [] ∧ ∀ v ∈ presented, v ≤ b
  complete : r.error = none → ∀ v ∈ presented,
    (ns, v) ∈ r.db.rows ∨ ∃ b, r.baselined = some b ∧ v ≤ b

/-- An open that stamps a database which holds tables but no record of the store. -/
def Baselines (userTables : δ → Nat) (db : Database δ) (ns : String) : Prop :=
  (recordedVersions db.rows ns).card = 0 ∧ 0 < userTables db.user

/-- A store is fresh when nothing is recorded for it. -/
theorem recordedVersions_card_eq_zero :
    (recordedVersions rows ns).card = 0 ↔ ∀ v, (ns, v) ∉ rows := by
  simp [Finset.card_eq_zero, Finset.eq_empty_iff_forall_notMem]

/-- Without migrations nothing is executed. -/
theorem runMigrations_nil (userTables : δ → Nat) (db : Database δ) (ns : String) :
    runMigrations userTables db [] ns = ⟨⟨db.user, .composite db.rows⟩, none, [], none⟩ :=
  rfl

/-- The three ways an open can go. -/
theorem runMigrations_cases (userTables : δ → Nat) (db : Database δ)
    (migrations : List (Migration δ)) (ns : String) : (migrations = [] ∧
        runMigrations userTables db migrations ns =
          ⟨⟨db.user, .composite db.rows⟩, none, [], none⟩) ∨
      (∃ latest, Baselines userTables db ns ∧ (∀ v ∈ versions migrations, v ≤ latest) ∧
        latest ∈ versions migrations ∧
        runMigrations userTables db migrations ns =
          ⟨⟨db.user, .composite (insert (ns, latest) db.rows)⟩, some latest, [], none⟩) ∨
      (migrations ≠ [] ∧ ¬Baselines userTables db ns ∧
        let r := applyPending (recordedVersions db.rows ns) ns (sortedMigrations migrations)
          db.user db.rows
        runMigrations userTables db migrations ns =
          ⟨⟨r.user, .composite r.rows⟩, none, r.executed, r.error⟩) := by
  unfold runMigrations Baselines
  split
  · rename_i hmax
    have hnil : migrations = [] := by simpa [versions] using List.max?_eq_none_iff.mp hmax
    exact .inl ⟨hnil, rfl⟩
  · rename_i latest hmax
    obtain ⟨hmem, hle⟩ := List.max?_eq_some_iff.mp hmax
    have hne : migrations ≠ [] := by
      rintro rfl
      simp [versions] at hmem
    split
    · rename_i hbase
      exact .inr (.inl ⟨latest, hbase, hle, hmem, rfl⟩)
    · rename_i hbase
      exact .inr (.inr ⟨hne, hbase, rfl⟩)

/-- What opening a store does. -/
theorem runMigrations_effect (userTables : δ → Nat) (db : Database δ) (ns : String)
    (hnodup : (versions migrations).Nodup) :
    OpenEffect db.rows ns (versions migrations) (runMigrations userTables db migrations ns) := by
  rcases runMigrations_cases userTables db migrations ns with
    ⟨rfl, heq⟩ | ⟨latest, ⟨hrows, _⟩, hle, _, heq⟩ | ⟨_, _, heq⟩
  · rw [heq]
    constructor <;> simp [versions]
  · rw [heq]
    constructor
    case rows_iff =>
      intro ns' v
      simp only [rows_composite, Finset.mem_insert, Prod.mk.injEq, List.not_mem_nil,
        Option.some.injEq, false_or]
      constructor
      · rintro (⟨rfl, rfl⟩ | hold)
        · exact .inr ⟨rfl, rfl⟩
        · exact .inl hold
      · rintro (hold | ⟨rfl, rfl⟩)
        · exact .inr hold
        · exact .inl ⟨rfl, rfl⟩
    case baselined_top =>
      intro b hb
      cases hb
      exact ⟨recordedVersions_card_eq_zero.mp hrows, rfl, hle⟩
    case complete =>
      intro _ v hv
      exact .inr ⟨latest, rfl, hle v hv⟩
    all_goals simp
  · have hspec := applyPending_spec (recordedVersions db.rows ns) ns
      (sortedMigrations migrations) db.user db.rows
    simp only at heq
    rw [heq]
    revert hspec
    generalize applyPending (recordedVersions db.rows ns) ns (sortedMigrations migrations)
      db.user db.rows = r
    rintro ⟨hinit, hall, hrows⟩
    have hpending : (pendingVersions db.rows ns migrations).Pairwise (· < ·) :=
      pendingVersions_pairwise hnodup
    have hmem : ∀ v ∈ r.executed, v ∈ versions migrations ∧ (ns, v) ∉ db.rows := fun v hv =>
      mem_pendingVersions.mp (hinit.subset hv)
    constructor
    case rows_iff =>
      intro ns' v
      simp [hrows]
    case ascending => exact hpending.sublist hinit.sublist
    case executed_pending => exact hmem
    case below_rest =>
      intro u hu v hv hrow
      simp only [rows_composite, hrows, not_or, not_and] at hrow
      obtain ⟨rest, hrest⟩ := hinit
      have hv' : v ∈ pendingVersions db.rows ns migrations := mem_pendingVersions.mpr ⟨hv, hrow.1⟩
      rw [pendingVersions, ← hrest] at hv' hpending
      rcases List.mem_append.mp hv' with hdone | hleft
      · exact absurd hdone (hrow.2 trivial)
      · exact (List.pairwise_append.mp hpending).2.2 u hu v hleft
    case baselined_top => simp
    case complete =>
      intro herror v hv
      left
      simp only [rows_composite, hrows]
      by_cases hrow : (ns, v) ∈ db.rows
      · exact .inl hrow
      · exact .inr ⟨trivial, hall herror ▸ mem_pendingVersions.mpr ⟨hv, hrow⟩⟩

/-- An open that returns looks only at its own rows, its list, and whether there are
tables when it has no rows. -/
theorem runMigrations_congr {userTables : δ → Nat} {db₁ db₂ : Database δ}
    (hrows : ∀ v, (ns, v) ∈ db₁.rows ↔ (ns, v) ∈ db₂.rows)
    (htables : migrations ≠ [] → (recordedVersions db₁.rows ns).card = 0 →
      (0 < userTables db₁.user ↔ 0 < userTables db₂.user))
    (herror₁ : (runMigrations userTables db₁ migrations ns).error = none)
    (herror₂ : (runMigrations userTables db₂ migrations ns).error = none) :
    (runMigrations userTables db₁ migrations ns).executed =
        (runMigrations userTables db₂ migrations ns).executed ∧
      (runMigrations userTables db₁ migrations ns).baselined =
        (runMigrations userTables db₂ migrations ns).baselined := by
  have hrecorded : recordedVersions db₁.rows ns = recordedVersions db₂.rows ns := by
    ext v
    simp [hrows]
  unfold runMigrations at *
  split
  · exact ⟨rfl, rfl⟩
  · rename_i latest hmax
    have hne : migrations ≠ [] := by
      rintro rfl
      simp [versions] at hmax
    simp only [hmax] at herror₁ herror₂
    rw [hrecorded] at herror₁ ⊢
    by_cases hbase : (recordedVersions db₂.rows ns).card = 0 ∧ 0 < userTables db₂.user
    · have hbase' : (recordedVersions db₂.rows ns).card = 0 ∧ 0 < userTables db₁.user :=
        ⟨hbase.1, (htables hne (hrecorded ▸ hbase.1)).mpr hbase.2⟩
      simp [hbase, hbase']
    · have hbase' : ¬((recordedVersions db₂.rows ns).card = 0 ∧ 0 < userTables db₁.user) := by
        rintro ⟨hzero, hpos⟩
        exact hbase ⟨hzero, (htables hne (hrecorded ▸ hzero)).mp hpos⟩
      simp only [hbase, hbase', if_false] at herror₁ herror₂ ⊢
      refine ⟨?_, trivial⟩
      have hall₁ := (applyPending_spec (recordedVersions db₂.rows ns) ns
        (sortedMigrations migrations) db₁.user db₁.rows).2.1
      have hall₂ := (applyPending_spec (recordedVersions db₂.rows ns) ns
        (sortedMigrations migrations) db₂.user db₂.rows).2.1
      rw [hall₁ herror₁, hall₂ herror₂]

/-! ## Sequences of opens -/

/-- One call of the runner. -/
structure StoreOpen (δ : Type) where
  ns : String
  migrations : List (Migration δ)

/-- What an open did. -/
structure OpenRecord where
  ns : String
  presented : List Version
  baselined : Option Version
  executed : List Version
  error : Option String
deriving DecidableEq

/-- The file, the list each store presented last, and the opens so far. -/
structure OpenState (δ : Type) where
  db : Database δ
  presented : String → List Version
  log : List OpenRecord

/-- A database nobody opened yet. -/
def OpenState.init (db : Database δ) : OpenState δ :=
  ⟨db, fun _ => [], []⟩

/-- Migrations executed for a namespace, in the order of their execution. -/
def executedBy (ns : String) (log : List OpenRecord) : List Version :=
  (log.filter fun r => r.ns = ns).flatMap OpenRecord.executed

/-- A list extends the previous one by higher versions. -/
def Extends (previous next : List Version) : Prop :=
  previous <+: next ∧ next.Nodup ∧ ∀ u ∈ previous, ∀ v ∈ next.drop previous.length, u < v

instance (previous next : List Version) : Decidable (Extends previous next) :=
  inferInstanceAs (Decidable (_ ∧ _ ∧ _))

namespace OpenState

/-- One open, with a list that extends the store's previous one. -/
def step (userTables : δ → Nat) (s : OpenState δ) (e : StoreOpen δ) : Option (OpenState δ) :=
  if Extends (s.presented e.ns) (versions e.migrations) then
    let r := runMigrations userTables s.db e.migrations e.ns
    some
      { db := r.db
        presented := Function.update s.presented e.ns (versions e.migrations)
        log := s.log ++ [⟨e.ns, versions e.migrations, r.baselined, r.executed, r.error⟩] }
  else none

/-- No open of the namespace raised. -/
def Returned (ns : String) (s : OpenState δ) : Prop :=
  ∀ r ∈ s.log, r.ns = ns → r.error = none

/-- The namespace was baselined at this version. -/
def BaselinedAt (s : OpenState δ) (ns : String) (b : Version) : Prop :=
  ∃ r ∈ s.log, r.ns = ns ∧ r.baselined = some b

/-- Each migration ran exactly when it should. -/
structure Scheduled (userTables : δ → Nat) (db : Database δ) (events : List (StoreOpen δ))
    (s : OpenState δ) : Prop where
  above_baseline : ∀ ns b, s.BaselinedAt ns b → ∀ v ∈ executedBy ns s.log, b < v
  ascending : ∀ ns, (executedBy ns s.log).Pairwise (· < ·)
  not_recorded : ∀ ns, ∀ v ∈ executedBy ns s.log, (ns, v) ∉ db.rows
  complete : ∀ r ∈ s.log, r.error = none → ∀ v ∈ r.presented,
    v ∈ executedBy r.ns s.log ∨ (r.ns, v) ∈ db.rows ∨ ∃ b, s.BaselinedAt r.ns b ∧ v ≤ b
  nothing_new : ∀ earlier r later, s.log = earlier ++ r :: later →
    (∀ v ∈ r.presented, (r.ns, v) ∈ db.rows ∨
      ∃ r' ∈ earlier, r'.ns = r.ns ∧ r'.error = none ∧ v ∈ r'.presented) → r.executed = []
  /-- Without the opens of the other stores, a namespace executes the same migrations. -/
  independent : ∀ ns s', run (step userTables) (init db) (events.filter fun e => e.ns = ns) =
    some s' → Returned ns s → Returned ns s' → executedBy ns s.log = executedBy ns s'.log

/-- The opens that do not meet the defects: a baselined store does not come back with
unrecorded lower versions, and a store without a record finds tables exactly when the
file held some from the start. -/
def Orderly (userTables : δ → Nat) (db : Database δ) (s : OpenState δ) (e : StoreOpen δ) :
    Prop :=
  (∀ r ∈ s.log, r.ns = e.ns → ∀ b ∈ r.baselined, ∀ v ∈ versions e.migrations,
      v < b → (e.ns, v) ∈ s.db.rows) ∧
    (e.migrations.length ≠ 0 → (recordedVersions s.db.rows e.ns).card = 0 →
      (0 < userTables s.db.user ↔ 0 < userTables db.user))

theorem executedBy_append (ns : String) (log : List OpenRecord) (r : OpenRecord) :
    executedBy ns (log ++ [r]) = executedBy ns log ++ if r.ns = ns then r.executed else [] := by
  unfold executedBy
  rw [List.filter_append, List.flatMap_append]
  by_cases h : r.ns = ns <;> simp [h]

variable {ns : String}

/-- The versions that a store has executed. -/
theorem mem_executedBy {log : List OpenRecord} {v : Version} :
    v ∈ executedBy ns log ↔ ∃ r ∈ log, r.ns = ns ∧ v ∈ r.executed := by
  simp [executedBy, and_assoc]

/-- The bookkeeping behind the schedule: every row has a reason, and what is left to
execute lies above what was executed. -/
structure Invariant (db : Database δ) (s : OpenState δ) : Prop where
  rows_iff : ∀ ns v, (ns, v) ∈ s.db.rows ↔
    (ns, v) ∈ db.rows ∨ v ∈ executedBy ns s.log ∨ s.BaselinedAt ns v
  ascending : ∀ ns, (executedBy ns s.log).Pairwise (· < ·)
  executed_presented : ∀ ns, ∀ v ∈ executedBy ns s.log, v ∈ s.presented ns
  below_rest : ∀ ns, ∀ u ∈ executedBy ns s.log, ∀ v ∈ s.presented ns,
    (ns, v) ∉ s.db.rows → u < v
  not_recorded : ∀ ns, ∀ v ∈ executedBy ns s.log, (ns, v) ∉ db.rows
  above_baseline : ∀ ns b, s.BaselinedAt ns b → ∀ v ∈ executedBy ns s.log, b < v
  complete : ∀ r ∈ s.log, r.error = none → ∀ v ∈ r.presented,
    (r.ns, v) ∈ s.db.rows ∨ ∃ b, s.BaselinedAt r.ns b ∧ v ≤ b
  nothing_new : ∀ earlier r later, s.log = earlier ++ r :: later →
    (∀ v ∈ r.presented, (r.ns, v) ∈ db.rows ∨
      ∃ r' ∈ earlier, r'.ns = r.ns ∧ r'.error = none ∧ v ∈ r'.presented) → r.executed = []

/-- The invariant holds before the first opening. -/
theorem Invariant.init (db : Database δ) : Invariant db (init db) where
  rows_iff := by simp [OpenState.init, executedBy, BaselinedAt]
  ascending := by simp [OpenState.init, executedBy]
  executed_presented := by simp [OpenState.init, executedBy]
  below_rest := by simp [OpenState.init, executedBy]
  not_recorded := by simp [OpenState.init, executedBy]
  above_baseline := by simp [OpenState.init, executedBy]
  complete := by simp [OpenState.init]
  nothing_new := by simp [OpenState.init]

/-- The log entry of an open. -/
def record (e : StoreOpen δ) (r : OpenResult δ) : OpenRecord :=
  ⟨e.ns, versions e.migrations, r.baselined, r.executed, r.error⟩

/-- The state after an open. -/
def after (s : OpenState δ) (e : StoreOpen δ) (r : OpenResult δ) : OpenState δ :=
  ⟨r.db, Function.update s.presented e.ns (versions e.migrations), s.log ++ [record e r]⟩

theorem baselinedAt_after {s : OpenState δ} {e : StoreOpen δ} {r : OpenResult δ} {b : Version} :
    (s.after e r).BaselinedAt ns b ↔ s.BaselinedAt ns b ∨ e.ns = ns ∧ r.baselined = some b := by
  simp [BaselinedAt, after, record, or_and_right, exists_or]

theorem mem_executedBy_after {s : OpenState δ} {e : StoreOpen δ} {r : OpenResult δ} {v : Version} :
    v ∈ executedBy ns (s.after e r).log ↔
      v ∈ executedBy ns s.log ∨ e.ns = ns ∧ v ∈ r.executed := by
  simp only [after, executedBy_append, record, List.mem_append]
  by_cases h : e.ns = ns <;> simp [h]

/-- What an open of the run does, seen from the states before and after it. -/
theorem step_cases {userTables : δ → Nat} {s s' : OpenState δ} {e : StoreOpen δ}
    (hstep : s.step userTables e = some s') :
    Extends (s.presented e.ns) (versions e.migrations) ∧
      OpenEffect s.db.rows e.ns (versions e.migrations)
        (runMigrations userTables s.db e.migrations e.ns) ∧
      s' = s.after e (runMigrations userTables s.db e.migrations e.ns) := by
  simp only [step, Option.ite_none_right_eq_some, Option.some.injEq] at hstep
  obtain ⟨hextends, rfl⟩ := hstep
  exact ⟨hextends, runMigrations_effect userTables s.db e.ns hextends.2.1, rfl⟩

section OneOpen

variable {userTables : δ → Nat} {db : Database δ} {s : OpenState δ} {e : StoreOpen δ}
  {r : OpenResult δ}

section

variable (h : Invariant db s)
include h

/-- What was executed lies below everything the next list leaves to execute. -/
theorem Invariant.executed_lt
    (hextends : Extends (s.presented e.ns) (versions e.migrations)) {u v : Version}
    (hu : u ∈ executedBy e.ns s.log) (hv : v ∈ versions e.migrations)
    (hrow : (e.ns, v) ∉ s.db.rows) : u < v := by
  obtain ⟨⟨added, hadded⟩, _, habove⟩ := hextends
  rw [← hadded] at hv habove
  rw [List.drop_left] at habove
  rcases List.mem_append.mp hv with hold | hnew
  · exact h.below_rest e.ns u hu v hold hrow
  · exact habove u (h.executed_presented e.ns u hu) v hnew

/-- A baseline leaves no room for earlier executions. -/
theorem Invariant.executedBy_eq_nil (hrows : ∀ v, (e.ns, v) ∉ s.db.rows) :
    executedBy e.ns s.log = [] := by
  apply List.eq_nil_iff_forall_not_mem.mpr
  intro v hv
  exact hrows v ((h.rows_iff e.ns v).mpr (.inr (.inl hv)))

/-- A row was there, or is executed or baselined. -/
theorem Invariant.after_rows_iff
    (heffect : OpenEffect s.db.rows e.ns (versions e.migrations) r) (ns : String) (v : Version) :
    (ns, v) ∈ (s.after e r).db.rows ↔ (ns, v) ∈ db.rows ∨
      v ∈ executedBy ns (s.after e r).log ∨ (s.after e r).BaselinedAt ns v := by
  rw [mem_executedBy_after, baselinedAt_after]
  change (ns, v) ∈ r.db.rows ↔ _
  rw [heffect.rows_iff, h.rows_iff]
  constructor
  · rintro ((hdb | hexec | hbase) | ⟨rfl, hexec | hbase⟩) <;> tauto
  · rintro (hdb | (hexec | ⟨rfl, hexec⟩) | (hbase | ⟨rfl, hbase⟩)) <;> tauto

/-- Versions are executed in ascending order. -/
theorem Invariant.after_ascending (hextends : Extends (s.presented e.ns) (versions e.migrations))
    (heffect : OpenEffect s.db.rows e.ns (versions e.migrations) r) (ns : String) :
    (executedBy ns (s.after e r).log).Pairwise (· < ·) := by
  simp only [after, executedBy_append, record]
  split
  · rename_i hns
    subst hns
    refine List.pairwise_append.mpr ⟨h.ascending e.ns, heffect.ascending, ?_⟩
    intro u hu v hv
    obtain ⟨hmem, hrow⟩ := heffect.executed_pending v hv
    exact h.executed_lt hextends hu hmem hrow
  · simpa using h.ascending ns

/-- Only what is presented is executed. -/
theorem Invariant.after_executed_presented
    (hextends : Extends (s.presented e.ns) (versions e.migrations))
    (heffect : OpenEffect s.db.rows e.ns (versions e.migrations) r) (ns : String) :
    ∀ v ∈ executedBy ns (s.after e r).log, v ∈ (s.after e r).presented ns := by
  intro v hv
  change v ∈ Function.update s.presented e.ns (versions e.migrations) ns
  rcases mem_executedBy_after.mp hv with hold | ⟨rfl, hnew⟩
  · by_cases hns : ns = e.ns
    · subst hns
      rw [Function.update_self]
      exact hextends.1.subset (h.executed_presented e.ns v hold)
    · rw [Function.update_of_ne hns]
      exact h.executed_presented ns v hold
  · rw [Function.update_self]
    exact (heffect.executed_pending v hnew).1

theorem Invariant.after_below_rest (hextends : Extends (s.presented e.ns) (versions e.migrations))
    (heffect : OpenEffect s.db.rows e.ns (versions e.migrations) r) (ns : String) :
    ∀ u ∈ executedBy ns (s.after e r).log, ∀ v ∈ (s.after e r).presented ns,
      (ns, v) ∉ (s.after e r).db.rows → u < v := by
  intro u hu v hv hrow
  change v ∈ Function.update s.presented e.ns (versions e.migrations) ns at hv
  change (ns, v) ∉ r.db.rows at hrow
  have hrow' : (ns, v) ∉ s.db.rows := fun hold => hrow ((heffect.rows_iff ns v).mpr (.inl hold))
  by_cases hns : ns = e.ns
  · subst hns
    rw [Function.update_self] at hv
    rcases mem_executedBy_after.mp hu with hold | ⟨_, hnew⟩
    · exact h.executed_lt hextends hold hv hrow'
    · exact heffect.below_rest u hnew v hv hrow
  · rw [Function.update_of_ne hns] at hv
    rcases mem_executedBy_after.mp hu with hold | ⟨rfl, _⟩
    · exact h.below_rest ns u hold v hv hrow'
    · exact absurd rfl hns

/-- Nothing that was recorded is executed. -/
theorem Invariant.after_not_recorded
    (heffect : OpenEffect s.db.rows e.ns (versions e.migrations) r) (ns : String) :
    ∀ v ∈ executedBy ns (s.after e r).log, (ns, v) ∉ db.rows := by
  intro v hv
  rcases mem_executedBy_after.mp hv with hold | ⟨rfl, hnew⟩
  · exact h.not_recorded ns v hold
  · intro hdb
    exact (heffect.executed_pending v hnew).2 ((h.rows_iff e.ns v).mpr (.inl hdb))

/-- What is executed lies above the baseline. -/
theorem Invariant.after_above_baseline (hguard : Orderly userTables db s e)
    (heffect : OpenEffect s.db.rows e.ns (versions e.migrations) r) (ns : String) (b : Version)
    (hb : (s.after e r).BaselinedAt ns b) : ∀ v ∈ executedBy ns (s.after e r).log, b < v := by
  intro v hv
  rcases baselinedAt_after.mp hb with hbold | ⟨rfl, hbnew⟩
  · rcases mem_executedBy_after.mp hv with hold | ⟨rfl, hnew⟩
    · exact h.above_baseline ns b hbold v hold
    · -- the guard leaves nothing unrecorded below the baseline
      obtain ⟨hmem, hrow⟩ := heffect.executed_pending v hnew
      obtain ⟨r', hr', hns, hbase⟩ := hbold
      rcases lt_trichotomy b v with hlt | rfl | hgt
      · exact hlt
      · exact absurd ((h.rows_iff _ _).mpr (.inr (.inr ⟨r', hr', hns, hbase⟩))) hrow
      · exact absurd (hguard.1 r' hr' hns b hbase v hmem hgt) hrow
  · obtain ⟨hrows, hnone, _⟩ := heffect.baselined_top b hbnew
    rw [mem_executedBy_after, h.executedBy_eq_nil hrows, hnone] at hv
    simp at hv

/-- An opening without an error is complete. -/
theorem Invariant.after_complete (heffect : OpenEffect s.db.rows e.ns (versions e.migrations) r) :
    ∀ r' ∈ (s.after e r).log, r'.error = none → ∀ v ∈ r'.presented,
      (r'.ns, v) ∈ (s.after e r).db.rows ∨ ∃ b, (s.after e r).BaselinedAt r'.ns b ∧ v ≤ b := by
  intro r' hr' herror v hv
  rcases List.mem_append.mp hr' with hold | hnew
  · rcases h.complete r' hold herror v hv with hrow | ⟨b, hb, hle⟩
    · exact .inl ((heffect.rows_iff _ v).mpr (.inl hrow))
    · exact .inr ⟨b, baselinedAt_after.mpr (.inl hb), hle⟩
  · obtain rfl : r' = record e r := List.mem_singleton.mp hnew
    rcases heffect.complete herror v hv with hrow | ⟨b, hb, hle⟩
    · exact .inl hrow
    · exact .inr ⟨b, baselinedAt_after.mpr (.inr ⟨rfl, hb⟩), hle⟩

/-- Where nothing is new nothing is executed. -/
theorem Invariant.after_nothing_new (hguard : Orderly userTables db s e)
    (heffect : OpenEffect s.db.rows e.ns (versions e.migrations) r)
    (hknown : ∀ v ∈ versions e.migrations, (e.ns, v) ∈ db.rows ∨
      ∃ r' ∈ s.log, r'.ns = e.ns ∧ r'.error = none ∧ v ∈ r'.presented) : r.executed = [] := by
  apply List.eq_nil_iff_forall_not_mem.mpr
  intro v hv
  obtain ⟨hmem, hrow⟩ := heffect.executed_pending v hv
  rcases hknown v hmem with hdb | ⟨r', hr', hns, herror, hv'⟩
  · exact hrow ((h.rows_iff e.ns v).mpr (.inl hdb))
  · rcases h.complete r' hr' herror v hv' with hrow' | ⟨b, hb, hle⟩
    · exact hrow (hns ▸ hrow')
    · rw [hns] at hb
      obtain ⟨r'', hr'', hns'', hbase⟩ := hb
      rcases hle.lt_or_eq with hlt | rfl
      · exact hrow (hguard.1 r'' hr'' hns'' b hbase v hmem hlt)
      · exact hrow ((h.rows_iff _ _).mpr (.inr (.inr ⟨r'', hr'', hns'', hbase⟩)))

end

end OneOpen

/-- An orderly open keeps the bookkeeping. -/
theorem Invariant.step {userTables : δ → Nat} {db : Database δ} {s s' : OpenState δ}
    {e : StoreOpen δ} (h : Invariant db s) (hguard : Orderly userTables db s e)
    (hstep : s.step userTables e = some s') : Invariant db s' := by
  obtain ⟨hextends, heffect, rfl⟩ := step_cases hstep
  refine ⟨h.after_rows_iff heffect, h.after_ascending hextends heffect,
    h.after_executed_presented hextends heffect, h.after_below_rest hextends heffect,
    h.after_not_recorded heffect, h.after_above_baseline hguard heffect,
    h.after_complete heffect, ?_⟩
  intro earlier r later hlog hknown
  rcases List.eq_nil_or_concat' later with rfl | ⟨later', last, rfl⟩
  · obtain ⟨rfl, hr⟩ := List.append_inj' hlog rfl
    obtain rfl : record e (runMigrations userTables s.db e.migrations e.ns) = r := by
      simpa using hr
    exact h.after_nothing_new hguard heffect hknown
  · rw [← List.cons_append, ← List.append_assoc] at hlog
    obtain ⟨hlog', _⟩ := List.append_inj' hlog rfl
    exact h.nothing_new earlier r later' hlog' hknown

/-! ### Independence of the stores -/

/-- A store has returned where no opening failed. -/
theorem returned_after {s : OpenState δ} {e : StoreOpen δ} {r : OpenResult δ} :
    Returned ns (s.after e r) ↔ Returned ns s ∧ (e.ns = ns → r.error = none) := by
  simp only [Returned, after, List.mem_append, List.mem_singleton]
  constructor
  · intro h
    exact ⟨fun r' hr' => h r' (.inl hr'), fun hns => h (record e r) (.inr rfl) hns⟩
  · rintro ⟨hold, hnew⟩ r' (hr' | rfl) hns
    · exact hold r' hr' hns
    · exact hnew hns

/-- What a run and the run of one namespace's own opens have in common for it. -/
structure Agrees (db : Database δ) (ns : String) (s solo : OpenState δ) : Prop where
  rows_iff : ∀ v, (ns, v) ∈ s.db.rows ↔ (ns, v) ∈ solo.db.rows
  executed_eq : executedBy ns s.log = executedBy ns solo.log
  untouched : (∀ v, (ns, v) ∉ solo.db.rows) → solo.db.user = db.user

/-- Both runs take an open of the namespace. -/
theorem Agrees.keep {userTables : δ → Nat} {db : Database δ} {s solo s' solo' : OpenState δ}
    {e : StoreOpen δ} (h : Agrees db e.ns s solo) (hguard : Orderly userTables db s e)
    (hstep : s.step userTables e = some s') (hsolo : solo.step userTables e = some solo')
    (hreturned : Returned e.ns s') (hreturned' : Returned e.ns solo') :
    Agrees db e.ns s' solo' := by
  obtain ⟨_, heffect, rfl⟩ := step_cases hstep
  obtain ⟨_, heffect', rfl⟩ := step_cases hsolo
  have herror := (returned_after.mp hreturned).2 rfl
  have herror' := (returned_after.mp hreturned').2 rfl
  have htables : e.migrations ≠ [] → (recordedVersions s.db.rows e.ns).card = 0 →
      (0 < userTables s.db.user ↔ 0 < userTables solo.db.user) := by
    intro hne hzero
    have hnone : ∀ v, (e.ns, v) ∉ solo.db.rows := fun v hv =>
      recordedVersions_card_eq_zero.mp hzero v ((h.rows_iff v).mpr hv)
    rw [h.untouched hnone]
    exact hguard.2 (by simpa using hne) hzero
  obtain ⟨hexecuted, hbaselined⟩ := runMigrations_congr h.rows_iff htables herror herror'
  refine ⟨?_, ?_, ?_⟩
  · intro v
    change (e.ns, v) ∈ (runMigrations userTables s.db e.migrations e.ns).db.rows ↔
      (e.ns, v) ∈ (runMigrations userTables solo.db e.migrations e.ns).db.rows
    rw [heffect.rows_iff, heffect'.rows_iff, h.rows_iff, hexecuted, hbaselined]
  · simp [after, executedBy_append, record, h.executed_eq, hexecuted]
  · intro hnone
    -- an open that returned without leaving a row presented nothing
    have hempty : e.migrations = [] := by
      cases hm : e.migrations with
      | nil => rfl
      | cons m ms =>
        have hv : m.version ∈ versions e.migrations := by simp [versions, hm]
        rcases heffect'.complete herror' m.version hv with hrow | ⟨b, hb, _⟩
        · exact absurd hrow (hnone m.version)
        · exact absurd ((heffect'.rows_iff e.ns b).mpr (.inr ⟨rfl, .inr hb⟩)) (hnone b)
    have hrows : ∀ v, (e.ns, v) ∉ solo.db.rows := fun v hv =>
      hnone v ((heffect'.rows_iff e.ns v).mpr (.inl hv))
    simp [after, hempty, runMigrations_nil, h.untouched hrows]

/-- Only the full run takes an open of another namespace. -/
theorem Agrees.drop {userTables : δ → Nat} {db : Database δ}
    {s solo s' : OpenState δ} {e : StoreOpen δ} (h : Agrees db ns s solo) (hns : e.ns ≠ ns)
    (hstep : s.step userTables e = some s') : Agrees db ns s' solo := by
  obtain ⟨_, heffect, rfl⟩ := step_cases hstep
  refine ⟨?_, ?_, h.untouched⟩
  · intro v
    change (ns, v) ∈ (runMigrations userTables s.db e.migrations e.ns).db.rows ↔ _
    rw [heffect.rows_iff, ← h.rows_iff]
    simp [hns.symm]
  · simp [after, executedBy_append, record, hns, h.executed_eq]

/-- The opens of the other stores do not change what a namespace executes. -/
theorem executedBy_eq_solo {userTables : δ → Nat} {db : Database δ} {events : List (StoreOpen δ)}
    {s solo : OpenState δ} (ns : String) (hrun : run (step userTables) (init db) events = some s)
    (hguard : Guarded (step userTables) (Orderly userTables db) (init db) events)
    (hsolo : run (step userTables) (init db) (events.filter fun e => e.ns = ns) = some solo)
    (hreturned : Returned ns s) (hreturned' : Returned ns solo) :
    executedBy ns s.log = executedBy ns solo.log := by
  have hrelated := related_of_filtered_run
    (fun s t => Returned ns s → Returned ns t → Agrees db ns s t)
    (fun e : StoreOpen δ => decide (e.ns = ns))
    ?_ ?_ (fun _ _ => ⟨fun _ => Iff.rfl, rfl, fun _ => rfl⟩) hguard hrun hsolo
  · exact (hrelated hreturned hreturned').executed_eq
  · intro s t e s' t' hR hg hk hstep hstep' hs' ht'
    obtain rfl : e.ns = ns := by simpa using hk
    refine Agrees.keep (hR ?_ ?_) hg hstep hstep' hs' ht'
    · obtain ⟨_, _, rfl⟩ := step_cases hstep
      exact (returned_after.mp hs').1
    · obtain ⟨_, _, rfl⟩ := step_cases hstep'
      exact (returned_after.mp ht').1
  · intro s t e s' hR _ hk hstep hs' ht
    refine Agrees.drop (hR ?_ ht) (by simpa using hk) hstep
    obtain ⟨_, _, rfl⟩ := step_cases hstep
    exact (returned_after.mp hs').1

/-- In an orderly sequence of opens each migration runs exactly when it should. -/
theorem scheduled_of_orderly (userTables : δ → Nat) (db : Database δ)
    (events : List (StoreOpen δ)) (s : OpenState δ)
    (hrun : run (step userTables) (init db) events = some s)
    (hguard : Guarded (step userTables) (Orderly userTables db) (init db) events) :
    Scheduled userTables db events s := by
  have hinv : Invariant db s := invariant_of_guarded_run
    (fun _ _ _ h hg hstep => Invariant.step h hg hstep) (Invariant.init db) hguard hrun
  refine ⟨hinv.above_baseline, hinv.ascending, hinv.not_recorded, ?_, hinv.nothing_new, ?_⟩
  · intro r hr herror v hv
    rcases hinv.complete r hr herror v hv with hrow | hbase
    · rcases (hinv.rows_iff r.ns v).mp hrow with hdb | hexec | hat
      · exact .inr (.inl hdb)
      · exact .inl hexec
      · exact .inr (.inr ⟨v, hat, le_rfl⟩)
    · exact .inr (.inr hbase)
  · intro ns solo hsolo hreturned hreturned'
    exact executedBy_eq_solo ns hrun hguard hsolo hreturned hreturned'

/-! ### A baselined store that comes back -/

/-- Two migrations over a schema that is a list of table names. -/
def sampleMigrations : List (Migration (List String)) :=
  [⟨1, fun tables => (tables ++ ["sessions"], none)⟩,
    ⟨2, fun tables => (tables ++ ["tokens"], none)⟩]

/-- An install that predates the runner. -/
def existingDb : Database (List String) := ⟨["users"], .absent⟩

/-- The first open stamps version 2 and the second one executes version 1. -/
theorem baselined_migration_executed :
    ∃ s, run (step List.length) (init existingDb)
        [⟨"auth", sampleMigrations⟩, ⟨"auth", sampleMigrations⟩] = some s ∧
      ¬Scheduled List.length existingDb
        [⟨"auth", sampleMigrations⟩, ⟨"auth", sampleMigrations⟩] s := by
  have hlog : (run (step List.length) (init existingDb)
      [⟨"auth", sampleMigrations⟩, ⟨"auth", sampleMigrations⟩]).map (fun s => s.log) =
      some [⟨"auth", [1, 2], some 2, [], none⟩, ⟨"auth", [1, 2], none, [1], none⟩] := by
    decide
  obtain ⟨s, hrun, hs⟩ := Option.map_eq_some_iff.mp hlog
  refine ⟨s, hrun, ?_⟩
  intro hscheduled
  have hbase : s.BaselinedAt "auth" 2 := by
    simp [BaselinedAt, hs]
  have habove := hscheduled.above_baseline "auth" 2 hbase 1 (by simp [mem_executedBy, hs])
  exact absurd habove (by decide)

instance (userTables : δ → Nat) (db : Database δ) (s : OpenState δ) (e : StoreOpen δ) :
    Decidable (Orderly userTables db s e) :=
  inferInstanceAs (Decidable (_ ∧ _))

/-- A fresh install: one migration, then a second one, then nothing new. -/
theorem scheduled_of_orderly_fresh :
    ∃ s, run (step List.length) (init ⟨[], .absent⟩)
        [⟨"auth", sampleMigrations.take 1⟩, ⟨"auth", sampleMigrations⟩,
          ⟨"auth", sampleMigrations⟩] = some s ∧
      Scheduled List.length ⟨[], .absent⟩
        [⟨"auth", sampleMigrations.take 1⟩, ⟨"auth", sampleMigrations⟩,
          ⟨"auth", sampleMigrations⟩] s := by
  obtain ⟨s, hrun⟩ := Option.isSome_iff_exists.mp
    (by decide : (run (step List.length) (init ⟨[], .absent⟩)
        [⟨"auth", sampleMigrations.take 1⟩, ⟨"auth", sampleMigrations⟩,
          ⟨"auth", sampleMigrations⟩]).isSome)
  exact ⟨s, hrun, scheduled_of_orderly _ _ _ _ hrun (by decide)⟩

end OpenState

end TinyAgentOS.Store
