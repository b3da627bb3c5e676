import TinyAgentOS.Library.Transition
import TinyAgentOS.Scheduling.MeshSync
import Mathlib.Data.List.Sort

/-!
# Pulls from a peer

A pull reads the clock, goes through the tables one by one, and at its end moves
the peer's mark to the time it read, whatever became of the records.  The next
pull is offered what is later than the mark.  The peer goes on writing meanwhile.

Main results:

- `MeshState.ahead_iff`: the steps that keep what is not imported ahead of the mark.
- `MeshState.nothingLost_iff`: the runs in which every record is offered again.
- `MeshState.failed_record_lost`: a record that fails to import.
-/

namespace TinyAgentOS.Scheduling
namespace MeshSync

open Transition

/-! ## Pulls -/

/-- What a pull returns. -/
structure PullResults where
  tablesSynced : Nat := 0
  totalRecords : Nat := 0
  errors : List String := []

/-- A pull in progress: the clock when it began, the mark it read, the tables still to do. -/
structure Pull where
  now : Int
  lastSync : Int
  remaining : List String
  results : PullResults

/-- What becomes of a table in a pull. -/
inductive Outcome (κ : Type) where
  /-- One of the two nodes has no database for the table. -/
  | absent
  /-- The export or the import raises, and nothing is committed. -/
  | raised (message : String)
  /-- The import goes through, by what the local table and `INSERT` make of each record;
  the entry in the log may still fail. -/
  | imported (schema : TableSchema κ) (logError : Option String)

/-- The peer's records, those imported here, the row of `sync_peers`, and the pull. -/
structure MeshState where
  peer : List (String × Record)
  imported : List (String × Record)
  lastSyncAt : Int
  syncCount : Nat
  lastError : Option (List String)
  pull : Option Pull

/-- The steps of the peer and of the pull. -/
inductive MeshEvent (κ : Type) where
  | created (table : String) (record : Record)
  | pullStarted (now : Int)
  | tablePulled (outcome : Outcome κ)
  | pullFinished

/-- `export_delta` and `_export_delta_sync`. -/
def exportDelta (rows : List (String × Record)) (table : String) (since : Int) : List Record :=
  if IsSyncable table then
    (((rows.filter fun x => x.1 = table).map Prod.snd).filter fun record =>
      (Value.number since).before (timestamp table record)).insertionSort
        fun r r' => ¬timestamp table r' < timestamp table r
  else []

section Pulls

variable {κ : Type}

/-- The records of a delta that an outcome imports. -/
def Outcome.accepted (outcome : Outcome κ) (table : String) (delta : List Record) : List Record :=
  match outcome with
  | .imported schema _ =>
    delta.filter fun record => schema.importRecords table [record] ≠ []
  | _ => []

/-- The results once a table is done. -/
def PullResults.add (results : PullResults) (outcome : Outcome κ) (table : String)
    (delta : List Record) : PullResults :=
  match outcome with
  | .absent => results
  | .raised message => { results with errors := results.errors ++ [table ++ ": " ++ message] }
  | .imported schema logError =>
    if delta = [] then results
    else
      { tablesSynced := results.tablesSynced + 1
        totalRecords := results.totalRecords + (schema.importRecords table delta).length
        errors := results.errors ++
          (logError.map fun message => table ++ ": " ++ message).toList }

namespace MeshState

/-- A peer just added. -/
def init : MeshState := ⟨[], [], 0, 0, none, none⟩

/-- One step of `_sync_pull_from_peer`, which holds the lock throughout, or of the peer. -/
def step (s : MeshState) : MeshEvent κ → Option MeshState
  | .created table record =>
    if IsSyncable table then some { s with peer := (table, record) :: s.peer } else none
  | .pullStarted now =>
    if s.pull.isSome then none
    else some { s with pull := some ⟨now, s.lastSyncAt, syncableTables.map Prod.fst, {}⟩ }
  | .tablePulled outcome =>
    s.pull.bind fun pull =>
      pull.remaining.head?.map fun table =>
        let delta := exportDelta s.peer table pull.lastSync
        { s with
          imported := (outcome.accepted table delta).map (table, ·) ++ s.imported
          pull := some
            { pull with
              remaining := pull.remaining.tail
              results := pull.results.add outcome table delta } }
  | .pullFinished =>
    s.pull.bind fun pull =>
      if pull.remaining = [] then
        some
          { s with
            lastSyncAt := pull.now
            syncCount := s.syncCount + 1
            lastError := if pull.results.errors = [] then none else some pull.results.errors
            pull := none }
      else none

/-! ## The mark -/

/-- Is a record later than a time? -/
def Later (time : Int) (x : String × Record) : Prop :=
  (Value.number time).before (timestamp x.1 x.2) = true

instance (time : Int) (x : String × Record) : Decidable (Later time x) :=
  inferInstanceAs (Decidable (_ = true))

/-- Every record of the peer that has not been imported will be offered again. -/
def NothingLost (s : MeshState) : Prop :=
  ∀ x ∈ s.peer, x ∉ s.imported → Later s.lastSyncAt x

/-- The pull in progress leaves no record behind: of the tables it has done, what has not been
imported is later than its start. -/
def NothingPassed (s : MeshState) : Prop :=
  ∀ pull ∈ s.pull, ∀ x ∈ s.peer, x ∉ s.imported → x.1 ∉ pull.remaining → Later pull.now x

/-- What the tables, the mark and the clock are to one another. -/
structure Sound (s : MeshState) : Prop where
  syncable : ∀ x ∈ s.peer, IsSyncable x.1
  lastSync : ∀ pull ∈ s.pull, pull.lastSync = s.lastSyncAt
  remaining : ∀ pull ∈ s.pull, pull.remaining.Nodup

/-- A record of the peer is created later than the mark, and than the start of a pull that has
done its table; and a table's import takes every record offered that is not. -/
def Orderly (s : MeshState) : MeshEvent κ → Prop
  | .created table record =>
    IsSyncable table → (table, record) ∉ s.imported →
      Later s.lastSyncAt (table, record) ∧
        ∀ pull ∈ s.pull, table ∉ pull.remaining → Later pull.now (table, record)
  | .tablePulled outcome =>
    ∀ pull ∈ s.pull, ∀ table ∈ pull.remaining.head?,
      ∀ record ∈ exportDelta s.peer table pull.lastSync, (table, record) ∉ s.imported →
        record ∉ outcome.accepted table (exportDelta s.peer table pull.lastSync) →
          Later pull.now (table, record)
  | _ => True

variable {table : String} {record : Record} {outcome : Outcome κ} {es : List (MeshEvent κ)}

theorem mem_exportDelta {rows : List (String × Record)} {since : Int} (hsync : IsSyncable table) :
    record ∈ exportDelta rows table since ↔
      (table, record) ∈ rows ∧ Later since (table, record) := by
  unfold exportDelta
  rw [if_pos hsync, List.mem_insertionSort, List.mem_filter, List.mem_map]
  constructor
  · rintro ⟨⟨x, hx, rfl⟩, hlater⟩
    obtain ⟨hmem, htable⟩ := List.mem_filter.mp hx
    obtain rfl : x.1 = table := by simpa using htable
    exact ⟨hmem, hlater⟩
  · rintro ⟨hmem, hlater⟩
    exact ⟨⟨(table, record), List.mem_filter.mpr ⟨hmem, by simp⟩, rfl⟩, hlater⟩

variable {s s' : MeshState} {e : MeshEvent κ}

/-- A table is done: it was the first of those left. -/
theorem tablePulled_cases (hstep : s.step (.tablePulled outcome) = some s') :
    ∃ pull table rest, s.pull = some pull ∧ pull.remaining = table :: rest ∧
      s' =
        { s with
          imported :=
            (outcome.accepted table (exportDelta s.peer table pull.lastSync)).map (table, ·) ++
              s.imported
          pull := some
            { pull with
              remaining := rest
              results := pull.results.add outcome table
                (exportDelta s.peer table pull.lastSync) } } := by
  obtain ⟨pull, hpull, hstep⟩ := Option.bind_eq_some_iff.mp hstep
  obtain ⟨table, htable, rfl⟩ := Option.map_eq_some_iff.mp hstep
  obtain ⟨rest, hrest⟩ := List.head?_eq_some_iff.mp htable
  refine ⟨pull, table, rest, hpull, hrest, ?_⟩
  rw [hrest, List.tail_cons]

/-- The pull ends: the mark is its start. -/
theorem pullFinished_cases (hstep : s.step (.pullFinished : MeshEvent κ) = some s') :
    ∃ pull, s.pull = some pull ∧ pull.remaining = [] ∧ s'.peer = s.peer ∧
      s'.imported = s.imported ∧ s'.lastSyncAt = pull.now ∧ s'.pull = none := by
  obtain ⟨pull, hpull, hstep⟩ := Option.bind_eq_some_iff.mp hstep
  split at hstep
  · rename_i hremaining
    cases hstep
    exact ⟨pull, hpull, hremaining, rfl, rfl, rfl, rfl⟩
  · contradiction

theorem nodup_syncableTables : (syncableTables.map Prod.fst).Nodup := by
  decide

theorem Sound.step (h : s.Sound) (hstep : s.step e = some s') : s'.Sound := by
  cases e with
  | created table record =>
    simp only [step] at hstep
    split at hstep
    · rename_i hsync
      cases hstep
      refine ⟨?_, h.lastSync, h.remaining⟩
      intro x hx
      rcases List.mem_cons.mp hx with rfl | hx
      · exact hsync
      · exact h.syncable x hx
    · contradiction
  | pullStarted now =>
    simp only [step] at hstep
    split at hstep
    · contradiction
    cases hstep
    refine ⟨h.syncable, ?_, ?_⟩
    · intro pull hpull
      cases hpull
      rfl
    · intro pull hpull
      cases hpull
      exact nodup_syncableTables
  | tablePulled outcome =>
    obtain ⟨pull, table, rest, hpull, hremaining, rfl⟩ := tablePulled_cases hstep
    refine ⟨h.syncable, ?_, ?_⟩
    · intro pull' hpull'
      cases hpull'
      exact h.lastSync pull hpull
    · intro pull' hpull'
      cases hpull'
      have hnodup := h.remaining pull hpull
      rw [hremaining] at hnodup
      exact (List.nodup_cons.mp hnodup).2
  | pullFinished =>
    obtain ⟨pull, _, _, hpeer, _, _, hnone⟩ := pullFinished_cases hstep
    refine ⟨?_, ?_, ?_⟩
    · rw [hpeer]
      exact h.syncable
    · rw [hnone]
      simp
    · rw [hnone]
      simp

/-- Nothing that is not imported is behind the mark, or behind the pull in progress. -/
def Ahead (s : MeshState) : Prop := NothingLost s ∧ NothingPassed s

/-- A record is created in order exactly when it comes out ahead. -/
theorem ahead_created_iff (h : s.Ahead)
    (hstep : s.step (.created table record : MeshEvent κ) = some s') :
    s'.Ahead ↔ s.Orderly (.created table record : MeshEvent κ) := by
  simp only [step] at hstep
  split at hstep
  · cases hstep
    constructor
    · rintro ⟨hlost, hpassed⟩ _ hnew
      refine ⟨hlost (table, record) List.mem_cons_self hnew, ?_⟩
      exact fun pull hpull => hpassed pull hpull (table, record) List.mem_cons_self hnew
    · intro horderly
      rename_i hsync
      refine ⟨?_, ?_⟩
      · intro x hx hnew
        rcases List.mem_cons.mp hx with rfl | hx
        · exact (horderly hsync hnew).1
        · exact h.1 x hx hnew
      · intro pull hpull x hx hnew hdone
        rcases List.mem_cons.mp hx with rfl | hx
        · exact (horderly hsync hnew).2 pull hpull hdone
        · exact h.2 pull hpull x hx hnew hdone
  · contradiction

/-- A table is done in order exactly when what it leaves behind is ahead. -/
theorem ahead_tablePulled_iff (hsound : s.Sound)
    (h : s.Ahead) (hstep : s.step (.tablePulled outcome) = some s') :
    s'.Ahead ↔ s.Orderly (.tablePulled outcome) := by
  obtain ⟨pull, table, rest, hpull, hremaining, rfl⟩ := tablePulled_cases hstep
  have hnodup : table ∉ rest := by
    have hall := hsound.remaining pull hpull
    rw [hremaining] at hall
    exact (List.nodup_cons.mp hall).1
  constructor
  · rintro ⟨_, hpassed⟩ pull' hpull' table' htable' record hrecord hnew hrefused
    obtain rfl : pull = pull' := Option.some.inj (hpull.symm.trans hpull')
    obtain rfl : table = table' := by simpa [hremaining] using htable'
    by_cases hsync : IsSyncable table
    · obtain ⟨hmem, _⟩ := (mem_exportDelta hsync).mp hrecord
      refine hpassed _ rfl (table, record) hmem ?_ hnodup
      intro himported
      rcases List.mem_append.mp himported with hin | hin
      · obtain ⟨r, hr, heq⟩ := List.mem_map.mp hin
        cases heq
        exact hrefused hr
      · exact hnew hin
    · simp [exportDelta, hsync] at hrecord
  · intro horderly
    refine ⟨?_, ?_⟩
    · intro x hx hnew
      exact h.1 x hx fun hin => hnew (List.mem_append_right _ hin)
    · intro pull' hpull' x hx hnew hdone
      cases hpull'
      have hold : x ∉ s.imported := fun hin => hnew (List.mem_append_right _ hin)
      by_cases htable : x.1 = table
      · subst htable
        have hlater : Later pull.lastSync x := by
          rw [hsound.lastSync pull hpull]
          exact h.1 x hx hold
        have hexport := (mem_exportDelta (hsound.syncable x hx)).mpr ⟨hx, hlater⟩
        refine horderly pull hpull x.1 (by simp [hremaining]) x.2 hexport hold ?_
        intro haccepted
        exact hnew (List.mem_append_left _ (List.mem_map.mpr ⟨x.2, haccepted, rfl⟩))
      · refine h.2 pull hpull x hx hold ?_
        rw [hremaining, List.mem_cons]
        exact fun hin => hin.elim htable hdone

/-- A step stays ahead exactly when it is in order. -/
theorem ahead_iff (hsound : s.Sound) (h : s.Ahead)
    (hstep : s.step e = some s') : s'.Ahead ↔ s.Orderly e := by
  cases e with
  | created table record => exact ahead_created_iff h hstep
  | tablePulled outcome => exact ahead_tablePulled_iff hsound h hstep
  | pullStarted now =>
    simp only [step] at hstep
    split at hstep
    · contradiction
    cases hstep
    refine iff_of_true ⟨h.1, ?_⟩ trivial
    intro pull hpull x hx _ hdone
    cases hpull
    exact absurd (hsound.syncable x hx) hdone
  | pullFinished =>
    obtain ⟨pull, hpull, hremaining, hpeer, himported, hmark, hnone⟩ := pullFinished_cases hstep
    refine iff_of_true ⟨?_, ?_⟩ trivial
    · intro x hx hnew
      rw [hmark]
      rw [hpeer] at hx
      rw [himported] at hnew
      exact h.2 pull hpull x hx hnew (by simp [hremaining])
    · intro pull' hpull'
      rw [hnone] at hpull'
      contradiction

theorem orderly_of_none (hstep : s.step e = none) : s.Orderly e := by
  cases e with
  | created table record =>
    intro hsync
    simp [step, hsync] at hstep
  | tablePulled outcome =>
    intro pull hpull table htable
    rw [Option.mem_def] at hpull htable
    simp [step, hpull, htable] at hstep
  | _ => trivial

/-- A run stays ahead exactly when its steps are in order. -/
theorem everyStep_ahead_iff (es : List (MeshEvent κ)) :
    EveryStep step (fun _ _ s' => Ahead s') init es ↔ Guarded step Orderly init es := by
  apply everyStep_iff_guarded (I := fun s => s.Sound ∧ s.Ahead)
  · exact fun _ _ hstep => orderly_of_none hstep
  · rintro s e s' ⟨hsound, hahead⟩ horderly hstep
    exact ⟨hsound.step hstep, (ahead_iff hsound hahead hstep).mpr horderly⟩
  · rintro s e s' ⟨hsound, hahead⟩ hstep
    exact ahead_iff hsound hahead hstep
  · refine ⟨⟨?_, ?_, ?_⟩, ?_, ?_⟩ <;> intro x hx <;> contradiction

/-! ## Runs -/

/-- What a pull has passed stays passed, until the mark moves over it. -/
theorem not_nothingPassed_step (h : ¬s.NothingPassed)
    (hstep : s.step e = some s') (hlost : s'.NothingLost) : ¬s'.NothingPassed := by
  unfold NothingPassed at h
  push Not at h
  obtain ⟨pull, hpull, x, hx, hnew, hdone, hearly⟩ := h
  rw [Option.mem_def] at hpull
  intro hpassed
  cases e with
  | created table record =>
    simp only [step] at hstep
    split at hstep
    · cases hstep
      exact hearly (hpassed pull hpull x (List.mem_cons_of_mem _ hx) hnew hdone)
    · contradiction
  | pullStarted now => simp [MeshState.step, hpull] at hstep
  | tablePulled outcome =>
    obtain ⟨pull', table, rest, hpull', hremaining, rfl⟩ := tablePulled_cases hstep
    obtain rfl : pull = pull' := Option.some.inj (hpull.symm.trans hpull')
    rw [hremaining, List.mem_cons, not_or] at hdone
    refine hearly (hpassed _ rfl x hx ?_ hdone.2)
    intro himported
    rcases List.mem_append.mp himported with hin | hin
    · obtain ⟨r, _, rfl⟩ := List.mem_map.mp hin
      exact hdone.1 rfl
    · exact hnew hin
  | pullFinished =>
    obtain ⟨pull', hpull', _, hpeer, himported, hmark, _⟩ := pullFinished_cases hstep
    obtain rfl : pull = pull' := Option.some.inj (hpull.symm.trans hpull')
    apply hearly
    rw [← hmark]
    exact hlost x (by rwa [hpeer]) (by rwa [himported])

theorem not_nothingPassed_run (h : ¬s.NothingPassed) (hrun : run step s es = some s')
    (hlost : EveryStep step (fun _ _ t => NothingLost t) s es) : ¬s'.NothingPassed := by
  induction es generalizing s with
  | nil =>
    cases hrun
    exact h
  | cons e es ih =>
    obtain ⟨t, hstep, hrest⟩ := run_cons_eq_some.mp hrun
    obtain ⟨hfirst, hlater⟩ := (everyStep_cons_of_step hstep).mp hlost
    exact ih (not_nothingPassed_step h hstep hfirst) hrest hlater

/-- When the pulls of a run have ended, what the mark shows is all there is to see. -/
theorem everyStep_ahead_of_nothingLost (hrun : run step s es = some s') (hidle : s'.pull = none)
    (hlost : EveryStep step (fun _ _ t => NothingLost t) s es) :
    EveryStep step (fun _ _ t => Ahead t) s es := by
  have hpassed : s'.NothingPassed := by
    intro pull hpull
    rw [hidle] at hpull
    contradiction
  induction es generalizing s with
  | nil => exact everyStep_nil _ s
  | cons e es ih =>
    obtain ⟨t, hstep, hrest⟩ := run_cons_eq_some.mp hrun
    obtain ⟨hfirst, hlater⟩ := (everyStep_cons_of_step hstep).mp hlost
    refine (everyStep_cons_of_step hstep).mpr ⟨⟨hfirst, ?_⟩, ih hrest hlater⟩
    by_contra hnot
    exact not_nothingPassed_run hnot hrest hlater hpassed

/-- In a run in order no record is lost, and in a run whose pulls have all ended none is lost
only if the run is in order. -/
theorem nothingLost_iff (es : List (MeshEvent κ)) :
    (Guarded step Orderly init es → EveryStep step (fun _ _ s => NothingLost s) init es) ∧
      ((∃ s, run step init es = some s ∧ s.pull = none) →
        EveryStep step (fun _ _ s => NothingLost s) init es → Guarded step Orderly init es) := by
  constructor
  · intro horderly pre e post t t' hes hpre hstep
    exact ((everyStep_ahead_iff es).mpr horderly pre e post t t' hes hpre hstep).1
  · rintro ⟨s, hrun, hidle⟩ hlost
    exact (everyStep_ahead_iff es).mp (everyStep_ahead_of_nothingLost hrun hidle hlost)

end MeshState

end Pulls

namespace MeshState

/-- A table whose rows must have an object. -/
def strictSchema : TableSchema (Option Value) :=
  { tripleSchema with
    stored := fun record => if record.lookup "object" = some .null then none else some record }

/-- A triple without an object is created, and pulled. -/
def failedPull : List (MeshEvent (Option Value)) :=
  [.created "kg_triples"
      [("subject", .text "jay"), ("object", .null), ("created_at", .number 5)],
    .pullStarted 10, .tablePulled (.imported strictSchema none), .tablePulled .absent,
    .tablePulled .absent, .tablePulled .absent, .tablePulled .absent, .tablePulled .absent]

/-- The mark moves past the record, although it has not been imported. -/
theorem failed_record_lost :
    ¬EveryStep step (fun _ _ s => NothingLost s) init (failedPull ++ [.pullFinished]) := by
  intro hevery
  have hlost := hevery failedPull .pullFinished [] _ _ rfl rfl rfl
  have hlater := hlost _ List.mem_cons_self (by decide)
  exact absurd hlater (by decide)

end MeshState

end MeshSync
end TinyAgentOS.Scheduling
