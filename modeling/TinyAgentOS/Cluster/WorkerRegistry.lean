import TinyAgentOS.Cluster.Leases
import TinyAgentOS.Library.Json
import TinyAgentOS.Library.Transition

/-!
# Persisted workers

A controller writes its workers to a store and reads them after a restart.  Lists and
objects go through JSON columns, flags through integers; an empty list of quantisations is
written as the one every worker has.  The controller's own worker is not read, and the
generation is counted by starts.

Main results:

- `loadWorker_persistRow`: what is read of a worker that was written.
- `Controller.get?_loadWorkers`: the workers that a start reads.
- `Controller.Books.step`: the rows of the store are those of the written records.
- `Controller.reload_of_run`: what a restart finds, and how generations go.
- `Controller.not_reload`: an empty list, the local worker, and two registrations.
-/

namespace TinyAgentOS.Cluster
namespace Registry

open Collections Transition

/-! ## Columns -/

/-- A float. -/
inductive PyFloat where
  | finite (x : Rat)
  | infinite
  | negInfinite
  | nan
deriving DecidableEq

/-- A column that is not null takes every float but one. -/
def PyFloat.fits (x : PyFloat) : Bool :=
  x ≠ .nan

/-- SQLite's integers are of 64 bits. -/
def fitsInt (n : Int) : Bool :=
  -2 ^ 63 ≤ n && n < 2 ^ 63

/-- A dict of JSON values. -/
structure JsonObject where
  fields : List (String × Json.Value)
  distinct : (Json.Value.obj fields).distinct = true

namespace JsonObject

theorem distinct_nil : (Json.Value.obj []).distinct = true :=
  rfl

def empty : JsonObject :=
  ⟨[], distinct_nil⟩

def value (o : JsonObject) : Json.Value :=
  .obj o.fields

def ofValue : Json.Value → Option JsonObject
  | .obj fields => if h : (Json.Value.obj fields).distinct = true then some ⟨fields, h⟩ else none
  | _ => none

theorem ofValue_value (o : JsonObject) : ofValue o.value = some o := by
  rw [value, ofValue, dif_pos o.distinct]

end JsonObject

def nameOfValue : Json.Value → Option String
  | .str s => some s
  | _ => none

def objectText (o : JsonObject) : List Char :=
  Json.dumps o.value

def readObject (text : List Char) : Option JsonObject :=
  (Json.loads text).bind JsonObject.ofValue

/-- The text of a list. -/
def listText {α : Type} (value : α → Json.Value) (items : List α) : List Char :=
  Json.dumps (.arr (items.map value))

def readList {α : Type} (ofValue : Json.Value → Option α) (text : List Char) :
    Option (List α) :=
  (Json.loads text).bind fun
    | .arr items => items.mapM ofValue
    | _ => none

theorem readObject_objectText (o : JsonObject) : readObject (objectText o) = some o := by
  rw [readObject, objectText, Json.loads_dumps o.value o.distinct, Option.bind_some,
    JsonObject.ofValue_value]

/-- A list is read back from its text. -/
theorem readList_listText {α : Type} {value : α → Json.Value} {ofValue : Json.Value → Option α}
    (hdistinct : ∀ x, (value x).distinct = true) (hread : ∀ x, ofValue (value x) = some x)
    (items : List α) : readList ofValue (listText value items) = some items := by
  have hitems : (Json.Value.arr (items.map value)).distinct = true := by
    rw [Json.Value.distinct, Json.distinctItems_iff]
    intro v hv
    obtain ⟨x, _, rfl⟩ := List.mem_map.mp hv
    exact hdistinct x
  rw [readList, listText, Json.loads_dumps _ hitems, Option.bind_some]
  induction items with
  | nil => rfl
  | cons x items ih =>
    have htail : (Json.Value.arr (items.map value)).distinct = true := by
      rw [Json.Value.distinct, List.map_cons, Json.distinctItems, Bool.and_eq_true] at hitems
      exact hitems.2
    have hrest := ih htail
    simp only at hrest ⊢
    simp [hread, hrest]

/-- Names are read back from their text. -/
theorem readNames_listText (names : List String) :
    readList nameOfValue (listText .str names) = some names := by
  apply readList_listText
  · intro s
    rfl
  · intro s
    rfl

/-- Objects are read back from their text. -/
theorem readObjects_listText (os : List JsonObject) :
    readList JsonObject.ofValue (listText JsonObject.value os) = some os :=
  readList_listText JsonObject.distinct JsonObject.ofValue_value os

/-- `int` of a bool. -/
def flag (b : Bool) : Int :=
  if b then 1 else 0

/-- `bool` of an int. -/
def ofFlag (n : Int) : Bool :=
  n ≠ 0

theorem ofFlag_flag (b : Bool) : ofFlag (flag b) = b := by
  cases b with
  | true => rfl
  | false => rfl

/-! ## Workers and rows -/

structure WorkerInfo where
  name : String
  url : String
  hardware : JsonObject := JsonObject.empty
  backends : List JsonObject := []
  models : List String := []
  availableModels : List JsonObject := []
  capabilities : List String := []
  status : WorkerStatus := .online
  lastHeartbeat : PyFloat := .finite 0
  registeredAt : PyFloat := .finite 0
  load : PyFloat := .finite 0
  platform : String := ""
  tierId : String := ""
  potentialCapabilities : List String := []
  kvCacheQuantSupport : List String := ["fp16"]
  kvCacheQuantKSupport : List String := ["fp16"]
  kvCacheQuantVSupport : List String := ["fp16"]
  kvCacheQuantBoundaryLayerProtect : Bool := false
  workerUrl : Option String := none
  signingKey : List UInt8 := []
  tlsCertProvider : Option String := none
  hostLanIp : Option String := none
  storageCapBytes : Int := 0
  storageUsedBytes : Int := 0
  bytesDedupedTotal : Int := 0
  workerLxcImageVersion : Option String := none
  degraded : Bool := false
  degradedReason : Option String := none
  freeVramMb : Option Int := none
  usedVramMb : Option Int := none

/-- A row of `cluster_workers`. -/
structure WorkerRow where
  name : String
  url : String
  hardware : List Char
  backends : List Char
  models : List Char
  availableModels : List Char
  capabilities : List Char
  status : WorkerStatus
  lastHeartbeat : PyFloat
  registeredAt : PyFloat
  load : PyFloat
  platform : String
  tierId : String
  potentialCapabilities : List Char
  kvCacheQuantSupport : List Char
  kvCacheQuantKSupport : List Char
  kvCacheQuantVSupport : List Char
  kvCacheQuantBoundaryLayerProtect : Int
  workerUrl : Option String
  signingKey : List UInt8
  tlsCertProvider : Option String
  hostLanIp : Option String
  storageCapBytes : Int
  storageUsedBytes : Int
  bytesDedupedTotal : Int
  workerLxcImageVersion : Option String
  degraded : Int
  degradedReason : Option String
  freeVramMb : Option Int
  usedVramMb : Option Int

/-- `names or ["fp16"]`. -/
def orFp16 (names : List String) : List String :=
  if names = [] then ["fp16"] else names

/-- The row that `_persist_worker` writes. -/
def persistRow (w : WorkerInfo) : WorkerRow where
  name := w.name
  url := w.url
  hardware := objectText w.hardware
  backends := listText JsonObject.value w.backends
  models := listText .str w.models
  availableModels := listText JsonObject.value w.availableModels
  capabilities := listText .str w.capabilities
  status := w.status
  lastHeartbeat := w.lastHeartbeat
  registeredAt := w.registeredAt
  load := w.load
  platform := w.platform
  tierId := w.tierId
  potentialCapabilities := listText .str w.potentialCapabilities
  kvCacheQuantSupport := listText .str (orFp16 w.kvCacheQuantSupport)
  kvCacheQuantKSupport := listText .str (orFp16 w.kvCacheQuantKSupport)
  kvCacheQuantVSupport := listText .str (orFp16 w.kvCacheQuantVSupport)
  kvCacheQuantBoundaryLayerProtect := flag w.kvCacheQuantBoundaryLayerProtect
  workerUrl := w.workerUrl
  signingKey := w.signingKey
  tlsCertProvider := w.tlsCertProvider
  hostLanIp := w.hostLanIp
  storageCapBytes := w.storageCapBytes
  storageUsedBytes := w.storageUsedBytes
  bytesDedupedTotal := w.bytesDedupedTotal
  workerLxcImageVersion := w.workerLxcImageVersion
  degraded := flag w.degraded
  degradedReason := w.degradedReason
  freeVramMb := w.freeVramMb
  usedVramMb := w.usedVramMb

/-- The values can be bound to their columns. -/
def WorkerRow.fits (row : WorkerRow) : Bool :=
  [row.lastHeartbeat, row.registeredAt, row.load].all PyFloat.fits &&
    [row.storageCapBytes, row.storageUsedBytes, row.bytesDedupedTotal].all fitsInt &&
    row.freeVramMb.all fitsInt && row.usedVramMb.all fitsInt

/-- The worker that `_load_persisted_workers` makes of a row. -/
def loadWorker (row : WorkerRow) : Option WorkerInfo := do
  let hardware ← readObject row.hardware
  let backends ← readList JsonObject.ofValue row.backends
  let models ← readList nameOfValue row.models
  let availableModels ← readList JsonObject.ofValue row.availableModels
  let capabilities ← readList nameOfValue row.capabilities
  let potentialCapabilities ← readList nameOfValue row.potentialCapabilities
  let kvCacheQuantSupport ← readList nameOfValue row.kvCacheQuantSupport
  let kvCacheQuantKSupport ← readList nameOfValue row.kvCacheQuantKSupport
  let kvCacheQuantVSupport ← readList nameOfValue row.kvCacheQuantVSupport
  return {
    name := row.name
    url := row.url
    hardware := hardware
    backends := backends
    models := models
    availableModels := availableModels
    capabilities := capabilities
    status := .stale
    lastHeartbeat := row.lastHeartbeat
    registeredAt := row.registeredAt
    load := row.load
    platform := row.platform
    tierId := row.tierId
    potentialCapabilities := potentialCapabilities
    kvCacheQuantSupport := kvCacheQuantSupport
    kvCacheQuantKSupport := kvCacheQuantKSupport
    kvCacheQuantVSupport := kvCacheQuantVSupport
    kvCacheQuantBoundaryLayerProtect := ofFlag row.kvCacheQuantBoundaryLayerProtect
    workerUrl := row.workerUrl
    signingKey := row.signingKey
    tlsCertProvider := row.tlsCertProvider
    hostLanIp := row.hostLanIp
    storageCapBytes := row.storageCapBytes
    storageUsedBytes := row.storageUsedBytes
    bytesDedupedTotal := row.bytesDedupedTotal
    workerLxcImageVersion := row.workerLxcImageVersion
    degraded := ofFlag row.degraded
    degradedReason := row.degradedReason
    freeVramMb := row.freeVramMb
    usedVramMb := row.usedVramMb }

/-- A worker as it comes back: stale, and with a quantisation in every list of them. -/
def WorkerInfo.reloaded (w : WorkerInfo) : WorkerInfo :=
  { w with
    status := .stale
    kvCacheQuantSupport := orFp16 w.kvCacheQuantSupport
    kvCacheQuantKSupport := orFp16 w.kvCacheQuantKSupport
    kvCacheQuantVSupport := orFp16 w.kvCacheQuantVSupport }

/-- What is read of a worker that was written. -/
theorem loadWorker_persistRow (w : WorkerInfo) : loadWorker (persistRow w) = some w.reloaded := by
  simp only [loadWorker, persistRow, readObject_objectText, readObjects_listText,
    readNames_listText, Option.bind_eq_bind, Option.bind_some, ofFlag_flag, Option.pure_def]
  rfl

/-- What a registration sets of the record it is given. -/
def WorkerInfo.enlisted (info : WorkerInfo) (now : Rat) : WorkerInfo :=
  { info with registeredAt := .finite now, lastHeartbeat := .finite now, status := .online }

/-! ## Controllers -/

structure RegistryStore where
  rows : Dict String WorkerRow
  generation : Int

/-- A controller and its store; the records that the rows were written from are kept beside
them. -/
structure Controller where
  store : RegistryStore
  workers : Dict String WorkerInfo
  generation : Int
  fenced : Bool
  written : Dict String WorkerInfo

inductive RegistryEvent where
  | started
  | registered (info : WorkerInfo) (generation : Option Int) (now : Rat)
  /-- A heartbeat, a drain or a pass of the monitor has changed the record. -/
  | changed (info : WorkerInfo)
  | persisted (name : String)
  | unregistered (name : String)
  /-- Another controller starts on the store. -/
  | superseded
  /-- The monitor has read the durable generation. -/
  | generationRead

namespace Controller

/-- A controller whose store is new. -/
def init : Controller where
  store := ⟨Dict.empty, 1⟩
  workers := Dict.empty
  generation := 1
  fenced := false
  written := Dict.empty

/-- A row is loaded, unless it is the controller's own worker or cannot be read. -/
def loadRow (workers : Dict String WorkerInfo) (e : String × WorkerRow) :
    Dict String WorkerInfo :=
  if e.1 = "local" then workers
  else
    match loadWorker e.2 with
    | none => workers
    | some worker => workers.set e.1 worker

/-- `_load_persisted_workers`. -/
def loadPersistedWorkers (rows : Dict String WorkerRow) : Dict String WorkerInfo :=
  rows.entries.foldl loadRow Dict.empty

/-- A new process and its `start`, which increments the generation. -/
def start (s : Controller) : Controller where
  store := { s.store with generation := s.store.generation + 1 }
  workers := loadPersistedWorkers s.store.rows
  generation := s.store.generation + 1
  fenced := false
  written := s.written

/-- `_persist_worker`, whose errors are logged. -/
def persistWorker (s : Controller) (w : WorkerInfo) : Controller :=
  if (persistRow w).fits then
    { s with
      store := { s.store with rows := s.store.rows.set w.name (persistRow w) }
      written := s.written.set w.name w }
  else s

/-- `register_worker`. -/
def registerWorker (s : Controller) (info : WorkerInfo) (generation : Option Int) (now : Rat) :
    Controller :=
  if s.fenced || generation.any (fun g => g ≠ s.generation) then s
  else
    { s with workers := s.workers.set info.name (info.enlisted now) }.persistWorker
      (info.enlisted now)

def step (s : Controller) : RegistryEvent → Option Controller
  | .started => some s.start
  | .registered info generation now => some (s.registerWorker info generation now)
  | .changed info =>
    if (s.workers.get? info.name).isSome then
      some { s with workers := s.workers.set info.name info }
    else none
  | .persisted name =>
    match s.workers.get? name with
    | none => some s
    | some w => some (s.persistWorker w)
  | .unregistered name =>
    match s.workers.get? name with
    | none => some s
    | some _ =>
      some { s with
        workers := s.workers.pop name
        store := { s.store with rows := s.store.rows.pop name }
        written := s.written.pop name }
  | .superseded => some { s with store := { s.store with generation := s.store.generation + 1 } }
  | .generationRead =>
    some { s with fenced := s.fenced || decide (s.generation < s.store.generation) }

/-! ## Loading -/

/-- Loading adds the rows that are not the controller's own. -/
theorem get?_foldl_loadRow (es : List (String × WorkerRow)) (hes : (es.map Prod.fst).Nodup)
    (workers : Dict String WorkerInfo) (name : String) : (es.foldl loadRow workers).get? name =
      (if name = "local" then none else (Dict.lookupIn name es).bind loadWorker).or
        (workers.get? name) := by
  induction es generalizing workers with
  | nil => simp [Dict.lookupIn]
  | cons e es ih =>
    rw [List.map_cons, List.nodup_cons] at hes
    rw [List.foldl_cons, ih hes.2]
    by_cases hname : e.1 = name
    · have hrest : Dict.lookupIn name es = none := Dict.lookupIn_eq_none (hname ▸ hes.1)
      have hfirst : Dict.lookupIn name (e :: es) = some e.2 := by
        rw [Dict.lookupIn, if_pos hname]
      rw [hrest, hfirst, loadRow]
      by_cases hlocal : name = "local"
      · simp [hlocal, hname]
      · have hlocal' : e.1 ≠ "local" := hname ▸ hlocal
        rw [if_neg hlocal, if_neg hlocal, if_neg hlocal']
        cases hload : loadWorker e.2 with
        | none => simp [hload]
        | some w => simp [hload, hname]
    · have hfirst : Dict.lookupIn name (e :: es) = Dict.lookupIn name es := by
        rw [Dict.lookupIn, if_neg hname]
      have hsame : (loadRow workers e).get? name = workers.get? name := by
        unfold loadRow
        split
        · rfl
        · split
          · rfl
          · exact Dict.get?_set_of_ne _ _ hname
      rw [hfirst, hsame]

/-- The workers that a start reads. -/
theorem get?_loadWorkers (rows : Dict String WorkerRow) (name : String) :
    (loadPersistedWorkers rows).get? name =
      if name = "local" then none else (rows.get? name).bind loadWorker := by
  have hfold := get?_foldl_loadRow rows.entries rows.nodup Dict.empty name
  rw [Dict.get?_empty, Option.or_none] at hfold
  exact hfold

/-! ## Runs -/

/-- The rows of the store are those of the written records, and its generation is not behind the
controller's. -/
structure Books (s : Controller) : Prop where
  rows : ∀ name, s.store.rows.get? name = (s.written.get? name).map persistRow
  generation : s.generation ≤ s.store.generation

variable {s s' : Controller}

theorem Books.init : Controller.init.Books :=
  ⟨fun _ => rfl, le_refl _⟩

theorem Books.persistWorker (h : s.Books) (w : WorkerInfo) : (s.persistWorker w).Books := by
  unfold Controller.persistWorker
  split
  · refine ⟨fun name => ?_, h.generation⟩
    by_cases hname : w.name = name
    · subst hname
      simp
    · show (s.store.rows.set w.name (persistRow w)).get? name =
        ((s.written.set w.name w).get? name).map persistRow
      rw [Dict.get?_set_of_ne _ _ hname, Dict.get?_set_of_ne _ _ hname, h.rows]
  · exact h

/-- Every event keeps the books. -/
theorem Books.step {e : RegistryEvent} (h : s.Books) (hstep : s.step e = some s') : s'.Books := by
  cases e with
  | started =>
    cases hstep
    exact ⟨h.rows, le_refl _⟩
  | registered info generation now =>
    cases hstep
    unfold registerWorker
    split
    · exact h
    · have hlisted : Books { s with
          workers := s.workers.set info.name (info.enlisted now) } := ⟨h.rows, h.generation⟩
      exact hlisted.persistWorker _
  | changed info =>
    simp only [Controller.step] at hstep
    split at hstep
    · cases hstep
      exact ⟨h.rows, h.generation⟩
    · contradiction
  | persisted name =>
    simp only [Controller.step] at hstep
    split at hstep
    · cases hstep
      exact h
    · cases hstep
      exact h.persistWorker _
  | unregistered name =>
    simp only [Controller.step] at hstep
    split at hstep
    · cases hstep
      exact h
    · cases hstep
      refine ⟨fun name' => ?_, h.generation⟩
      simp only [Dict.get?_pop]
      split
      · rfl
      · exact h.rows name'
  | superseded =>
    cases hstep
    exact ⟨h.rows, h.generation.trans (by simp)⟩
  | generationRead =>
    cases hstep
    exact ⟨h.rows, h.generation⟩

/-- Recording a worker keeps the generation. -/
theorem generation_persistWorker (s : Controller) (w : WorkerInfo) :
    (s.persistWorker w).generation = s.generation := by
  unfold persistWorker
  split
  · rfl
  · rfl

/-- Only a start raises the generation. -/
theorem generation_step {e : RegistryEvent} (hstep : s.step e = some s') (he : e ≠ .started) :
    s'.generation = s.generation := by
  cases e with
  | started => contradiction
  | registered info generation now =>
    cases hstep
    unfold registerWorker
    split
    · rfl
    · exact generation_persistWorker _ _
  | changed info =>
    simp only [step] at hstep
    split at hstep
    · cases hstep
      rfl
    · contradiction
  | persisted name =>
    simp only [step] at hstep
    split at hstep
    · cases hstep
      rfl
    · cases hstep
      exact generation_persistWorker _ _
  | unregistered name =>
    simp only [step] at hstep
    split at hstep
    · cases hstep
      rfl
    · cases hstep
      rfl
  | superseded | generationRead =>
    cases hstep
    rfl

/-- A restart finds the worker of every row, but the local one, as it was written; generations
increase with starts and with nothing else. -/
theorem reload_of_run (es : List RegistryEvent) (hrun : run step init es = some s) :
    (∀ name, s.start.workers.get? name =
      if name = "local" then none else (s.written.get? name).map WorkerInfo.reloaded) ∧
    s.generation < s.start.generation ∧
    ∀ e s', s.step e = some s' → e ≠ .started → s'.generation = s.generation := by
  have hbooks : s.Books :=
    invariant_of_run (fun _ _ _ h hstep => Books.step h hstep) Books.init hrun
  refine ⟨fun name => ?_, Int.lt_add_one_iff.mpr hbooks.generation, fun e s' => generation_step⟩
  show (loadPersistedWorkers s.store.rows).get? name = _
  rw [get?_loadWorkers, hbooks.rows]
  by_cases hlocal : name = "local"
  · rw [if_pos hlocal, if_pos hlocal]
  · rw [if_neg hlocal, if_neg hlocal]
    cases s.written.get? name with
    | none => rfl
    | some w => exact loadWorker_persistRow w

/-- A worker that reports no quantisation. -/
def plain : WorkerInfo where
  name := "npu"
  url := "http://10.0.0.7:8080"
  kvCacheQuantSupport := []

/-- The controller's own worker. -/
def ownWorker : WorkerInfo where
  name := "local"
  url := "http://127.0.0.1:8080"

def enrolment : List RegistryEvent :=
  [.started, .registered plain none 100, .registered ownWorker none 101]

/-- A worker that enrolled is there after a restart. -/
theorem reload_of_run_enrolment :
    ∃ s, run step init enrolment = some s ∧
      (s.start.workers.get? "npu").map WorkerInfo.url = some "http://10.0.0.7:8080" ∧
      s.generation < s.start.generation := by
  have hsome : (run step init enrolment).map (fun s =>
      (s.written.get? "npu").map WorkerInfo.url) = some (some "http://10.0.0.7:8080") := by
    decide
  obtain ⟨s, hrun, hurl⟩ := Option.map_eq_some_iff.mp hsome
  obtain ⟨hworkers, hgeneration, _⟩ := reload_of_run enrolment hrun
  refine ⟨s, hrun, ?_, hgeneration⟩
  have hname : "npu" ≠ "local" := by decide
  rw [hworkers "npu", if_neg hname, Option.map_map]
  exact hurl

/-- The empty list comes back as that of fp16, the controller's own worker does not come back, and
the two registrations have one generation. -/
theorem not_reload :
    (run step init enrolment).map (fun s =>
        (s.workers.get? "npu").map WorkerInfo.kvCacheQuantSupport) = some (some []) ∧
    (run step init (enrolment ++ [.started])).map (fun s =>
        (s.workers.get? "npu").map WorkerInfo.kvCacheQuantSupport) = some (some ["fp16"]) ∧
    (run step init enrolment).map (fun s => (s.workers.get? "local").isSome) = some true ∧
    (run step init (enrolment ++ [.started])).map (fun s => (s.workers.get? "local").isSome) =
      some false ∧
    (run step init (enrolment.take 2)).map generation = some 2 ∧
    (run step init enrolment).map generation = some 2 := by
  refine ⟨?_, ?_, ?_, ?_, ?_, ?_⟩
  · decide
  · decide
  · decide
  · decide
  · decide
  · decide

end Controller

end Registry
end TinyAgentOS.Cluster
