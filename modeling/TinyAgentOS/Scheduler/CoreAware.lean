import TinyAgentOS.Library.Dict
import TinyAgentOS.Library.Transition
import TinyAgentOS.Scheduler.TpMode

/-!
# The core-aware model scheduler

A model is loaded on the cores it asks for or on those the default policy picks.
When they are held, a resident of no higher priority gives up one of its cores,
or is evicted.

Main results:

- `loaded`: the ways a load can go.
-/

namespace TinyAgentOS.Scheduler

open Collections Transition

/-! ## Residents and shapes -/

/-- `BackendResourceShape`, as far as loads depend on it: distinct core indices, if any. -/
structure BackendResourceShape where
  cores : Option (List Core)
  distinct : ∀ cs ∈ cores, cs.Nodup

namespace BackendResourceShape

def availableCores (shape : BackendResourceShape) : List Core := shape.cores.getD []

def hasCores (shape : BackendResourceShape) : Bool := shape.availableCores ≠ []

end BackendResourceShape

/-- `get_default_shape`: only the NPU backend has cores. -/
def getDefaultShape (backendType : String) : BackendResourceShape :=
  if backendType = "rkllama" then ⟨some [0, 1, 2], by decide⟩ else ⟨none, by simp⟩

def alwaysResident : String := "always_resident"

/-- `priority_rank`. -/
def priorityRank (priority : String) : Int :=
  if priority = "always_resident" then 0
  else if priority = "interactive" then 1
  else if priority = "background" then 2
  else 0

/-- `LoadedModel`; a record without an entry for cores holds none. -/
structure LoadedModel where
  modelId : String
  backend : String
  memoryMbUsed : Int
  resourceHolds : Option (List Core)
  tpMode : String
  priority : String
  pinned : Bool
deriving DecidableEq

namespace LoadedModel

def coresHeld (m : LoadedModel) : List Core := m.resourceHolds.getD []

def isAlwaysResident (m : LoadedModel) : Bool := m.pinned || m.priority = alwaysResident

def effectivePriorityRank (m : LoadedModel) : Int :=
  if m.isAlwaysResident then -1 else priorityRank m.priority

end LoadedModel

/-- The arguments of `load_with_core_awareness`; the wait budget is not enforced. -/
structure LoadRequest where
  modelId : String
  backendName : String
  requestedCores : Option (List Core) := none
  priority : String := "interactive"
  pinned : Bool := false
  memoryMb : Int := 0

namespace LoadRequest

def isPinned (request : LoadRequest) : Bool :=
  request.pinned || request.priority = alwaysResident

/-- `incoming_rank`. -/
def rank (request : LoadRequest) : Int :=
  if request.isPinned then -1 else priorityRank request.priority

end LoadRequest

/-- How a load fails; `callback` is an exception of a reload or evict callback. -/
inductive LoadError where
  | resourceContention (message : String)
  | callback
deriving DecidableEq

/-- The entries of `events`. -/
inductive SchedulerNotice where
  | modelLoaded (modelId tpMode : String)
  | modelUnloaded (modelId : String)
  | modelShrunk (modelId oldTpMode newTpMode : String)
  | modelEvicted (modelId priority tpMode : String)
deriving DecidableEq

/-- The resident models by id, and the event bus. -/
structure CoreAwareScheduler where
  residents : Dict String LoadedModel
  events : List SchedulerNotice

/-! ## Choosing cores and victims -/

/-- Map each of the cores that is held to its holder. -/
def coresOccupiedBy (cores : List Core) (residents : List LoadedModel) : Dict Core LoadedModel :=
  residents.foldl
    (fun occupancy m =>
      m.coresHeld.foldl
        (fun occupancy c => if c ∈ cores then occupancy.set c m else occupancy) occupancy)
    Dict.empty

/-- The holders of some cores, each once. -/
def victimsOf (occupiedBy : Dict Core LoadedModel) : Dict String LoadedModel :=
  occupiedBy.values.foldl
    (fun victims m =>
      if (victims.get? m.modelId).isSome then victims else victims.set m.modelId m)
    Dict.empty

/-- Not always resident, and of no higher priority than the incoming model. -/
def evictable (request : LoadRequest) (m : LoadedModel) : Bool :=
  if m.effectivePriorityRank < 0 then false
  else request.isPinned || request.rank ≤ m.effectivePriorityRank

/-- Take the last core that is wanted out of those held. -/
def dropLastWanted (wanted : List Core) : List Core → Option (Core × List Core)
  | [] => none
  | c :: held =>
    match dropLastWanted wanted held with
    | some (freed, rest) => some (freed, c :: rest)
    | none => if c ∈ wanted then some (c, held) else none

/-- The core a victim gives up and the ones it keeps. -/
def giveUp (wanted held : List Core) : Core × List Core :=
  (dropLastWanted wanted held).getD (held.getLast?.getD 0, held.dropLast)

/-- Lowest priority first; equal ones as they come. -/
def byRank (models : List LoadedModel) : List LoadedModel :=
  models.insertionSort fun m n => n.effectivePriorityRank ≤ m.effectivePriorityRank

/-- `max` by rank: the first of the largest. -/
def lowestPriority (models : List LoadedModel) : Option LoadedModel :=
  models.foldl
    (fun best m =>
      match best with
      | none => some m
      | some b => if b.effectivePriorityRank < m.effectivePriorityRank then some m else some b)
    none

/-- A text in quotes, as `repr` shows one without quotes or escapes in it. -/
def quoted (text : String) : String := "'" ++ text ++ "'"

/-- The text of a list. -/
def listText (items : List String) : String := "[" ++ ", ".intercalate items ++ "]"

/-- `_build_npu_model`. -/
def buildNpuModel (request : LoadRequest) (cores : List Core) : LoadedModel where
  modelId := request.modelId
  backend := request.backendName
  memoryMbUsed := request.memoryMb
  resourceHolds := some cores
  tpMode := coresToTpMode cores
  priority := request.priority
  pinned := request.pinned

/-- `_make_no_core_model`. -/
def makeNoCoreModel (request : LoadRequest) : LoadedModel where
  modelId := request.modelId
  backend := request.backendName
  memoryMbUsed := request.memoryMb
  resourceHolds := none
  tpMode := ""
  priority := request.priority
  pinned := request.pinned

namespace CoreAwareScheduler

/-- A new scheduler. -/
def init : CoreAwareScheduler := ⟨Dict.empty, []⟩

def emit (s : CoreAwareScheduler) (notice : SchedulerNotice) : CoreAwareScheduler :=
  { s with events := s.events ++ [notice] }

/-- `register_loaded`. -/
def registerLoaded (s : CoreAwareScheduler) (m : LoadedModel) : CoreAwareScheduler :=
  { s with residents := s.residents.set m.modelId m }.emit (.modelLoaded m.modelId m.tpMode)

/-- `mark_unloaded`. -/
def markUnloaded (s : CoreAwareScheduler) (modelId : String) : CoreAwareScheduler :=
  match s.residents.get? modelId with
  | none => s
  | some _ =>
    { s with residents := s.residents.pop modelId }.emit (.modelUnloaded modelId)

/-- `_shrink_reload` up to its callback. -/
def shrinkReload (s : CoreAwareScheduler) (m : LoadedModel) (cores : List Core) :
    CoreAwareScheduler :=
  let shrunk := { m with resourceHolds := some cores, tpMode := coresToTpMode cores }
  { s with residents := s.residents.set m.modelId shrunk }.emit
    (.modelShrunk m.modelId m.tpMode shrunk.tpMode)

/-- `_evict_reload` up to its callback. -/
def evictReload (s : CoreAwareScheduler) (m : LoadedModel) : CoreAwareScheduler :=
  { s with residents := s.residents.pop m.modelId }.emit
    (.modelEvicted m.modelId m.priority m.tpMode)

/-- The placement after a callback; an exception of the callback ends the load. -/
def placed (callbackRaises : Bool) (request : LoadRequest) (core : Core) :
    Except LoadError LoadedModel :=
  if callbackRaises then .error .callback else .ok (buildNpuModel request [core])

/-- `_resolve_core_pressure`. -/
def resolveCorePressure (s : CoreAwareScheduler) (request : LoadRequest)
    (wantedCores : List Core) (occupiedBy : Dict Core LoadedModel) (callbackRaises : Bool) :
    CoreAwareScheduler × Except LoadError LoadedModel :=
  let victims := (victimsOf occupiedBy).values
  let candidates := victims.filter (evictable request)
  let nonEvictable := victims.filter fun m => !evictable request m
  if nonEvictable ≠ [] then
    (s, .error (.resourceContention
      ("Cannot load " ++ quoted request.modelId ++ " on " ++ quoted request.backendName ++
        ": cores " ++ listText (wantedCores.map Nat.repr) ++
        " are held by higher- or equal-priority (always_resident) resident(s) " ++
        listText (nonEvictable.map fun m => quoted m.modelId) ++
        ". No lower-priority victim available.")))
  else
    match (byRank candidates).find? fun m => 1 < m.coresHeld.length with
    | some victim =>
      let (freed, kept) := giveUp wantedCores victim.coresHeld
      (s.shrinkReload victim kept, placed callbackRaises request freed)
    | none =>
      match lowestPriority candidates with
      | some victim =>
        let freed := victim.coresHeld
        let assigned := (freed.find? fun c => c ∈ wantedCores).getD (freed.headD 0)
        (s.evictReload victim, placed callbackRaises request assigned)
      | none =>
        (s, .error (.resourceContention
          ("Cannot load " ++ quoted request.modelId ++
            ": no evictable resident holds the wanted cores " ++
            listText (wantedCores.map Nat.repr) ++ ".")))

/-- The default policy: every core for a first model, the last one for a second, and a free
one, if there is any, for the others. -/
def defaultCores (availableCores : List Core) (npuResidents : List LoadedModel) : List Core :=
  match npuResidents.length with
  | 0 => availableCores
  | 1 => availableCores.getLast?.toList
  | _ =>
    (availableCores.filter fun c =>
      c ∉ npuResidents.flatMap LoadedModel.coresHeld).take 1

/-- The cores a load wants: those requested, or what the default policy picks. -/
def wantedCores (request : LoadRequest) (availableCores : List Core)
    (npuResidents : List LoadedModel) : List Core :=
  match request.requestedCores with
  | some (c :: cs) => sortedCores (c :: cs)
  | _ => defaultCores availableCores npuResidents

/-- `load_with_core_awareness`.  A callback is a callable of the caller's and may raise. -/
def load (shapeLookup : String → BackendResourceShape) (s : CoreAwareScheduler)
    (request : LoadRequest) (callbackRaises : Bool) :
    CoreAwareScheduler × Except LoadError LoadedModel :=
  let shape := shapeLookup request.backendName
  if shape.hasCores = false then (s, .ok (makeNoCoreModel request))
  else
    let npuResidents := s.residents.values.filter fun m => m.coresHeld ≠ []
    let wanted := wantedCores request shape.availableCores npuResidents
    if wanted = [] then
      s.resolveCorePressure request (shape.availableCores.take 1)
        (coresOccupiedBy shape.availableCores npuResidents) callbackRaises
    else
      let occupied := coresOccupiedBy wanted npuResidents
      if occupied.keys = [] then (s, .ok (buildNpuModel request wanted))
      else s.resolveCorePressure request wanted occupied callbackRaises

end CoreAwareScheduler

/-- The calls of the scheduler's users; a placement is registered as soon as it is returned. -/
inductive SchedulerEvent where
  | load (request : LoadRequest) (callbackRaises : Bool)
  | markUnloaded (modelId : String)

namespace CoreAwareScheduler

/-- One call. -/
def step (shapeLookup : String → BackendResourceShape) (s : CoreAwareScheduler) :
    SchedulerEvent → Option CoreAwareScheduler
  | .load request callbackRaises =>
    match s.load shapeLookup request callbackRaises with
    | (s', .ok m) => some (s'.registerLoaded m)
    | (s', .error _) => some s'
  | .markUnloaded modelId => some (s.markUnloaded modelId)

end CoreAwareScheduler

/-! ## The occupancy of cores -/

/-- The wanted cores of one holder are mapped to it. -/
theorem get?_foldl_held (cores held : List Core) (m : LoadedModel)
    (occupancy : Dict Core LoadedModel) (c : Core) : (held.foldl
      (fun occupancy c => if c ∈ cores then occupancy.set c m else occupancy)
        occupancy).get? c =
      if c ∈ held ∧ c ∈ cores then some m else occupancy.get? c := by
  induction held generalizing occupancy with
  | nil => simp
  | cons d held ih =>
    rw [List.foldl_cons, ih]
    by_cases hd : d ∈ cores
    · by_cases hdc : d = c
      · subst hdc
        simp [hd]
      · simp [hd, Dict.get?_set, hdc, Ne.symm hdc]
    · by_cases hdc : d = c
      · subst hdc
        simp [hd]
      · simp [hd, Ne.symm hdc]

variable {m : LoadedModel} {cores held : List Core} {residents models : List LoadedModel} {c : Core}

/-- A wanted core is mapped to one of the residents that hold it. -/
theorem coresOccupiedBy_eq_some (h : (coresOccupiedBy cores residents).get? c = some m) :
    m ∈ residents ∧ c ∈ m.coresHeld ∧ c ∈ cores := by
  have hfold : ∀ (residents : List LoadedModel) (occupancy : Dict Core LoadedModel),
      (residents.foldl
        (fun occupancy m =>
          m.coresHeld.foldl
            (fun occupancy c => if c ∈ cores then occupancy.set c m else occupancy) occupancy)
        occupancy).get? c = some m →
      (m ∈ residents ∧ c ∈ m.coresHeld ∧ c ∈ cores) ∨ occupancy.get? c = some m := by
    intro residents
    induction residents with
    | nil =>
      intro occupancy h
      exact Or.inr h
    | cons n residents ih =>
      intro occupancy h
      rcases ih _ h with ⟨hmem, hheld⟩ | hget
      · exact Or.inl ⟨List.mem_cons_of_mem _ hmem, hheld⟩
      · rw [get?_foldl_held] at hget
        split at hget
        · rename_i hheld
          cases hget
          exact Or.inl ⟨List.mem_cons_self, hheld⟩
        · exact Or.inr hget
  rcases hfold residents Dict.empty h with hm | hempty
  · exact hm
  · cases hempty

/-- A wanted core that a resident holds is occupied. -/
theorem mem_keys_coresOccupiedBy (hmem : m ∈ residents) (hheld : c ∈ m.coresHeld) (hc : c ∈ cores) :
    c ∈ (coresOccupiedBy cores residents).keys := by
  have hfold : ∀ (residents : List LoadedModel) (occupancy : Dict Core LoadedModel),
      m ∈ residents ∨ (occupancy.get? c).isSome →
      ((residents.foldl
        (fun occupancy m =>
          m.coresHeld.foldl
            (fun occupancy c => if c ∈ cores then occupancy.set c m else occupancy) occupancy)
        occupancy).get? c).isSome := by
    intro residents
    induction residents with
    | nil =>
      intro occupancy h
      rcases h with hmem | hsome
      · cases hmem
      · exact hsome
    | cons n residents ih =>
      intro occupancy h
      apply ih
      rw [get?_foldl_held]
      rcases h with hmem | hsome
      · rcases List.mem_cons.mp hmem with rfl | hmem
        · exact Or.inr (by simp [hheld, hc])
        · exact Or.inl hmem
      · right
        split
        · rfl
        · exact hsome
  have hsome := hfold residents Dict.empty (Or.inl hmem)
  obtain ⟨n, hn⟩ := Option.isSome_iff_exists.mp hsome
  exact Dict.mem_keys_of_get? hn

/-! ## The choice of a victim -/

/-- A victim holds one of the cores in question. -/
theorem mem_of_mem_victimsOf {occupiedBy : Dict Core LoadedModel}
    (h : m ∈ (victimsOf occupiedBy).values) : m ∈ occupiedBy.values := by
  have hfold : ∀ (models : List LoadedModel) (victims : Dict String LoadedModel) (id : String),
      (models.foldl
        (fun victims m =>
          if (victims.get? m.modelId).isSome then victims else victims.set m.modelId m)
        victims).get? id = some m →
      m ∈ models ∨ victims.get? id = some m := by
    intro models
    induction models with
    | nil =>
      intro victims id h
      exact Or.inr h
    | cons n models ih =>
      intro victims id h
      rcases ih _ id h with hmem | hget
      · exact Or.inl (List.mem_cons_of_mem _ hmem)
      · dsimp only at hget
        split at hget
        · exact Or.inr hget
        · rw [Dict.get?_set] at hget
          split at hget
          · cases hget
            exact Or.inl List.mem_cons_self
          · exact Or.inr hget
  obtain ⟨id, hid⟩ := Dict.mem_values_iff.mp h
  rcases hfold occupiedBy.values Dict.empty id hid with hmem | hempty
  · exact hmem
  · cases hempty

theorem mem_byRank : m ∈ byRank models ↔ m ∈ models :=
  (List.perm_insertionSort _ models).mem_iff

theorem mem_of_lowestPriority (h : lowestPriority models = some m) : m ∈ models := by
  have hfold : ∀ (models : List LoadedModel) (best : Option LoadedModel),
      models.foldl
        (fun best m =>
          match best with
          | none => some m
          | some b =>
            if b.effectivePriorityRank < m.effectivePriorityRank then some m else some b)
        best = some m →
      m ∈ models ∨ best = some m := by
    intro models
    induction models with
    | nil =>
      intro best h
      exact Or.inr h
    | cons n models ih =>
      intro best h
      rcases ih _ h with hmem | hbest
      · exact Or.inl (List.mem_cons_of_mem _ hmem)
      · cases best with
        | none =>
          cases hbest
          exact Or.inl List.mem_cons_self
        | some b =>
          simp only at hbest
          split at hbest
          · cases hbest
            exact Or.inl List.mem_cons_self
          · exact Or.inr hbest
  rcases hfold models none h with hmem | hnone
  · exact hmem
  · cases hnone

theorem dropLastWanted_perm {wanted rest : List Core} {freed : Core}
    (h : dropLastWanted wanted held = some (freed, rest)) : held.Perm (freed :: rest) := by
  induction held generalizing rest with
  | nil => cases h
  | cons c held ih =>
    simp only [dropLastWanted] at h
    split at h
    · rename_i freed' rest' hrest
      cases h
      exact ((ih hrest).cons c).trans (List.Perm.swap freed c rest')
    · split at h
      · cases h
        exact List.Perm.refl _
      · cases h

/-- A victim gives up one core and keeps the others. -/
theorem giveUp_perm (wanted : List Core) (hne : held ≠ []) :
    held.Perm ((giveUp wanted held).1 :: (giveUp wanted held).2) := by
  unfold giveUp
  cases hdrop : dropLastWanted wanted held with
  | some pair => exact dropLastWanted_perm hdrop
  | none =>
    have hlast : held = held.dropLast ++ [held.getLast hne] :=
      (List.dropLast_append_getLast hne).symm
    rw [Option.getD_none, List.getLast?_eq_some_getLast hne, Option.getD_some]
    conv_lhs => rw [hlast]
    exact List.perm_append_comm

/-! ## How a load can go -/

namespace CoreAwareScheduler

/-- The scheduler after a load and what the load returns. -/
inductive LoadOutcome (shapeLookup : String → BackendResourceShape) (s : CoreAwareScheduler)
    (request : LoadRequest) : CoreAwareScheduler × Except LoadError LoadedModel → Prop where
  | noCores (hcores : (shapeLookup request.backendName).hasCores = false) :
      LoadOutcome shapeLookup s request (s, .ok (makeNoCoreModel request))
  | free (cores : List Core) (hcores : (shapeLookup request.backendName).hasCores = true)
      (hne : cores ≠ [])
      (hwanted : cores = wantedCores request (shapeLookup request.backendName).availableCores
        (s.residents.values.filter fun m => m.coresHeld ≠ []))
      (hfree : ∀ m ∈ s.residents.values, ∀ c ∈ cores, c ∉ m.coresHeld) :
      LoadOutcome shapeLookup s request (s, .ok (buildNpuModel request cores))
  | contention (message : String) :
      LoadOutcome shapeLookup s request (s, .error (.resourceContention message))
  | shrunk (victim : LoadedModel) (freed : Core) (kept : List Core) (callbackRaises : Bool)
      (hmem : victim ∈ s.residents.values) (hevict : evictable request victim = true)
      (hperm : victim.coresHeld.Perm (freed :: kept)) (hkept : kept ≠ []) :
      LoadOutcome shapeLookup s request
        (s.shrinkReload victim kept, placed callbackRaises request freed)
  | evicted (victim : LoadedModel) (core : Core) (callbackRaises : Bool)
      (hmem : victim ∈ s.residents.values) (hevict : evictable request victim = true)
      (hcore : core ∈ victim.coresHeld) :
      LoadOutcome shapeLookup s request
        (s.evictReload victim, placed callbackRaises request core)

variable {shapeLookup : String → BackendResourceShape} {s : CoreAwareScheduler}
  {request : LoadRequest}

/-- Pressure is resolved at the cost of one evictable resident that holds cores. -/
theorem resolved (wanted : List Core) {occupiedBy : Dict Core LoadedModel} (callbackRaises : Bool)
    (hocc : ∀ m ∈ occupiedBy.values, m ∈ s.residents.values ∧ m.coresHeld ≠ []) :
    LoadOutcome shapeLookup s request
      (s.resolveCorePressure request wanted occupiedBy callbackRaises) := by
  have hcandidate : ∀ m, m ∈ (victimsOf occupiedBy).values.filter (evictable request) →
      m ∈ s.residents.values ∧ m.coresHeld ≠ [] ∧ evictable request m = true := by
    intro m hm
    have hparts := List.mem_filter.mp hm
    have hheld := hocc m (mem_of_mem_victimsOf hparts.1)
    exact ⟨hheld.1, hheld.2, hparts.2⟩
  unfold resolveCorePressure
  simp only
  split
  · exact LoadOutcome.contention _
  · split
    · rename_i victim hfind
      have hlong : 1 < victim.coresHeld.length := by
        have hpass := List.find?_some hfind
        exact of_decide_eq_true hpass
      have hmemRank := mem_byRank.mp (List.mem_of_find?_eq_some hfind)
      obtain ⟨hmem, hne, hevict⟩ := hcandidate victim hmemRank
      have hperm := giveUp_perm wanted hne
      have hkept : (giveUp wanted victim.coresHeld).2 ≠ [] := by
        intro hnil
        have hlength := hperm.length_eq
        rw [hnil, List.length_singleton] at hlength
        omega
      exact LoadOutcome.shrunk victim _ _ callbackRaises hmem hevict hperm hkept
    · split
      · rename_i victim hlow
        obtain ⟨hmem, hne, hevict⟩ := hcandidate victim (mem_of_lowestPriority hlow)
        apply LoadOutcome.evicted victim _ callbackRaises hmem hevict
        cases hfind : victim.coresHeld.find? fun c => c ∈ wanted with
        | some c => exact List.mem_of_find?_eq_some hfind
        | none =>
          obtain ⟨c, cs, hcs⟩ := List.exists_cons_of_ne_nil hne
          simp [hcs]
      · exact LoadOutcome.contention _

/-- The ways a load can go. -/
theorem loaded (shapeLookup : String → BackendResourceShape) (s : CoreAwareScheduler)
    (request : LoadRequest) (callbackRaises : Bool) :
    LoadOutcome shapeLookup s request (s.load shapeLookup request callbackRaises) := by
  have hocc : ∀ (cores : List Core) (m : LoadedModel),
      m ∈ (coresOccupiedBy cores
        (s.residents.values.filter fun m => m.coresHeld ≠ [])).values →
      m ∈ s.residents.values ∧ m.coresHeld ≠ [] := by
    intro cores m hm
    obtain ⟨c, hc⟩ := Dict.mem_values_iff.mp hm
    have hparts := List.mem_filter.mp (coresOccupiedBy_eq_some hc).1
    exact ⟨hparts.1, of_decide_eq_true hparts.2⟩
  unfold load
  simp only
  split
  · rename_i hcores
    exact LoadOutcome.noCores hcores
  · rename_i hcores
    split
    · exact resolved _ callbackRaises (hocc _)
    · rename_i hne
      split
      · rename_i hkeys
        apply LoadOutcome.free _ (by simpa using hcores) hne rfl
        intro m hm c hc hheld
        have hnpu : m ∈ s.residents.values.filter fun m => m.coresHeld ≠ [] := by
          apply List.mem_filter.mpr
          refine ⟨hm, ?_⟩
          simp only [decide_eq_true_eq]
          exact List.ne_nil_of_mem hheld
        have hkey := mem_keys_coresOccupiedBy hnpu hheld hc
        rw [hkeys] at hkey
        cases hkey
      · exact resolved _ callbackRaises (hocc _)

end CoreAwareScheduler

end TinyAgentOS.Scheduler
