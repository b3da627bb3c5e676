import TinyAgentOS.Library.Dict
import TinyAgentOS.Library.Transition

/-!
# Migration of the memory pipeline

An evaluation compares the snapshot it takes with the one before, returns one
action at most, and forgets the earlier snapshot.  Joins are looked at before
losses, and one worker of each is picked.

Main results:

- `Manager.named_iff`: the evaluations that name every worker lost.
- `Manager.lossesReported_of_guarded`: runs that lose workers one by one.
- `Manager.join_hides_loss`: a worker joins while another is lost.
-/

namespace TinyAgentOS.Scheduling
namespace Migration

open Collections Transition

/-! ## Snapshots -/

/-- Readings of `time.time()`, in seconds. -/
abbrev Instant := Int

/-- A worker in a snapshot; `gpu` says whether it reports one. -/
structure Worker where
  name : String
  gpu : Bool
  models : List String
  gpuUtilisation : Int
deriving DecidableEq

/-- `ResourceSnapshot`, as far as migrations depend on it. -/
structure ClusterSnapshot where
  hasGpu : Bool
  npuCores : Int
  ramAvailableMb : Int
  ollamaModels : List String
  clusterWorkers : List Worker

/-- The worker is in the snapshot, with a GPU. -/
def ClusterSnapshot.HasGpuWorker (snap : ClusterSnapshot) (name : String) : Prop :=
  ∃ w ∈ snap.clusterWorkers, w.gpu = true ∧ w.name = name

/-- `prev_gpu_workers` and `curr_gpu_workers`: of one name the last worker stays. -/
def gpuWorkers (snap : ClusterSnapshot) : Dict String Worker :=
  snap.clusterWorkers.foldl (fun d w => if w.gpu then d.set w.name w else d) Dict.empty

/-! ## Models -/

/-- Python's `in` on strings. -/
def contains (part text : String) : Bool := part.toList <:+: text.toList

/-- `MODEL_RAM_MB`. -/
def modelRamMb : List (String × Int) :=
  [("qwen3.5:0.8b", 800), ("qwen3.5:2b", 2000), ("qwen3:4b", 3300), ("qwen3.5:4b", 3400),
    ("qwen3.5:9b", 6600), ("qwen3.5:27b", 17000)]

/-- `_model_fits_in_ram`. -/
def modelFitsInRam (model : String) (availableMb : Int) : Bool :=
  match modelRamMb.find? fun entry => contains entry.1 model.toLower with
  | some (_, required) => required + 1024 < availableMb
  | none => 4096 < availableMb

/-- What `best_model_for_task` recommends. -/
structure Recommendation where
  model : String
  resourceType : String
  location : String

/-- The location of a worker. -/
def workerLocation (name : String) : String := "worker:" ++ name

/-- Where a local model would run, if it can. -/
def placeLocally (snap : ClusterSnapshot) (preferred model : String) : Option Recommendation :=
  if !contains preferred model.toLower then none
  else if snap.hasGpu then some ⟨model, "gpu", "local"⟩
  else if 0 < snap.npuCores && contains "4b" preferred then some ⟨model, "npu", "local"⟩
  else if modelFitsInRam model snap.ramAvailableMb then some ⟨model, "cpu", "local"⟩
  else none

/-- `best_model_for_task`. -/
def bestModelForTask (snap : ClusterSnapshot) (taskType : String) : Option Recommendation :=
  if taskType ∈ ["extract", "enrich", "crystallize"] then
    let preferredOrder := ["qwen3.5:27b", "qwen3.5:9b", "qwen3.5:4b", "qwen3:4b", "qwen3.5:2b",
      "qwen3.5:0.8b"]
    let placed := preferredOrder.findSome? fun preferred =>
      snap.ollamaModels.findSome? (placeLocally snap preferred)
    let onWorker := snap.clusterWorkers.findSome? fun w =>
      w.models.head?.map fun model => ⟨model, "gpu", workerLocation w.name⟩
    placed.or onWorker
  else if taskType = "embed" then
    some ⟨"all-MiniLM-L6-v2", if 0 < snap.npuCores then "npu" else "cpu", "local"⟩
  else none

/-- `_best_worker_model`. -/
def bestWorkerModel (worker : Worker) : String :=
  let preferredOrder := ["qwen3.5:27b", "qwen3.5:9b", "qwen3.5:4b", "qwen3:4b"]
  let best := preferredOrder.findSome? fun preferred => worker.models.find? (contains preferred)
  (best.or worker.models.head?).getD "qwen3:4b"

/-! ## Evaluations -/

inductive MigrationKind where
  | upgrade
  | downgrade
deriving DecidableEq

/-- What `evaluate_migration` returns. -/
structure MigrationAction where
  action : MigrationKind
  toModel : String
  toLocation : String
  fromLocation : String
  reason : String

/-- The action moves the pipeline to the worker or away from it. -/
def MigrationAction.Names (action : MigrationAction) (name : String) : Prop :=
  action.fromLocation = workerLocation name ∨ action.toLocation = workerLocation name

/-- What the manager keeps between evaluations. -/
structure Manager where
  prev : Option ClusterSnapshot
  workerBusySince : Dict String Instant
  workerIdleSince : Dict String Instant

/-- The manager's settings. -/
structure Settings where
  contentionThreshold : Int := 30
  idleUpgradeDelay : Int := 600

/-- What an evaluation meets: the snapshot it takes, the worker that `next(iter(…))` picks,
the snapshot by the time a fallback is looked for, and the clock at each worker. -/
structure Evaluation where
  snap : ClusterSnapshot
  picked : String
  latest : ClusterSnapshot
  busyNow : String → Instant
  idleNow : String → Instant

namespace Manager

/-- A new manager. -/
def init : Manager := ⟨none, Dict.empty, Dict.empty⟩

/-- The first loop: the timers, and the first worker busy for too long. -/
def busyLoop (settings : Settings) (now : String → Instant) :
    List (String × Worker) → Dict String Instant → Dict String Instant × Option (String × Worker)
  | [], timers => (timers, none)
  | (name, worker) :: rest, timers =>
    if 80 < worker.gpuUtilisation then
      match timers.get? name with
      | none => busyLoop settings now rest (timers.set name (now name))
      | some since =>
        if settings.contentionThreshold < now name - since then (timers, some (name, worker))
        else busyLoop settings now rest timers
    else busyLoop settings now rest (timers.pop name)

/-- The second loop: the timers, and the first worker idle for long enough. -/
def idleLoop (settings : Settings) (now : String → Instant) :
    List (String × Worker) → Dict String Instant → Dict String Instant × Option (String × Worker)
  | [], timers => (timers, none)
  | (name, worker) :: rest, timers =>
    if worker.gpuUtilisation < 20 then
      match timers.get? name with
      | none => idleLoop settings now rest (timers.set name (now name))
      | some since =>
        if settings.idleUpgradeDelay < now name - since then
          (timers.pop name, some (name, worker))
        else idleLoop settings now rest timers
    else idleLoop settings now rest (timers.pop name)

/-- The downgrade away from a worker. -/
def downgrade (latest : ClusterSnapshot) (name : String) (toLocation : Option String)
    (reason : String) : MigrationAction :=
  let fallback := bestModelForTask latest "extract"
  { action := .downgrade
    toModel := (fallback.map Recommendation.model).getD "qwen3:4b"
    toLocation := toLocation.getD ((fallback.map Recommendation.location).getD "local")
    fromLocation := workerLocation name
    reason := reason }

/-- The upgrade to a worker. -/
def upgrade (worker : Worker) (name reason : String) : MigrationAction :=
  { action := .upgrade
    toModel := bestWorkerModel worker
    toLocation := workerLocation name
    fromLocation := "local"
    reason := reason }

/-- The utilisation policies, where no GPU worker has joined or left. -/
def evaluateUtilisation (settings : Settings) (m : Manager) (e : Evaluation) :
    Manager × Option MigrationAction :=
  let workers := (gpuWorkers e.snap).entries
  let busy := busyLoop settings e.busyNow workers m.workerBusySince
  let m := { m with prev := some e.snap, workerBusySince := busy.1 }
  match busy.2 with
  | some (name, worker) =>
    (m, some (downgrade e.latest name (some "local")
      ("GPU worker '" ++ name ++ "' busy for >" ++ toString settings.contentionThreshold ++
        "s (utilisation " ++ toString worker.gpuUtilisation ++ "%)")))
  | none =>
    let idle := idleLoop settings e.idleNow workers m.workerIdleSince
    let m := { m with workerIdleSince := idle.1 }
    match idle.2 with
    | some (name, worker) =>
      (m, some (upgrade worker name
        ("GPU worker '" ++ name ++ "' idle for >" ++ toString settings.idleUpgradeDelay ++
          "s, upgrading back")))
    | none => (m, none)

/-- The GPU workers of the second snapshot that the first does not have. -/
def newWorkers (prev snap : ClusterSnapshot) : List String :=
  (gpuWorkers snap).keys.filter fun name => name ∉ (gpuWorkers prev).keys

/-- `evaluate_migration`; only a worker of the set can be picked. -/
def evaluateMigration (settings : Settings) (m : Manager) (e : Evaluation) :
    Option (Manager × Option MigrationAction) :=
  match m.prev with
  | none => some ({ m with prev := some e.snap }, none)
  | some prev =>
    if newWorkers prev e.snap ≠ [] then
      if e.picked ∈ newWorkers prev e.snap then
        ((gpuWorkers e.snap).get? e.picked).map fun worker =>
          ({ m with prev := some e.snap }, some (upgrade worker e.picked
            ("GPU worker '" ++ e.picked ++ "' joined cluster")))
      else none
    else if newWorkers e.snap prev ≠ [] then
      if e.picked ∈ newWorkers e.snap prev then
        some ({ m with prev := some e.snap }, some (downgrade e.latest e.picked none
          ("GPU worker '" ++ e.picked ++ "' disconnected")))
      else none
    else some (evaluateUtilisation settings m e)

/-- The manager after an evaluation. -/
def step (settings : Settings) (m : Manager) (e : Evaluation) : Option Manager :=
  (m.evaluateMigration settings e).map Prod.fst

/-! ## Losses -/

variable {name : String} {settings : Settings} {e : Evaluation} {m : Manager}

theorem mem_keys_gpuWorkers {snap : ClusterSnapshot} :
    name ∈ (gpuWorkers snap).keys ↔ snap.HasGpuWorker name := by
  have hfold : ∀ (workers : List Worker) (d : Dict String Worker),
      name ∈ (workers.foldl (fun d w => if w.gpu then d.set w.name w else d) d).keys ↔
        name ∈ d.keys ∨ ∃ w ∈ workers, w.gpu = true ∧ w.name = name := by
    intro workers
    induction workers with
    | nil => simp
    | cons w workers ih =>
      intro d
      rw [List.foldl_cons, ih]
      cases hgpu : w.gpu with
      | false => simp [hgpu]
      | true =>
        have hset : name ∈ (d.set w.name w).keys ↔ name = w.name ∨ name ∈ d.keys :=
          Dict.mem_keys_setIn
        simp only [if_true, hset, List.mem_cons, exists_eq_or_imp, hgpu, true_and]
        tauto
  unfold gpuWorkers ClusterSnapshot.HasGpuWorker
  rw [hfold]
  simp

/-- The new workers are those that the last snapshot lacked. -/
theorem mem_newWorkers {prev snap : ClusterSnapshot} :
    name ∈ newWorkers prev snap ↔ snap.HasGpuWorker name ∧ ¬prev.HasGpuWorker name := by
  simp [newWorkers, mem_keys_gpuWorkers]

/-- A location names one worker. -/
theorem workerLocation_injective : Function.Injective workerLocation := by
  intro name name' h
  have hlist := congrArg String.toList h
  simp only [workerLocation, String.toList_append, List.append_cancel_left_eq] at hlist
  exact String.toList_inj.mp hlist

theorem workerLocation_ne_local (name : String) : workerLocation name ≠ "local" := by
  intro h
  have hlist := congrArg String.toList h
  simp [workerLocation] at hlist

/-- The snapshot is kept for the next evaluation. -/
theorem prev_evaluateUtilisation (settings : Settings) (m : Manager) (e : Evaluation) :
    (m.evaluateUtilisation settings e).1.prev = some e.snap := by
  unfold evaluateUtilisation
  dsimp only
  split
  · rfl
  · split <;> rfl

/-- Every evaluation remembers the snapshot it took. -/
theorem prev_of_step {m' : Manager}
    (hstep : m.step settings e = some m') : m'.prev = some e.snap := by
  obtain ⟨⟨n, action⟩, heval, rfl⟩ := Option.map_eq_some_iff.mp hstep
  unfold evaluateMigration at heval
  split at heval
  · cases heval
    rfl
  split at heval
  · split at heval
    · obtain ⟨worker, _, heq⟩ := Option.map_eq_some_iff.mp heval
      cases heq
      rfl
    · contradiction
  split at heval
  · split at heval
    · cases heval
      rfl
    · contradiction
  · have hsame := congrArg (fun r => r.map (Manager.prev ∘ Prod.fst)) heval
    simp only [Option.map_some, Function.comp, prev_evaluateUtilisation, Option.some.injEq] at hsame
    exact hsame.symm

/-- When a worker is lost, none joins, and it is the only one. -/
def LossAlone (m : Manager) (e : Evaluation) : Prop :=
  ∀ prev ∈ m.prev, ∀ name ∈ newWorkers e.snap prev,
    newWorkers prev e.snap = [] ∧ ∀ other ∈ newWorkers e.snap prev, other = name

/-- An evaluation downgrades from every worker it finds lost exactly when losses come alone. -/
theorem named_iff {m' : Manager} {action : Option MigrationAction}
    (heval : m.evaluateMigration settings e = some (m', action)) :
    (∀ prev ∈ m.prev, ∀ name ∈ newWorkers e.snap prev,
      ∃ a ∈ action, a.fromLocation = workerLocation name) ↔ m.LossAlone e := by
  unfold evaluateMigration at heval
  split at heval
  · rename_i hprev
    simp [LossAlone, hprev]
  rename_i prev hprev
  unfold LossAlone
  simp only [hprev, Option.mem_some_iff, forall_eq']
  split at heval
  · rename_i hjoined
    split at heval
    · obtain ⟨worker, _, heq⟩ := Option.map_eq_some_iff.mp heval
      cases heq
      constructor
      · intro hnamed name hname
        obtain ⟨a, ha, hfrom⟩ := hnamed name hname
        cases ha
        exact absurd hfrom.symm (workerLocation_ne_local name)
      · intro halone name hname
        exact absurd (halone name hname).1 hjoined
    · contradiction
  rename_i hjoined
  split at heval
  · split at heval
    · rename_i hpicked
      cases heval
      constructor
      · intro hnamed name hname
        have hone : ∀ other ∈ newWorkers e.snap prev, other = e.picked := by
          intro other hother
          obtain ⟨a, ha, hfrom⟩ := hnamed other hother
          cases ha
          exact (workerLocation_injective hfrom).symm
        refine ⟨not_not.mp hjoined, ?_⟩
        intro other hother
        rw [hone other hother, hone name hname]
      · intro halone name hname
        refine ⟨_, rfl, ?_⟩
        rw [(halone name hname).2 e.picked hpicked]
        rfl
    · contradiction
  · rename_i hnone
    simp [not_not.mp hnone]

/-- The evaluation downgrades from every worker it finds lost. -/
def NamesLosses (settings : Settings) (m : Manager) (e : Evaluation) : Prop :=
  ∀ prev ∈ m.prev, ∀ name ∈ newWorkers e.snap prev, ∃ m' action,
    m.evaluateMigration settings e = some (m', some action) ∧
      action.fromLocation = workerLocation name

/-- When an evaluation names the losses. -/
theorem namesLosses_iff {m' : Manager}
    (hstep : m.step settings e = some m') : NamesLosses settings m e ↔ m.LossAlone e := by
  obtain ⟨⟨n, action⟩, heval, _⟩ := Option.map_eq_some_iff.mp hstep
  rw [← named_iff heval]
  constructor
  · intro hnames prev hprev name hname
    obtain ⟨n', a, heval', hfrom⟩ := hnames prev hprev name hname
    rw [heval] at heval'
    cases heval'
    exact ⟨a, rfl, hfrom⟩
  · intro hnames prev hprev name hname
    obtain ⟨a, ha, hfrom⟩ := hnames prev hprev name hname
    cases ha
    exact ⟨n, a, heval, hfrom⟩

/-- Every GPU worker of one snapshot that a later one lacks is named in an action that an
evaluation without it returns. -/
def LossesReported (settings : Settings) (es : List Evaluation) : Prop :=
  ∀ pre a mid b post name, es = pre ++ a :: (mid ++ b :: post) →
    a.snap.HasGpuWorker name → ¬b.snap.HasGpuWorker name →
    ∃ mid' c post' m m' action, mid ++ b :: post = mid' ++ c :: post' ∧
      ¬c.snap.HasGpuWorker name ∧ run (step settings) init (pre ++ a :: mid') = some m ∧
      m.evaluateMigration settings c = some (m', some action) ∧ action.Names name

/-- Two snapshots in a row: the second evaluation names what is lost. -/
theorem named_of_consecutive {pre rest : List Evaluation} {a c : Evaluation}
    (hnames : EveryStep (step settings) (fun m e _ => NamesLosses settings m e) init
      (pre ++ a :: c :: rest)) (hrun : run (step settings) init (pre ++ a :: c :: rest) = some m)
    (ha : a.snap.HasGpuWorker name) (hc : ¬c.snap.HasGpuWorker name) :
    ∃ m₀ m₁ action, run (step settings) init (pre ++ [a]) = some m₀ ∧
      m₀.evaluateMigration settings c = some (m₁, some action) ∧ action.Names name := by
  rw [run_append, Option.bind_eq_some_iff] at hrun
  obtain ⟨m', hpre, hrest⟩ := hrun
  obtain ⟨m₀, hstep, hrest⟩ := run_cons_eq_some.mp hrest
  obtain ⟨m₁, hstep', _⟩ := run_cons_eq_some.mp hrest
  have hfirst := run_append_singleton hpre hstep
  have hprev := prev_of_step hstep
  have hnamed := hnames (pre ++ [a]) c rest m₀ m₁ (by simp) hfirst hstep'
  obtain ⟨m₂, action, heval, hfrom⟩ := hnamed a.snap hprev name (mem_newWorkers.mpr ⟨ha, hc⟩)
  exact ⟨m₀, m₂, action, hfirst, heval, Or.inl hfrom⟩

theorem reported_of_namesLosses {es : List Evaluation}
    (hnames : EveryStep (step settings) (fun m e _ => NamesLosses settings m e) init es)
    (hrun : run (step settings) init es = some m) : LossesReported settings es := by
  intro pre a mid b post name hes ha hb
  -- the worker is last seen in the snapshot before the first that lacks it
  induction mid generalizing pre a with
  | nil =>
    subst hes
    obtain ⟨m₀, m₁, action, hpre, heval, hname⟩ := named_of_consecutive hnames hrun ha hb
    exact ⟨[], b, post, m₀, m₁, action, rfl, hb, hpre, heval, hname⟩
  | cons d mid ih =>
    by_cases hd : d.snap.HasGpuWorker name
    · obtain ⟨mid', c, post', m₀, m₁, action, hsplit, hc, hpre, heval, hname⟩ :=
        ih (pre ++ [a]) d (by simpa using hes) hd
      refine ⟨d :: mid', c, post', m₀, m₁, action, ?_, hc, ?_, heval, hname⟩
      · rw [List.cons_append, List.cons_append, hsplit]
      · simpa using hpre
    · subst hes
      obtain ⟨m₀, m₁, action, hpre, heval, hname⟩ := named_of_consecutive hnames hrun ha hd
      exact ⟨[], d, mid ++ b :: post, m₀, m₁, action, rfl, hd, hpre, heval, hname⟩

/-- In a run whose losses come alone, every loss is reported. -/
theorem lossesReported_of_guarded {settings : Settings} {es : List Evaluation} {m : Manager}
    (hguard : Guarded (step settings) LossAlone init es)
    (hrun : run (step settings) init es = some m) : LossesReported settings es := by
  apply reported_of_namesLosses _ hrun
  refine everyStep_of_guarded ?_ hguard
  intro t e t' halone hstep
  exact (namesLosses_iff hstep).mpr halone

instance (m : Manager) (e : Evaluation) : Decidable (m.LossAlone e) :=
  inferInstanceAs (Decidable (∀ prev ∈ m.prev, _))

/-- An evaluation of a cluster with these workers, none of them busy or idle. -/
def evaluationOf (names : List String) (picked : String) : Evaluation :=
  let snap : ClusterSnapshot := ⟨false, 0, 8192, [], names.map fun name => ⟨name, true, [], 50⟩⟩
  ⟨snap, picked, snap, fun _ => 0, fun _ => 0⟩

/-- One worker leaves; the other stays. -/
theorem lossesReported_alone :
    LossesReported {} [evaluationOf ["a", "b"] "", evaluationOf ["b"] "a"] := by
  have hguard : Guarded (step {}) LossAlone init
      [evaluationOf ["a", "b"] "", evaluationOf ["b"] "a"] := by
    decide
  exact lossesReported_of_guarded hguard rfl

/-- The manager once it has seen one worker replaced by another. -/
def replaced : Manager := ⟨some (evaluationOf ["b"] "").snap, Dict.empty, Dict.empty⟩

/-- A worker joins in the refresh that loses another: however often the manager looks again at
the cluster that is left, the loss is never reported. -/
theorem not_lossesReported_replaced (k : Nat) :
    ¬LossesReported {} (evaluationOf ["a"] "" :: evaluationOf ["b"] "b" ::
      List.replicate k (evaluationOf ["b"] "")) := by
  intro hreported
  obtain ⟨mid, c, post, m, m', action, hsplit, _, hrun, heval, hname⟩ :=
    hreported [] (evaluationOf ["a"] "") [] (evaluationOf ["b"] "b") _ "a" rfl
      ⟨⟨"a", true, [], 50⟩, by decide, rfl, rfl⟩
      (by
        rintro ⟨w, hw, _, hname⟩
        obtain rfl := List.mem_singleton.mp hw
        exact absurd hname (by decide))
  cases mid with
  | nil =>
    cases hsplit
    cases hrun
    cases heval
    exact absurd hname (by unfold MigrationAction.Names; decide)
  | cons d mid =>
    rw [List.nil_append, List.cons_append, List.cons.injEq] at hsplit
    obtain ⟨rfl, hrest⟩ := hsplit
    have hsame : ∀ e ∈ mid ++ c :: post, e = evaluationOf ["b"] "" := by
      intro e he
      rw [← hrest] at he
      exact List.eq_of_mem_replicate he
    have hstill : run (step {}) replaced mid = some replaced := by
      apply run_of_still
      intro e he
      rw [hsame e (List.mem_append_left _ he)]
      rfl
    obtain rfl : replaced = m := Option.some.inj (hstill.symm.trans hrun)
    rw [hsame c (List.mem_append_right _ List.mem_cons_self)] at heval
    cases heval

theorem join_hides_loss :
    ¬LossesReported {}
      [evaluationOf ["a"] "", evaluationOf ["b"] "b", evaluationOf ["b"] ""] :=
  not_lossesReported_replaced 1

end Manager

end Migration
end TinyAgentOS.Scheduling
