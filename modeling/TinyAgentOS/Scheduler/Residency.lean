import TinyAgentOS.Scheduler.CoreAware

/-!
# The residents of the core-aware scheduler

Two facts about every registry that loads and unloads can reach: which resident
a load may touch, and whether a core has one holder.  The second depends on the
core lists of the loads: a list that names a core twice is placed as it is.

Main results:

- `run_priorityRespected`: whom a load may shrink or evict, in every run.
- `run_exclusive`: no core has two holders, if no list is placed that names a core twice.
- `core_shared`: a list that does gives a core to two residents.
-/

namespace TinyAgentOS.Scheduler
namespace CoreAwareScheduler

open Collections Transition

variable {shapeLookup : String → BackendResourceShape} {s s' : CoreAwareScheduler}
  {request : LoadRequest}

/-! ## Priorities -/

/-- Residents are listed under their ids. -/
def Keyed (s : CoreAwareScheduler) : Prop :=
  ∀ id m, s.residents.get? id = some m → m.modelId = id

theorem keyed_init : Keyed init := by
  intro id m hget
  cases hget

theorem Keyed.registerLoaded (h : Keyed s) (m : LoadedModel) : Keyed (s.registerLoaded m) := by
  intro id n hget
  simp only [CoreAwareScheduler.registerLoaded, CoreAwareScheduler.emit, Dict.get?_set] at hget
  split at hget
  · rename_i hid
    cases hget
    exact hid
  · exact h id n hget

theorem Keyed.pop (h : Keyed s) (modelId : String) :
    Keyed { s with residents := s.residents.pop modelId } := by
  intro id m hget
  simp only [Dict.get?_pop] at hget
  split at hget
  · cases hget
  · exact h id m hget

theorem Keyed.markUnloaded (h : Keyed s) (modelId : String) : Keyed (s.markUnloaded modelId) := by
  unfold CoreAwareScheduler.markUnloaded
  split
  · exact h
  · exact h.pop modelId

theorem Keyed.shrinkReload (h : Keyed s) (m : LoadedModel) (cores : List Core) :
    Keyed (s.shrinkReload m cores) :=
  h.registerLoaded { m with resourceHolds := some cores, tpMode := coresToTpMode cores }

/-- A load keeps residents under their ids. -/
theorem Keyed.load (h : Keyed s) (request : LoadRequest) (callbackRaises : Bool) :
    Keyed (s.load shapeLookup request callbackRaises).1 := by
  have hout := loaded shapeLookup s request callbackRaises
  revert hout
  generalize s.load shapeLookup request callbackRaises = out
  intro hout
  cases hout with
  | noCores | free | contention => exact h
  | shrunk victim freed kept => exact h.shrinkReload victim kept
  | evicted victim core => exact h.pop victim.modelId

variable {e : SchedulerEvent} {m victim : LoadedModel} {callbackRaises : Bool} {core freed : Core}
  {kept available : List Core}

theorem Keyed.step (h : Keyed s) (hstep : s.step shapeLookup e = some s') : Keyed s' := by
  cases e with
  | load request callbackRaises =>
    have hload : Keyed (s.load shapeLookup request callbackRaises).1 :=
      h.load request callbackRaises
    simp only [step] at hstep
    split at hstep
    · rename_i t m hout
      rw [hout] at hload
      cases hstep
      exact Keyed.registerLoaded hload m
    · rename_i t e hout
      rw [hout] at hload
      cases hstep
      exact hload
  | markUnloaded modelId =>
    cases hstep
    exact h.markUnloaded modelId

/-- What a load owes to the residents it finds: it touches none that is always resident or
of a higher priority, and a contention leaves the scheduler as it was. -/
structure PriorityRespected (s : CoreAwareScheduler) (request : LoadRequest)
    (out : CoreAwareScheduler × Except LoadError LoadedModel) : Prop where
  touched : ∀ id m, s.residents.get? id = some m → out.1.residents.get? id ≠ some m →
    m.isAlwaysResident = false ∧ request.rank ≤ m.effectivePriorityRank
  untouched : ∀ message, out.2 = .error (.resourceContention message) → out.1 = s

/-- An evictable resident is not always resident and of no higher priority. -/
theorem evictable_imp (h : evictable request m = true) :
    m.isAlwaysResident = false ∧ request.rank ≤ m.effectivePriorityRank := by
  unfold evictable at h
  split at h
  · contradiction
  rename_i hrank
  constructor
  · cases hresident : m.isAlwaysResident with
    | false => rfl
    | true =>
      apply absurd _ hrank
      simp [LoadedModel.effectivePriorityRank, hresident]
  · rcases Bool.or_eq_true_iff.mp h with hpinned | hle
    · have hminus : request.rank = -1 := by simp [LoadRequest.rank, hpinned]
      omega
    · exact of_decide_eq_true hle

/-- A placement is not a contention. -/
theorem placed_ne_contention {message : String} :
    placed callbackRaises request core ≠ .error (.resourceContention message) := by
  intro h
  unfold placed at h
  split at h <;> cases h

/-- A load keeps what it owes to the residents it finds. -/
theorem priorityRespected_load (h : Keyed s) (request : LoadRequest) (callbackRaises : Bool) :
    PriorityRespected s request (s.load shapeLookup request callbackRaises) := by
  have hout := loaded shapeLookup s request callbackRaises
  revert hout
  generalize s.load shapeLookup request callbackRaises = out
  intro hout
  -- Only the entry of the victim can differ.
  have hvictim : ∀ (victim : LoadedModel) (t : CoreAwareScheduler),
      victim ∈ s.residents.values → evictable request victim = true →
      (∀ id, victim.modelId ≠ id → t.residents.get? id = s.residents.get? id) →
      ∀ id m, s.residents.get? id = some m → t.residents.get? id ≠ some m →
        m.isAlwaysResident = false ∧ request.rank ≤ m.effectivePriorityRank := by
    intro victim t hmem hevict hrest id m hget hchanged
    obtain ⟨id', hget'⟩ := Dict.mem_values_iff.mp hmem
    have hkey := h id' victim hget'
    by_cases hid : victim.modelId = id
    · have hsame : m = victim := by
        rw [← hid, hkey, hget'] at hget
        exact (Option.some.inj hget).symm
      rw [hsame]
      exact evictable_imp hevict
    · rw [hrest id hid] at hchanged
      exact absurd hget hchanged
  cases hout with
  | noCores | free | contention =>
    exact ⟨fun id m hget hne => absurd hget hne, fun message herr => rfl⟩
  | shrunk victim freed kept callbackRaises hmem hevict =>
    constructor
    · apply hvictim victim _ hmem hevict
      intro id hid
      exact Dict.get?_set_of_ne _ _ hid
    · intro message herr
      exact absurd herr placed_ne_contention
  | evicted victim core callbackRaises hmem hevict =>
    constructor
    · apply hvictim victim _ hmem hevict
      intro id hid
      exact Dict.get?_pop_of_ne _ hid
    · intro message herr
      exact absurd herr placed_ne_contention

/-- In every run, whatever a load finds, it respects priorities and pins. -/
theorem run_priorityRespected (shapeLookup : String → BackendResourceShape)
    {start s : CoreAwareScheduler} {es : List SchedulerEvent} (hstart : Keyed start)
    (hrun : run (step shapeLookup) start es = some s) (request : LoadRequest)
    (callbackRaises : Bool) :
    PriorityRespected s request (s.load shapeLookup request callbackRaises) := by
  have hkeyed : Keyed s :=
    invariant_of_run (fun _ _ _ hkeyed hstep => hkeyed.step hstep) hstart hrun
  exact priorityRespected_load hkeyed request callbackRaises

/-- A background model asks for the core of a pinned one. -/
theorem run_priorityRespected_pinned :
    ∃ s, run (step getDefaultShape) init
        [.load { modelId := "chat", backendName := "rkllama" } false,
          .load { modelId := "voice", backendName := "rkllama", pinned := true } false,
          .markUnloaded "chat"] = some s ∧
      PriorityRespected s
        { modelId := "batch", backendName := "rkllama", priority := "background",
          requestedCores := some [2] }
        (s.load getDefaultShape
          { modelId := "batch", backendName := "rkllama", priority := "background",
            requestedCores := some [2] } false) := by
  obtain ⟨s, hrun⟩ := Option.isSome_iff_exists.mp (by
    decide :
    (run (step getDefaultShape) init
      [.load { modelId := "chat", backendName := "rkllama" } false,
        .load { modelId := "voice", backendName := "rkllama", pinned := true } false,
        .markUnloaded "chat"]).isSome)
  exact ⟨s, hrun, run_priorityRespected getDefaultShape keyed_init hrun _ false⟩

/-! ## Cores -/

/-- What a resident holds: each core once, at least one on a backend with cores, and
exactly those its session was opened with. -/
structure WellHeld (shapeLookup : String → BackendResourceShape) (m : LoadedModel) : Prop where
  nodup : m.coresHeld.Nodup
  nonempty : (shapeLookup m.backend).hasCores = true → m.coresHeld ≠ []
  tpMode : (tpModeToCores m.tpMode).Perm m.coresHeld

/-- No core has two holders. -/
structure Exclusive (shapeLookup : String → BackendResourceShape) (s : CoreAwareScheduler) :
    Prop where
  keyed : Keyed s
  wellHeld : ∀ id m, s.residents.get? id = some m → WellHeld shapeLookup m
  disjoint : ∀ id id' m m', s.residents.get? id = some m → s.residents.get? id' = some m' →
    id ≠ id' → m.coresHeld.Disjoint m'.coresHeld

/-- No resident holds one of these cores. -/
def Unheld (s : CoreAwareScheduler) (cores : List Core) : Prop :=
  ∀ id m, s.residents.get? id = some m → m.coresHeld.Disjoint cores

theorem exclusive_init : Exclusive shapeLookup init where
  keyed := keyed_init
  wellHeld := by
    intro id m hget
    cases hget
  disjoint := by
    intro id id' m m' hget
    cases hget

theorem tpModeToCores_perm (cores : List Core) :
    (tpModeToCores (coresToTpMode cores)).Perm cores := by
  rw [tpModeToCores_coresToTpMode]
  exact sortedCores_perm cores

theorem wellHeld_buildNpuModel {cores : List Core} (hnodup : cores.Nodup) (hne : cores ≠ []) :
    WellHeld shapeLookup (buildNpuModel request cores) where
  nodup := hnodup
  nonempty := fun _ => hne
  tpMode := tpModeToCores_perm cores

theorem wellHeld_makeNoCoreModel (hcores : (shapeLookup request.backendName).hasCores = false) :
    WellHeld shapeLookup (makeNoCoreModel request) where
  nodup := List.nodup_nil
  nonempty := by
    intro hhas
    rw [show (makeNoCoreModel request).backend = request.backendName from rfl, hcores] at hhas
    contradiction
  tpMode := List.Perm.refl _

section

variable (h : Exclusive shapeLookup s)
include h

/-- A model whose cores no other resident holds can be registered. -/
theorem Exclusive.registerLoaded (hwell : WellHeld shapeLookup m)
    (hfree : ∀ id n, s.residents.get? id = some n → m.modelId ≠ id →
      n.coresHeld.Disjoint m.coresHeld) : Exclusive shapeLookup (s.registerLoaded m) where
  keyed := h.keyed.registerLoaded m
  wellHeld := by
    intro id n hget
    simp only [CoreAwareScheduler.registerLoaded, CoreAwareScheduler.emit, Dict.get?_set] at hget
    split at hget
    · cases hget
      exact hwell
    · exact h.wellHeld id n hget
  disjoint := by
    intro id id' n n' hget hget' hne
    simp only [CoreAwareScheduler.registerLoaded, CoreAwareScheduler.emit, Dict.get?_set]
      at hget hget'
    split at hget
    · rename_i hid
      cases hget
      split at hget'
      · rename_i hid'
        exact absurd (hid.symm.trans hid') hne
      · rename_i hid'
        exact (hfree id' n' hget' hid').symm
    · rename_i hid
      split at hget'
      · cases hget'
        exact hfree id n hget hid
      · exact h.disjoint id id' n n' hget hget' hne

/-- A removal keeps the others as they are. -/
theorem Exclusive.pop (modelId : String) :
    Exclusive shapeLookup { s with residents := s.residents.pop modelId } where
  keyed := h.keyed.pop modelId
  wellHeld := by
    intro id m hget
    simp only [Dict.get?_pop] at hget
    split at hget
    · cases hget
    · exact h.wellHeld id m hget
  disjoint := by
    intro id id' m m' hget hget' hne
    simp only [Dict.get?_pop] at hget hget'
    split at hget
    · cases hget
    split at hget'
    · cases hget'
    · exact h.disjoint id id' m m' hget hget' hne

theorem Exclusive.markUnloaded (modelId : String) :
    Exclusive shapeLookup (s.markUnloaded modelId) := by
  have hpop := h.pop modelId
  unfold CoreAwareScheduler.markUnloaded
  split
  · exact h
  · exact ⟨hpop.keyed, hpop.wellHeld, hpop.disjoint⟩

/-- The victim of a load, under its id. -/
theorem Exclusive.get?_victim (hmem : victim ∈ s.residents.values) :
    s.residents.get? victim.modelId = some victim := by
  obtain ⟨id, hget⟩ := Dict.mem_values_iff.mp hmem
  rw [h.keyed id victim hget]
  exact hget

/-- A victim that keeps some of its cores holds them exclusively. -/
theorem Exclusive.shrinkReload (hmem : victim ∈ s.residents.values)
    (hperm : victim.coresHeld.Perm (freed :: kept)) (hkept : kept ≠ []) :
    Exclusive shapeLookup (s.shrinkReload victim kept) := by
  have hget := h.get?_victim hmem
  have hnodup := hperm.nodup_iff.mp (h.wellHeld _ victim hget).nodup
  have hshrunk := h.registerLoaded
    (m := { victim with resourceHolds := some kept, tpMode := coresToTpMode kept })
    ⟨(List.nodup_cons.mp hnodup).2, fun _ => hkept, tpModeToCores_perm kept⟩
    (by
      intro id n hgetn hne c hc hck
      have hheld : c ∈ victim.coresHeld := hperm.mem_iff.mpr (List.mem_cons_of_mem _ hck)
      exact h.disjoint _ id victim n hget hgetn hne hheld hc)
  exact ⟨hshrunk.keyed, hshrunk.wellHeld, hshrunk.disjoint⟩

/-- The core a victim gives up is held by no one. -/
theorem unheld_shrinkReload (hmem : victim ∈ s.residents.values)
    (hperm : victim.coresHeld.Perm (freed :: kept)) :
    Unheld (s.shrinkReload victim kept) [freed] := by
  have hget := h.get?_victim hmem
  have hnodup := hperm.nodup_iff.mp (h.wellHeld _ victim hget).nodup
  have hheld : freed ∈ victim.coresHeld := hperm.mem_iff.mpr List.mem_cons_self
  intro id m hgetm c hc hfreed
  rw [List.mem_singleton.mp hfreed] at hc
  simp only [shrinkReload, emit, Dict.get?_set] at hgetm
  split at hgetm
  · cases hgetm
    exact (List.nodup_cons.mp hnodup).1 hc
  · rename_i hne
    exact h.disjoint _ id victim m hget hgetm hne hheld hc

/-- The cores of an evicted victim are held by no one. -/
theorem unheld_evictReload (hmem : victim ∈ s.residents.values)
    (hcore : core ∈ victim.coresHeld) : Unheld (s.evictReload victim) [core] := by
  have hget := h.get?_victim hmem
  intro id m hgetm c hc hfreed
  rw [List.mem_singleton.mp hfreed] at hc
  simp only [evictReload, emit, Dict.get?_pop] at hgetm
  split at hgetm
  · cases hgetm
  rename_i hne
  exact h.disjoint _ id victim m hget hgetm hne hcore hc

end

/-! ## Loads that name each core once -/

/-- A list of cores that is placed as it is does not name one of them twice. -/
def PlacesDistinct (shapeLookup : String → BackendResourceShape) (s : CoreAwareScheduler) :
    SchedulerEvent → Prop
  | .load request _ =>
    ∀ cores ∈ request.requestedCores,
      (shapeLookup request.backendName).hasCores = true →
        (∀ m ∈ s.residents.values, ∀ c ∈ cores, c ∉ m.coresHeld) → cores.Nodup
  | .markUnloaded _ => True

instance decidablePlacesDistinct (shapeLookup : String → BackendResourceShape)
    (s : CoreAwareScheduler) : ∀ e, Decidable (PlacesDistinct shapeLookup s e)
  | .load request _ =>
    inferInstanceAs (Decidable (∀ cores ∈ request.requestedCores,
      (shapeLookup request.backendName).hasCores = true →
        (∀ m ∈ s.residents.values, ∀ c ∈ cores, c ∉ m.coresHeld) → cores.Nodup))
  | .markUnloaded _ => isTrue trivial

theorem defaultCores_nodup (residents : List LoadedModel)
    (havailable : available.Nodup) : (defaultCores available residents).Nodup := by
  unfold defaultCores
  split
  · exact havailable
  · cases available.getLast? <;> simp
  · exact (havailable.filter _).sublist (List.take_sublist _ _)

/-- The cores a load wants are distinct, if those it asks for are. -/
theorem wantedCores_nodup {residents : List LoadedModel} (havailable : available.Nodup)
    (hrequested : ∀ cores ∈ request.requestedCores,
      cores.Perm (wantedCores request available residents) → cores.Nodup) :
    (wantedCores request available residents).Nodup := by
  have hdefault := defaultCores_nodup residents havailable
  cases hreq : request.requestedCores with
  | none => simpa only [wantedCores, hreq] using hdefault
  | some cores =>
    cases cores with
    | nil => simpa only [wantedCores, hreq] using hdefault
    | cons c cs =>
      have hwanted : wantedCores request available residents = sortedCores (c :: cs) := by
        simp only [wantedCores, hreq]
      have hperm := sortedCores_perm (c :: cs)
      rw [hwanted] at hrequested ⊢
      exact hperm.nodup_iff.mpr (hrequested (c :: cs) hreq hperm.symm)

theorem availableCores_nodup (shape : BackendResourceShape) : shape.availableCores.Nodup := by
  unfold BackendResourceShape.availableCores
  cases hcores : shape.cores with
  | none => exact List.nodup_nil
  | some cores => exact shape.distinct cores hcores

/-- A load leaves the cores exclusively held, and places a model on cores no one holds. -/
theorem Exclusive.load (h : Exclusive shapeLookup s)
    (hplaces : PlacesDistinct shapeLookup s (.load request callbackRaises)) :
    Exclusive shapeLookup (s.load shapeLookup request callbackRaises).1 ∧
      ∀ m, (s.load shapeLookup request callbackRaises).2 = .ok m →
        WellHeld shapeLookup m ∧
          Unheld (s.load shapeLookup request callbackRaises).1 m.coresHeld := by
  have hplaced : ∀ (raises : Bool) (core : Core) (t : CoreAwareScheduler) (m : LoadedModel),
      Unheld t [core] → placed raises request core = .ok m →
      WellHeld shapeLookup m ∧ Unheld t m.coresHeld := by
    intro raises core t m hunheld hm
    unfold placed at hm
    split at hm
    · cases hm
    cases hm
    have hwell : WellHeld shapeLookup (buildNpuModel request [core]) :=
      wellHeld_buildNpuModel (List.nodup_singleton core) (List.cons_ne_nil core [])
    exact ⟨hwell, hunheld⟩
  have hout := loaded shapeLookup s request callbackRaises
  revert hout
  generalize s.load shapeLookup request callbackRaises = out
  intro hout
  cases hout with
  | noCores hcores =>
    refine ⟨h, ?_⟩
    intro m hm
    cases hm
    refine ⟨wellHeld_makeNoCoreModel hcores, ?_⟩
    intro id n hget
    exact List.disjoint_nil_right _
  | free cores hcores hne hwanted hfree =>
    refine ⟨h, ?_⟩
    intro m hm
    cases hm
    have hnodup : cores.Nodup := by
      rw [hwanted]
      apply wantedCores_nodup (availableCores_nodup _)
      intro requested hrequested hperm
      apply hplaces requested hrequested hcores
      intro n hn c hc
      exact hfree n hn c (hwanted ▸ hperm.mem_iff.mp hc)
    refine ⟨wellHeld_buildNpuModel hnodup hne, ?_⟩
    intro id n hget c hheld hc
    exact hfree n (Dict.mem_values_iff.mpr ⟨id, hget⟩) c hc hheld
  | contention message =>
    refine ⟨h, ?_⟩
    intro m hm
    cases hm
  | shrunk victim freed kept raises hmem hevict hperm hkept =>
    refine ⟨h.shrinkReload hmem hperm hkept, ?_⟩
    intro m hm
    exact hplaced raises freed _ m (unheld_shrinkReload h hmem hperm) hm
  | evicted victim core raises hmem hevict hcore =>
    have hpop := h.pop victim.modelId
    refine ⟨⟨hpop.keyed, hpop.wellHeld, hpop.disjoint⟩, ?_⟩
    intro m hm
    exact hplaced raises core _ m (unheld_evictReload h hmem hcore) hm

/-- One call keeps the cores exclusively held. -/
theorem Exclusive.step (h : Exclusive shapeLookup s)
    (hplaces : PlacesDistinct shapeLookup s e) (hstep : s.step shapeLookup e = some s') :
    Exclusive shapeLookup s' := by
  cases e with
  | load request callbackRaises =>
    have hload := h.load hplaces
    simp only [step] at hstep
    split at hstep
    · rename_i t m hout
      rw [hout] at hload
      cases hstep
      obtain ⟨hwell, hunheld⟩ := hload.2 m rfl
      apply hload.1.registerLoaded hwell
      intro id n hget _
      exact hunheld id n hget
    · rename_i t err hout
      rw [hout] at hload
      cases hstep
      exact hload.1
  | markUnloaded modelId =>
    cases hstep
    exact h.markUnloaded modelId

/-- In every run that places no list of cores with a repetition, no core has two holders,
each resident holds its cores once, and its session was opened with exactly those. -/
theorem run_exclusive (shapeLookup : String → BackendResourceShape)
    {start s : CoreAwareScheduler} {es : List SchedulerEvent}
    (hstart : Exclusive shapeLookup start)
    (hplaces : Guarded (step shapeLookup) (PlacesDistinct shapeLookup) start es)
    (hrun : run (step shapeLookup) start es = some s) : Exclusive shapeLookup s :=
  invariant_of_guarded_run (fun _ _ _ h hplaces hstep => h.step hplaces hstep)
    hstart hplaces hrun

/-- A solo model gives up one of its cores to a second, and is then unloaded. -/
theorem run_exclusive_two :
    ∃ s, run (step getDefaultShape) init
        [.load { modelId := "chat", backendName := "rkllama" } false,
          .load { modelId := "embed", backendName := "rkllama",
                  requestedCores := some [1, 0] } false,
          .markUnloaded "chat"] = some s ∧
      Exclusive getDefaultShape s := by
  obtain ⟨s, hrun⟩ := Option.isSome_iff_exists.mp (by
    decide :
    (run (step getDefaultShape) init
      [.load { modelId := "chat", backendName := "rkllama" } false,
        .load { modelId := "embed", backendName := "rkllama",
                requestedCores := some [1, 0] } false,
        .markUnloaded "chat"]).isSome)
  exact ⟨s, hrun, run_exclusive getDefaultShape exclusive_init (by decide) hrun⟩

/-- A list that names a core twice is placed as it is; when its holder gives up one of the
two, the core has two holders. -/
theorem core_shared :
    ¬ ∀ (es : List SchedulerEvent) (s : CoreAwareScheduler),
      run (step getDefaultShape) init es = some s → Exclusive getDefaultShape s := by
  intro hclaim
  have hend : (run (step getDefaultShape) init
      [.load { modelId := "chat", backendName := "rkllama",
               requestedCores := some [0, 0] } false,
        .load { modelId := "embed", backendName := "rkllama",
                requestedCores := some [0] } false]).map
      (fun s => ((s.residents.get? "chat").map LoadedModel.coresHeld,
        (s.residents.get? "embed").map LoadedModel.coresHeld)) = some (some [0], some [0]) := by
    decide
  obtain ⟨s, hrun, hheld⟩ := Option.map_eq_some_iff.mp hend
  have hexclusive := hclaim _ s hrun
  obtain ⟨chat, hchat, hchatCores⟩ := Option.map_eq_some_iff.mp (congrArg Prod.fst hheld)
  obtain ⟨embed, hembed, hembedCores⟩ := Option.map_eq_some_iff.mp (congrArg Prod.snd hheld)
  have hdisjoint := hexclusive.disjoint "chat" "embed" chat embed hchat hembed (by decide)
  rw [hchatCores, hembedCores] at hdisjoint
  exact hdisjoint List.mem_cons_self List.mem_cons_self

end CoreAwareScheduler
end TinyAgentOS.Scheduler
