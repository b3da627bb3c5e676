import TinyAgentOS.Scheduler.Residency

/-!
# Loads under contention

The default policy looks at how many residents hold cores, not at which cores are free: a second
model is given the last core, whoever holds it.  The registry is changed before the callback that
reloads or evicts a resident, and stays changed where the callback raises.

Main results:

- `freeCoreEnough_iff`: when a default load makes do with a free core.
- `freeCore_evicts`: a resident evicted while two cores are free.
- `not_failureTruthful`: no failed callback leaves the registry truthful.
-/

namespace TinyAgentOS.Scheduler
namespace CoreAwareScheduler

open Collections Transition

variable {shapeLookup : String → BackendResourceShape} {s : CoreAwareScheduler}
  {request : LoadRequest} {callbackRaises : Bool}

/-! ## Free cores -/

/-- `_npu_residents`. -/
def npuResidents (s : CoreAwareScheduler) : List LoadedModel :=
  s.residents.values.filter fun m => m.coresHeld ≠ []

/-- No resident holds the core. -/
def Free (s : CoreAwareScheduler) (c : Core) : Prop :=
  ∀ m ∈ s.residents.values, c ∉ m.coresHeld

instance (s : CoreAwareScheduler) (c : Core) : Decidable (s.Free c) :=
  inferInstanceAs (Decidable (∀ m ∈ s.residents.values, c ∉ m.coresHeld))

/-- The load takes free cores of the backend and touches nobody. -/
def TakesFree (available : List Core) (s : CoreAwareScheduler) (request : LoadRequest)
    (out : CoreAwareScheduler × Except LoadError LoadedModel) : Prop :=
  ∃ cores, cores ≠ [] ∧ (∀ c ∈ cores, c ∈ available ∧ s.Free c) ∧
    out = (s, .ok (buildNpuModel request cores))

/-- The documented sharing: the only model that holds cores gives up one of them to the load and
keeps the others. -/
def Shares (s : CoreAwareScheduler) (request : LoadRequest)
    (out : CoreAwareScheduler × Except LoadError LoadedModel) : Prop :=
  ∃ victim freed kept, s.npuResidents = [victim] ∧ evictable request victim = true ∧
    victim.coresHeld.Perm (freed :: kept) ∧ kept ≠ [] ∧ freed ∉ kept ∧
    out = (s.shrinkReload victim kept, .ok (buildNpuModel request [freed]))

/-- What a free core is enough for. -/
structure FreeCoreEnough (available : List Core) (s : CoreAwareScheduler) (request : LoadRequest)
    (out : CoreAwareScheduler × Except LoadError LoadedModel) : Prop where
  placed : TakesFree available s request out ∨ Shares s request out
  resident : ∀ id, (s.residents.get? id).isSome → (out.1.residents.get? id).isSome
  uncontended : ∀ message, out.2 ≠ .error (.resourceContention message)

/-- If one model holds all the cores that are held, and the last one among them, it can give up
the last core: it is evictable for the load, holds the core once and another one beside it, and
its reload does not raise. -/
def LastCoreShareable (available : List Core) (s : CoreAwareScheduler) (request : LoadRequest)
    (callbackRaises : Bool) : Prop :=
  ∀ victim last, s.npuResidents = [victim] → available.getLast? = some last →
    last ∈ victim.coresHeld →
      evictable request victim = true ∧ victim.coresHeld.count last = 1 ∧
        1 < victim.coresHeld.length ∧ callbackRaises = false

variable {c : Core} {occupiedBy : Dict Core LoadedModel} {victim : LoadedModel}
  {available : List Core}

theorem free_iff : s.Free c ↔ c ∉ s.npuResidents.flatMap LoadedModel.coresHeld := by
  rw [List.mem_flatMap, not_exists]
  constructor
  · rintro hfree m ⟨hmem, hheld⟩
    exact hfree m (List.mem_filter.mp hmem).1 hheld
  · intro hnone m hmem hheld
    refine hnone m ⟨List.mem_filter.mpr ⟨hmem, ?_⟩, hheld⟩
    exact decide_eq_true (List.ne_nil_of_mem hheld)

variable {cores held : List Core} {last : Core}
  {out : CoreAwareScheduler × Except LoadError LoadedModel}

/-- Wanted cores that are free are taken. -/
theorem load_of_free (hcores : (shapeLookup request.backendName).hasCores = true) (hne : cores ≠ [])
    (hwanted : wantedCores request (shapeLookup request.backendName).availableCores
      s.npuResidents = cores) (hfree : ∀ c ∈ cores, s.Free c) :
    s.load shapeLookup request callbackRaises = (s, .ok (buildNpuModel request cores)) := by
  have hkeys : (coresOccupiedBy cores s.npuResidents).keys = [] := by
    apply List.eq_nil_iff_forall_not_mem.mpr
    intro c hc
    obtain ⟨m, hm⟩ := Dict.mem_keys_iff.mp hc
    obtain ⟨hmem, hheld, hwant⟩ := coresOccupiedBy_eq_some hm
    exact hfree c hwant m (List.mem_filter.mp hmem).1 hheld
  unfold load
  simp only
  rw [if_neg (by simp [hcores])]
  unfold npuResidents at hwanted hkeys
  rw [hwanted, if_neg hne, if_pos hkeys]

/-- Wanted cores of which one is held are contended. -/
theorem load_of_held (hcores : (shapeLookup request.backendName).hasCores = true) {m : LoadedModel}
    (hwanted : wantedCores request (shapeLookup request.backendName).availableCores
      s.npuResidents = cores) (hmem : m ∈ s.npuResidents) (hheld : c ∈ m.coresHeld)
    (hc : c ∈ cores) :
    s.load shapeLookup request callbackRaises =
      s.resolveCorePressure request cores (coresOccupiedBy cores s.npuResidents)
        callbackRaises := by
  have hkey := mem_keys_coresOccupiedBy hmem hheld hc
  unfold load
  simp only
  rw [if_neg (by simp [hcores])]
  unfold npuResidents at hwanted hkey ⊢
  rw [hwanted, if_neg (List.ne_nil_of_mem hc), if_neg (List.ne_nil_of_mem hkey)]

/-! ## One victim -/

/-- Cores that one model holds have one victim. -/
theorem victimsOf_sole (hne : occupiedBy.keys ≠ []) (hall : ∀ m ∈ occupiedBy.values, m = victim) :
    (victimsOf occupiedBy).values = [victim] := by
  let one : Dict String LoadedModel := Dict.empty.set victim.modelId victim
  have hfold : ∀ models : List LoadedModel, (∀ m ∈ models, m = victim) →
      models.foldl
        (fun victims m =>
          if (victims.get? m.modelId).isSome then victims else victims.set m.modelId m) one =
        one := by
    intro models
    induction models with
    | nil => exact fun _ => rfl
    | cons m models ih =>
      intro hmodels
      obtain rfl := hmodels m List.mem_cons_self
      rw [List.foldl_cons, if_pos (by simp [one])]
      exact ih fun n hn => hmodels n (List.mem_cons_of_mem _ hn)
  have hvalues : occupiedBy.values ≠ [] := by
    intro hnil
    apply hne
    rw [Dict.keys, List.map_eq_nil_iff]
    exact List.map_eq_nil_iff.mp hnil
  obtain ⟨m, models, hmodels⟩ := List.exists_cons_of_ne_nil hvalues
  rw [hmodels] at hall
  obtain rfl := hall m List.mem_cons_self
  have hfirst : (Dict.empty : Dict String LoadedModel).get? m.modelId = none :=
    Dict.get?_empty _
  rw [victimsOf, hmodels, List.foldl_cons, hfirst, if_neg (by simp),
    hfold models fun n hn => hall n (List.mem_cons_of_mem _ hn)]
  rfl

/-- Pressure on one victim: a contention, a shrink if it holds several cores, or an eviction. -/
theorem resolveCorePressure_sole (s : CoreAwareScheduler) (request : LoadRequest)
    (callbackRaises : Bool)
    (wanted : List Core) (hsole : (victimsOf occupiedBy).values = [victim]) :
    (evictable request victim = false ∧
      ∃ message, s.resolveCorePressure request wanted occupiedBy callbackRaises =
        (s, .error (.resourceContention message))) ∨
    (evictable request victim = true ∧ 1 < victim.coresHeld.length ∧
      s.resolveCorePressure request wanted occupiedBy callbackRaises =
        (s.shrinkReload victim (giveUp wanted victim.coresHeld).2,
          placed callbackRaises request (giveUp wanted victim.coresHeld).1)) ∨
    (evictable request victim = true ∧ victim.coresHeld.length ≤ 1 ∧
      ∃ core, s.resolveCorePressure request wanted occupiedBy callbackRaises =
        (s.evictReload victim, placed callbackRaises request core)) := by
  unfold resolveCorePressure
  simp only [hsole]
  cases hevict : evictable request victim with
  | false =>
    refine Or.inl ⟨rfl, ?_⟩
    simp [hevict]
  | true =>
    have hcandidates : [victim].filter (evictable request) = [victim] := by simp [hevict]
    have hnone : ([victim].filter fun m => !evictable request m) = [] := by simp [hevict]
    have hrank : byRank [victim] = [victim] := rfl
    rw [hnone, if_neg (by simp), hcandidates, hrank]
    by_cases hlong : 1 < victim.coresHeld.length
    · refine Or.inr (Or.inl ⟨rfl, hlong, ?_⟩)
      rw [List.find?_cons_of_pos (by simpa using hlong)]
    · refine Or.inr (Or.inr ⟨rfl, not_lt.mp hlong, ?_⟩)
      rw [List.find?_cons_of_neg (by simpa using hlong), List.find?_nil]
      exact ⟨_, rfl⟩

theorem mem_of_dropLastWanted {wanted rest : List Core} {freed : Core}
    (h : dropLastWanted wanted held = some (freed, rest)) : freed ∈ wanted := by
  induction held generalizing rest with
  | nil => contradiction
  | cons c held ih =>
    simp only [dropLastWanted] at h
    split at h
    · rename_i freed' rest' hrest
      cases h
      exact ih hrest
    · split at h
      · rename_i hc
        cases h
        exact hc
      · contradiction

theorem dropLastWanted_ne_none {wanted : List Core} (hheld : c ∈ held)
    (hc : c ∈ wanted) : dropLastWanted wanted held ≠ none := by
  induction held with
  | nil => contradiction
  | cons d held ih =>
    intro hnone
    simp only [dropLastWanted] at hnone
    split at hnone
    · contradiction
    rename_i hrest
    rcases List.mem_cons.mp hheld with rfl | hin
    · rw [if_pos hc] at hnone
      contradiction
    · exact ih hin hrest

/-- A victim that holds the only wanted core gives up that one. -/
theorem giveUp_singleton (hheld : last ∈ held) : (giveUp [last] held).1 = last := by
  obtain ⟨⟨freed, rest⟩, hdrop⟩ :=
    Option.ne_none_iff_exists'.mp (dropLastWanted_ne_none hheld (List.mem_singleton.mpr rfl))
  rw [giveUp, hdrop, Option.getD_some]
  exact List.mem_singleton.mp (mem_of_dropLastWanted hdrop)

/-! ## Default loads -/

theorem shrinkReload_ne_self (victim : LoadedModel) (kept : List Core) :
    s.shrinkReload victim kept ≠ s := by
  intro heq
  have hlength := congrArg (fun t : CoreAwareScheduler => t.events.length) heq
  simp [shrinkReload, emit] at hlength

theorem FreeCoreEnough.of_takesFree (h : TakesFree available s request out) :
    FreeCoreEnough available s request out := by
  refine ⟨Or.inl h, ?_, ?_⟩
  · obtain ⟨cores, _, _, rfl⟩ := h
    exact fun _ hsome => hsome
  · obtain ⟨cores, _, _, rfl⟩ := h
    intro message heq
    contradiction

theorem FreeCoreEnough.of_shares (h : Shares s request out) :
    FreeCoreEnough available s request out := by
  refine ⟨Or.inr h, ?_, ?_⟩
  · obtain ⟨victim, freed, kept, _, _, _, _, _, rfl⟩ := h
    intro id hsome
    simp only [shrinkReload, emit, Dict.get?_set]
    split
    · rfl
    · exact hsome
  · obtain ⟨victim, freed, kept, _, _, _, _, _, rfl⟩ := h
    intro message heq
    contradiction

/-- Under pressure a default load is as it should be if the victim shares its cores. -/
theorem freeCoreEnough_resolve_iff (hsole : s.npuResidents = [victim])
    (hheld : last ∈ victim.coresHeld) (hvictims : (victimsOf occupiedBy).values = [victim]) :
    FreeCoreEnough available s request
        (s.resolveCorePressure request [last] occupiedBy callbackRaises) ↔
      evictable request victim = true ∧ victim.coresHeld.count last = 1 ∧
        1 < victim.coresHeld.length ∧ callbackRaises = false := by
  have hperm := giveUp_perm [last] (List.ne_nil_of_mem hheld)
  rw [giveUp_singleton hheld] at hperm
  have hcount : victim.coresHeld.count last = 1 ↔ last ∉ (giveUp [last] victim.coresHeld).2 := by
    rw [hperm.count_eq, List.count_cons_self, Nat.add_eq_right, List.count_eq_zero]
  rcases resolveCorePressure_sole s request callbackRaises [last] hvictims with
    ⟨hevict, message, hout⟩ | ⟨hevict, hlong, hout⟩ | ⟨hevict, hshort, core, hout⟩
  · rw [hout]
    constructor
    · intro h
      exact absurd rfl (h.uncontended message)
    · rintro ⟨htrue, _⟩
      rw [hevict] at htrue
      contradiction
  · rw [hout, giveUp_singleton hheld]
    constructor
    · intro h
      rcases h.placed with ⟨cores, _, _, heq⟩ | ⟨victim', freed, kept, hsole', _, _, _, hnot, heq⟩
      · exact absurd (congrArg Prod.fst heq) (shrinkReload_ne_self _ _)
      · rw [hsole] at hsole'
        cases hsole'
        have hplaced := congrArg Prod.snd heq
        have hstate := congrArg Prod.fst heq
        cases callbackRaises with
        | true => contradiction
        | false =>
          have hfreed : last = freed := by
            have hholds : some [last] = some [freed] :=
              congrArg LoadedModel.resourceHolds (Except.ok.inj hplaced)
            simpa using hholds
          have hkept : (giveUp [last] victim.coresHeld).2 = kept := by
            have hget := congrArg (fun t : CoreAwareScheduler =>
              (t.residents.get? victim.modelId).map LoadedModel.resourceHolds) hstate
            simpa [shrinkReload, emit] using hget
          rw [hcount, hkept, hfreed]
          exact ⟨hevict, hnot, hlong, rfl⟩
    · rintro ⟨_, hone, _, rfl⟩
      apply FreeCoreEnough.of_shares
      refine ⟨victim, last, _, hsole, hevict, hperm, ?_, hcount.mp hone, rfl⟩
      intro hnil
      have hlength := hperm.length_eq
      rw [hnil, List.length_singleton] at hlength
      omega
  · rw [hout]
    constructor
    · intro h
      rcases h.placed with ⟨cores, _, _, heq⟩ | ⟨victim', freed, kept, _, _, _, _, _, heq⟩
      · have hlength := congrArg (fun out => out.1.events.length) heq
        simp [evictReload, emit] at hlength
      · have hevents := congrArg (fun out => out.1.events) heq
        simp [evictReload, shrinkReload, emit] at hevents
    · rintro ⟨_, _, hlong, _⟩
      omega

/-- A default load makes do with a free core unless one model holds all that is held, with the
last core among it, and cannot give that one up. -/
theorem freeCoreEnough_iff (shapeLookup : String → BackendResourceShape) (s : CoreAwareScheduler)
    (request : LoadRequest) (callbackRaises : Bool) (hdefault : request.requestedCores = none)
    (hfree : ∃ c ∈ (shapeLookup request.backendName).availableCores, s.Free c) :
    FreeCoreEnough (shapeLookup request.backendName).availableCores s request
        (s.load shapeLookup request callbackRaises) ↔
      LastCoreShareable (shapeLookup request.backendName).availableCores s request
        callbackRaises := by
  obtain ⟨free, havailable, hfree⟩ := hfree
  have hcores : (shapeLookup request.backendName).hasCores = true :=
    decide_eq_true (List.ne_nil_of_mem havailable)
  have hwanted : wantedCores request (shapeLookup request.backendName).availableCores
      s.npuResidents =
        defaultCores (shapeLookup request.backendName).availableCores s.npuResidents := by
    rw [wantedCores, hdefault]
  generalize havail : (shapeLookup request.backendName).availableCores = available at *
  -- What is wanted is free, and no one is asked to share.
  have htakes : ∀ cores, cores ≠ [] → (∀ c ∈ cores, c ∈ available ∧ s.Free c) →
      defaultCores available s.npuResidents = cores →
      FreeCoreEnough available s request (s.load shapeLookup request callbackRaises) := by
    intro cores hne hall heq
    apply FreeCoreEnough.of_takesFree
    refine ⟨cores, hne, hall, ?_⟩
    apply load_of_free hcores hne _ fun c hc => (hall c hc).2
    rw [havail, hwanted, heq]
  rcases hnpu : s.npuResidents with _ | ⟨victim, _ | ⟨n, models⟩⟩
  · refine iff_of_true (htakes available (List.ne_nil_of_mem havailable) ?_ ?_) ?_
    · intro c hc
      refine ⟨hc, free_iff.mpr ?_⟩
      rw [hnpu]
      simp
    · rw [hnpu]
      rfl
    · intro victim last hsole
      rw [hnpu] at hsole
      contradiction
  · obtain ⟨last, hlast⟩ : ∃ last, available.getLast? = some last :=
      ⟨_, List.getLast?_eq_some_getLast (List.ne_nil_of_mem havailable)⟩
    have hpick : defaultCores available s.npuResidents = [last] := by
      rw [hnpu]
      simp [defaultCores, hlast]
    by_cases hheld : last ∈ victim.coresHeld
    · have hmem : victim ∈ s.npuResidents := by rw [hnpu]; exact List.mem_singleton.mpr rfl
      have hload : s.load shapeLookup request callbackRaises =
          s.resolveCorePressure request [last] (coresOccupiedBy [last] s.npuResidents)
            callbackRaises := by
        apply load_of_held hcores _ hmem hheld (List.mem_singleton.mpr rfl)
        rw [havail, hwanted, hpick]
      have hvictims : (victimsOf (coresOccupiedBy [last] s.npuResidents)).values =
          [victim] := by
        apply victimsOf_sole
        · exact List.ne_nil_of_mem
            (mem_keys_coresOccupiedBy hmem hheld (List.mem_singleton.mpr rfl))
        · intro m hm
          obtain ⟨c, hc⟩ := Dict.mem_values_iff.mp hm
          have hin := (coresOccupiedBy_eq_some hc).1
          rw [hnpu] at hin
          exact List.mem_singleton.mp hin
      rw [hload, freeCoreEnough_resolve_iff hnpu hheld hvictims]
      constructor
      · intro hshare victim' last' hsole hlast' _
        rw [hnpu] at hsole
        rw [hlast] at hlast'
        cases hsole
        cases hlast'
        exact hshare
      · exact fun hshare => hshare victim last hnpu hlast hheld
    · refine iff_of_true (htakes [last] (List.cons_ne_nil _ _) ?_ hpick) ?_
      · intro c hc
        obtain rfl := List.mem_singleton.mp hc
        refine ⟨List.mem_of_getLast? hlast, free_iff.mpr ?_⟩
        rw [hnpu]
        simpa using hheld
      · intro victim' last' hsole hlast' hheld'
        rw [hnpu] at hsole
        rw [hlast] at hlast'
        cases hsole
        cases hlast'
        exact absurd hheld' hheld
  · have hpick : defaultCores available s.npuResidents =
        (available.filter fun c =>
          c ∉ s.npuResidents.flatMap LoadedModel.coresHeld).take 1 := by
      rw [hnpu]
      rfl
    refine iff_of_true (htakes _ ?_ ?_ hpick) ?_
    · have hmem : free ∈ available.filter fun c =>
          c ∉ s.npuResidents.flatMap LoadedModel.coresHeld := by
        rw [List.mem_filter]
        exact ⟨havailable, decide_eq_true (free_iff.mp hfree)⟩
      intro hnil
      have hempty := (List.take_eq_nil_iff.mp hnil).resolve_left (by decide)
      rw [hempty] at hmem
      contradiction
    · intro c hc
      obtain ⟨hin, hnot⟩ := List.mem_filter.mp (List.mem_of_mem_take hc)
      exact ⟨hin, free_iff.mpr (of_decide_eq_true hnot)⟩
    · intro victim last hsole
      rw [hnpu] at hsole
      exact absurd (List.cons.inj hsole).2 (List.cons_ne_nil _ _)

/-- A first model takes all cores, and asks nobody to share. -/
theorem freeCoreEnough_iff_one :
    LastCoreShareable [0, 1, 2] init { modelId := "chat", backendName := "rkllama" } false :=
  (freeCoreEnough_iff getDefaultShape init { modelId := "chat", backendName := "rkllama" } false
    rfl ⟨0, by decide, by decide⟩).mp
      (FreeCoreEnough.of_takesFree ⟨[0, 1, 2], by decide, by decide, rfl⟩)

/-- Two models are loaded, and the first one is unloaded. -/
def firstUnloaded : List SchedulerEvent :=
  [.load { modelId := "chat", backendName := "rkllama" } false,
    .load { modelId := "voice", backendName := "rkllama" } false, .markUnloaded "chat"]

/-- Two cores are free, and the third one is taken away from its holder. -/
theorem freeCore_evicts :
    ∃ s, run (step getDefaultShape) init firstUnloaded = some s ∧
      (∃ c ∈ (getDefaultShape "rkllama").availableCores, s.Free c) ∧
      ¬FreeCoreEnough (getDefaultShape "rkllama").availableCores s
        { modelId := "batch", backendName := "rkllama" }
        (s.load getDefaultShape { modelId := "batch", backendName := "rkllama" } false) := by
  have hrun : ((run (step getDefaultShape) init firstUnloaded).any fun s =>
      decide (s.Free 0) && (s.residents.get? "voice").isSome &&
        ((s.load getDefaultShape { modelId := "batch", backendName := "rkllama" }
          false).1.residents.get? "voice").isNone) = true := by
    decide
  obtain ⟨s, hs, hall⟩ := Option.any_eq_true _ _ |>.mp hrun
  rw [Bool.and_eq_true, Bool.and_eq_true] at hall
  refine ⟨s, hs, ⟨0, by decide, of_decide_eq_true hall.1.1⟩, ?_⟩
  intro h
  have hkept := h.resident "voice" hall.1.2
  rw [Option.isNone_iff_eq_none.mp hall.2] at hkept
  contradiction

/-! ## Callbacks that raise -/

/-- The callback of a load was called for the resident. -/
def CalledBack (s s' : CoreAwareScheduler) (id : String) : Prop :=
  ∃ notice ∈ s'.events.drop s.events.length,
    (∃ oldTpMode newTpMode, notice = .modelShrunk id oldTpMode newTpMode) ∨
      ∃ priority tpMode, notice = .modelEvicted id priority tpMode

/-- The registry has the resident with the cores and the mode it had. -/
def Recorded (s s' : CoreAwareScheduler) (id : String) : Prop :=
  ∀ m, s.residents.get? id = some m → ∃ m', s'.residents.get? id = some m' ∧
    m'.coresHeld = m.coresHeld ∧ m'.tpMode = m.tpMode

/-- After a load whose callback raised: its resident, whose callback did not complete, is in the
registry as it was. -/
def FailureTruthful (s s' : CoreAwareScheduler) : Prop :=
  ∀ id, (s.residents.get? id).isSome → CalledBack s s' id → Recorded s s' id

/-- No load whose callback raised leaves the registry as the session is. -/
theorem not_failureTruthful (shapeLookup : String → BackendResourceShape)
    {s : CoreAwareScheduler} (hkeyed : Keyed s) (request : LoadRequest) (callbackRaises : Bool)
    (hraised : (s.load shapeLookup request callbackRaises).2 = .error .callback) :
    ¬FailureTruthful s (s.load shapeLookup request callbackRaises).1 := by
  have hout := loaded shapeLookup s request callbackRaises
  revert hout hraised
  generalize s.load shapeLookup request callbackRaises = out
  intro hraised hout htruthful
  have hlisted : ∀ victim ∈ s.residents.values,
      s.residents.get? victim.modelId = some victim := by
    intro victim hmem
    obtain ⟨id, hget⟩ := Dict.mem_values_iff.mp hmem
    rw [hkeyed id victim hget, hget]
  cases hout with
  | noCores => contradiction
  | free => contradiction
  | contention message => cases hraised
  | shrunk victim freed kept callbackRaises hmem hevict hperm hkept =>
    have hget := hlisted victim hmem
    have hcalled : CalledBack s (s.shrinkReload victim kept) victim.modelId :=
      ⟨.modelShrunk victim.modelId victim.tpMode (coresToTpMode kept),
        by simp [shrinkReload, emit], Or.inl ⟨_, _, rfl⟩⟩
    obtain ⟨m', hget', hcores, _⟩ :=
      htruthful victim.modelId (by rw [hget]; rfl) hcalled victim hget
    simp only [shrinkReload, emit, Dict.get?_set_self, Option.some.injEq] at hget'
    have hlength := hperm.length_eq
    rw [← hcores, ← hget'] at hlength
    simp [LoadedModel.coresHeld] at hlength
  | evicted victim core callbackRaises hmem =>
    have hget := hlisted victim hmem
    have hcalled : CalledBack s (s.evictReload victim) victim.modelId :=
      ⟨.modelEvicted victim.modelId victim.priority victim.tpMode,
        by simp [evictReload, emit], Or.inr ⟨_, _, rfl⟩⟩
    obtain ⟨m', hget', _⟩ := htruthful victim.modelId (by rw [hget]; rfl) hcalled victim hget
    simp [evictReload, emit] at hget'

/-- One model, with all cores. -/
def soloLoaded : CoreAwareScheduler :=
  init.registerLoaded (buildNpuModel { modelId := "chat", backendName := "rkllama" } [0, 1, 2])

/-- Its core is taken by an interactive model, and the callback raises. -/
theorem not_failureTruthful_voice :
    ¬FailureTruthful soloLoaded (soloLoaded.load getDefaultShape
      { modelId := "voice", backendName := "rkllama" } true).1 :=
  not_failureTruthful getDefaultShape (keyed_init.registerLoaded _) _ true (by decide)

/-- The reload of the model raises, and the registry has it on two of its three cores. -/
theorem shrunk_though_raised :
    (soloLoaded.load getDefaultShape { modelId := "voice", backendName := "rkllama" } true).2 =
        .error .callback ∧
      ¬FailureTruthful soloLoaded (soloLoaded.load getDefaultShape
        { modelId := "voice", backendName := "rkllama" } true).1 := by
  refine ⟨by decide, ?_⟩
  intro htruthful
  have hcalled : CalledBack soloLoaded (soloLoaded.load getDefaultShape
      { modelId := "voice", backendName := "rkllama" } true).1 "chat" :=
    ⟨.modelShrunk "chat" "all" "0,1", by decide, Or.inl ⟨_, _, rfl⟩⟩
  obtain ⟨m', hget, hcores, _⟩ := htruthful "chat" (by decide) hcalled _ rfl
  have hkept : ((soloLoaded.load getDefaultShape
      { modelId := "voice", backendName := "rkllama" } true).1.residents.get? "chat").map
        LoadedModel.coresHeld = some [0, 1] := by
    decide
  rw [hget, Option.map_some, hcores] at hkept
  contradiction

end CoreAwareScheduler
end TinyAgentOS.Scheduler
