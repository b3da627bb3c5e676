import TinyAgentOS.Catalog.Resolver

/-!
# The compatibility badge

The badge of a model is read off the variants that resolve: green where one of them runs on
an accelerator, amber where all run on the CPU, red where there is none.  A resolved variant
names its backend by id only, and the badge judges it by the first entry with that id.

Main results:

- `classify_eq_red_iff`: the badge is red where `auto` fails.
- `classify_eq_green_iff`: the badge is green by the first entries of the winners.
- `badgeAgrees_iff_firstEntriesFaithful`: when this is what the winners run on.
-/

namespace TinyAgentOS.Catalog

/-! ## The badge -/

inductive Badge where
  | green
  | amber
  | red
deriving DecidableEq

/-- `any(t != "cpu" for t in dep.targets if t in device.targets)`. -/
def BackendDep.accelerated (dep : BackendDep) (d : DeviceCapability) : Bool :=
  dep.targets.any fun t => t ∈ d.targets && t ≠ "cpu"

/-- The first entry with an id. -/
def Variant.firstEntry (v : Variant) (backendId : String) : Option BackendDep :=
  v.deps.find? fun dep => dep.id = backendId

/-- The loop of `classify` over the variants. -/
def classifyLoop (d : DeviceCapability) : List (Option Variant) → Bool → Bool → Badge
  | [], accelerated, cpuOnly => if accelerated then .green else if cpuOnly then .amber else .red
  | none :: vs, accelerated, cpuOnly => classifyLoop d vs accelerated cpuOnly
  | some v :: vs, accelerated, cpuOnly =>
    match checkVariant v d false with
    | .err _ => classifyLoop d vs accelerated cpuOnly
    | .ok r =>
      match v.firstEntry r.backendId with
      | none => classifyLoop d vs accelerated cpuOnly
      | some dep =>
        if dep.accelerated d then classifyLoop d vs true cpuOnly
        else classifyLoop d vs accelerated true

def classify (m : Manifest) (d : DeviceCapability) : Badge :=
  classifyLoop d m.items false false

/-! ## What the badge is read off -/

/-- The variant resolves, and the first entry with its winner's id can use an accelerator. -/
def Variant.LooksAccelerated (v : Variant) (d : DeviceCapability) : Prop :=
  ∃ dep first, v.winner d false = some dep ∧ v.firstEntry dep.id = some first ∧
    first.accelerated d = true

/-- The variant resolves, and its winner can use an accelerator. -/
def Variant.RunsAccelerated (v : Variant) (d : DeviceCapability) : Prop :=
  ∃ dep, v.winner d false = some dep ∧ dep.accelerated d = true

variable {v : Variant} {d : DeviceCapability} {dep : BackendDep}

theorem mem_deps_of_winner {force : Bool} (hdep : v.winner d force = some dep) : dep ∈ v.deps := by
  unfold Variant.winner at hdep
  by_cases hroom : v.hasRoom d = true
  · rw [if_pos hroom] at hdep
    exact List.mem_of_find?_eq_some hdep
  · rw [if_neg hroom] at hdep
    contradiction

/-- The winner's id is found again. -/
theorem exists_firstEntry {force : Bool}
    (hdep : v.winner d force = some dep) : ∃ first, v.firstEntry dep.id = some first := by
  have hfound : (v.firstEntry dep.id).isSome = true :=
    List.find?_isSome.mpr ⟨dep, mem_deps_of_winner hdep, by simp⟩
  exact Option.isSome_iff_exists.mp hfound

/-- What one variant adds to the loop. -/
theorem classifyLoop_cons (d : DeviceCapability) (v : Variant) (vs : List (Option Variant))
    (accelerated cpuOnly : Bool) : ((∀ dep, v.winner d false ≠ some dep) ∧
      classifyLoop d (some v :: vs) accelerated cpuOnly = classifyLoop d vs accelerated cpuOnly) ∨
    (v.LooksAccelerated d ∧
      classifyLoop d (some v :: vs) accelerated cpuOnly = classifyLoop d vs true cpuOnly) ∨
    ((∃ dep, v.winner d false = some dep) ∧ ¬ v.LooksAccelerated d ∧
      classifyLoop d (some v :: vs) accelerated cpuOnly = classifyLoop d vs accelerated true) := by
  cases hcheck : checkVariant v d false with
  | err e =>
    refine Or.inl ⟨fun dep hdep => ?_, by simp only [classifyLoop, hcheck]⟩
    have hok := (checkVariant_eq_ok_iff v d false _).mpr ⟨dep, hdep, rfl⟩
    rw [hcheck] at hok
    contradiction
  | ok r =>
    obtain ⟨dep, hdep, rfl⟩ := (checkVariant_eq_ok_iff v d false r).mp hcheck
    obtain ⟨first, hfirst⟩ := exists_firstEntry hdep
    have hbackend : v.firstEntry (v.won d dep).backendId = some first := hfirst
    by_cases haccelerated : first.accelerated d = true
    · refine Or.inr (Or.inl ⟨⟨dep, first, hdep, hfirst, haccelerated⟩, ?_⟩)
      simp only [classifyLoop, hcheck, hbackend, if_pos haccelerated]
    · refine Or.inr (Or.inr ⟨⟨dep, hdep⟩, ?_, ?_⟩)
      · rintro ⟨dep', first', hdep', hfirst', haccelerated'⟩
        rw [hdep] at hdep'
        cases hdep'
        rw [hfirst] at hfirst'
        cases hfirst'
        exact haccelerated haccelerated'
      · simp only [classifyLoop, hcheck, hbackend, if_neg haccelerated]

theorem classifyLoop_eq_green_iff (d : DeviceCapability) (vs : List (Option Variant))
    (accelerated cpuOnly : Bool) :
    classifyLoop d vs accelerated cpuOnly = .green ↔
      accelerated = true ∨ ∃ v ∈ vs.filterMap id, v.LooksAccelerated d := by
  induction vs generalizing accelerated cpuOnly with
  | nil => cases accelerated <;> cases cpuOnly <;> simp [classifyLoop]
  | cons item vs ih =>
    cases item with
    | none => simpa [classifyLoop] using ih accelerated cpuOnly
    | some v =>
      simp only [List.filterMap_cons, id_eq, List.mem_cons, exists_eq_or_imp]
      rcases classifyLoop_cons d v vs accelerated cpuOnly with ⟨hnone, heq⟩ | ⟨hlooks, heq⟩ |
        ⟨_, hlooks, heq⟩
      · have hlooks : ¬ v.LooksAccelerated d := fun ⟨dep, _, hdep, _⟩ => hnone dep hdep
        rw [heq, ih]
        simp [hlooks]
      · rw [heq, ih]
        simp [hlooks]
      · rw [heq, ih]
        simp [hlooks]

theorem classifyLoop_eq_red_iff (d : DeviceCapability) (vs : List (Option Variant))
    (accelerated cpuOnly : Bool) :
    classifyLoop d vs accelerated cpuOnly = .red ↔
      accelerated = false ∧ cpuOnly = false ∧
        ∀ v ∈ vs.filterMap id, ∀ dep, v.winner d false ≠ some dep := by
  induction vs generalizing accelerated cpuOnly with
  | nil => cases accelerated <;> cases cpuOnly <;> simp [classifyLoop]
  | cons item vs ih =>
    cases item with
    | none => simpa [classifyLoop] using ih accelerated cpuOnly
    | some v =>
      simp only [List.filterMap_cons, id_eq, List.forall_mem_cons]
      rcases classifyLoop_cons d v vs accelerated cpuOnly with ⟨hnone, heq⟩ |
        ⟨⟨dep, _, hdep, _⟩, heq⟩ | ⟨⟨dep, hdep⟩, _, heq⟩
      · rw [heq, ih]
        exact ⟨fun h => ⟨h.1, h.2.1, hnone, h.2.2⟩, fun h => ⟨h.1, h.2.1, h.2.2.2⟩⟩
      · rw [heq, ih]
        exact ⟨fun h => absurd h.1 (by simp), fun h => absurd hdep (h.2.2.1 dep)⟩
      · rw [heq, ih]
        exact ⟨fun h => absurd h.2.1 (by simp), fun h => absurd hdep (h.2.2.1 dep)⟩

/-- The badge is green where the first entry of a winner's id can use an accelerator. -/
theorem classify_eq_green_iff (m : Manifest) (d : DeviceCapability) :
    classify m d = .green ↔ ∃ v ∈ m.dicts, v.LooksAccelerated d := by
  rw [classify, classifyLoop_eq_green_iff]
  simp [Manifest.dicts]

/-- The badge is red where `auto` fails. -/
theorem classify_eq_red_iff (m : Manifest) (d : DeviceCapability) :
    classify m d = .red ↔ ¬ ∃ r, resolve m "auto" d false = .ok (.ok r) := by
  rw [classify, classifyLoop_eq_red_iff, resolves_auto_iff]
  simp only [true_and, Manifest.dicts, not_exists, not_and, ne_eq]

/-! ## The badge against the resolver -/

/-- The badge says what the resolver does. -/
def BadgeAgrees (m : Manifest) (d : DeviceCapability) : Prop :=
  (classify m d = .red ↔ ¬ ∃ r, resolve m "auto" d false = .ok (.ok r)) ∧
  (classify m d = .green ↔ ∃ v ∈ m.dicts, ∃ dep, v.winner d false = some dep ∧
    ∃ t ∈ dep.targets, t ∈ d.targets ∧ t ≠ "cpu")

/-- The first entries of the winners' ids can use an accelerator where the winners can, or
there are both a winner and a first entry that can. -/
def FirstEntriesFaithful (m : Manifest) (d : DeviceCapability) : Prop :=
  (∀ v ∈ m.dicts, ∀ dep first, v.winner d false = some dep →
    v.firstEntry dep.id = some first → first.accelerated d = dep.accelerated d) ∨
  (∃ v ∈ m.dicts, v.RunsAccelerated d) ∧ (∃ v ∈ m.dicts, v.LooksAccelerated d)

theorem accelerated_iff :
    dep.accelerated d = true ↔ ∃ t ∈ dep.targets, t ∈ d.targets ∧ t ≠ "cpu" := by
  simp [BackendDep.accelerated]

/-- Where the first entries stand for the winners, they look as they run. -/
theorem looksAccelerated_iff_runsAccelerated
    (hfaithful : ∀ dep first, v.winner d false = some dep → v.firstEntry dep.id = some first →
      first.accelerated d = dep.accelerated d) : v.LooksAccelerated d ↔ v.RunsAccelerated d := by
  constructor
  · rintro ⟨dep, first, hdep, hfirst, haccelerated⟩
    exact ⟨dep, hdep, by rw [← hfaithful dep first hdep hfirst, haccelerated]⟩
  · rintro ⟨dep, hdep, haccelerated⟩
    obtain ⟨first, hfirst⟩ := exists_firstEntry hdep
    exact ⟨dep, first, hdep, hfirst, by rw [hfaithful dep first hdep hfirst, haccelerated]⟩

/-- The badge agrees with the resolver where the first entries stand for the winners. -/
theorem badgeAgrees_iff_firstEntriesFaithful (m : Manifest) (d : DeviceCapability) :
    BadgeAgrees m d ↔ FirstEntriesFaithful m d := by
  have hagrees : BadgeAgrees m d ↔
      ((∃ v ∈ m.dicts, v.LooksAccelerated d) ↔ ∃ v ∈ m.dicts, v.RunsAccelerated d) := by
    simp only [BadgeAgrees, classify_eq_red_iff, classify_eq_green_iff, Variant.RunsAccelerated,
      accelerated_iff, true_and]
  rw [hagrees]
  constructor
  · intro hiff
    by_cases hruns : ∃ v ∈ m.dicts, v.RunsAccelerated d
    · exact Or.inr ⟨hruns, hiff.mpr hruns⟩
    · refine Or.inl fun v hv dep first hdep hfirst => ?_
      have hnotLooks : ¬ first.accelerated d = true := fun haccelerated =>
        hruns (hiff.mp ⟨v, hv, dep, first, hdep, hfirst, haccelerated⟩)
      have hnotRuns : ¬ dep.accelerated d = true := fun haccelerated =>
        hruns ⟨v, hv, dep, hdep, haccelerated⟩
      rw [Bool.not_eq_true] at hnotLooks hnotRuns
      rw [hnotLooks, hnotRuns]
  · rintro (hfaithful | ⟨hruns, hlooks⟩)
    · have hvariant : ∀ v ∈ m.dicts, (v.LooksAccelerated d ↔ v.RunsAccelerated d) :=
        fun v hv => looksAccelerated_iff_runsAccelerated (hfaithful v hv)
      constructor
      · rintro ⟨v, hv, hlooks⟩
        exact ⟨v, hv, (hvariant v hv).mp hlooks⟩
      · rintro ⟨v, hv, hruns⟩
        exact ⟨v, hv, (hvariant v hv).mpr hruns⟩
    · exact ⟨fun _ => hruns, fun _ => hlooks⟩

/-- A backend with an entry for large GPUs and one for the CPU. -/
def llamaCpp : Manifest where
  variants := some
    [some ⟨.named "7b", some 4000, some (some
      [.entry (some "llama-cpp") (.value ["cuda"]) (.value 4000) (.value 8000),
        .entry (some "llama-cpp") (.value ["cpu"]) (.value 4000) .missing])⟩]

def smallGpu : DeviceCapability :=
  ⟨"desktop", ["cuda", "cpu"], 16000, 4000, 90000, []⟩

/-- The model is badged green for a GPU that it does not fit. -/
theorem not_badgeAgrees_llamaCpp :
    classify llamaCpp smallGpu = .green ∧
    (∀ v ∈ llamaCpp.dicts, ∀ dep, v.winner smallGpu false = some dep → dep.targets = ["cpu"]) ∧
    ¬ BadgeAgrees llamaCpp smallGpu := by
  have hgreen : classify llamaCpp smallGpu = .green := by decide
  have hcpu : ∀ v ∈ llamaCpp.dicts, ∀ dep, v.winner smallGpu false = some dep →
      dep.targets = ["cpu"] := by
    intro v hv dep hdep
    have hv' : v = ⟨.named "7b", some 4000, some (some
      [.entry (some "llama-cpp") (.value ["cuda"]) (.value 4000) (.value 8000),
        .entry (some "llama-cpp") (.value ["cpu"]) (.value 4000) .missing])⟩ := by
      simpa [Manifest.dicts, Manifest.items, llamaCpp] using hv
    subst hv'
    have hwinner : some (⟨"llama-cpp", ["cpu"], 4000, 0⟩ : BackendDep) = some dep := by
      rw [← hdep]
      decide
    rw [← Option.some.inj hwinner]
  refine ⟨hgreen, hcpu, fun hagrees => ?_⟩
  obtain ⟨v, hv, dep, hdep, t, ht, _, hne⟩ := hagrees.2.mp hgreen
  rw [hcpu v hv dep hdep] at ht
  exact hne (List.mem_singleton.mp ht)

end TinyAgentOS.Catalog
