import Mathlib.Data.List.Sort
import Mathlib.Tactic

/-!
# The catalog resolver

A variant of a model lists backends with the targets and the memory they need.  The
resolver takes the first backend that passes the gates of a device, and under
`auto` the largest variant for which there is one.

Main results:

- `checkVariant_eq_ok_iff`: a variant resolves to its first fitting backend.
- `resolve_auto_eq_ok_iff`: `auto` resolves to the largest fitting variant.
-/

namespace TinyAgentOS.Catalog

/-! ## Devices and manifests -/

/-- The resources of a device. -/
structure DeviceCapability where
  deviceId : String
  targets : List String
  totalRamMb : Int
  totalVramMb : Int
  freeDiskMb : Int
  installedBackends : List String

/-- A backend candidate of a variant. -/
structure BackendDep where
  id : String
  targets : List String
  minRamMb : Int
  minVramMb : Int
deriving DecidableEq

/-- A value of a manifest, by what its reader makes of it. -/
inductive Raw (α : Type) where
  /-- Absent, null or otherwise false. -/
  | missing
  | value (a : α)
  /-- The conversion raises. -/
  | malformed
deriving DecidableEq

/-- The converted value, unless the conversion raises. -/
def Raw.read {α : Type} (default : α) : Raw α → Option α
  | .missing => some default
  | .value a => some a
  | .malformed => none

/-- An item of `requires.backends`. -/
inductive RawBackend where
  | entry (id : Option String) (targets : Raw (List String)) (minRamMb minVramMb : Raw Int)
  /-- Not a dictionary. -/
  | other
deriving DecidableEq

/-- The `id` of a variant. -/
inductive VariantId where
  | absent
  | null
  | named (name : String)
deriving DecidableEq

/-- `variant.get("id")`. -/
def VariantId.get? : VariantId → Option String
  | .named name => some name
  | _ => none

/-- `str(variant.get("id", ""))`. -/
def VariantId.text : VariantId → String
  | .absent => ""
  | .null => "None"
  | .named name => name

/-- A character within quotes. -/
def quoteChar (quote c : Char) : List Char :=
  if c = quote ∨ c = '\\' then ['\\', c]
  else if c = '\n' then ['\\', 'n']
  else if c = '\r' then ['\\', 'r']
  else if c = '\t' then ['\\', 't']
  else [c]

/-- `repr` of a text. -/
def quoted (s : String) : String :=
  let quote := if '\'' ∈ s.toList ∧ '"' ∉ s.toList then '"' else '\''
  String.ofList (quote :: s.toList.flatMap (quoteChar quote) ++ [quote])

/-- `repr(variant.get("id"))`. -/
def VariantId.quoted (id : VariantId) : String :=
  (id.get?.map Catalog.quoted).getD "None"

/-- A variant of a model. -/
structure Variant where
  id : VariantId
  sizeMb : Option Int
  /-- `requires`, and `backends` in it. -/
  requires : Option (Option (List RawBackend))
deriving DecidableEq

/-- `int(variant.get("size_mb", 0) or 0)`. -/
def Variant.size (v : Variant) : Int :=
  v.sizeMb.getD 0

/-- A model manifest; an item of `variants` may be no dictionary. -/
structure Manifest where
  variants : Option (List (Option Variant))

/-- `manifest.get("variants") or []`. -/
def Manifest.items (m : Manifest) : List (Option Variant) :=
  m.variants.getD []

/-- The variants that are dictionaries. -/
def Manifest.dicts (m : Manifest) : List Variant :=
  m.items.filterMap id

/-- One pass of `_coerce_backends`. -/
def RawBackend.coerce? : RawBackend → Option BackendDep
  | .entry id targets minRamMb minVramMb => do
      let id ← id
      let targets ← targets.read []
      let minRamMb ← minRamMb.read 0
      let minVramMb ← minVramMb.read 0
      return ⟨id, targets, minRamMb, minVramMb⟩
  | .other => none

/-- `_coerce_backends` of the backends that a variant requires. -/
def Variant.deps (v : Variant) : List BackendDep :=
  ((v.requires.getD none).getD []).filterMap RawBackend.coerce?

/-! ## Results -/

/-- What a variant fails on. -/
inductive BlockedBy where
  | schema
  | disk
  | target
  | ram
  | vram
deriving DecidableEq

/-- What the user is told to do. -/
def suggestionsFor : BlockedBy → List String
  | .ram => ["Pick a smaller variant", "Install on a device with more RAM"]
  | .vram => ["Pick a smaller variant", "Install on a device with a larger GPU"]
  | .disk =>
    ["Pick a smaller variant", "Free up disk on this device",
      "Install on a worker with more disk"]
  | .target =>
    ["Install on a device whose hardware can run this model",
      "Use 'Archive anyway' to download for later"]
  | .schema => []

inductive Action where
  | use
  | installChain
deriving DecidableEq

structure ResolveOk where
  backendId : String
  variantId : String
  action : Action
deriving DecidableEq

/-- An error, with the keys of its `near_miss` that are set. -/
structure ResolveErr where
  reason : String
  variant : Option (Option String) := none
  blockedBy : BlockedBy
  shortByMb : Option Int := none
  suggestions : List String
deriving DecidableEq

inductive ResolveResult where
  | ok (r : ResolveOk)
  | err (e : ResolveErr)
deriving DecidableEq

def ResolveResult.isOk : ResolveResult → Bool
  | .ok _ => true
  | .err _ => false

/-! ## One variant -/

/-- `set(dep.targets) & device_targets` is not empty. -/
def BackendDep.sharesTarget (dep : BackendDep) (d : DeviceCapability) : Bool :=
  dep.targets.any (· ∈ d.targets)

/-- The error of a variant that no dependency fits. -/
def noBackend (v : Variant) (d : DeviceCapability) (shortMb : Int) (blockedBy : BlockedBy) :
    ResolveErr :=
  { reason :=
      "no compatible backend for " ++ v.id.quoted ++ " on device " ++ quoted d.deviceId
    variant := some v.id.get?
    blockedBy := blockedBy
    shortByMb := some (max 0 shortMb)
    suggestions := suggestionsFor blockedBy }

/-- The loop of `_check_variant` over the dependencies, with the closest miss so far. -/
def checkDeps (v : Variant) (d : DeviceCapability) (force : Bool) :
    List BackendDep → Int → BlockedBy → ResolveResult
  | [], shortMb, blockedBy => .err (noBackend v d shortMb blockedBy)
  | dep :: deps, shortMb, blockedBy =>
    if !force && !dep.sharesTarget d then
      checkDeps v d force deps shortMb (if shortMb < 0 then .target else blockedBy)
    else if !force && d.totalRamMb < dep.minRamMb then
      let short := dep.minRamMb - d.totalRamMb
      if shortMb < 0 ∨ short < shortMb then checkDeps v d force deps short .ram
      else checkDeps v d force deps shortMb blockedBy
    else if !force && (0 < dep.minVramMb && d.totalVramMb < dep.minVramMb) then
      let short := dep.minVramMb - d.totalVramMb
      if shortMb < 0 ∨ short < shortMb then checkDeps v d force deps short .vram
      else checkDeps v d force deps shortMb blockedBy
    else
      .ok
        { backendId := dep.id
          variantId := v.id.text
          action := if dep.id ∈ d.installedBackends then .use else .installChain }

/-- The error of a variant that the disk has no room for. -/
def diskError (v : Variant) (d : DeviceCapability) : ResolveErr :=
  let needs := "variant " ++ v.id.quoted ++ " needs " ++ toString v.size ++ " MB disk, "
  { reason :=
      if d.freeDiskMb = 0 then
        needs ++ "but device " ++ quoted d.deviceId ++ " reports 0 MB free " ++
          "(disk may be full, or capacity has not been reported yet)"
      else needs ++ "device has " ++ toString d.freeDiskMb ++ " MB free"
    variant := some v.id.get?
    blockedBy := .disk
    shortByMb := some (v.size - d.freeDiskMb)
    suggestions :=
      if d.freeDiskMb = 0 then
        ["Free up disk on this device",
          "Wait for the worker to report its hardware profile and retry",
          "Pick a smaller variant", "Install on a worker with more disk"]
      else
        ["Pick a smaller variant", "Free up disk on this device",
          "Install on a worker with more disk"] }

/-- The error of a variant without dependencies. -/
def schemaError (v : Variant) : ResolveErr :=
  { reason := "variant " ++ v.id.quoted ++ " has no requires.backends"
    variant := some v.id.get?
    blockedBy := .schema
    suggestions := ["Update the manifest to declare requires.backends"] }

/-- `_check_variant`.  The disk gate holds with `force` too. -/
def checkVariant (v : Variant) (d : DeviceCapability) (force : Bool) : ResolveResult :=
  if v.deps = [] then .err (schemaError v)
  else if 0 < v.size ∧ d.freeDiskMb < v.size then .err (diskError v d)
  else checkDeps v d force v.deps (-1) .target

/-- The variant is declared, and the disk has room for it. -/
def Variant.hasRoom (v : Variant) (d : DeviceCapability) : Bool :=
  v.deps ≠ [] && !(0 < v.size && d.freeDiskMb < v.size)

/-- The dependency passes the gates. -/
def BackendDep.fits (dep : BackendDep) (d : DeviceCapability) (force : Bool) : Bool :=
  force || (dep.sharesTarget d && dep.minRamMb ≤ d.totalRamMb &&
    (dep.minVramMb ≤ 0 || dep.minVramMb ≤ d.totalVramMb))

/-- The dependency that a variant resolves to. -/
def Variant.winner (v : Variant) (d : DeviceCapability) (force : Bool) : Option BackendDep :=
  if v.hasRoom d then v.deps.find? fun dep => dep.fits d force else none

/-- The result of a variant that resolves to a dependency. -/
def Variant.won (v : Variant) (d : DeviceCapability) (dep : BackendDep) : ResolveOk :=
  { backendId := dep.id
    variantId := v.id.text
    action := if dep.id ∈ d.installedBackends then .use else .installChain }

/-- The loop takes the first dependency that passes the gates. -/
theorem checkDeps_eq_ok_iff (v : Variant) (d : DeviceCapability) (force : Bool)
    (deps : List BackendDep) (shortMb : Int) (blockedBy : BlockedBy) (r : ResolveOk) :
    checkDeps v d force deps shortMb blockedBy = .ok r ↔
      ∃ dep, deps.find? (fun dep => dep.fits d force) = some dep ∧ r = v.won d dep := by
  induction deps generalizing shortMb blockedBy with
  | nil => simp [checkDeps]
  | cons dep deps ih =>
    have hskip : dep.fits d force = false → ((dep :: deps).find? fun dep => dep.fits d force) =
        deps.find? fun dep => dep.fits d force := by
      intro hfits
      rw [List.find?_cons_of_neg]
      simp [hfits]
    cases force with
    | true =>
      have hfits : dep.fits d true = true := rfl
      simp [checkDeps, hfits, Variant.won, eq_comm]
    | false =>
      by_cases htarget : dep.sharesTarget d = true
      · by_cases hram : d.totalRamMb < dep.minRamMb
        · have hfits : dep.fits d false = false := by
            simp [BackendDep.fits, htarget, not_le.mpr hram]
          rw [hskip hfits]
          simp only [checkDeps, htarget, hram, Bool.not_false, Bool.not_true, Bool.and_false,
            Bool.true_and, decide_true, if_true, Bool.false_eq_true, if_false]
          split <;> exact ih _ _
        · by_cases hvram : 0 < dep.minVramMb ∧ d.totalVramMb < dep.minVramMb
          · have hfits : dep.fits d false = false := by
              simp [BackendDep.fits, not_le.mpr hvram.1, not_le.mpr hvram.2]
            rw [hskip hfits]
            simp only [checkDeps, htarget, hram, hvram, Bool.not_false, Bool.not_true,
              Bool.and_false, decide_true, decide_false, Bool.and_self, if_true,
              Bool.false_eq_true, if_false]
            split <;> exact ih _ _
          · have hfits : dep.fits d false = true := by
              simp only [BackendDep.fits, htarget, Bool.false_or, Bool.true_and,
                Bool.and_eq_true, Bool.or_eq_true, decide_eq_true_eq]
              omega
            have hgate : (decide (0 < dep.minVramMb) &&
                decide (d.totalVramMb < dep.minVramMb)) = false := by
              simpa using hvram
            simp [checkDeps, htarget, hram, hgate, hfits, Variant.won, eq_comm]
      · have hfits : dep.fits d false = false := by
          simp [BackendDep.fits, htarget]
        rw [hskip hfits]
        simp only [checkDeps, htarget, Bool.not_false, Bool.and_self, if_true]
        exact ih _ _

/-- A variant resolves to its first fitting dependency. -/
theorem checkVariant_eq_ok_iff (v : Variant) (d : DeviceCapability) (force : Bool) (r : ResolveOk) :
    checkVariant v d force = .ok r ↔ ∃ dep, v.winner d force = some dep ∧ r = v.won d dep := by
  unfold checkVariant Variant.winner
  by_cases hdeps : v.deps = []
  · simp [hdeps]
  · by_cases hdisk : 0 < v.size ∧ d.freeDiskMb < v.size
    · simp [hdeps, hdisk, Variant.hasRoom]
    · have hroom : v.hasRoom d = true := by
        simp only [Variant.hasRoom, hdeps, Bool.and_eq_true, Bool.not_eq_true',
          Bool.and_eq_false_iff, decide_eq_true_eq, decide_eq_false_iff_not, ne_eq,
          not_false_eq_true, true_and]
        omega
      rw [if_neg hdeps, if_neg hdisk, if_pos hroom]
      exact checkDeps_eq_ok_iff v d force v.deps _ _ r

theorem isOk_checkVariant_iff (v : Variant) (d : DeviceCapability) (force : Bool) :
    (checkVariant v d force).isOk = true ↔ ∃ dep, v.winner d force = some dep := by
  constructor
  · intro hok
    cases hcheck : checkVariant v d force with
    | ok r =>
      obtain ⟨dep, hdep, _⟩ := (checkVariant_eq_ok_iff v d force r).mp hcheck
      exact ⟨dep, hdep⟩
    | err e =>
      rw [hcheck] at hok
      contradiction
  · rintro ⟨dep, hdep⟩
    rw [(checkVariant_eq_ok_iff v d force (v.won d dep)).mpr ⟨dep, hdep, rfl⟩]
    rfl

/-! ## The manifest -/

/-- The loop of `resolve` over the variants, with the last error so far. -/
def firstOk (d : DeviceCapability) (force : Bool) : List Variant → Option ResolveErr → ResolveResult
  | [], some e => .err e
  | [], none =>
    .err
      { reason := "no variants in manifest could be evaluated"
        blockedBy := .schema
        suggestions := ["Fix the manifest"] }
  | v :: vs, _ =>
    match checkVariant v d force with
    | .ok r => .ok r
    | .err e => firstOk d force vs (some e)

/-- The variants from the largest to the smallest. -/
def Manifest.sorted (m : Manifest) : List Variant :=
  m.dicts.insertionSort fun v w => w.size ≤ v.size

/-- `repr` of a list of ids. -/
def quotedList (ids : List VariantId) : String :=
  "[" ++ ", ".intercalate (ids.map VariantId.quoted) ++ "]"

/-- `resolve`; it raises where it is to list the ids of variants of which one is no
dictionary. -/
def resolve (m : Manifest) (variantId : String) (d : DeviceCapability) (force : Bool := false) :
    Except String ResolveResult :=
  if m.items = [] then
    .ok (.err
      { reason := "manifest has no variants"
        blockedBy := .schema
        suggestions := ["Fix the manifest"] })
  else if variantId ≠ "auto" then
    match m.dicts.find? fun v => v.id.get? = some variantId with
    | some v => .ok (checkVariant v d force)
    | none =>
      if none ∈ m.items then .error "AttributeError"
      else
        .ok (.err
          { reason := "variant " ++ quoted variantId ++ " not found in manifest"
            variant := some (some variantId)
            blockedBy := .schema
            suggestions := ["Available variants: " ++ quotedList (m.dicts.map Variant.id)] })
  else .ok (firstOk d force m.sorted none)

/-- The variant that `auto` picks. -/
def Manifest.autoVariant (m : Manifest) (d : DeviceCapability) (force : Bool) : Option Variant :=
  m.sorted.find? fun v => (checkVariant v d force).isOk

theorem firstOk_eq_ok_iff (d : DeviceCapability) (force : Bool) (vs : List Variant)
    (lastErr : Option ResolveErr) (r : ResolveOk) :
    firstOk d force vs lastErr = .ok r ↔
      ∃ v, vs.find? (fun v => (checkVariant v d force).isOk) = some v ∧
        checkVariant v d force = .ok r := by
  induction vs generalizing lastErr with
  | nil => cases lastErr <;> simp [firstOk]
  | cons v vs ih =>
    cases hcheck : checkVariant v d force with
    | ok r' =>
      have hok : (checkVariant v d force).isOk = true := by rw [hcheck]; rfl
      have hfind : ((v :: vs).find? fun v => (checkVariant v d force).isOk) = some v :=
        List.find?_cons_of_pos (p := fun v => (checkVariant v d force).isOk) hok
      rw [firstOk, hcheck, hfind]
      constructor
      · intro hr
        exact ⟨v, rfl, hcheck.trans hr⟩
      · rintro ⟨w, hw, hr⟩
        rw [← Option.some.inj hw, hcheck] at hr
        exact hr
    | err e =>
      have hok : (checkVariant v d force).isOk = false := by rw [hcheck]; rfl
      rw [firstOk, hcheck, ih, List.find?_cons_of_neg (by simp [hok])]

theorem sorted_eq_nil_of_items {m : Manifest} (h : m.items = []) : m.sorted = [] := by
  simp [Manifest.sorted, Manifest.dicts, h]

theorem mem_sorted_iff {m : Manifest} {v : Variant} : v ∈ m.sorted ↔ v ∈ m.dicts :=
  List.mem_insertionSort _

/-- `auto` resolves to the largest variant that resolves. -/
theorem resolve_auto_eq_ok_iff (m : Manifest) (d : DeviceCapability) (force : Bool)
    (r : ResolveOk) :
    resolve m "auto" d force = .ok (.ok r) ↔
      ∃ v, m.autoVariant d force = some v ∧ checkVariant v d force = .ok r := by
  unfold resolve Manifest.autoVariant
  by_cases hitems : m.items = []
  · simp [hitems, sorted_eq_nil_of_items hitems]
  · rw [if_neg hitems, if_neg (not_not.mpr rfl), Except.ok.injEq]
    exact firstOk_eq_ok_iff d force m.sorted none r

/-- `auto` resolves where some variant does. -/
theorem resolves_auto_iff (m : Manifest) (d : DeviceCapability) (force : Bool) :
    (∃ r, resolve m "auto" d force = .ok (.ok r)) ↔
      ∃ v ∈ m.dicts, ∃ dep, v.winner d force = some dep := by
  constructor
  · rintro ⟨r, hr⟩
    obtain ⟨v, hv, hcheck⟩ := (resolve_auto_eq_ok_iff m d force r).mp hr
    obtain ⟨dep, hdep, _⟩ := (checkVariant_eq_ok_iff v d force r).mp hcheck
    exact ⟨v, mem_sorted_iff.mp (List.mem_of_find?_eq_some hv), dep, hdep⟩
  · rintro ⟨v, hv, dep, hdep⟩
    have hok := (isOk_checkVariant_iff v d force).mpr ⟨dep, hdep⟩
    have hfound : (m.autoVariant d force).isSome = true :=
      List.find?_isSome.mpr ⟨v, mem_sorted_iff.mpr hv, hok⟩
    obtain ⟨w, hw⟩ := Option.isSome_iff_exists.mp hfound
    have hwok : (checkVariant w d force).isOk = true :=
      List.find?_some (p := fun v => (checkVariant v d force).isOk) hw
    obtain ⟨dep', hdep'⟩ := (isOk_checkVariant_iff w d force).mp hwok
    have hcheck := (checkVariant_eq_ok_iff w d force _).mpr ⟨dep', hdep', rfl⟩
    exact ⟨_, (resolve_auto_eq_ok_iff m d force _).mpr ⟨w, hw, hcheck⟩⟩

end TinyAgentOS.Catalog
