import TinyAgentOS.Userspace.AppStore
import TinyAgentOS.Userspace.Package

/-!
# Public installs

A public install extracts its package into the directory of the app, and only then scans it and
looks the id up in the store.  What a refused install has written stays, and a scan that finds
something critical has the whole directory removed.

Main results:

- `bundlesKept_iff`: the installs that leave the bundles of installed apps alone where they are
  refused, and those of first-party apps in any case.
-/

namespace TinyAgentOS.Userspace

open Collections FileTrees

/-! ## The endpoint -/

/-- `_MAX_PACKAGE_BYTES`. -/
def maxPackageBytes : Nat :=
  64 * 1024 * 1024

/-- `_ANALYZABLE_EXTENSIONS`. -/
def analyzableExtensions : List String :=
  [".html", ".htm", ".js", ".jsx", ".ts", ".tsx", ".mjs", ".cjs", ".css"]

/-- `PurePath.suffix`, in lower case. -/
def suffixOf (name : String) : String :=
  let tail := name.toList.reverse.takeWhile fun c => c ≠ '.'
  if tail ≠ [] ∧ tail.length + 1 < name.length then
    String.ofList ('.' :: (tail.reverse.map Char.toLower))
  else ""

def isAnalyzable (p : Path) : Bool :=
  p.getLast?.any fun name => suffixOf name ∈ analyzableExtensions

/-- `_collect_source_files`, by the path from the directory of the app. -/
def collectSourceFiles (contents : Path → Option ByteArray) (dir p : Path) :
    Option ByteArray :=
  if isAnalyzable p then contents (dir ++ p) else none

/-- Why an install is refused. -/
inductive InstallError where
  | packageTooLarge
  | package (error : PackageError)
  /-- `blocked_by_security_analysis`. -/
  | blocked
  | firstParty
  /-- An exception that the endpoint does not catch. -/
  | raised

def InstallError.status : InstallError → Nat
  | .packageTooLarge => 413
  | .package _ => 400
  | .blocked => 422
  | .firstParty => 409
  | .raised => 500

def InstallError.ofFailure : PackageFailure → InstallError
  | .refused error => .package error
  | .raised => .raised

structure InstallAnswer where
  appId : String
  permissionsRequested : List String
  needsConsent : Bool
  newPermissions : List String

/-- The file system and the rows of the store. -/
structure AppDisk (takes : Path → Bool) where
  tree : FileTree takes ByteArray
  rows : Dict String AppRow

namespace Entries

def permissions (m : Entries) : List String :=
  match m.get? "permissions" with
  | some (.seq items) => items.filterMap Yaml.text?
  | _ => []

/-- The text of a value in a column that is not null. -/
def columnText : Yaml → Option String
  | .str text => some text
  | .int value =>
    if -2 ^ 63 ≤ value ∧ value < 2 ^ 63 then some (toString value) else none
  | .bool value => some (if value then "1" else "0")
  | .other _ _ column => column
  | _ => none

def column (m : Entries) (key : String) : Option String :=
  (m.get? key).bind columnText

/-- The arguments of the install, if the store takes them. -/
def appInstall? (m : Entries) : Option AppInstall := do
  let name ← m.column "name"
  let version ← m.column "version"
  let appType ← m.column "app_type"
  let entry ← m.column "entry"
  let icon ← m.column "icon"
  return ⟨m.text "id", name, version, appType, entry, icon, m.permissions, "community", ""⟩

end Entries

/-- What the membership in `_PUBLIC_PROVENANCES` is asked for; a value that cannot be
hashed raises. -/
def provenanceText? : Json.Value → Option String
  | .str text => some text
  | .arr (_ :: _) => none
  | .obj (_ :: _) => none
  | _ => some ""

def isFirstParty (rows : Dict String AppRow) (appId : String) : Bool :=
  (rows.get? appId).any fun row => row.trust = "first-party"

section Endpoint

variable {takes : Path → Bool} (lib : PackageLibraries)
  (hasCritical : (Path → Option ByteArray) → Bool) (root : Path) (now : Int)

/-- The row is written, unless it is a first-party app's. -/
def registerApp (s : AppDisk takes) (manifest : Entries) (provenance : Json.Value) :
    AppDisk takes × Except InstallError InstallAnswer :=
  let id := manifest.text "id"
  let existing := s.rows.get? id
  if isFirstParty s.rows id then (s, .error .firstParty)
  else
    match provenanceText? provenance, manifest.appInstall? with
    | some provenance, some a =>
      let granted := (existing.map AppRow.permissionsGranted).getD []
      let new := manifest.permissions.filter fun p => existing.isSome && decide (p ∉ granted)
      ({ s with rows := s.rows.set id ((a.community provenance).row now existing) },
        .ok ⟨id, manifest.permissions, !new.isEmpty, new⟩)
    | _, _ => (s, .error .raised)

theorem ne_nil_of_below {root dir : Path} (h : root <+: dir ∧ dir ≠ root) : dir ≠ [] := by
  rintro rfl
  exact h.2 (List.prefix_nil.mp h.1).symm

/-- The scan of the extracted files; `hasCritical` is the analysis of them. -/
def scanApp (s : AppDisk takes) (manifest : Entries) (provenance : Json.Value) :
    AppDisk takes × Except InstallError InstallAnswer :=
  let dir := resolve root (manifest.text "id")
  if manifest.text "app_type" ≠ "container" ∧
      hasCritical (collectSourceFiles s.tree.file dir) = true then
    if h : root <+: dir ∧ dir ≠ root then
      ({ s with tree := s.tree.removeTree dir (ne_nil_of_below h) }, .error .blocked)
    else (s, .error .blocked)
  else registerApp now s manifest provenance

/-- `install_app`, of a package that has arrived. -/
def installApp (s : AppDisk takes) (data : ByteArray) (provenance : Json.Value) :
    AppDisk takes × Except InstallError InstallAnswer :=
  if maxPackageBytes < data.size then (s, .error .packageTooLarge)
  else
    match extractPackage lib root s.tree data with
    | (tree, .error failure) => ({ s with tree := tree }, .error (.ofFailure failure))
    | (tree, .ok manifest) =>
      scanApp hasCritical root now { s with tree := tree } manifest provenance

end Endpoint

/-! ## Bundles -/

/-- The path is below the directory of an installed app. -/
def InBundle (root : Path) (rows : Dict String AppRow) (q : Path) : Prop :=
  ∃ id row, rows.get? id = some row ∧ resolve root id <+: q

def InFirstPartyBundle (root : Path) (rows : Dict String AppRow) (q : Path) : Prop :=
  ∃ id row, rows.get? id = some row ∧ row.trust = "first-party" ∧ resolve root id <+: q

theorem InFirstPartyBundle.inBundle {root : Path} {rows : Dict String AppRow} {q : Path}
    (h : InFirstPartyBundle root rows q) : InBundle root rows q := by
  obtain ⟨id, row, hget, _, hbelow⟩ := h
  exact ⟨id, row, hget, hbelow⟩

namespace Package

variable {takes : Path → Bool} {root : Path}

/-- The scan of what is there after the extraction finds something critical. -/
def Blocked (hasCritical : (Path → Option ByteArray) → Bool) (p : Package root)
    (t : FileTree takes ByteArray) : Prop :=
  p.Whole t ∧ p.manifest.text "app_type" ≠ "container" ∧
    hasCritical (collectSourceFiles (FileTree.overlay (p.writes t) t.file) p.dir) = true

/-- The id is no first-party app's, and the store takes the row. -/
def Recordable (p : Package root) (rows : Dict String AppRow) (provenance : Json.Value) : Prop :=
  isFirstParty rows p.id = false ∧
    (provenanceText? provenance).isSome = true ∧ p.manifest.appInstall?.isSome = true

def Accepted (hasCritical : (Path → Option ByteArray) → Bool) (p : Package root)
    (s : AppDisk takes) (provenance : Json.Value) : Prop :=
  p.Whole s.tree ∧ ¬ p.Blocked hasCritical s.tree ∧ p.Recordable s.rows provenance

end Package

/-- What is written is below the directory of the package. -/
theorem below_of_written {takes : Path → Bool} {archive : List ZipMember} {dir q : Path}
    {t : FileTree takes ByteArray} {places : List Path} {members : List String}
    {content : ByteArray}
    (h : FileTree.written (placed archive dir t places members) q = some content) : dir <+: q := by
  induction members generalizing places with
  | nil => contradiction
  | cons member members ih =>
    simp only [placed] at h
    split at h
    · exact ih h
    · split at h
      · contradiction
      · split at h
        · rename_i hfits
          rcases Option.or_eq_some_iff.mp h with hrest | ⟨_, hself⟩
          · exact ih hrest
          · split at hself
            · rename_i heq
              exact heq ▸ hfits.1.1
            · contradiction
        · contradiction

/-- Nothing else is written. -/
theorem Package.overlay_of_not_below {takes : Path → Bool} {root : Path} (p : Package root)
    {t : FileTree takes ByteArray} {q : Path} (hq : ¬ p.dir <+: q) :
    FileTree.overlay (p.writes t) t.file q = t.file q := by
  have hnone : FileTree.written (p.writes t) q = none := by
    rw [Option.eq_none_iff_forall_ne_some]
    intro content hwritten
    unfold Package.writes at hwritten
    split at hwritten
    · exact hq (below_of_written hwritten)
    · contradiction
  rw [FileTree.overlay, hnone, Option.none_or]

/-- The row is written exactly for a package that can be recorded. -/
theorem registerApp_cases {takes : Path → Bool} {root : Path} (now : Int) (p : Package root)
    (s : AppDisk takes) (provenance : Json.Value) :
    (registerApp now s p.manifest provenance).1.tree = s.tree ∧
      (p.Recordable s.rows provenance ∧
          (∃ answer, (registerApp now s p.manifest provenance).2 = .ok answer) ∨
        ¬ p.Recordable s.rows provenance ∧
          (registerApp now s p.manifest provenance).1.rows = s.rows ∧
            ∃ error, (registerApp now s p.manifest provenance).2 = .error error) := by
  simp only [registerApp, p.text_id]
  by_cases hfirst : isFirstParty s.rows p.id = true
  · rw [if_pos hfirst]
    refine ⟨rfl, Or.inr ⟨?_, rfl, .firstParty, rfl⟩⟩
    rintro ⟨hnot, _⟩
    exact Bool.false_ne_true (hnot.symm.trans hfirst)
  · rw [if_neg hfirst]
    rw [Bool.not_eq_true] at hfirst
    cases hprovenance : provenanceText? provenance with
    | none =>
      refine ⟨rfl, Or.inr ⟨?_, rfl, .raised, rfl⟩⟩
      rintro ⟨_, hsome, _⟩
      rw [hprovenance] at hsome
      exact Bool.false_ne_true hsome
    | some text =>
      cases hinstall : p.manifest.appInstall? with
      | none =>
        refine ⟨rfl, Or.inr ⟨?_, rfl, .raised, rfl⟩⟩
        rintro ⟨_, _, hsome⟩
        rw [hinstall] at hsome
        exact Bool.false_ne_true hsome
      | some a =>
        refine ⟨rfl, Or.inl ⟨⟨hfirst, ?_, ?_⟩, _, rfl⟩⟩
        · rw [hprovenance]
          rfl
        · rw [hinstall]
          rfl

/-- What an install does, from what its package is and finds. -/
theorem installApp_cases {takes : Path → Bool} {lib : PackageLibraries}
    (hasCritical : (Path → Option ByteArray) → Bool) {root : Path} (now : Int)
    (s : AppDisk takes) {data : ByteArray} (provenance : Json.Value) {p : Package root}
    (hsize : data.size ≤ maxPackageBytes) (hopen : openPackage lib root data = .ok p) :
    let r := installApp lib hasCritical root now s data provenance
    let after := FileTree.overlay (p.writes s.tree) s.tree.file
    p.Blocked hasCritical s.tree ∧ (∃ error, r.2 = .error error) ∧ r.1.rows = s.rows ∧
        (∀ q, r.1.tree.file q = if p.dir <+: q then none else s.tree.file q) ∨
      (¬ p.Blocked hasCritical s.tree ∧ ¬ p.Accepted hasCritical s provenance) ∧
        (∃ error, r.2 = .error error) ∧ r.1.rows = s.rows ∧ (∀ q, r.1.tree.file q = after q) ∨
      p.Accepted hasCritical s provenance ∧ (∃ answer, r.2 = .ok answer) ∧
        ∀ q, r.1.tree.file q = after q := by
  obtain ⟨hfiles, hresult⟩ := extractPackage_spec hopen s.tree
  simp only [installApp, if_neg (not_lt.mpr hsize)]
  cases hextract : extractPackage lib root s.tree data with
  | mk tree outcome =>
    rw [hextract] at hfiles hresult
    rcases hresult with ⟨hwhole, rfl⟩ | ⟨hpart, failure, rfl⟩
    · simp only [scanApp, p.text_id, funext hfiles]
      have hdir : p.dir = resolve root p.id := rfl
      by_cases hscan : p.manifest.text "app_type" ≠ "container" ∧
          hasCritical (collectSourceFiles (FileTree.overlay (p.writes s.tree) s.tree.file)
            (resolve root p.id)) = true
      · left
        have hblocked : p.Blocked hasCritical s.tree := ⟨hwhole, hscan⟩
        rw [if_pos hscan, dif_pos p.below]
        refine ⟨hblocked, ⟨.blocked, rfl⟩, rfl, ?_⟩
        intro q
        rw [FileTree.file_removeTree, hdir]
        by_cases hq : resolve root p.id <+: q
        · rw [if_pos hq, if_pos hq]
        · rw [if_neg hq, if_neg hq, hfiles q]
          exact p.overlay_of_not_below hq
      · right
        have hfree : ¬ p.Blocked hasCritical s.tree := fun hblocked => hscan hblocked.2
        rw [if_neg hscan]
        obtain ⟨htree, hrow⟩ := registerApp_cases now p
          { s with tree := tree } provenance
        rcases hrow with ⟨hrecord, hok⟩ | ⟨hrecord, hrows, herror⟩
        · right
          refine ⟨⟨hwhole, hfree, hrecord⟩, hok, ?_⟩
          intro q
          rw [htree]
          exact hfiles q
        · left
          refine ⟨⟨hfree, fun haccepted => hrecord haccepted.2.2⟩, herror, hrows, ?_⟩
          intro q
          rw [htree]
          exact hfiles q
    · right
      left
      exact ⟨⟨fun hblocked => hpart hblocked.1, fun haccepted => hpart haccepted.1⟩,
        ⟨.ofFailure failure, rfl⟩, rfl, hfiles⟩

/-! ## Refused installs -/

/-- A refused install leaves the rows and the bundles of all installed apps as they are, and any
install those of first-party apps. -/
def BundlesKept {takes : Path → Bool} (lib : PackageLibraries)
    (hasCritical : (Path → Option ByteArray) → Bool) (root : Path) (now : Int)
    (s : AppDisk takes) (data : ByteArray) (provenance : Json.Value) : Prop :=
  let r := installApp lib hasCritical root now s data provenance
  ((∃ error, r.2 = .error error) →
      r.1.rows = s.rows ∧ ∀ q, InBundle root s.rows q → r.1.tree.file q = s.tree.file q) ∧
    ∀ q, InFirstPartyBundle root s.rows q → r.1.tree.file q = s.tree.file q

/-- What a package writes into bundles is there already: into any bundle where the install is
refused, into one of a first-party app in any case.  Where the scan finds something critical, no
bundle has a file in the directory of the package. -/
structure Package.Harmless {takes : Path → Bool}
    (hasCritical : (Path → Option ByteArray) → Bool) {root : Path} (p : Package root)
    (s : AppDisk takes) (provenance : Json.Value) : Prop where
  blocked : p.Blocked hasCritical s.tree →
    ∀ q, InBundle root s.rows q → p.dir <+: q → s.tree.file q = none
  refused : ¬ p.Blocked hasCritical s.tree → ¬ p.Accepted hasCritical s provenance →
    ∀ q content, InBundle root s.rows q → FileTree.written (p.writes s.tree) q = some content →
      s.tree.file q = some content
  accepted : p.Accepted hasCritical s provenance →
    ∀ q content, InFirstPartyBundle root s.rows q →
      FileTree.written (p.writes s.tree) q = some content → s.tree.file q = some content

section Kept

variable {takes : Path → Bool} {lib : PackageLibraries}
  {hasCritical : (Path → Option ByteArray) → Bool} {root : Path} {now : Int}
  {s : AppDisk takes} {data : ByteArray} {provenance : Json.Value}

/-- After a refusal the bundles of all apps count. -/
theorem bundlesKept_iff_of_error
    (herror : ∃ error, (installApp lib hasCritical root now s data provenance).2 = .error error)
    (hrows : (installApp lib hasCritical root now s data provenance).1.rows = s.rows) :
    BundlesKept lib hasCritical root now s data provenance ↔
      ∀ q, InBundle root s.rows q →
        (installApp lib hasCritical root now s data provenance).1.tree.file q =
          s.tree.file q := by
  constructor
  · rintro ⟨hrefused, _⟩
    exact (hrefused herror).2
  · intro hkept
    exact ⟨fun _ => ⟨hrows, hkept⟩, fun q hq => hkept q hq.inBundle⟩

theorem bundlesKept_iff_of_ok {answer : InstallAnswer}
    (hok : (installApp lib hasCritical root now s data provenance).2 = .ok answer) :
    BundlesKept lib hasCritical root now s data provenance ↔
      ∀ q, InFirstPartyBundle root s.rows q →
        (installApp lib hasCritical root now s data provenance).1.tree.file q =
          s.tree.file q := by
  refine and_iff_right ?_
  rintro ⟨error, herror⟩
  rw [hok] at herror
  contradiction

theorem bundlesKept_iff_harmless {p : Package root} (hsize : data.size ≤ maxPackageBytes)
    (hopen : openPackage lib root data = .ok p) :
    BundlesKept lib hasCritical root now s data provenance ↔
      p.Harmless hasCritical s provenance := by
  rcases installApp_cases hasCritical now s provenance hsize hopen with
    ⟨hblocked, herror, hrows, hfiles⟩ | ⟨⟨hfree, hnot⟩, herror, hrows, hfiles⟩ |
      ⟨haccepted, ⟨answer, hok⟩, hfiles⟩
  · rw [bundlesKept_iff_of_error herror hrows]
    simp only [hfiles]
    constructor
    · intro hkept
      refine ⟨?_, fun hfree => absurd hblocked hfree, fun hacc => absurd hblocked hacc.2.1⟩
      intro _ q hq hbelow
      have hsame := hkept q hq
      rw [if_pos hbelow] at hsame
      exact hsame.symm
    · intro hharmless q hq
      split
      · rename_i hbelow
        exact (hharmless.blocked hblocked q hq hbelow).symm
      · rfl
  · rw [bundlesKept_iff_of_error herror hrows]
    simp only [hfiles, FileTree.overlay_eq_iff]
    constructor
    · intro hkept
      refine ⟨fun hblocked => absurd hblocked hfree, ?_, fun hacc => absurd hacc hnot⟩
      exact fun _ _ q content hq => hkept q hq content
    · intro hharmless q hq content
      exact hharmless.refused hfree hnot q content hq
  · rw [bundlesKept_iff_of_ok hok]
    simp only [hfiles, FileTree.overlay_eq_iff]
    constructor
    · intro hkept
      refine ⟨fun hblocked => absurd hblocked haccepted.2.1, fun _ hnot => absurd haccepted hnot,
        ?_⟩
      exact fun _ q content hq => hkept q hq content
    · intro hharmless q hq content
      exact hharmless.accepted haccepted q content hq

end Kept

/-- The installs that leave the bundles of installed apps alone where they are refused, and
those of first-party apps in any case. -/
theorem bundlesKept_iff {takes : Path → Bool} (lib : PackageLibraries)
    (hasCritical : (Path → Option ByteArray) → Bool) (root : Path) (now : Int)
    (s : AppDisk takes) (data : ByteArray) (provenance : Json.Value) :
    BundlesKept lib hasCritical root now s data provenance ↔
      (data.size ≤ maxPackageBytes → ∀ p, openPackage lib root data = .ok p →
        p.Harmless hasCritical s provenance) := by
  by_cases hsize : data.size ≤ maxPackageBytes
  · cases hopen : openPackage lib root data with
    | ok p =>
      rw [bundlesKept_iff_harmless hsize hopen]
      constructor
      · intro hharmless _ other hother
        cases hother
        exact hharmless
      · exact fun hall => hall hsize p rfl
    | error failure =>
      refine iff_of_true ?_ nofun
      have hkept : (installApp lib hasCritical root now s data provenance).1 = s := by
        simp only [installApp, if_neg (not_lt.mpr hsize), extractPackage_of_error hopen]
      simp only [BundlesKept, hkept, implies_true, and_self]
  · refine iff_of_true ?_ fun hle => absurd hle hsize
    have hkept : (installApp lib hasCritical root now s data provenance).1 = s := by
      rw [installApp, if_pos (not_le.mp hsize)]
    simp only [BundlesKept, hkept, implies_true, and_self]

/-- The studio is installed as a first-party app, with a page of its own. -/
def studioDisk : AppDisk isShortPath where
  tree :=
    match (emptyTree.mkdirs [] ["data", "apps", "studio"]).1.writeAt
      ["data", "apps", "studio", "index.html"] "<p>studio</p>".toUTF8 with
    | .ok t => t
    | .error _ => emptyTree
  rows :=
    Dict.empty.set "studio"
      { name := "Studio"
        version := "1.0.0"
        appType := "web"
        entry := "index.html"
        icon := ""
        permissionsRequested := []
        permissionsGranted := []
        enabled := true
        installedAt := 0
        trust := "first-party"
        provenance := "first-party" }

theorem exists_error {α β : Type} {r : Except α β} (h : r.toOption.isNone = true) :
    ∃ error, r = .error error := by
  cases r with
  | error error => exact ⟨error, rfl⟩
  | ok b => exact absurd h Bool.false_ne_true

/-- A package with the id of the studio is refused, and its page has replaced the studio's. -/
theorem not_bundlesKept :
    ¬ BundlesKept studioLibraries (fun _ => false) ["data", "apps"] 1 studioDisk studioZip
      (.str "user-uploaded") := by
  intro h
  have hrefused : (installApp studioLibraries (fun _ => false) ["data", "apps"] 1 studioDisk
      studioZip (.str "user-uploaded")).2.toOption.isNone = true := by
    decide +kernel
  have hpage : (installApp studioLibraries (fun _ => false) ["data", "apps"] 1 studioDisk
      studioZip (.str "user-uploaded")).1.tree.file ["data", "apps", "studio", "index.html"] ≠
        studioDisk.tree.file ["data", "apps", "studio", "index.html"] := by
    decide +kernel
  obtain ⟨error, herror⟩ := exists_error hrefused
  exact hpage ((h.1 ⟨error, herror⟩).2 _ ⟨"studio", _, rfl, by decide⟩)

end TinyAgentOS.Userspace
