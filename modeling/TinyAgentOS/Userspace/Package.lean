import TinyAgentOS.Library.FileTree
import TinyAgentOS.Registry.CanonicalId
import TinyAgentOS.Userspace.Capabilities

/-!
# Packages of userspace apps

A package is a zip archive with a manifest.  Its members are extracted one after the other into
the directory that the id in the manifest names, up to the first that is unsafe or cannot be
read or written.

Main results:

- `extractMembers_spec`: the files that the members leave, and when all of them are extracted.
- `extractPackage_spec`: the files that a package leaves.
-/

namespace TinyAgentOS.Userspace

open FileTrees
open Registry (strip isSpace)

/-! ## Manifests -/

/-- What `safe_load` yields.  The entries of a mapping stand in the order of its keys, so
that mappings are equal whatever order they are written in.  A value of another type has a
truth value, and a text if a column takes it. -/
inductive Yaml where
  | null
  | bool (value : Bool)
  | int (value : Int)
  | str (text : String)
  | seq (items : List Yaml)
  | map (entries : List (Yaml × Yaml))
  | other (typeName : String) (truthy : Bool) (column : Option String)

namespace Yaml

def isTruthy : Yaml → Bool
  | null => false
  | bool value => value
  | int value => value ≠ 0
  | str text => text ≠ ""
  | seq items => !items.isEmpty
  | map entries => !entries.isEmpty
  | other _ truthy _ => truthy

def typeName : Yaml → String
  | null => "NoneType"
  | bool _ => "bool"
  | int _ => "int"
  | str _ => "str"
  | seq _ => "list"
  | map _ => "dict"
  | other typeName _ _ => typeName

def isStr : Yaml → Bool
  | str _ => true
  | _ => false

def isInt : Yaml → Bool
  | int _ => true
  | _ => false

def isHashable : Yaml → Bool
  | seq _ => false
  | map _ => false
  | other typeName _ _ => typeName ≠ "set"
  | _ => true

def text? : Yaml → Option String
  | str text => some text
  | _ => none

end Yaml

/-- The entries of a mapping. -/
abbrev Entries := List (Yaml × Yaml)

namespace Entries

def isKey (key : String) (entry : Yaml × Yaml) : Bool :=
  decide (entry.1.text? = some key)

/-- `data.get(key)`. -/
def get? (m : Entries) (key : String) : Option Yaml :=
  (m.find? (isKey key)).map Prod.snd

/-- A field that the mapping has as a string. -/
def text (m : Entries) (key : String) : String :=
  ((m.get? key).bind Yaml.text?).getD ""

def set (m : Entries) (key : String) (value : Yaml) : Entries :=
  if m.any (isKey key) then m.map fun entry => if isKey key entry then (entry.1, value) else entry
  else m ++ [(.str key, value)]

def setDefault (m : Entries) (key : String) (value : Yaml) : Entries :=
  if m.any (isKey key) then m else m ++ [(.str key, value)]

end Entries

/-- Why a package is refused. -/
inductive PackageError where
  | invalidYaml (text : String)
  | notMapping (typeName : String)
  | missingField (key : String)
  | appType (value : Yaml)
  | containerBlock
  | containerImage
  | containerPorts
  | tuiCommand
  | tuiArgs
  | tuiProjectDir
  | tuiEnv
  | permissionsList
  | permissionType (typeName : String)
  | networkOrigin (origin : String)
  | unknownCapability (perm : String)
  | notArchive
  | tooManyFiles (count : Nat)
  | memberTooLarge (filename : String)
  | tooLarge (bytes : Nat)
  | manifestMissing
  | unsafeId (id : String)
  | unsafeMember (member : String)

/-- A `PackageError`, or another exception. -/
inductive PackageFailure where
  | refused (error : PackageError)
  | raised

/-- What a library raises: the exception that its caller expects, or another one. -/
inductive LibraryError where
  | expected (text : String)
  | other

/-- A member of an archive; `content` is none where its reading fails. -/
structure ZipMember where
  filename : String
  fileSize : Nat
  content : Option ByteArray

/-- `\d` of `re`, `yaml.safe_load` and `zipfile.ZipFile`. -/
structure PackageLibraries where
  isDigit : Char → Bool
  safeLoad : String → Except LibraryError Yaml
  openZip : ByteArray → Except LibraryError (List ZipMember)

def refuse {α : Type} (error : PackageError) : Except PackageFailure α :=
  .error (.refused error)

/-- `_ALLOWED_TYPES`. -/
def allowedTypes : List String :=
  ["web", "container", "tui"]

/-- `_REQUIRED`. -/
def requiredFields : List String :=
  ["id", "name", "version", "app_type"]

def checkRequired (m : Entries) : Except PackageFailure Unit :=
  match requiredFields.find? fun key => !(m.get? key).any Yaml.isTruthy with
  | some key => refuse (.missingField key)
  | none => .ok ()

/-- The container block of a container app. -/
def checkContainer (m : Entries) : Except PackageFailure Entries :=
  match m.get? "container" with
  | some (.map container) =>
    match Entries.get? container "image" with
    | some (.str image) =>
      if image = "" then refuse .containerImage
      else
        match Entries.get? container "ports" with
        | some (.seq ports) =>
          if !ports.isEmpty && ports.all Yaml.isInt then .ok m else refuse .containerPorts
        | _ => refuse .containerPorts
    | _ => refuse .containerImage
  | _ => refuse .containerBlock

/-- The command of a terminal app, with its defaults. -/
def checkTui (m : Entries) : Except PackageFailure Entries :=
  match m.get? "command" with
  | some (.str command) =>
    let stripped := String.ofList (strip isSpace command.toList)
    if stripped = "" then refuse .tuiCommand
    else
      let m := m.set "command" (.str stripped)
      match (m.get? "args").getD (.seq []) with
      | .seq args =>
        if args.all Yaml.isStr then
          let m := (m.set "args" (.seq args)).setDefault "needs_project_dir" (.bool true)
          match m.get? "needs_project_dir" with
          | some (.bool _) =>
            match (m.get? "env").getD (.map []) with
            | .map env =>
              if env.all fun entry => entry.1.isStr && entry.2.isStr then
                .ok (m.set "env" (.map env))
              else refuse .tuiEnv
            | _ => refuse .tuiEnv
          | _ => refuse .tuiProjectDir
        else refuse .tuiArgs
      | _ => refuse .tuiArgs
  | _ => refuse .tuiCommand

/-- The checks that depend on the type of the app. -/
def checkAppType (m : Entries) : Except PackageFailure Entries :=
  match (m.get? "app_type").getD .null with
  | .str appType =>
    if appType ∉ allowedTypes then refuse (.appType (.str appType))
    else if appType = "container" then checkContainer m
    else if appType = "tui" then checkTui m
    else .ok m
  | value => if value.isHashable then refuse (.appType value) else .error .raised

def checkPermission (isDigit : Char → Bool) : Yaml → Except PackageFailure Unit
  | .str perm =>
    if isNetPrefixed perm then
      let origin := perm.toList.drop netPrefix.length
      if isNetOrigin isDigit origin then .ok ()
      else refuse (.networkOrigin (String.ofList origin))
    else if isKnownCapability perm then .ok ()
    else refuse (.unknownCapability perm)
  | value => refuse (.permissionType value.typeName)

def withDefaults (m : Entries) : Entries :=
  ((m.setDefault "entry" (.str "index.html")).setDefault "icon" (.str "")).setDefault
    "permissions" (.seq [])

/-- `parse_manifest`. -/
def parseManifest (lib : PackageLibraries) (text : String) : Except PackageFailure Entries :=
  match lib.safeLoad text with
  | .error (.expected message) => refuse (.invalidYaml message)
  | .error .other => .error .raised
  | .ok data =>
    match if data.isTruthy then data else .map [] with
    | .map m => do
        checkRequired m
        let m ← checkAppType m
        let m := withDefaults m
        match m.get? "permissions" with
        | some (.seq permissions) =>
          permissions.forM (checkPermission lib.isDigit)
          return m
        | _ => refuse .permissionsList
    | value => refuse (.notMapping value.typeName)

/-! ## Archives -/

/-- `_MAX_UNCOMPRESSED_BYTES`. -/
def maxUncompressedBytes : Nat :=
  256 * 1024 * 1024

/-- `_MAX_MEMBER_BYTES`. -/
def maxMemberBytes : Nat :=
  64 * 1024 * 1024

/-- `_MAX_MEMBERS`. -/
def maxMembers : Nat :=
  10000

def totalSize (archive : List ZipMember) : Nat :=
  (archive.map ZipMember.fileSize).sum

/-- The defences against zip bombs. -/
def checkSizes (archive : List ZipMember) : Except PackageFailure Unit :=
  if archive.length > maxMembers then refuse (.tooManyFiles archive.length)
  else
    match archive.find? fun member => member.fileSize > maxMemberBytes with
    | some member => refuse (.memberTooLarge member.filename)
    | none =>
      if totalSize archive > maxUncompressedBytes then refuse (.tooLarge (totalSize archive))
      else .ok ()

/-- The sizes that pass the check. -/
theorem checkSizes_eq_ok_iff {archive : List ZipMember} :
    checkSizes archive = .ok () ↔
      archive.length ≤ maxMembers ∧ (∀ member ∈ archive, member.fileSize ≤ maxMemberBytes) ∧
        totalSize archive ≤ maxUncompressedBytes := by
  unfold checkSizes
  split
  · rename_i hcount
    exact iff_of_false nofun fun h => absurd h.1 (not_le.mpr hcount)
  · rename_i hcount
    rw [not_lt] at hcount
    split
    · rename_i member hlarge
      refine iff_of_false nofun fun h => ?_
      have hmem := List.mem_of_find?_eq_some hlarge
      have hsize : maxMemberBytes < member.fileSize := by
        simpa using List.find?_some hlarge
      exact absurd (h.2.1 member hmem) (not_le.mpr hsize)
    · rename_i hsmall
      have hsizes : ∀ member ∈ archive, member.fileSize ≤ maxMemberBytes := by
        intro member hmem
        simpa using List.find?_eq_none.mp hsmall member hmem
      split
      · rename_i htotal
        exact iff_of_false nofun fun h => absurd h.2.2 (not_le.mpr htotal)
      · rename_i htotal
        exact iff_of_true rfl ⟨hcount, hsizes, not_lt.mp htotal⟩

/-- `zf.read(name)`: the last member of the name. -/
def findMember (archive : List ZipMember) (name : String) : Option ZipMember :=
  archive.reverse.find? fun member => member.filename = name

def readMember (archive : List ZipMember) (name : String) : Option ByteArray :=
  (findMember archive name).bind ZipMember.content

def readManifest (lib : PackageLibraries) (archive : List ZipMember) :
    Except PackageFailure Entries :=
  match findMember archive "manifest.yaml" with
  | none => refuse .manifestMissing
  | some member =>
    match member.content.bind String.fromUTF8? with
    | none => .error .raised
    | some text => parseManifest lib text

/-- A package that has passed the checks before its extraction: its directory is below the
root. -/
structure Package (root : Path) where
  manifest : Entries
  id : String
  archive : List ZipMember
  get?_id : manifest.get? "id" = some (.str id)
  below : root <+: resolve root id ∧ resolve root id ≠ root

namespace Package

variable {root : Path}

def dir (p : Package root) : Path :=
  resolve root p.id

def names (p : Package root) : List String :=
  p.archive.map ZipMember.filename

theorem text_id (p : Package root) : p.manifest.text "id" = p.id := by
  rw [Entries.text, p.get?_id]
  rfl

end Package

/-- The id names a directory below the root. -/
def packageOf (root : Path) (archive : List ZipMember) (manifest : Entries) :
    Except PackageFailure (Package root) :=
  match hid : manifest.get? "id" with
  | some (.str id) =>
    if '\x00' ∈ id.toList then .error .raised
    else if hbelow : root <+: resolve root id ∧ resolve root id ≠ root then
      .ok ⟨manifest, id, archive, hid, hbelow⟩
    else refuse (.unsafeId id)
  | _ => .error .raised

variable {manifest : Entries} {lib : PackageLibraries} {data : ByteArray}

/-- What a package that is accepted is. -/
theorem packageOf_eq_ok {root : Path} {archive : List ZipMember}
    {p : Package root} (h : packageOf root archive manifest = .ok p) :
    p.manifest = manifest ∧ p.archive = archive ∧ '\x00' ∉ p.id.toList := by
  unfold packageOf at h
  split at h
  · split at h
    · contradiction
    · rename_i hnull
      split at h
      · cases h
        exact ⟨rfl, rfl, hnull⟩
      · contradiction
  · contradiction

theorem exists_packageOf {root : Path} (archive : List ZipMember)
    {id : String} (hid : manifest.get? "id" = some (.str id)) (hnull : '\x00' ∉ id.toList)
    (hbelow : root <+: resolve root id ∧ resolve root id ≠ root) :
    ∃ p : Package root, packageOf root archive manifest = .ok p := by
  unfold packageOf
  split
  · rename_i other hother
    cases hid.symm.trans hother
    rw [if_neg hnull, dif_pos hbelow]
    exact ⟨_, rfl⟩
  · rename_i hnone
    exact absurd hid (hnone id)

/-- `extract_package`, before it writes anything. -/
def openPackage (lib : PackageLibraries) (root : Path) (data : ByteArray) :
    Except PackageFailure (Package root) :=
  match lib.openZip data with
  | .error (.expected _) => refuse .notArchive
  | .error .other => .error .raised
  | .ok archive => do
      checkSizes archive
      let manifest ← readManifest lib archive
      packageOf root archive manifest

/-- The archives that are opened. -/
theorem openPackage_eq_ok_iff {root : Path}
    {archive : List ZipMember} (hzip : lib.openZip data = .ok archive) {p : Package root} :
    openPackage lib root data = .ok p ↔
      checkSizes archive = .ok () ∧ readManifest lib archive = .ok p.manifest ∧
        packageOf root archive p.manifest = .ok p := by
  have hopen : openPackage lib root data =
      (checkSizes archive).bind fun _ =>
        (readManifest lib archive).bind (packageOf root archive) := by
    rw [openPackage, hzip]
    rfl
  rw [hopen]
  cases checkSizes archive with
  | error failure =>
    refine iff_of_false (fun h => ?_) (fun h => ?_)
    · contradiction
    · exact absurd h.1 nofun
  | ok u =>
    cases readManifest lib archive with
    | error failure =>
      refine iff_of_false (fun h => ?_) (fun h => ?_)
      · contradiction
      · exact absurd h.2.1 nofun
    | ok manifest =>
      constructor
      · intro h
        have hpackage : packageOf root archive manifest = .ok p := h
        rw [(packageOf_eq_ok hpackage).1]
        exact ⟨rfl, rfl, hpackage⟩
      · rintro ⟨_, hmanifest, hpackage⟩
        cases hmanifest
        exact hpackage

/-! ## Extraction -/

section Extraction

variable {takes : Path → Bool} (archive : List ZipMember) (dir : Path)

def isDirectoryName (member : String) : Bool :=
  decide (member.toList.getLast? = some '/')

/-- One member of the archive. -/
def extractMember (t : FileTree takes ByteArray) (member : String) :
    FileTree takes ByteArray × Option PackageFailure :=
  let dest := resolve dir member
  if isDirectoryName member then (t, none)
  else if dest = dir ∨ ¬ dir <+: dest then (t, some (.refused (.unsafeMember member)))
  else
    match t.mkdirs [] dest.dropLast with
    | (t', some _) => (t', some .raised)
    | (t', none) =>
      match readMember archive member with
      | none => (t', some .raised)
      | some content =>
        match t'.writeAt dest content with
        | .error _ => (t', some .raised)
        | .ok t'' => (t'', none)

/-- The members in their order, up to the first failure. -/
def extractMembers (t : FileTree takes ByteArray) :
    List String → FileTree takes ByteArray × Option PackageFailure
  | [] => (t, none)
  | member :: members =>
    match extractMember archive dir t member with
    | (t', some failure) => (t', some failure)
    | (t', none) => extractMembers t' members

end Extraction

/-- `extract_package`. -/
def extractPackage {takes : Path → Bool} (lib : PackageLibraries) (root : Path)
    (t : FileTree takes ByteArray) (data : ByteArray) :
    FileTree takes ByteArray × Except PackageFailure Entries :=
  match openPackage lib root data with
  | .error failure => (t, .error failure)
  | .ok package =>
    match t.mkdirs [] package.dir with
    | (t', some _) => (t', .error .raised)
    | (t', none) =>
      match extractMembers package.archive package.dir t' package.names with
      | (t'', some failure) => (t'', .error failure)
      | (t'', none) => (t'', .ok package.manifest)

/-! ## What is extracted -/

section Placed

variable {takes : Path → Bool} (archive : List ZipMember) (dir : Path)
  (t : FileTree takes ByteArray)

/-- The files that are written for some members after others have been placed: up to the first
that cannot be read or does not fit. -/
def placed : List Path → List String → List (Path × ByteArray)
  | _, [] => []
  | places, member :: members =>
    if isDirectoryName member then placed places members
    else
      match readMember archive member with
      | none => []
      | some content =>
        if t.Fits dir places (resolve dir member) then
          (resolve dir member, content) :: placed (resolve dir member :: places) members
        else []

/-- All members can be read and fit one after the other. -/
def AllPlaced : List Path → List String → Prop
  | _, [] => True
  | places, member :: members =>
    if isDirectoryName member then AllPlaced places members
    else
      (∃ content, readMember archive member = some content) ∧
        t.Fits dir places (resolve dir member) ∧
          AllPlaced (resolve dir member :: places) members

end Placed

section Spec

variable {takes : Path → Bool} (archive : List ZipMember) {dir : Path}
  {t t' : FileTree takes ByteArray} {places : List Path}

/-- A member is written where it can be read and fits, and only then does the extraction go
on. -/
theorem extractMember_spec (h : t.Grown dir places t') {member : String}
    (hname : isDirectoryName member = false) :
    (∃ content t'', readMember archive member = some content ∧
        t.Fits dir places (resolve dir member) ∧
          extractMember archive dir t' member = (t'', none) ∧
            (∀ q, t''.file q = if q = resolve dir member then some content else t'.file q) ∧
              t.Grown dir (resolve dir member :: places) t'') ∨
      ¬ ((∃ content, readMember archive member = some content) ∧
          t.Fits dir places (resolve dir member)) ∧
        ∃ t'' failure, extractMember archive dir t' member = (t'', some failure) ∧
          ∀ q, t''.file q = t'.file q := by
  have hsame := (FileTree.mkdirs_spec t'.isDir_root (resolve dir member).dropLast).1
  simp only [extractMember, hname]
  by_cases hbelow : dir <+: resolve dir member ∧ resolve dir member ≠ dir
  · rw [if_neg (by simp), if_neg (by simpa [not_or] using hbelow.symm)]
    cases hread : readMember archive member with
    | none =>
      right
      refine ⟨?_, ?_⟩
      · rintro ⟨⟨content, hcontent⟩, _⟩
        contradiction
      · cases hmake : t'.mkdirs [] (resolve dir member).dropLast with
        | mk t₁ failed =>
          rw [hmake] at hsame
          cases failed with
          | none | some => exact ⟨t₁, .raised, rfl, hsame⟩
    | some content =>
      have hwrite := h.write hbelow content
      cases hmake : t'.mkdirs [] (resolve dir member).dropLast with
      | mk t₁ failed =>
        rw [hmake] at hsame hwrite
        rcases hwrite with ⟨hfits, rfl, t'', hok, hfiles, hgrown⟩ | ⟨hnot, hfail⟩
        · left
          exact ⟨content, t'', rfl, hfits, by simp only [hok], hfiles, hgrown⟩
        · right
          refine ⟨fun hboth => hnot hboth.2, ?_⟩
          cases failed with
          | none =>
            obtain ⟨error, herror⟩ := hfail rfl
            exact ⟨t₁, .raised, by simp only [herror], hsame⟩
          | some error => exact ⟨t₁, .raised, rfl, hsame⟩
  · right
    refine ⟨fun hboth => hbelow hboth.2.1, t', .refused (.unsafeMember member), ?_, fun q => rfl⟩
    rw [if_neg (by simp), if_pos]
    by_contra hinside
    rw [not_or, not_not] at hinside
    exact hbelow hinside.symm

/-- The files after an extraction, and when it is whole. -/
theorem extractMembers_spec (h : t.Grown dir places t') (members : List String) :
    (∀ q, (extractMembers archive dir t' members).1.file q =
        FileTree.overlay (placed archive dir t places members) t'.file q) ∧
      ((extractMembers archive dir t' members).2 = none ↔
        AllPlaced archive dir t places members) := by
  induction members generalizing places t' with
  | nil => exact ⟨fun q => rfl, iff_of_true rfl trivial⟩
  | cons member members ih =>
    by_cases hname : isDirectoryName member = true
    · have hskip : extractMembers archive dir t' (member :: members) =
          extractMembers archive dir t' members := by
        simp only [extractMembers, extractMember, if_pos hname]
      simp only [hskip, placed, AllPlaced, if_pos hname]
      exact ih h
    · rw [Bool.not_eq_true] at hname
      simp only [placed, AllPlaced, hname, Bool.false_eq_true, if_false]
      rcases extractMember_spec archive h hname with
        ⟨content, t'', hread, hfits, hstep, hfiles, hgrown⟩ |
          ⟨hnot, t'', failure, hstep, hfiles⟩
      · obtain ⟨hrest, hwhole⟩ := ih hgrown
        have hgo : extractMembers archive dir t' (member :: members) =
            extractMembers archive dir t'' members := by
          simp only [extractMembers, hstep]
        rw [hgo, hread]
        simp only [if_pos hfits, FileTree.overlay_cons]
        refine ⟨?_, hwhole.trans ?_⟩
        · intro q
          rw [hrest q, funext hfiles]
        · constructor
          · exact fun hall => ⟨⟨content, rfl⟩, hfits, hall⟩
          · exact fun hall => hall.2.2
      · have hstop : extractMembers archive dir t' (member :: members) = (t'', some failure) := by
          simp only [extractMembers, hstep]
        rw [hstop]
        refine ⟨?_, iff_of_false nofun fun hall => hnot ⟨hall.1, hall.2.1⟩⟩
        intro q
        rw [hfiles q]
        cases hread : readMember archive member with
        | none => rfl
        | some content =>
          have hunfit : ¬ t.Fits dir places (resolve dir member) :=
            fun hfits => hnot ⟨⟨content, hread⟩, hfits⟩
          simp only [if_neg hunfit]
          rfl

end Spec

namespace Package

variable {takes : Path → Bool} {root : Path}

/-- The files that the extraction of a package writes, in their order. -/
def writes (p : Package root) (t : FileTree takes ByteArray) : List (Path × ByteArray) :=
  if t.Makeable [] p.dir then placed p.archive p.dir t [] p.names else []

/-- The directory of the package can be made, and all its members placed. -/
def Whole (p : Package root) (t : FileTree takes ByteArray) : Prop :=
  t.Makeable [] p.dir ∧ AllPlaced p.archive p.dir t [] p.names

end Package

/-- The extraction of a package writes its files, and succeeds when they are all of them. -/
theorem extractPackage_spec {takes : Path → Bool} {root : Path} {p : Package root}
    (hopen : openPackage lib root data = .ok p) (t : FileTree takes ByteArray) :
    (∀ q, (extractPackage lib root t data).1.file q =
        FileTree.overlay (p.writes t) t.file q) ∧
      (p.Whole t ∧ (extractPackage lib root t data).2 = .ok p.manifest ∨
        ¬ p.Whole t ∧ ∃ failure, (extractPackage lib root t data).2 = .error failure) := by
  obtain ⟨hsame, hmakeable, _⟩ := FileTree.mkdirs_spec t.isDir_root p.dir
  by_cases hmake : t.Makeable [] p.dir
  · have hok := hmakeable.mpr hmake
    obtain ⟨hfiles, hwhole⟩ := extractMembers_spec p.archive
      (FileTree.grown_mkdirs hok) p.names
    rw [funext hsame] at hfiles
    have hwrites : p.writes t = placed p.archive p.dir t [] p.names := if_pos hmake
    cases hresult : t.mkdirs [] p.dir with
    | mk t₁ failed =>
      rw [hresult] at hok hfiles hwhole
      cases hok
      cases hmembers : extractMembers p.archive p.dir t₁ p.names with
      | mk t₂ failure =>
        rw [hmembers] at hfiles hwhole
        cases failure with
        | none =>
          simp only [extractPackage, hopen, hresult, hmembers, hwrites]
          exact ⟨hfiles, Or.inl ⟨⟨hmake, hwhole.mp rfl⟩, trivial⟩⟩
        | some failure =>
          simp only [extractPackage, hopen, hresult, hmembers, hwrites]
          refine ⟨hfiles, Or.inr ⟨?_, failure, rfl⟩⟩
          rintro ⟨_, hall⟩
          exact absurd (hwhole.mpr hall) (Option.some_ne_none failure)
  · have hwrites : p.writes t = [] := if_neg hmake
    cases hresult : t.mkdirs [] p.dir with
    | mk t₁ failed =>
      rw [hresult] at hsame hmakeable
      cases failed with
      | none => exact absurd (hmakeable.mp rfl) hmake
      | some error =>
        simp only [extractPackage, hopen, hresult, hwrites]
        exact ⟨hsame, Or.inr ⟨fun hwhole => hmake hwhole.1, .raised, rfl⟩⟩

/-- A package that is refused before its extraction leaves the tree as it is. -/
theorem extractPackage_of_error {takes : Path → Bool} {root : Path} {failure : PackageFailure}
    (hopen : openPackage lib root data = .error failure) (t : FileTree takes ByteArray) :
    extractPackage lib root t data = (t, .error failure) := by
  rw [extractPackage, hopen]

/-! ## Two small packages -/

/-- Names of at most 255 bytes, in a path of at most 4095. -/
def isShortPath (path : Path) : Bool :=
  path.all (fun name => name.utf8ByteSize ≤ 255) &&
    (path.map fun name => name.utf8ByteSize + 1).sum ≤ 4095

def emptyTree : FileTree isShortPath ByteArray :=
  .empty

def studioManifest : Entries :=
  [(.str "app_type", .str "web"), (.str "id", .str "studio"), (.str "name", .str "Studio"),
    (.str "version", .str "1.0.0")]

/-- `safe_dump` of the manifest, with its keys sorted or as they were written. -/
def studioText (sortKeys : Bool) : String :=
  if sortKeys then "app_type: web\nid: studio\nname: Studio\nversion: 1.0.0\n"
  else "id: studio\nname: Studio\nversion: 1.0.0\napp_type: web\n"

def studioPage : String :=
  "<p>mine</p>"

/-- The archive of the manifest and an `index.html`. -/
def studioZip : ByteArray :=
  ⟨#[
    80, 75, 3, 4, 20, 0, 0, 0, 8, 0, 197, 105, 115, 93, 239, 111, 199, 191, 49, 0, 0, 0, 53, 0,
    0, 0, 13, 0, 0, 0, 109, 97, 110, 105, 102, 101, 115, 116, 46, 121, 97, 109, 108, 203, 76,
    177, 82, 40, 46, 41, 77, 201, 204, 231, 202, 75, 204, 77, 181, 82, 8, 134, 112, 202, 82,
    139, 138, 51, 243, 243, 172, 20, 12, 245, 12, 244, 12, 184, 18, 11, 10, 226, 75, 42, 11,
    128, 242, 229, 169, 73, 92, 0, 80, 75, 3, 4, 20, 0, 0, 0, 8, 0, 197, 105, 115, 93, 61, 254,
    19, 8, 13, 0, 0, 0, 11, 0, 0, 0, 10, 0, 0, 0, 105, 110, 100, 101, 120, 46, 104, 116, 109,
    108, 179, 41, 176, 203, 205, 204, 75, 181, 209, 47, 176, 3, 0, 80, 75, 1, 2, 20, 3, 20, 0,
    0, 0, 8, 0, 197, 105, 115, 93, 239, 111, 199, 191, 49, 0, 0, 0, 53, 0, 0, 0, 13, 0, 0, 0, 0,
    0, 0, 0, 0, 0, 0, 0, 128, 1, 0, 0, 0, 0, 109, 97, 110, 105, 102, 101, 115, 116, 46, 121, 97,
    109, 108, 80, 75, 1, 2, 20, 3, 20, 0, 0, 0, 8, 0, 197, 105, 115, 93, 61, 254, 19, 8, 13, 0,
    0, 0, 11, 0, 0, 0, 10, 0, 0, 0, 0, 0, 0, 0, 0, 0, 0, 0, 128, 1, 92, 0, 0, 0, 105, 110, 100,
    101, 120, 46, 104, 116, 109, 108, 80, 75, 5, 6, 0, 0, 0, 0, 2, 0, 2, 0, 115, 0, 0, 0, 145,
    0, 0, 0, 0, 0
  ]⟩

/-- The archive of the manifest and a file that has its name. -/
def clashZip : ByteArray :=
  ⟨#[
    80, 75, 3, 4, 20, 0, 0, 0, 8, 0, 57, 107, 115, 93, 239, 111, 199, 191, 49, 0, 0, 0, 53, 0,
    0, 0, 13, 0, 0, 0, 109, 97, 110, 105, 102, 101, 115, 116, 46, 121, 97, 109, 108, 203, 76,
    177, 82, 40, 46, 41, 77, 201, 204, 231, 202, 75, 204, 77, 181, 82, 8, 134, 112, 202, 82,
    139, 138, 51, 243, 243, 172, 20, 12, 245, 12, 244, 12, 184, 18, 11, 10, 226, 75, 42, 11,
    128, 242, 229, 169, 73, 92, 0, 80, 75, 3, 4, 20, 0, 0, 0, 8, 0, 57, 107, 115, 93, 147, 211,
    168, 105, 6, 0, 0, 0, 4, 0, 0, 0, 13, 0, 0, 0, 109, 97, 110, 105, 102, 101, 115, 116, 46,
    121, 97, 109, 108, 203, 205, 204, 75, 5, 0, 80, 75, 1, 2, 20, 3, 20, 0, 0, 0, 8, 0, 57, 107,
    115, 93, 239, 111, 199, 191, 49, 0, 0, 0, 53, 0, 0, 0, 13, 0, 0, 0, 0, 0, 0, 0, 0, 0, 0, 0,
    128, 1, 0, 0, 0, 0, 109, 97, 110, 105, 102, 101, 115, 116, 46, 121, 97, 109, 108, 80, 75, 1,
    2, 20, 3, 20, 0, 0, 0, 8, 0, 57, 107, 115, 93, 147, 211, 168, 105, 6, 0, 0, 0, 4, 0, 0, 0,
    13, 0, 0, 0, 0, 0, 0, 0, 0, 0, 0, 0, 128, 1, 92, 0, 0, 0, 109, 97, 110, 105, 102, 101, 115,
    116, 46, 121, 97, 109, 108, 80, 75, 5, 6, 0, 0, 0, 0, 2, 0, 2, 0, 118, 0, 0, 0, 141, 0, 0,
    0, 0, 0
  ]⟩

/-- The libraries, where they read these packages. -/
def studioLibraries : PackageLibraries where
  isDigit := Char.isDigit
  safeLoad text :=
    if text = studioText true ∨ text = studioText false then .ok (.map studioManifest)
    else if text = "mine" then .ok (.str "mine")
    else .error .other
  openZip data :=
    if data.data.toList = studioZip.data.toList then
      .ok [⟨"manifest.yaml", 53, some (studioText false).toUTF8⟩,
        ⟨"index.html", 11, some studioPage.toUTF8⟩]
    else if data.data.toList = clashZip.data.toList then
      .ok [⟨"manifest.yaml", 53, some (studioText false).toUTF8⟩,
        ⟨"manifest.yaml", 4, some "mine".toUTF8⟩]
    else .error .other

end TinyAgentOS.Userspace
