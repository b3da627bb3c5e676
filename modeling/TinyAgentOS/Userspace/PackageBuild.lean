import TinyAgentOS.Library.Dict
import TinyAgentOS.Userspace.Package

/-!
# Built packages

A package is built from a manifest and a map of files.  The build checks the manifest alone; the
extraction looks at the id, at the names of the members and at their sizes as well.

Main results:

- `roundTrips_iff`: the packages whose extraction yields what they were built from.
-/

namespace TinyAgentOS.Userspace

open Collections FileTrees

/-! ## The build -/

/-- The libraries of the builder: `yaml.safe_dump`, with its keys sorted or as they stand,
and the writing of an archive.  Both may raise. -/
structure BuildLibraries extends PackageLibraries where
  safeDump : Bool → Yaml → Option String
  writeZip : List (String × ByteArray) → Option ByteArray

/-- The members of a package: the manifest and the files. -/
def packed (text : String) (files : Dict String String) : List (String × ByteArray) :=
  ("manifest.yaml", text.toUTF8) :: files.entries.map fun file => (file.1, file.2.toUTF8)

/-- `build_package`. -/
def buildPackage (lib : BuildLibraries) (manifest : Entries) (files : Dict String String) :
    Except PackageFailure ByteArray :=
  match lib.safeDump true (.map manifest) with
  | none => .error .raised
  | some sorted =>
    match parseManifest lib.toPackageLibraries sorted with
    | .error failure => .error failure
    | .ok _ =>
      match lib.safeDump false (.map manifest) with
      | none => .error .raised
      | some text =>
        match lib.writeZip (packed text files) with
        | none => .error .raised
        | some data => .ok data

/-- `ZipInfo` cuts a name at its first null character. -/
def cutName (name : String) : String :=
  String.ofList (name.toList.takeWhile fun c => c ≠ '\x00')

/-- A member as it is read back. -/
def stored (member : String × ByteArray) : ZipMember :=
  ⟨cutName member.1, member.2.size, some member.2⟩

/-- What is written is read back: values, and members in their order under their cut names. -/
structure BuildLibraries.Faithful (lib : BuildLibraries) : Prop where
  yaml : ∀ sortKeys value text, lib.safeDump sortKeys value = some text →
    lib.safeLoad text = .ok value
  zip : ∀ members data, lib.writeZip members = some data →
    lib.openZip data = .ok (members.map stored)

/-! ## The round trip -/

/-- The directory that the manifest names. -/
def appDir (root : Path) (m : Entries) : Path :=
  resolve root (m.text "id")

/-- The package is extracted with the manifest that was parsed: the manifest and the files are
found under the directory of the app, and nothing else has changed. -/
def RoundTrips {takes : Path → Bool} (lib : BuildLibraries) (manifest : Entries)
    (files : Dict String String) (data : ByteArray) (root : Path)
    (t : FileTree takes ByteArray) : Prop :=
  ∃ text, ∃ m : Entries, lib.safeDump false (.map manifest) = some text ∧
    parseManifest lib.toPackageLibraries text = .ok m ∧
    (extractPackage lib.toPackageLibraries root t data).2 = .ok m ∧
    (∀ member ∈ packed text files,
      (extractPackage lib.toPackageLibraries root t data).1.file
        (resolve (appDir root m) member.1) = some member.2) ∧
    ∀ q, (∀ member ∈ packed text files, q ≠ resolve (appDir root m) member.1) →
      (extractPackage lib.toPackageLibraries root t data).1.file q = t.file q

/-- The content of the last member that is extracted to a path. -/
def lastAt (dir : Path) (members : List (String × ByteArray)) (q : Path) : Option ByteArray :=
  (members.reverse.find? fun member =>
    !isDirectoryName (cutName member.1) && decide (resolve dir (cutName member.1) = q)).map
      Prod.snd

/-- The package of these members can be imported under the root. -/
structure Importable {takes : Path → Bool} (lib : PackageLibraries) (m : Entries)
    (members : List (String × ByteArray)) (root : Path) (t : FileTree takes ByteArray) :
    Prop where
  count : members.length ≤ maxMembers
  size : ∀ member ∈ members, member.2.size ≤ maxMemberBytes
  total : (members.map fun member => member.2.size).sum ≤ maxUncompressedBytes
  /-- No file takes the place of the manifest in the archive. -/
  manifest : readManifest lib (members.map stored) = .ok m
  id : ∃ id, m.get? "id" = some (.str id) ∧ '\x00' ∉ id.toList
  below : root <+: appDir root m ∧ appDir root m ≠ root
  makeable : t.Makeable [] (appDir root m)
  placed : AllPlaced (members.map stored) (appDir root m) t []
    (members.map fun member => cutName member.1)
  /-- The last member at the place of a file has its content. -/
  found : ∀ member ∈ members,
    (lastAt (appDir root m) members
      (resolve (appDir root m) member.1)).or
        (t.file (resolve (appDir root m) member.1)) = some member.2
  /-- No member is extracted elsewhere. -/
  alone : ∀ q content, lastAt (appDir root m) members q = some content →
    (∃ member ∈ members, q = resolve (appDir root m) member.1) ∨
      t.file q = some content

variable {lib : PackageLibraries} {data : ByteArray} {root : Path}
  {members : List (String × ByteArray)}

/-- A text is parsed by what it is loaded as. -/
theorem parseManifest_congr {text text' : String} (h : lib.safeLoad text = lib.safeLoad text') :
    parseManifest lib text = parseManifest lib text' := by
  rw [parseManifest, parseManifest, h]

variable {files : Dict String String} {p : Package root}

/-- What is known of a package that was built. -/
theorem buildPackage_eq_ok {lib : BuildLibraries} (hlib : lib.Faithful) {manifest : Entries}
    (hbuild : buildPackage lib manifest files = .ok data) :
    ∃ text, ∃ m : Entries, lib.safeDump false (.map manifest) = some text ∧
      parseManifest lib.toPackageLibraries text = .ok m ∧
        lib.openZip data = .ok ((packed text files).map stored) := by
  unfold buildPackage at hbuild
  split at hbuild
  · contradiction
  rename_i sorted hsorted
  split at hbuild
  · contradiction
  rename_i m hparse
  split at hbuild
  · contradiction
  rename_i text htext
  split at hbuild
  · contradiction
  rename_i data' hzip
  cases hbuild
  refine ⟨text, m, htext, ?_, hlib.zip _ _ hzip⟩
  have hload : lib.safeLoad text = lib.safeLoad sorted :=
    (hlib.yaml _ _ _ htext).trans (hlib.yaml _ _ _ hsorted).symm
  rw [parseManifest_congr hload]
  exact hparse

theorem find?_of_imp {α : Type} {l : List α} {f g : α → Bool} {a : α} (h : l.find? f = some a)
    (ha : g a = true) (himp : ∀ x, g x = true → f x = true) : l.find? g = some a := by
  induction l with
  | nil => contradiction
  | cons x l ih =>
    by_cases hf : f x = true
    · rw [List.find?_cons_of_pos hf] at h
      cases h
      exact List.find?_cons_of_pos ha
    · rw [List.find?_cons_of_neg hf] at h
      rw [List.find?_cons_of_neg fun hg => hf (himp x hg)]
      exact ih h

section Placed

variable {takes : Path → Bool} {archive : List ZipMember} {dir : Path}
  {t : FileTree takes ByteArray}

variable {places : List Path} {names : List String}

theorem exists_readMember (h : AllPlaced archive dir t places names) {name : String}
    (hmem : name ∈ names)
    (hname : isDirectoryName name = false) : ∃ content, readMember archive name = some content := by
  induction names generalizing places with
  | nil => exact absurd hmem List.not_mem_nil
  | cons first names ih =>
    by_cases hfirst : isDirectoryName first = true
    · simp only [AllPlaced, if_pos hfirst] at h
      rcases List.mem_cons.mp hmem with rfl | hmem
      · rw [hname] at hfirst
        contradiction
      · exact ih h hmem
    · simp only [AllPlaced, if_neg hfirst] at h
      rcases List.mem_cons.mp hmem with rfl | hmem
      · exact h.1
      · exact ih h.2.2 hmem

/-- What is written to a path is read by the last name that leads there. -/
theorem written_placed (h : AllPlaced archive dir t places names) (q : Path) :
    FileTree.written (placed archive dir t places names) q =
      (names.reverse.find? fun name =>
        !isDirectoryName name && decide (resolve dir name = q)).bind (readMember archive) := by
  induction names generalizing places with
  | nil => rfl
  | cons name names ih =>
    rw [List.reverse_cons, List.find?_append]
    by_cases hname : isDirectoryName name = true
    · simp only [placed, AllPlaced, if_pos hname] at h ⊢
      rw [ih h]
      simp [hname]
    · simp only [placed, AllPlaced, if_neg hname] at h ⊢
      obtain ⟨⟨content, hread⟩, hfits, hrest⟩ := h
      rw [Bool.not_eq_true] at hname
      rw [hread]
      simp only [if_pos hfits, FileTree.written, ih hrest]
      cases hlast : names.reverse.find? fun name =>
          !isDirectoryName name && decide (resolve dir name = q) with
      | none =>
        by_cases hq : resolve dir name = q
        · simp [hname, hq, hread]
        · simp [hq]
      | some last =>
        have hmem := List.mem_reverse.mp (List.mem_of_find?_eq_some hlast)
        have hfile := List.find?_some hlast
        rw [Bool.and_eq_true, Bool.not_eq_true'] at hfile
        obtain ⟨content', hread'⟩ := exists_readMember hrest hmem hfile.1
        simp [hread']

/-- The last member that is extracted to a path is the last of its name. -/
theorem readMember_last {members : List (String × ByteArray)} {member : String × ByteArray}
    {q : Path} (hlast : (members.reverse.find? fun member =>
      !isDirectoryName (cutName member.1) && decide (resolve dir (cutName member.1) = q)) =
        some member) : readMember (members.map stored) (cutName member.1) = some member.2 := by
  have hplace := List.find?_some hlast
  have hfound : (members.reverse.find? fun other =>
      decide (cutName other.1 = cutName member.1)) = some member := by
    apply find?_of_imp hlast (decide_eq_true rfl)
    intro other hother
    rw [of_decide_eq_true hother]
    exact hplace
  rw [readMember, findMember, ← List.map_reverse, List.find?_map]
  have hsame : ((fun found : ZipMember => decide (found.filename = cutName member.1)) ∘ stored) =
      fun other : String × ByteArray => decide (cutName other.1 = cutName member.1) := rfl
  rw [hsame, hfound]
  rfl

theorem written_eq_lastAt {members : List (String × ByteArray)}
    (h : AllPlaced (members.map stored) dir t [] (members.map fun member => cutName member.1))
    (q : Path) :
    FileTree.written (placed (members.map stored) dir t []
      (members.map fun member => cutName member.1)) q = lastAt dir members q := by
  rw [written_placed h, lastAt, ← List.map_reverse, List.find?_map]
  have hsame : ((fun name => !isDirectoryName name && decide (resolve dir name = q)) ∘
      fun member : String × ByteArray => cutName member.1) = fun member : String × ByteArray =>
        !isDirectoryName (cutName member.1) && decide (resolve dir (cutName member.1) = q) := rfl
  rw [hsame]
  cases hlast : members.reverse.find? fun member =>
      !isDirectoryName (cutName member.1) && decide (resolve dir (cutName member.1) = q) with
  | none => rfl
  | some member => exact readMember_last hlast

end Placed

theorem Package.appDir_manifest (p : Package root) : appDir root p.manifest = p.dir := by
  rw [appDir, p.text_id, Package.dir]

theorem Package.names_of_archive (p : Package root) (h : p.archive = members.map stored) :
    p.names = members.map fun member => cutName member.1 := by
  rw [Package.names, h, List.map_map]
  rfl

/-- The files after the extraction of a whole package. -/
theorem file_extractPackage {takes : Path → Bool}
    (hopen : openPackage lib root data = .ok p) (harchive : p.archive = members.map stored)
    {t : FileTree takes ByteArray} (hwhole : p.Whole t) (q : Path) :
    (extractPackage lib root t data).1.file q = (lastAt p.dir members q).or (t.file q) := by
  have hnames := p.names_of_archive harchive
  have hplaced := hwhole.2
  rw [(extractPackage_spec hopen t).1 q, FileTree.overlay, Package.writes, if_pos hwhole.1]
  rw [hnames, harchive] at hplaced ⊢
  rw [written_eq_lastAt hplaced]

/-- A package that was extracted as it was built could be imported. -/
theorem importable_of_extracted {takes : Path → Bool}
    (hzip : lib.openZip data = .ok (members.map stored))
    (hopen : openPackage lib root data = .ok p) {t : FileTree takes ByteArray} (hwhole : p.Whole t)
    (hfound : ∀ member ∈ members, (extractPackage lib root t data).1.file
      (resolve (appDir root p.manifest) member.1) = some member.2)
    (hothers : ∀ q, (∀ member ∈ members, q ≠ resolve (appDir root p.manifest) member.1) →
      (extractPackage lib root t data).1.file q = t.file q) :
    Importable lib p.manifest members root t := by
  obtain ⟨hsizes, hread, hpackage⟩ := (openPackage_eq_ok_iff hzip).mp hopen
  obtain ⟨_, harchive, hnull⟩ := packageOf_eq_ok hpackage
  obtain ⟨hcount, hsize, htotal⟩ := checkSizes_eq_ok_iff.mp hsizes
  have hfiles := file_extractPackage hopen harchive hwhole
  have hnames := p.names_of_archive harchive
  have hplaced := hwhole.2
  rw [hnames, harchive] at hplaced
  have hdir := p.appDir_manifest
  refine ⟨?_, ?_, ?_, hread, ⟨p.id, p.get?_id, hnull⟩, hdir ▸ p.below, hdir ▸ hwhole.1,
    hdir ▸ hplaced, ?_, ?_⟩
  · rw [List.length_map] at hcount
    exact hcount
  · intro member hmem
    exact hsize (stored member) (List.mem_map_of_mem hmem)
  · rw [totalSize, List.map_map] at htotal
    exact htotal
  · intro member hmem
    have hmember := hfound member hmem
    rw [hfiles, ← hdir] at hmember
    exact hmember
  · intro q content hlast
    by_contra hnot
    rw [not_or] at hnot
    have hother := hothers q fun member hmem heq => hnot.1 ⟨member, hmem, heq⟩
    rw [hdir] at hlast
    rw [hfiles, hlast, Option.some_or] at hother
    exact hnot.2 hother.symm

/-- A package that can be imported is extracted as it was built. -/
theorem extracted_of_importable {takes : Path → Bool}
    (hzip : lib.openZip data = .ok (members.map stored)) {m : Entries}
    {t : FileTree takes ByteArray} (h : Importable lib m members root t) :
    (extractPackage lib root t data).2 = .ok m ∧
      (∀ member ∈ members, (extractPackage lib root t data).1.file
        (resolve (appDir root m) member.1) = some member.2) ∧
        ∀ q, (∀ member ∈ members, q ≠ resolve (appDir root m) member.1) →
          (extractPackage lib root t data).1.file q = t.file q := by
  obtain ⟨id, hid, hnull⟩ := h.id
  have hbelow : root <+: resolve root id ∧ resolve root id ≠ root := by
    have happ := h.below
    rw [appDir, Entries.text, hid] at happ
    exact happ
  obtain ⟨p, hpackage⟩ := exists_packageOf (members.map stored) hid hnull hbelow
  obtain ⟨rfl, harchive, _⟩ := packageOf_eq_ok hpackage
  have hsizes : checkSizes (members.map stored) = .ok () := by
    refine checkSizes_eq_ok_iff.mpr ⟨?_, ?_, ?_⟩
    · rw [List.length_map]
      exact h.count
    · intro member hmem
      obtain ⟨source, hsource, rfl⟩ := List.mem_map.mp hmem
      exact h.size source hsource
    · rw [totalSize, List.map_map]
      exact h.total
  have hopen := (openPackage_eq_ok_iff hzip).mpr ⟨hsizes, h.manifest, hpackage⟩
  have hdir := p.appDir_manifest
  have hwhole : p.Whole t := by
    have hplaced := h.placed
    rw [hdir] at hplaced
    have hnames := p.names_of_archive harchive
    refine ⟨hdir ▸ h.makeable, ?_⟩
    rw [hnames, harchive]
    exact hplaced
  have hfiles := file_extractPackage hopen harchive hwhole
  refine ⟨?_, ?_, ?_⟩
  · rcases (extractPackage_spec hopen t).2 with ⟨_, hok⟩ | ⟨hpart, _⟩
    · exact hok
    · exact absurd hwhole hpart
  · intro member hmem
    rw [hfiles, ← hdir]
    exact h.found member hmem
  · intro q hq
    rw [hfiles]
    cases hlast : lastAt p.dir members q with
    | none => rfl
    | some content =>
      rcases h.alone q content (by rw [hdir]; exact hlast) with ⟨member, hmem, heq⟩ | hsame
      · exact absurd heq (hq member hmem)
      · rw [hsame]
        rfl

/-- The packages whose extraction yields what they were built from. -/
theorem roundTrips_iff {takes : Path → Bool} (lib : BuildLibraries) (hlib : lib.Faithful)
    (manifest : Entries) (files : Dict String String) (data : ByteArray)
    (hbuild : buildPackage lib manifest files = .ok data) (root : Path)
    (t : FileTree takes ByteArray) :
    RoundTrips lib manifest files data root t ↔
      ∃ text, ∃ m : Entries, lib.safeDump false (.map manifest) = some text ∧
        parseManifest lib.toPackageLibraries text = .ok m ∧
          Importable lib.toPackageLibraries m (packed text files) root t := by
  obtain ⟨text, m, hdump, hparse, hzip⟩ := buildPackage_eq_ok hlib hbuild
  constructor
  · rintro ⟨text', m', hdump', hparse', hround⟩
    refine ⟨text', m', hdump', hparse', ?_⟩
    cases hdump.symm.trans hdump'
    cases hparse.symm.trans hparse'
    cases hopen : openPackage lib.toPackageLibraries root data with
    | error failure =>
      rw [extractPackage_of_error hopen] at hround
      exact absurd hround.1 nofun
    | ok p =>
      obtain ⟨hok, hfound, hothers⟩ := hround
      rcases (extractPackage_spec hopen t).2 with ⟨hwhole, hmanifest⟩ | ⟨_, failure, hfailure⟩
      · cases hok.symm.trans hmanifest
        exact importable_of_extracted hzip hopen hwhole hfound hothers
      · cases hok.symm.trans hfailure
  · rintro ⟨text', m', hdump', hparse', himportable⟩
    refine ⟨text', m', hdump', hparse', ?_⟩
    cases hdump.symm.trans hdump'
    cases hparse.symm.trans hparse'
    exact extracted_of_importable hzip himportable

def studioFiles : Dict String String :=
  Dict.empty.set "index.html" studioPage

/-- A file with the name of the manifest. -/
def clashFiles : Dict String String :=
  Dict.empty.set "manifest.yaml" "mine"

def bytesOf (member : String × ByteArray) : String × List UInt8 :=
  (member.1, member.2.data.toList)

theorem bytesOf_injective : Function.Injective bytesOf := by
  intro member member' h
  obtain ⟨hname, hbytes⟩ := Prod.mk.inj h
  exact Prod.ext hname (ByteArray.ext (Array.toList_inj.mp hbytes))

/-- The libraries, where they write the two packages. -/
def studioBuild : BuildLibraries :=
  { studioLibraries with
    safeDump := fun sortKeys value =>
      match value with
      | .map [(.str "app_type", .str "web"), (.str "id", .str "studio"),
          (.str "name", .str "Studio"), (.str "version", .str "1.0.0")] =>
          some (studioText sortKeys)
      | _ => none
    writeZip := fun members =>
      if members.map bytesOf = (packed (studioText false) studioFiles).map bytesOf then
        some studioZip
      else if members.map bytesOf = (packed (studioText false) clashFiles).map bytesOf then
        some clashZip
      else none }

theorem stored_manifest :
    stored ("manifest.yaml", (studioText false).toUTF8) =
      ⟨"manifest.yaml", 53, some (studioText false).toUTF8⟩ := by
  have hname : cutName "manifest.yaml" = "manifest.yaml" := by decide
  have hsize : (studioText false).toUTF8.size = 53 := by decide
  rw [stored, hname, hsize]

theorem openZip_studioZip :
    studioBuild.openZip studioZip =
      .ok ((packed (studioText false) studioFiles).map stored) := by
  have hname : cutName "index.html" = "index.html" := by decide
  have hsize : studioPage.toUTF8.size = 11 := by decide
  have hpage : stored ("index.html", studioPage.toUTF8) =
      ⟨"index.html", 11, some studioPage.toUTF8⟩ := by
    rw [stored, hname, hsize]
  have hmembers : (packed (studioText false) studioFiles).map stored =
      [stored ("manifest.yaml", (studioText false).toUTF8),
        stored ("index.html", studioPage.toUTF8)] := rfl
  rw [hmembers, stored_manifest, hpage]
  simp only [studioBuild, studioLibraries, if_true]

theorem openZip_clashZip :
    studioBuild.openZip clashZip =
      .ok ((packed (studioText false) clashFiles).map stored) := by
  have hname : cutName "manifest.yaml" = "manifest.yaml" := by decide
  have hsize : "mine".toUTF8.size = 4 := by decide
  have hfile : stored ("manifest.yaml", "mine".toUTF8) =
      ⟨"manifest.yaml", 4, some "mine".toUTF8⟩ := by
    rw [stored, hname, hsize]
  have hmembers : (packed (studioText false) clashFiles).map stored =
      [stored ("manifest.yaml", (studioText false).toUTF8),
        stored ("manifest.yaml", "mine".toUTF8)] := rfl
  have hne : clashZip.data.toList ≠ studioZip.data.toList := by decide
  rw [hmembers, stored_manifest, hfile]
  simp only [studioBuild, studioLibraries, if_neg hne, if_true]

theorem faithful_studioBuild : studioBuild.Faithful := by
  constructor
  · intro sortKeys value text hdump
    simp only [studioBuild] at hdump
    split at hdump
    · cases hdump
      cases sortKeys <;> rfl
    · contradiction
  · intro members data hwrite
    simp only [studioBuild] at hwrite
    split at hwrite
    · rename_i hmembers
      cases hwrite
      rw [List.map_injective_iff.mpr bytesOf_injective hmembers]
      exact openZip_studioZip
    · split at hwrite
      · rename_i hmembers
        cases hwrite
        rw [List.map_injective_iff.mpr bytesOf_injective hmembers]
        exact openZip_clashZip
      · contradiction

/-- The build of a package from the manifest, as far as its archive is written. -/
theorem buildPackage_studioManifest
    (hwrite : studioBuild.writeZip (packed (studioText false) files) = some data) :
    buildPackage studioBuild studioManifest files = .ok data := by
  have hparse : parseManifest studioBuild.toPackageLibraries (studioText true) =
      .ok (withDefaults studioManifest) := rfl
  have hdump : ∀ sortKeys, studioBuild.safeDump sortKeys (.map studioManifest) =
      some (studioText sortKeys) := fun _ => rfl
  simp only [buildPackage, hdump, hparse, hwrite]

/-- The studio is built, and imported in an empty place exactly if it can be. -/
theorem roundTrips_iff_studio :
    RoundTrips studioBuild studioManifest studioFiles studioZip ["data", "apps"]
        emptyTree ↔
      ∃ text, ∃ m : Entries, studioBuild.safeDump false (.map studioManifest) = some text ∧
        parseManifest studioBuild.toPackageLibraries text = .ok m ∧
          Importable studioBuild.toPackageLibraries m (packed text studioFiles)
            ["data", "apps"] emptyTree :=
  roundTrips_iff studioBuild faithful_studioBuild studioManifest studioFiles studioZip
    (buildPackage_studioManifest (by simp only [studioBuild, if_true])) ["data", "apps"] emptyTree

/-- A file with the name of the manifest is read in its place. -/
theorem not_roundTrips :
    buildPackage studioBuild studioManifest clashFiles = .ok clashZip ∧
      ¬ RoundTrips studioBuild studioManifest clashFiles clashZip ["data", "apps"]
        emptyTree := by
  constructor
  · apply buildPackage_studioManifest
    have hne : (packed (studioText false) clashFiles).map bytesOf ≠
        (packed (studioText false) studioFiles).map bytesOf := by
      intro heq
      have hnames := congrArg (fun members => members.map Prod.fst) heq
      exact absurd hnames (by decide)
    simp only [studioBuild, if_neg hne, if_true]
  · rintro ⟨text, m, _, _, hok, _⟩
    have hrefused : (extractPackage studioBuild.toPackageLibraries ["data", "apps"] emptyTree
        clashZip).2.toOption.isNone = true := by
      decide +kernel
    rw [hok] at hrefused
    exact Bool.false_ne_true hrefused

end TinyAgentOS.Userspace
