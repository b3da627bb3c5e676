import Mathlib.Data.List.Infix
import Mathlib.Tactic

/-!
# Trees of files

A tree of directories and files without links.  Every node but the root stands in a directory, at
a path that the file system takes.  A path is resolved by its text alone.

Main results:

- `FileTree.mkdirs_spec`: where the directories of a path can be made, and what making them does.
- `FileTree.writeFile_cases`: what a write does to the tree.
- `FileTree.Grown.write`: where the next of some files below a directory can be written.
-/

namespace FileTrees

/-! ## Paths -/

/-- The components of a path from the root. -/
abbrev Path := List String

/-- One component of the text of a path. -/
def enter (p : Path) (component : String) : Path :=
  if component = "" ∨ component = "." then p
  else if component = ".." then p.dropLast
  else p ++ [component]

/-- `(base / text).resolve()`: an absolute text leaves the base behind. -/
def resolve (base : Path) (text : String) : Path :=
  ((text.toList.splitOn '/').map String.ofList).foldl enter
    (if text.toList.head? = some '/' then [] else base)

theorem prefix_append_singleton_iff {q p : Path} {name : String} :
    q <+: p ++ [name] ↔ q <+: p ∨ q = p ++ [name] := by
  rw [List.prefix_concat_iff, or_comm]

theorem ne_append_singleton_of_prefix {q p : Path} {name : String} (h : q <+: p) :
    q ≠ p ++ [name] := by
  rintro rfl
  have hlength := h.length_le
  rw [List.length_append, List.length_singleton] at hlength
  omega

/-- The proper prefixes of a path. -/
theorem prefix_dropLast_iff {q p : Path} (hp : p ≠ []) : q <+: p.dropLast ↔ q <+: p ∧ q ≠ p := by
  obtain ⟨parent, name, rfl⟩ : ∃ parent name, p = parent ++ [name] :=
    ⟨p.dropLast, p.getLast hp, (List.dropLast_append_getLast hp).symm⟩
  rw [List.dropLast_concat]
  constructor
  · intro h
    exact ⟨prefix_append_singleton_iff.mpr (Or.inl h), ne_append_singleton_of_prefix h⟩
  · rintro ⟨h, hne⟩
    exact (prefix_append_singleton_iff.mp h).resolve_right hne

/-! ## Trees -/

inductive Node (β : Type) where
  | dir
  | file (content : β)

/-- `takes` are the paths that the file system takes: names and paths may have a limit. -/
structure FileTree (takes : Path → Bool) (β : Type) where
  node : Path → Option (Node β)
  root : node [] = some .dir
  parent : ∀ p name, node (p ++ [name]) ≠ none → node p = some .dir
  named : ∀ p name, node (p ++ [name]) ≠ none → takes (p ++ [name]) = true

inductive TreeError where
  | notFound
  | notADirectory
  | isADirectory
  | nameRefused
deriving DecidableEq

namespace FileTree

variable {takes : Path → Bool} {β : Type}

/-- The content of a file. -/
def file (t : FileTree takes β) (p : Path) : Option β :=
  match t.node p with
  | some (.file content) => some content
  | _ => none

def isDir (t : FileTree takes β) (p : Path) : Bool :=
  match t.node p with
  | some .dir => true
  | _ => false

@[simp]
theorem isDir_iff {t : FileTree takes β} {p : Path} : t.isDir p = true ↔ t.node p = some .dir := by
  unfold isDir
  split <;> simp_all

theorem file_of_isDir {t : FileTree takes β} {p : Path} (h : t.isDir p = true) :
    t.file p = none := by
  rw [file, isDir_iff.mp h]

/-- The root alone. -/
def empty : FileTree takes β where
  node p := if p = [] then some .dir else none
  root := rfl
  parent p name hname := by
    rw [if_neg (by simp)] at hname
    exact absurd rfl hname
  named p name hname := by
    rw [if_neg (by simp)] at hname
    exact absurd rfl hname

/-- A new node, or a new content of a file. -/
def put (t : FileTree takes β) (p : Path) (name : String) (x : Node β)
    (hparent : t.isDir p = true) (hname : takes (p ++ [name]) = true)
    (hkeep : t.isDir (p ++ [name]) = false) : FileTree takes β where
  node q := if q = p ++ [name] then some x else t.node q
  root := by
    rw [if_neg (by simp)]
    exact t.root
  parent q other hother := by
    have hnew : q ++ [other] = p ++ [name] ∨ t.node (q ++ [other]) ≠ none := by
      by_cases heq : q ++ [other] = p ++ [name]
      · exact Or.inl heq
      · rw [if_neg heq] at hother
        exact Or.inr hother
    have hdir : t.node q = some .dir := by
      rcases hnew with heq | hold
      · rw [List.append_inj_left' heq rfl]
        exact isDir_iff.mp hparent
      · exact t.parent q other hold
    rw [if_neg ?_]
    · exact hdir
    · rintro rfl
      rw [isDir_iff.mpr hdir] at hkeep
      contradiction
  named q other hother := by
    by_cases heq : q ++ [other] = p ++ [name]
    · rw [heq]
      exact hname
    · rw [if_neg heq] at hother
      exact t.named q other hother

section Put

variable {t : FileTree takes β} {p : Path} {name : String} {x : Node β}
  {hparent : t.isDir p = true} {hname : takes (p ++ [name]) = true}
  {hkeep : t.isDir (p ++ [name]) = false}

/-- Only the new place changes. -/
theorem node_put (q : Path) : (t.put p name x hparent hname hkeep).node q =
      if q = p ++ [name] then some x else t.node q :=
  rfl

theorem file_put_dir (hfile : t.file (p ++ [name]) = none) (q : Path) :
    (t.put p name .dir hparent hname hkeep).file q = t.file q := by
  by_cases hq : q = p ++ [name]
  · rw [hq, hfile, file, node_put, if_pos rfl]
  · rw [file, file, node_put, if_neg hq]

theorem isDir_put_dir (q : Path) : (t.put p name .dir hparent hname hkeep).isDir q = true ↔
      t.isDir q = true ∨ q = p ++ [name] := by
  rw [isDir_iff, isDir_iff, node_put]
  by_cases hq : q = p ++ [name]
  · simp [hq]
  · simp [hq]

theorem file_put_file (content : β) (q : Path) :
    (t.put p name (.file content) hparent hname hkeep).file q =
      if q = p ++ [name] then some content else t.file q := by
  by_cases hq : q = p ++ [name]
  · rw [if_pos hq, file, node_put, if_pos hq]
  · rw [if_neg hq, file, file, node_put, if_neg hq]

theorem isDir_put_file (content : β) (q : Path) :
    (t.put p name (.file content) hparent hname hkeep).isDir q = t.isDir q := by
  by_cases hq : q = p ++ [name]
  · rw [isDir, node_put, if_pos hq, hq, hkeep]
  · rw [isDir, isDir, node_put, if_neg hq]

end Put

/-! ## Operations -/

/-- `os.mkdir` of a directory that may be there. -/
def makeDir (t : FileTree takes β) (p : Path) (name : String) :
    Except TreeError (FileTree takes β) :=
  match hnode : t.node (p ++ [name]) with
  | some .dir => .ok t
  | some (.file _) => .error .notADirectory
  | none =>
    if hparent : t.isDir p = true then
      if hname : takes (p ++ [name]) = true then
        .ok (t.put p name .dir hparent hname (by simp [isDir, hnode]))
      else .error .nameRefused
    else .error .notFound

/-- `mkdir(parents=True, exist_ok=True)`, from a directory on: the directories before a
failure stay. -/
def mkdirs (t : FileTree takes β) (p : Path) : Path → FileTree takes β × Option TreeError
  | [] => (t, none)
  | name :: names =>
    match t.makeDir p name with
    | .error error => (t, some error)
    | .ok t' => t'.mkdirs (p ++ [name]) names

/-- `write_bytes`. -/
def writeFile (t : FileTree takes β) (p : Path) (name : String) (content : β) :
    Except TreeError (FileTree takes β) :=
  if hkeep : t.isDir (p ++ [name]) = false then
    if hparent : t.isDir p = true then
      if hname : takes (p ++ [name]) = true then
        .ok (t.put p name (.file content) hparent hname hkeep)
      else .error .nameRefused
    else .error .notFound
  else .error .isADirectory

/-- `rmtree` of a directory below the root. -/
def removeTree (t : FileTree takes β) (p : Path) (hp : p ≠ []) : FileTree takes β where
  node q := if p <+: q then none else t.node q
  root := by
    rw [if_neg (by simpa using hp)]
    exact t.root
  parent q name hname := by
    by_cases hbelow : p <+: q ++ [name]
    · rw [if_pos hbelow] at hname
      exact absurd rfl hname
    · rw [if_neg hbelow] at hname
      rw [if_neg fun hq => hbelow (hq.trans (List.prefix_append q [name]))]
      exact t.parent q name hname
  named q name hname := by
    by_cases hbelow : p <+: q ++ [name]
    · rw [if_pos hbelow] at hname
      exact absurd rfl hname
    · rw [if_neg hbelow] at hname
      exact t.named q name hname

/-- Below a removed place there is no file. -/
theorem file_removeTree (t : FileTree takes β) (p : Path) (hp : p ≠ []) (q : Path) :
    (t.removeTree p hp).file q = if p <+: q then none else t.file q := by
  by_cases hbelow : p <+: q
  · rw [if_pos hbelow, file, removeTree]
    simp [hbelow]
  · rw [if_neg hbelow, file, file, removeTree]
    simp [hbelow]

/-- A directory is made exactly where no file is and at a path that is taken. -/
theorem makeDir_spec {t : FileTree takes β} {p : Path} (hparent : t.isDir p = true)
    (name : String) : (t.file (p ++ [name]) = none ∧ takes (p ++ [name]) = true ∧
        ∃ t', t.makeDir p name = .ok t' ∧ (∀ q, t'.file q = t.file q) ∧
          ∀ q, t'.isDir q = true ↔ t.isDir q = true ∨ q = p ++ [name]) ∨
      ¬ (t.file (p ++ [name]) = none ∧ takes (p ++ [name]) = true) ∧
        ∃ error, t.makeDir p name = .error error := by
  unfold makeDir
  split
  · rename_i hnode
    left
    have hdir : t.isDir (p ++ [name]) = true := isDir_iff.mpr hnode
    refine ⟨file_of_isDir hdir, t.named p name (by simp [hnode]), t, rfl, fun q => rfl, ?_⟩
    intro q
    constructor
    · exact Or.inl
    · rintro (hq | rfl)
      · exact hq
      · exact hdir
  · rename_i content hnode
    right
    refine ⟨?_, _, rfl⟩
    rintro ⟨hfile, _⟩
    simp [file, hnode] at hfile
  · rename_i hnode
    have hfile : t.file (p ++ [name]) = none := by simp [file, hnode]
    rw [dif_pos hparent]
    by_cases hname : takes (p ++ [name]) = true
    · left
      rw [dif_pos hname]
      exact ⟨hfile, hname, _, rfl, file_put_dir hfile, isDir_put_dir⟩
    · right
      rw [dif_neg hname]
      exact ⟨fun h => hname h.2, _, rfl⟩

/-- No file stands where a directory is to be, and the file system takes the paths. -/
def Makeable (t : FileTree takes β) (p names : Path) : Prop :=
  (∀ q ∈ names.inits, t.file (p ++ q) = none) ∧
    ∀ q ∈ names.inits, q ≠ [] → takes (p ++ q) = true

/-- A law of all beginnings of a path, of which the empty one is known. -/
theorem forall_inits_cons_iff {P : Path → Prop} {names : Path} {name : String} (hnil : P []) :
    (∀ q ∈ (name :: names).inits, P q) ↔ ∀ q ∈ names.inits, P (name :: q) := by
  rw [List.inits_cons, List.forall_mem_cons, List.forall_mem_map]
  exact and_iff_right hnil

/-- A directory can be made step by step. -/
theorem makeable_cons_iff {t : FileTree takes β} {p names : Path} {name : String}
    (hparent : t.isDir p = true) :
    t.Makeable p (name :: names) ↔
      (t.file (p ++ [name]) = none ∧ takes (p ++ [name]) = true) ∧
        t.Makeable (p ++ [name]) names := by
  have hself : t.file (p ++ []) = none := by
    rw [List.append_nil]
    exact file_of_isDir hparent
  have hnil : [] ∈ names.inits := (List.mem_inits _ _).mpr List.nil_prefix
  simp only [Makeable, forall_inits_cons_iff (P := fun q => t.file (p ++ q) = none) hself,
    forall_inits_cons_iff (P := fun q => q ≠ [] → takes (p ++ q) = true) nofun,
    List.append_assoc, List.singleton_append]
  constructor
  · rintro ⟨hfiles, hnames⟩
    exact ⟨⟨hfiles [] hnil, hnames [] hnil nofun⟩, hfiles, fun q hq _ => hnames q hq nofun⟩
  · rintro ⟨⟨_, hname⟩, hfiles, hnames⟩
    refine ⟨hfiles, fun q hq _ => ?_⟩
    by_cases hempty : q = []
    · rw [hempty]
      exact hname
    · exact hnames q hq hempty

/-- The directories of a path are all made or there, unless a file is in the way or a path is
refused.  No file changes. -/
theorem mkdirs_spec {t : FileTree takes β} {p : Path} (hparent : t.isDir p = true) (names : Path) :
    (∀ q, (t.mkdirs p names).1.file q = t.file q) ∧
      ((t.mkdirs p names).2 = none ↔ t.Makeable p names) ∧
        ((t.mkdirs p names).2 = none → ∀ q, (t.mkdirs p names).1.isDir q = true ↔
          t.isDir q = true ∨ ∃ r, r <+: names ∧ q = p ++ r) := by
  induction names generalizing t p with
  | nil =>
    refine ⟨fun q => rfl, iff_of_true rfl ?_, ?_⟩
    · refine ⟨?_, fun q hq hne => absurd (List.prefix_nil.mp ((List.mem_inits _ _).mp hq)) hne⟩
      intro q hq
      rw [List.prefix_nil.mp ((List.mem_inits _ _).mp hq), List.append_nil]
      exact file_of_isDir hparent
    · intro _ q
      constructor
      · exact Or.inl
      · rintro (hq | ⟨r, hr, rfl⟩)
        · exact hq
        · rw [List.prefix_nil.mp hr, List.append_nil]
          exact hparent
  | cons name names ih =>
    rcases makeDir_spec hparent name with
      ⟨hfile, hname, t', hmake, hfiles, hdirs⟩ | ⟨hbad, error, hmake⟩
    · have hself : t'.isDir (p ++ [name]) = true := (hdirs _).mpr (Or.inr rfl)
      obtain ⟨hsame, hnone, hnew⟩ := ih hself
      have hstep : t.mkdirs p (name :: names) = t'.mkdirs (p ++ [name]) names := by
        rw [mkdirs, hmake]
      rw [hstep]
      refine ⟨fun q => (hsame q).trans (hfiles q), ?_, ?_⟩
      · rw [hnone, makeable_cons_iff hparent]
        have hmakeable : t'.Makeable (p ++ [name]) names ↔
            t.Makeable (p ++ [name]) names := by
          unfold Makeable
          simp only [hfiles]
        rw [hmakeable]
        exact (and_iff_right ⟨hfile, hname⟩).symm
      · intro hok q
        rw [hnew hok, hdirs]
        constructor
        · rintro ((hq | rfl) | ⟨r, hr, rfl⟩)
          · exact Or.inl hq
          · exact Or.inr ⟨[name], ⟨names, rfl⟩, rfl⟩
          · exact Or.inr ⟨name :: r, List.cons_prefix_cons.mpr ⟨rfl, hr⟩, by simp⟩
        · rintro (hq | ⟨r, hr, rfl⟩)
          · exact Or.inl (Or.inl hq)
          · cases r with
            | nil =>
              rw [List.append_nil]
              exact Or.inl (Or.inl hparent)
            | cons first r =>
              obtain ⟨rfl, hrest⟩ := List.cons_prefix_cons.mp hr
              exact Or.inr ⟨r, hrest, by simp⟩
    · have hstep : t.mkdirs p (name :: names) = (t, some error) := by
        rw [mkdirs, hmake]
      rw [hstep]
      refine ⟨fun q => rfl, ?_, nofun⟩
      rw [makeable_cons_iff hparent]
      exact iff_of_false nofun fun h => hbad h.1

/-- A file is written exactly where no directory is, into a directory and at a path that is
taken. -/
theorem writeFile_cases {t : FileTree takes β} {p : Path} (hparent : t.isDir p = true)
    (name : String) (content : β) : (t.isDir (p ++ [name]) = false ∧ takes (p ++ [name]) = true ∧
        ∃ t', t.writeFile p name content = .ok t' ∧
          (∀ q, t'.file q = if q = p ++ [name] then some content else t.file q) ∧
            ∀ q, t'.isDir q = t.isDir q) ∨
      ¬ (t.isDir (p ++ [name]) = false ∧ takes (p ++ [name]) = true) ∧
        ∃ error, t.writeFile p name content = .error error := by
  unfold writeFile
  by_cases hkeep : t.isDir (p ++ [name]) = false
  · rw [dif_pos hkeep, dif_pos hparent]
    by_cases hname : takes (p ++ [name]) = true
    · left
      rw [dif_pos hname]
      exact ⟨hkeep, hname, _, rfl, file_put_file content, isDir_put_file content⟩
    · right
      rw [dif_neg hname]
      exact ⟨fun h => hname h.2, _, rfl⟩
  · right
    rw [dif_neg hkeep]
    exact ⟨fun h => hkeep h.1, _, rfl⟩

/-! ## Files below a directory -/

/-- What the last of some writes leaves at a path. -/
def written : List (Path × β) → Path → Option β
  | [], _ => none
  | (place, content) :: writes, p =>
    (written writes p).or (if place = p then some content else none)

/-- The contents of the files after some writes. -/
def overlay (writes : List (Path × β)) (contents : Path → Option β) (p : Path) : Option β :=
  (written writes p).or (contents p)

/-- A write lies over those before it. -/
theorem overlay_cons (place : Path) (content : β) (writes : List (Path × β))
    (contents : Path → Option β) :
    overlay ((place, content) :: writes) contents =
      overlay writes fun q => if q = place then some content else contents q := by
  funext q
  by_cases hq : place = q
  · simp [overlay, written, hq]
  · simp [overlay, written, hq, Ne.symm hq]

/-- `write_bytes` at a path, after the directories before it are made. -/
def writeAt (t : FileTree takes β) (p : Path) (content : β) :
    Except TreeError (FileTree takes β) :=
  match p.getLast? with
  | none => .error .isADirectory
  | some name => t.writeFile p.dropLast name content

/-- The writes change nothing at a path where the last of them repeats what is there. -/
theorem overlay_eq_iff {writes : List (Path × β)} {contents : Path → Option β} {q : Path} :
    overlay writes contents q = contents q ↔
      ∀ content, written writes q = some content → contents q = some content := by
  unfold overlay
  cases hwritten : written writes q with
  | none => simp
  | some content =>
    rw [Option.some_or]
    constructor
    · intro hsame other hother
      rw [← hsame, ← hother]
    · intro hsame
      exact (hsame content rfl).symm

/-- A tree after files were written at some places, one after the other, below a directory that
was made for them. -/
structure Grown (t : FileTree takes β) (dir : Path) (places : List Path)
    (t' : FileTree takes β) : Prop where
  files : ∀ q, t'.file q = none ↔ t.file q = none ∧ q ∉ places
  dirs : ∀ q, t'.isDir q = true ↔
    t.isDir q = true ∨ q <+: dir ∨ ∃ place ∈ places, q <+: place ∧ q ≠ place

/-- A file can be written next: the place is below the directory, no file is where it needs a
directory, no directory where it is to be, and the paths are taken. -/
def Fits (t : FileTree takes β) (dir : Path) (places : List Path) (place : Path) : Prop :=
  (dir <+: place ∧ place ≠ dir) ∧
    (∀ q ∈ place.inits, q ≠ place → t.file q = none ∧ q ∉ places) ∧
      (t.isDir place = false ∧ ∀ other ∈ places, place <+: other → place = other) ∧
        ∀ q ∈ place.inits, q ≠ [] → takes q = true

instance (t : FileTree takes β) (p names : Path) : Decidable (t.Makeable p names) :=
  inferInstanceAs (Decidable (_ ∧ _))

instance (t : FileTree takes β) (dir : Path) (places : List Path) (place : Path) :
    Decidable (t.Fits dir places place) :=
  inferInstanceAs (Decidable (_ ∧ _))

theorem isDir_root (t : FileTree takes β) : t.isDir [] = true :=
  isDir_iff.mpr t.root

/-- The directory of the files is made. -/
theorem grown_mkdirs {t : FileTree takes β} {dir : Path} (hok : (t.mkdirs [] dir).2 = none) :
    Grown t dir [] (t.mkdirs [] dir).1 := by
  obtain ⟨hfiles, _, hdirs⟩ := mkdirs_spec t.isDir_root dir
  constructor
  · intro q
    rw [hfiles q]
    exact (and_iff_left List.not_mem_nil).symm
  · intro q
    rw [hdirs hok q]
    apply or_congr_right
    constructor
    · rintro ⟨r, hr, rfl⟩
      exact Or.inl hr
    · rintro (hq | ⟨place, hplace, _⟩)
      · exact ⟨q, hq, rfl⟩
      · exact absurd hplace List.not_mem_nil

section Below

variable {t t' : FileTree takes β} {dir place : Path} {places : List Path}

/-- The directories before the place can be made exactly when no file is in the way. -/
theorem Grown.makeable_iff (h : Grown t dir places t') (hne : place ≠ []) :
    t'.Makeable [] place.dropLast ↔
      (∀ q ∈ place.inits, q ≠ place → t.file q = none ∧ q ∉ places) ∧
        ∀ q ∈ place.dropLast.inits, q ≠ [] → takes q = true := by
  apply and_congr_left
  intro _
  constructor
  · intro hfiles q hq hne'
    have hbefore := (prefix_dropLast_iff hne).mpr ⟨(List.mem_inits _ _).mp hq, hne'⟩
    exact (h.files q).mp (hfiles q ((List.mem_inits _ _).mpr hbefore))
  · intro hfiles q hq
    obtain ⟨habove, hne'⟩ := (prefix_dropLast_iff hne).mp ((List.mem_inits _ _).mp hq)
    exact (h.files q).mpr (hfiles q ((List.mem_inits _ _).mpr habove) hne')

/-- What the directories before the place leave. -/
theorem Grown.isDir_place_iff (h : Grown t dir places t') (hbelow : dir <+: place ∧ place ≠ dir)
    (hne : place ≠ []) (hok : (t'.mkdirs [] place.dropLast).2 = none) :
    (t'.mkdirs [] place.dropLast).1.isDir place = false ↔
      t.isDir place = false ∧ ∀ other ∈ places, place <+: other → place = other := by
  obtain ⟨_, _, hdirs⟩ := mkdirs_spec t'.isDir_root place.dropLast
  have hdir : (t'.mkdirs [] place.dropLast).1.isDir place = true ↔
      t.isDir place = true ∨ ∃ other ∈ places, place <+: other ∧ place ≠ other := by
    rw [hdirs hok, h.dirs]
    constructor
    · rintro ((hold | habove | hother) | ⟨r, hr, rfl⟩)
      · exact Or.inl hold
      · exact absurd (hbelow.1.eq_of_length_le habove.length_le).symm hbelow.2
      · exact Or.inr hother
      · exact absurd rfl ((prefix_dropLast_iff hne).mp hr).2
    · rintro (hold | hother)
      · exact Or.inl (Or.inl hold)
      · exact Or.inl (Or.inr (Or.inr hother))
  rw [← Bool.not_eq_true, hdir, not_or, Bool.not_eq_true]
  apply and_congr_right
  intro _
  push Not
  rfl

/-- A file is written where it fits, and only there. -/
theorem Grown.write (h : Grown t dir places t') (hbelow : dir <+: place ∧ place ≠ dir)
    (content : β) : (t.Fits dir places place ∧ (t'.mkdirs [] place.dropLast).2 = none ∧
        ∃ t'', (t'.mkdirs [] place.dropLast).1.writeAt place content = .ok t'' ∧
          (∀ q, t''.file q = if q = place then some content else t'.file q) ∧
            Grown t dir (place :: places) t'') ∨
      ¬ t.Fits dir places place ∧ ((t'.mkdirs [] place.dropLast).2 = none →
        ∃ error, (t'.mkdirs [] place.dropLast).1.writeAt place content = .error error) := by
  have hne : place ≠ [] := by
    rintro rfl
    exact hbelow.2 (List.prefix_nil.mp hbelow.1).symm
  obtain ⟨parent, name, rfl⟩ : ∃ parent name, place = parent ++ [name] :=
    ⟨place.dropLast, place.getLast hne, (List.dropLast_append_getLast hne).symm⟩
  have hmakeable := h.makeable_iff hne
  have hplace := h.isDir_place_iff hbelow hne
  rw [List.dropLast_concat] at hmakeable hplace ⊢
  obtain ⟨hfiles, hnone, hdirs⟩ := mkdirs_spec t'.isDir_root parent
  have hwriteAt : (t'.mkdirs [] parent).1.writeAt (parent ++ [name]) content =
      (t'.mkdirs [] parent).1.writeFile parent name content := by
    rw [writeAt, List.getLast?_concat, List.dropLast_concat]
  by_cases hok : (t'.mkdirs [] parent).2 = none
  · have hself : (t'.mkdirs [] parent).1.isDir parent = true :=
      (hdirs hok parent).mpr (Or.inr ⟨parent, List.prefix_rfl, rfl⟩)
    rw [hwriteAt]
    rcases writeFile_cases hself name content with
      ⟨hkeep, hname, t'', hwrite, hfiles'', hdirs''⟩ | ⟨hbad, error, hwrite⟩
    · left
      have hbefore := hmakeable.mp (hnone.mp hok)
      refine ⟨⟨hbelow, hbefore.1, (hplace hok).mp hkeep, ?_⟩, hok, t'', hwrite, ?_, ?_, ?_⟩
      · intro q hq hnonempty
        rcases prefix_append_singleton_iff.mp ((List.mem_inits _ _).mp hq) with hq | rfl
        · exact hbefore.2 q ((List.mem_inits _ _).mpr hq) hnonempty
        · exact hname
      · intro q
        rw [hfiles'', hfiles]
      · intro q
        rw [hfiles'', hfiles]
        by_cases hq : q = parent ++ [name]
        · simp [hq]
        · rw [if_neg hq, h.files, List.mem_cons, not_or]
          exact and_congr_right fun _ => (and_iff_right hq).symm
      · intro q
        rw [hdirs'', hdirs hok, h.dirs, or_assoc, or_assoc]
        apply or_congr_right
        apply or_congr_right
        rw [List.exists_mem_cons_iff, or_comm]
        apply or_congr_left
        rw [← prefix_dropLast_iff hne, List.dropLast_concat]
        constructor
        · rintro ⟨r, hr, rfl⟩
          exact hr
        · exact fun hq => ⟨q, hq, rfl⟩
    · right
      refine ⟨?_, fun _ => ⟨error, hwrite⟩⟩
      rintro ⟨_, _, hkeep, hnames⟩
      exact hbad ⟨(hplace hok).mpr hkeep,
        hnames _ ((List.mem_inits _ _).mpr List.prefix_rfl) (by simp)⟩
  · right
    refine ⟨?_, fun hok' => absurd hok' hok⟩
    rintro ⟨_, hbefore, _, hnames⟩
    refine hok (hnone.mpr (hmakeable.mpr ⟨hbefore, fun q hq => hnames q ?_⟩))
    exact (List.mem_inits _ _).mpr (((List.mem_inits _ _).mp hq).trans (List.prefix_append _ _))

end Below

end FileTree

end FileTrees
