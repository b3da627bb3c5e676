import TinyAgentOS.Library.Dict
import TinyAgentOS.Library.Transition

/-!
# Model downloads

A model comes from a torrent swarm or, when that fails, by HTTP.  The body is written to its
destination chunk by chunk while its hash is taken from the stream; then the file is checked, and
removed if it is not right.  A download that ends by an exception leaves the file as it is.

Main results:

- `DownloadManager.Sound.step`: what holds while each destination has one writer.
- `DownloadManager.wholeFiles_of_guarded`: the runs in which only whole downloads are left.
- `DownloadManager.not_wholeFiles`: a file that ends where the connection was lost.
-/

namespace TinyAgentOS.Store

open Collections Transition

abbrev Bytes := List UInt8

/-! ## Files -/

/-- Files by path.  The generation of a path tells a file from one of the same name that was
removed; whoever still writes to that one writes to nothing that a path leads to. -/
structure Disk where
  files : Dict String Bytes
  generations : Dict String Nat

namespace Disk

def generation (d : Disk) (path : String) : Nat := (d.generations.get? path).getD 0

/-- `open(path, "wb")`. -/
def openEmpty (d : Disk) (path : String) : Disk := { d with files := d.files.set path [] }

/-- Bytes over those at an offset. -/
def overwrite (content : Bytes) (offset : Nat) (data : Bytes) : Bytes :=
  (content ++ List.replicate (offset - content.length) 0).take offset ++ data ++
    content.drop (offset + data.length)

/-- A write through a handle that was opened in a generation. -/
def write (d : Disk) (path : String) (generation offset : Nat) (data : Bytes) : Disk :=
  if d.generation path = generation then
    { d with files := d.files.modify path fun content => overwrite content offset data }
  else d

/-- `unlink(missing_ok=True)`. -/
def unlink (d : Disk) (path : String) : Disk :=
  { files := d.files.pop path
    generations := d.generations.set path (d.generation path + 1) }

end Disk

/-! ## Downloads -/

inductive DownloadStatus where
  | pending
  | downloading
  | complete
  | error
deriving DecidableEq

/-- An open file: what was written goes through a buffer. -/
structure WriteHandle where
  generation : Nat
  offset : Nat
  buffer : Bytes
deriving DecidableEq

/-- What a download awaits. -/
inductive DownloadStage where
  /-- The task is created. -/
  | created
  | fetchingPasskey
  /-- `torrent.download`. -/
  | inSwarm
  /-- The response, up to its headers. -/
  | connecting
  /-- The next chunk. -/
  | writing (handle : WriteHandle)
  /-- The end of the connection. -/
  | closing
  /-- The end of the connection, after an exception. -/
  | unwinding (error : String)
  | over
deriving DecidableEq

/-- The arguments of `start_download`. -/
structure DownloadArgs where
  downloadId : String
  url : String
  dest : String
  expectedSha256 : Option String := none
  magnet : Option String := none
  licenseAllowsRedistribution : Bool := false

/-- A `DownloadTask`, and where its task stands.  `received` is what the hash of the
stream is taken of. -/
structure Download where
  args : DownloadArgs
  totalBytes : Nat := 0
  downloadedBytes : Nat := 0
  status : DownloadStatus := .pending
  error : String := ""
  stage : DownloadStage := .created
  received : Bytes := []
  /-- The swarm has the download in its session; nothing takes it out when it fails. -/
  inSession : Bool := false
  /-- The download, or its swarm, has written to the destination. -/
  touched : Bool := false

def Download.dest (t : Download) : String := t.args.dest

/-- The download is in progress. -/
def Download.live (t : Download) : Bool := t.stage ≠ .over

inductive DownloadEvent where
  | started (id : Nat) (args : DownloadArgs)
  | begun (id : Nat) (torrentAvailable : Bool)
  | passkeyFetched (id : Nat)
  | swarmProgressed (id totalBytes downloadedBytes : Nat)
  /-- The swarm has brought the destination to this content. -/
  | swarmWrote (id : Nat) (content : Bytes)
  | torrentReturned (id : Nat)
  | torrentRaised (id : Nat)
  /-- The response is good; its length, if it has one and is not encoded. -/
  | responded (id : Nat) (contentLength : Option Nat)
  /-- A chunk, and how much of the buffer reaches the file. -/
  | chunkReceived (id : Nat) (chunk : Bytes) (flushed : Nat)
  | bodyEnded (id : Nat)
  | connectionClosed (id : Nat)
  /-- An exception. -/
  | failed (id : Nat) (error : String)
  | unwound (id : Nat)

/-- The manager and the disk.  `passed` are the bodies that passed their validation, with
their destinations, and `initial` are the files from before. -/
structure DownloadManager where
  tasks : Dict String Nat
  downloads : Dict Nat Download
  disk : Disk
  initial : Dict String Bytes
  passed : List (String × Bytes)

/-- Is a text given, and not empty? -/
def given (text : Option String) : Bool := text.any (· ≠ "")

section Validation

variable (sha256 : Bytes → String)

/-- `_validate_download`, with the digest that was computed from the stream. -/
def validateDownload (file : Option Bytes) (totalBytes : Nat) (expectedSha256 : Option String)
    (computedSha256 : String) : Option String :=
  match file with
  | none => some "download produced no data"
  | some content =>
    if content.length = 0 then some "download produced no data"
    else if totalBytes ≠ 0 ∧ content.length ≠ totalBytes then some "size mismatch"
    else if given expectedSha256 ∧
        computedSha256.toLower ≠ (expectedSha256.getD "").toLower then
      some "SHA256 mismatch"
    else none

/-- The file has the digest that was expected. -/
def HasDigest (content : Bytes) (expectedSha256 : Option String) : Prop :=
  (sha256 content).toLower = (expectedSha256.getD "").toLower

instance (content : Bytes) (expectedSha256 : Option String) :
    Decidable (HasDigest sha256 content expectedSha256) :=
  inferInstanceAs (Decidable (_ = _))

end Validation

namespace DownloadManager

/-- Files, and no download yet. -/
def start (files : Dict String Bytes) : DownloadManager :=
  ⟨Dict.empty, Dict.empty, ⟨files, Dict.empty⟩, files, []⟩

/-- The file at a path. -/
def file (s : DownloadManager) (path : String) : Option Bytes := s.disk.files.get? path

/-- The record of a download after a stretch. -/
def put (s : DownloadManager) (id : Nat) (t : Download) : DownloadManager :=
  { s with downloads := s.downloads.set id t }

/-- `_download` up to its response. -/
def connect (s : DownloadManager) (id : Nat) (t : Download) : DownloadManager :=
  s.put id { t with status := .downloading, stage := .connecting, received := [] }

/-- A download ends: it is complete, or its file is removed. -/
def conclude (s : DownloadManager) (id : Nat) (t : Download) (error : Option String)
    (body : Bytes) : DownloadManager :=
  match error with
  | none =>
    { s.put id { t with status := .complete, stage := .over } with
      passed := (t.dest, body) :: s.passed }
  | some error =>
    { s.put id { t with status := .error, error := error, stage := .over } with
      disk := s.disk.unlink t.dest }

/-- What is in the buffer of a handle reaches the file. -/
def flush (s : DownloadManager) (t : Download) (handle : WriteHandle) (count : Nat) : Disk :=
  s.disk.write t.dest handle.generation handle.offset (handle.buffer.take count)

section Steps

variable (sha256 : Bytes → String)

/-- A download goes on from what it awaits. -/
def resume (s : DownloadManager) (id : Nat) (t : Download) :
    DownloadEvent → Option DownloadManager
  | .begun _ torrentAvailable =>
    match t.stage with
    | .created =>
      if given t.args.magnet && t.args.licenseAllowsRedistribution &&
          given t.args.expectedSha256 && torrentAvailable then
        some (s.put id { t with stage := .fetchingPasskey })
      else some (s.connect id t)
    | _ => none
  | .passkeyFetched _ =>
    match t.stage with
    | .fetchingPasskey =>
      some (s.put id
        { t with status := .downloading, stage := .inSwarm, inSession := true })
    | _ => none
  | .swarmProgressed _ totalBytes downloadedBytes =>
    match t.stage with
    | .inSwarm =>
      some (s.put id { t with totalBytes := totalBytes, downloadedBytes := downloadedBytes })
    | _ => none
  | .swarmWrote _ content =>
    if t.inSession then
      some { s.put id { t with touched := true } with
        disk := { s.disk with files := s.disk.files.set t.dest content } }
    else none
  | .torrentReturned _ =>
    match t.stage, s.file t.dest with
    | .inSwarm, some content =>
      -- The torrent downloader returns only after it has verified the file.
      if HasDigest sha256 content t.args.expectedSha256 then
        some (s.conclude id t (validateDownload (some content) t.totalBytes none "") content)
      else none
    | _, _ => none
  | .torrentRaised _ =>
    match t.stage with
    | .inSwarm =>
      some (s.connect id
        { t with downloadedBytes := 0, totalBytes := 0, status := .pending, error := "" })
    | _ => none
  | .responded _ contentLength =>
    match t.stage with
    | .connecting =>
      let handle := { generation := s.disk.generation t.dest, offset := 0, buffer := [] }
      some { s.put id
          { t with
            totalBytes := contentLength.getD 0
            stage := .writing handle
            touched := true } with
        disk := s.disk.openEmpty t.dest }
    | _ => none
  | .chunkReceived _ chunk flushed =>
    match t.stage with
    | .writing handle =>
      let handle := { handle with buffer := handle.buffer ++ chunk }
      let count := min flushed handle.buffer.length
      let rest :=
        { handle with offset := handle.offset + count, buffer := handle.buffer.drop count }
      some { s.put id
          { t with
            downloadedBytes := t.downloadedBytes + chunk.length
            stage := .writing rest
            received := t.received ++ chunk } with
        disk := s.flush t handle count }
    | _ => none
  | .bodyEnded _ =>
    match t.stage with
    | .writing handle =>
      some { s.put id { t with stage := .closing } with
        disk := s.flush t handle handle.buffer.length }
    | _ => none
  | .connectionClosed _ =>
    match t.stage with
    | .closing =>
      some (s.conclude id t
        (validateDownload (s.file t.dest) t.totalBytes t.args.expectedSha256
          (sha256 t.received)) t.received)
    | _ => none
  | .failed _ error =>
    let unwinding := s.put id { t with stage := .unwinding error }
    match t.stage with
    | .connecting => some unwinding
    | .closing => some unwinding
    | .writing handle => some { unwinding with disk := s.flush t handle handle.buffer.length }
    | _ => none
  | .unwound _ =>
    match t.stage with
    | .unwinding error =>
      some (s.put id { t with status := .error, error := error, stage := .over })
    | _ => none
  | .started _ _ => none

end Steps

end DownloadManager

/-- The download that goes on. -/
def DownloadEvent.id : DownloadEvent → Nat
  | .started id _ => id
  | .begun id _ => id
  | .passkeyFetched id => id
  | .swarmProgressed id _ _ => id
  | .swarmWrote id _ => id
  | .torrentReturned id => id
  | .torrentRaised id => id
  | .responded id _ => id
  | .chunkReceived id _ _ => id
  | .bodyEnded id => id
  | .connectionClosed id => id
  | .failed id _ => id
  | .unwound id => id

namespace DownloadManager

/-- One stretch between two awaits. -/
def step (sha256 : Bytes → String) (s : DownloadManager) (e : DownloadEvent) :
    Option DownloadManager :=
  match s.downloads.get? e.id, e with
  | none, .started id args =>
    some { s.put id { args := args } with tasks := s.tasks.set args.downloadId id }
  | some t, e => s.resume sha256 e.id t e
  | none, _ => none

/-! ## Whole files -/

/-- No download is in progress. -/
def Quiet (s : DownloadManager) : Prop :=
  ∀ id t, s.downloads.get? id = some t → t.live = false

instance (s : DownloadManager) : Decidable s.Quiet :=
  decidable_of_iff (∀ t ∈ s.downloads.values, t.live = false) (by
    constructor
    · intro h id t hget
      exact h t (Dict.mem_values_iff.mpr ⟨id, hget⟩)
    · intro h t ht
      obtain ⟨id, hget⟩ := Dict.mem_values_iff.mp ht
      exact h id t hget)

/-- The file at a path is absent, as before, or the body of a download that passed. -/
def Whole (s : DownloadManager) (path : String) : Prop :=
  s.file path = none ∨ s.file path = s.initial.get? path ∨
    ∃ body, (path, body) ∈ s.passed ∧ s.file path = some body

/-- A download with an expected hash that becomes complete has its file there. -/
def Verified (sha256 : Bytes → String) (s s' : DownloadManager) : Prop :=
  ∀ id t t', s.downloads.get? id = some t → s'.downloads.get? id = some t' →
    t.status ≠ .complete → t'.status = .complete → given t'.args.expectedSha256 = true →
      ∃ content, s'.file t'.dest = some content ∧ HasDigest sha256 content t'.args.expectedSha256

/-- No other download in progress has written to the path. -/
def Alone (s : DownloadManager) (id : Nat) (path : String) : Prop :=
  ∀ i t, i ≠ id → s.downloads.get? i = some t → t.live = true → t.touched = true → t.dest ≠ path

/-- Nobody else writes where a download writes or is concluded by its swarm, a swarm writes only
while it is awaited, and a download that has written does not end by an exception. -/
def OneWriter (s : DownloadManager) : DownloadEvent → Prop
  | .swarmWrote id _ => ∀ t, s.downloads.get? id = some t →
      t.stage = .inSwarm ∧ s.Alone id t.dest
  | .torrentReturned id => ∀ t, s.downloads.get? id = some t → s.Alone id t.dest
  | .responded id _ => ∀ t, s.downloads.get? id = some t → s.Alone id t.dest
  | .failed id _ => ∀ t, s.downloads.get? id = some t → t.touched = false
  | _ => True

instance (s : DownloadManager) (id : Nat) (path : String) : Decidable (s.Alone id path) :=
  decidable_of_iff (∀ e ∈ s.downloads.entries,
    e.1 ≠ id → e.2.live = true → e.2.touched = true → e.2.dest ≠ path) <| by
    simp only [Alone, Prod.forall, Dict.mem_entries_iff]
    exact forall₂_congr fun _ _ => forall_comm

instance (s : DownloadManager) : ∀ e, Decidable (s.OneWriter e)
  | .swarmWrote id _ => inferInstanceAs (Decidable (∀ t ∈ s.downloads.get? id, _ ∧ s.Alone _ _))
  | .torrentReturned id | .responded id _ =>
    inferInstanceAs (Decidable (∀ t ∈ s.downloads.get? id, s.Alone id t.dest))
  | .failed id _ => inferInstanceAs (Decidable (∀ t ∈ s.downloads.get? id, t.touched = false))
  | .started _ _ | .begun _ _ | .passkeyFetched _ | .swarmProgressed _ _ _ | .torrentRaised _
  | .chunkReceived _ _ _ | .bodyEnded _ | .connectionClosed _ | .unwound _ => isTrue trivial

/-- What holds while each destination has one writer. -/
structure Sound (s : DownloadManager) : Prop where
  alone : ∀ i j t u, s.downloads.get? i = some t → s.downloads.get? j = some u →
    t.live = true → t.touched = true → u.live = true → u.touched = true → t.dest = u.dest → i = j
  whole : ∀ path, (∀ i t, s.downloads.get? i = some t → t.live = true → t.touched = true →
    t.dest ≠ path) → s.Whole path
  connecting : ∀ i t, s.downloads.get? i = some t → t.stage = .connecting → t.received = []
  writing : ∀ i t handle, s.downloads.get? i = some t → t.stage = .writing handle →
    t.touched = true ∧ s.disk.generation t.dest = handle.generation ∧
      ∃ content, s.file t.dest = some content ∧ handle.offset = content.length ∧
        t.received = content ++ handle.buffer
  closing : ∀ i t, s.downloads.get? i = some t → t.stage = .closing →
    t.touched = true ∧ s.file t.dest = some t.received
  unwinding : ∀ i t error, s.downloads.get? i = some t → t.stage = .unwinding error →
    t.touched = false

theorem sound_start (files : Dict String Bytes) : Sound (start files) := by
  refine ⟨?_, ?_, ?_, ?_, ?_, ?_⟩
  · intro i j t u ht
    contradiction
  · intro path _
    exact Or.inr (Or.inl rfl)
  · intro i t ht
    contradiction
  · intro i t handle ht
    contradiction
  · intro i t ht
    contradiction
  · intro i t error ht
    contradiction

/-! ## Bytes in order -/

/-- Bytes written at the end of a file are appended to it. -/
theorem overwrite_end (content data : Bytes) :
    Disk.overwrite content content.length data = content ++ data := by
  unfold Disk.overwrite
  rw [Nat.sub_self, List.replicate_zero, List.append_nil, List.take_length,
    List.drop_eq_nil_of_le (by omega), List.append_nil]

section Steps

variable {s s' : DownloadManager} {id : Nat} {t t' : Download}

variable {handle : WriteHandle} {path : String} {body : Bytes} {e : DownloadEvent}

variable {content : Bytes} {i : Nat}

theorem file_flush (count : Nat) (hgeneration : s.disk.generation t.dest = handle.generation)
    (hfile : s.file t.dest = some content) (hoffset : handle.offset = content.length) :
    (s.flush t handle count).files.get? t.dest = some (content ++ handle.buffer.take count) := by
  have hfile' : s.disk.files.get? t.dest = some content := hfile
  unfold flush Disk.write
  rw [if_pos hgeneration]
  show (s.disk.files.modify t.dest _).get? t.dest = _
  rw [Dict.get?_modify, if_pos rfl, hfile', Option.map_some, hoffset, overwrite_end]

theorem generation_flush (handle : WriteHandle) (count : Nat) (path : String) :
    (s.flush t handle count).generation path = s.disk.generation path := by
  unfold flush Disk.write
  split <;> rfl

/-- A write through a handle leaves the other files. -/
theorem file_flush_of_ne (handle : WriteHandle) (count : Nat) (hne : path ≠ t.dest) :
    (s.flush t handle count).files.get? path = s.disk.files.get? path := by
  unfold flush Disk.write
  split
  · show (s.disk.files.modify t.dest _).get? path = _
    rw [Dict.get?_modify, if_neg hne.symm]
  · rfl

/-- A download that has written is the only one. -/
theorem Sound.alone_of_touched (h : s.Sound) (hget : s.downloads.get? id = some t)
    (hlive : t.live = true) (htouched : t.touched = true) : s.Alone id t.dest := by
  intro i u hne hu hulive hutouched hdest
  exact hne (h.alone i id u t hu hget hulive hutouched hlive htouched hdest)

theorem Whole.mono (h : s.Whole path) (hfile : s'.file path = s.file path)
    (hinitial : s'.initial = s.initial) (hpassed : ∀ x ∈ s.passed, x ∈ s'.passed) :
    s'.Whole path := by
  unfold Whole at h ⊢
  rw [hfile, hinitial]
  rcases h with hnone | hsame | ⟨body, hmem, hbody⟩
  · exact Or.inl hnone
  · exact Or.inr (Or.inl hsame)
  · exact Or.inr (Or.inr ⟨body, hpassed _ hmem, hbody⟩)

/-- One download goes on.  The disk changes at its destination alone, and only if nobody else has
written there. -/
theorem Sound.next (h : s.Sound) (t' : Download) (hget : s.downloads.get? id = some t)
    (hput : s'.downloads = s.downloads.set id t') (hargs : t'.args = t.args)
    (hinitial : s'.initial = s.initial) (hpassed : ∀ x ∈ s.passed, x ∈ s'.passed)
    (hfiles : ∀ path, path ≠ t.dest → s'.file path = s.file path)
    (hgenerations : ∀ path, path ≠ t.dest → s'.disk.generation path = s.disk.generation path)
    (hdisk : s'.disk = s.disk ∨ s.Alone id t.dest) (htouch : t'.live = true → t'.touched = true →
      t.live = true ∧ t.touched = true ∨ s.Alone id t.dest)
    (hconnecting : t'.stage = .connecting → t'.received = [])
    (hwriting : ∀ handle, t'.stage = .writing handle →
      t'.touched = true ∧ s'.disk.generation t.dest = handle.generation ∧
        ∃ content, s'.file t.dest = some content ∧ handle.offset = content.length ∧
          t'.received = content ++ handle.buffer)
    (hclosing : t'.stage = .closing → t'.touched = true ∧ s'.file t.dest = some t'.received)
    (hunwinding : ∀ error, t'.stage = .unwinding error → t'.touched = false)
    (hwhole : ¬ (t'.live = true ∧ t'.touched = true) → s.Alone id t.dest → s'.Whole t.dest) :
    s'.Sound := by
  have hdest : t'.dest = t.dest := congrArg DownloadArgs.dest hargs
  have hget' : s'.downloads.get? id = some t' := by
    rw [hput, Dict.get?_set_self]
  have hother : ∀ i, i ≠ id → s'.downloads.get? i = s.downloads.get? i := by
    intro i hi
    rw [hput, Dict.get?_set_of_ne _ _ (Ne.symm hi)]
  -- What another download relies on is not changed.
  have hkept : ∀ i u, i ≠ id → s.downloads.get? i = some u → u.live = true → u.touched = true →
      s'.file u.dest = s.file u.dest ∧
        s'.disk.generation u.dest = s.disk.generation u.dest := by
    intro i u hi hu hlive htouched
    by_cases hsame : u.dest = t.dest
    · rcases hdisk with hsamedisk | halone
      · unfold file
        rw [hsamedisk]
        exact ⟨rfl, rfl⟩
      · exact absurd hsame (halone i u hi hu hlive htouched)
    · exact ⟨hfiles _ hsame, hgenerations _ hsame⟩
  have haway : ∀ i u, i ≠ id → s'.downloads.get? i = some u → s.downloads.get? i = some u := by
    intro i u hi hu
    rw [hother i hi] at hu
    exact hu
  refine ⟨?_, ?_, ?_, ?_, ?_, ?_⟩
  · -- One writer for each destination.
    have hone : ∀ i u, i ≠ id → s.downloads.get? i = some u → u.live = true →
        u.touched = true → t'.live = true → t'.touched = true → u.dest ≠ t.dest := by
      intro i u hi hu hulive hutouched hlive htouched hsame
      rcases htouch hlive htouched with ⟨hlive', htouched'⟩ | halone
      · exact hi (h.alone i id u t hu hget hulive hutouched hlive' htouched' hsame)
      · exact halone i u hi hu hulive hutouched hsame
    intro i j u v hu hv hulive hutouched hvlive hvtouched hsame
    by_cases hi : i = id
    · by_cases hj : j = id
      · rw [hi, hj]
      · subst hi
        rw [hget'] at hu
        cases hu
        exact absurd (hsame.symm.trans hdest)
          (hone j v hj (haway j v hj hv) hvlive hvtouched hulive hutouched)
    · by_cases hj : j = id
      · subst hj
        rw [hget'] at hv
        cases hv
        exact absurd (hsame.trans hdest)
          (hone i u hi (haway i u hi hu) hulive hutouched hvlive hvtouched)
      · exact h.alone i j u v (haway i u hi hu) (haway j v hj hv) hulive hutouched hvlive
          hvtouched hsame
  · intro path hfree
    by_cases hpath : path = t.dest
    · subst hpath
      apply hwhole
      · rintro ⟨hlive, htouched⟩
        exact hfree id t' hget' hlive htouched hdest
      · intro i u hi hu hlive htouched
        exact hfree i u (by rw [hother i hi, hu]) hlive htouched
    · refine (h.whole path ?_).mono (hfiles path hpath) hinitial hpassed
      intro i u hu hlive htouched
      by_cases hi : i = id
      · subst hi
        rw [hget] at hu
        cases hu
        exact Ne.symm hpath
      · exact hfree i u (by rw [hother i hi, hu]) hlive htouched
  · intro i u hu hstage
    by_cases hi : i = id
    · subst hi
      rw [hget'] at hu
      cases hu
      exact hconnecting hstage
    · exact h.connecting i u (haway i u hi hu) hstage
  · intro i u handle hu hstage
    by_cases hi : i = id
    · subst hi
      rw [hget'] at hu
      cases hu
      rw [hdest]
      exact hwriting handle hstage
    · have hold := haway i u hi hu
      obtain ⟨htouched, hgen, hcontent⟩ := h.writing i u handle hold hstage
      have hlive : u.live = true := by simp [Download.live, hstage]
      obtain ⟨hfile, hgeneration⟩ := hkept i u hi hold hlive htouched
      rw [hfile, hgeneration]
      exact ⟨htouched, hgen, hcontent⟩
  · intro i u hu hstage
    by_cases hi : i = id
    · subst hi
      rw [hget'] at hu
      cases hu
      rw [hdest]
      exact hclosing hstage
    · have hold := haway i u hi hu
      obtain ⟨htouched, hfile⟩ := h.closing i u hold hstage
      have hlive : u.live = true := by simp [Download.live, hstage]
      rw [(hkept i u hi hold hlive htouched).1]
      exact ⟨htouched, hfile⟩
  · intro i u error hu hstage
    by_cases hi : i = id
    · subst hi
      rw [hget'] at hu
      cases hu
      exact hunwinding error hstage
    · exact h.unwinding i u error (haway i u hi hu) hstage

/-- A download goes on, and the disk stays as it is. -/
theorem Sound.still (h : s.Sound) (t' : Download) (hget : s.downloads.get? id = some t)
    (hput : s'.downloads = s.downloads.set id t') (hargs : t'.args = t.args)
    (hinitial : s'.initial = s.initial) (hpassed : s'.passed = s.passed)
    (hdisk : s'.disk = s.disk) (htouched : t'.touched = t.touched)
    (hlive : t.touched = true → t'.live = t.live)
    (hconnecting : t'.stage = .connecting → t'.received = [])
    (hwriting : ∀ handle, t'.stage ≠ .writing handle) (hclosing : t'.stage ≠ .closing)
    (hunwinding : ∀ error, t'.stage = .unwinding error → t'.touched = false) : s'.Sound := by
  have hfile : ∀ path, s'.file path = s.file path := by
    intro path
    unfold file
    rw [hdisk]
  refine h.next t' hget hput hargs hinitial ?_ (fun path _ => hfile path) ?_ (Or.inl hdisk) ?_
    hconnecting ?_ ?_ hunwinding ?_
  · intro x hx
    rw [hpassed]
    exact hx
  · intro path _
    rw [hdisk]
  · intro hlive' htouched'
    rw [htouched] at htouched'
    rw [hlive htouched'] at hlive'
    exact Or.inl ⟨hlive', htouched'⟩
  · intro handle hstage
    exact absurd hstage (hwriting handle)
  · intro hstage
    exact absurd hstage hclosing
  · intro hnot halone
    refine (h.whole t.dest ?_).mono (hfile t.dest) hinitial ?_
    · intro i u hu hulive hutouched
      by_cases hi : i = id
      · subst hi
        rw [hget] at hu
        cases hu
        exact absurd ⟨(hlive hutouched).trans hulive, htouched.trans hutouched⟩ hnot
      · exact halone i u hi hu hulive hutouched
    · intro x hx
      rw [hpassed]
      exact hx

/-! ## The ends of a download -/

/-- Only the download that goes on can become complete. -/
theorem verified_of_put {sha256 : Bytes → String} (t' : Download)
    (hget : s.downloads.get? id = some t) (hput : s'.downloads = s.downloads.set id t')
    (hown : t.status ≠ .complete → t'.status = .complete → given t'.args.expectedSha256 = true →
      ∃ content, s'.file t'.dest = some content ∧
        HasDigest sha256 content t'.args.expectedSha256) : Verified sha256 s s' := by
  intro i u u' hu hu' hbefore hafter hgiven
  by_cases hi : i = id
  · subst hi
    rw [hget] at hu
    rw [hput, Dict.get?_set_self] at hu'
    cases hu
    cases hu'
    exact hown hbefore hafter hgiven
  · rw [hput, Dict.get?_set_of_ne _ _ (Ne.symm hi), hu] at hu'
    cases hu'
    exact absurd hafter hbefore

/-- A download that is concluded leaves its body, or nothing. -/
theorem Sound.conclude (h : s.Sound) (hget : s.downloads.get? id = some t)
    (halone : s.Alone id t.dest) (error : Option String)
    (hfile : s.file t.dest = some body) : (s.conclude id t error body).Sound := by
  cases error with
  | none =>
    refine h.next { t with status := .complete, stage := .over } hget rfl rfl rfl ?_
      (fun _ _ => rfl) (fun _ _ => rfl) (Or.inl rfl) ?_ ?_ ?_ ?_ ?_ ?_
    · intro x hx
      exact List.mem_cons_of_mem _ hx
    · intro hlive
      contradiction
    · intro hstage
      contradiction
    · intro handle hstage
      contradiction
    · intro hstage
      contradiction
    · intro e hstage
      contradiction
    · intro _ _
      exact Or.inr (Or.inr ⟨body, List.mem_cons_self, hfile⟩)
  | some error =>
    refine h.next { t with status := .error, error := error, stage := .over } hget rfl
      rfl rfl (fun _ hx => hx) ?_ ?_ (Or.inr halone) ?_ ?_ ?_ ?_ ?_ ?_
    · intro path hne
      exact Dict.get?_pop_of_ne _ hne.symm
    · intro path hne
      unfold Disk.generation
      show ((s.disk.generations.set t.dest _).get? path).getD 0 = _
      rw [Dict.get?_set_of_ne _ _ hne.symm]
    · intro hlive
      contradiction
    · intro hstage
      contradiction
    · intro handle hstage
      contradiction
    · intro hstage
      contradiction
    · intro e hstage
      contradiction
    · intro _ _
      exact Or.inl (Dict.get?_pop_self _ _)

/-- A download whose body passes is complete with the digest that was expected. -/
theorem verified_conclude {sha256 : Bytes → String} (hget : s.downloads.get? id = some t)
    {error : Option String} (hfile : s.file t.dest = some body)
    (hdigest : error = none → given t.args.expectedSha256 = true →
      HasDigest sha256 body t.args.expectedSha256) :
    Verified sha256 s (s.conclude id t error body) := by
  cases error with
  | none =>
    refine verified_of_put { t with status := .complete, stage := .over } hget rfl ?_
    intro _ _ hgiven
    exact ⟨body, hfile, hdigest rfl hgiven⟩
  | some error =>
    refine verified_of_put { t with status := .error, error := error, stage := .over }
      hget rfl ?_
    intro _ hcomplete
    contradiction

/-- What a validation without an error says of the digest. -/
theorem digest_of_validateDownload {file : Option Bytes} {total : Nat}
    {expected : Option String} {computed : String}
    (h : validateDownload file total expected computed = none) (hgiven : given expected = true) :
    computed.toLower = (expected.getD "").toLower := by
  unfold validateDownload at h
  split at h
  · contradiction
  split at h
  · contradiction
  split at h
  · contradiction
  split at h
  · contradiction
  rename_i hdigest
  by_contra hne
  exact hdigest ⟨hgiven, hne⟩

/-! ## Every stretch -/

section

variable (h : s.Sound) (hget : s.downloads.get? id = some t)
include h hget

theorem Sound.swarmWrote
    (hstage : t.stage = .inSwarm) (halone : s.Alone id t.dest) (content : Bytes) :
    Sound { s.put id { t with touched := true } with
      disk := { s.disk with files := s.disk.files.set t.dest content } } := by
  refine h.next { t with touched := true } hget rfl rfl rfl (fun _ hx => hx) ?_
    (fun _ _ => rfl) (Or.inr halone) (fun _ _ => Or.inr halone) ?_ ?_ ?_ ?_ ?_
  · intro path hne
    exact Dict.get?_set_of_ne _ _ hne.symm
  · intro hconnecting
    rw [show ({ t with touched := true } : Download).stage = .inSwarm from hstage] at hconnecting
    contradiction
  · intro handle hwriting
    rw [show ({ t with touched := true } : Download).stage = .inSwarm from hstage] at hwriting
    contradiction
  · intro hclosing
    rw [show ({ t with touched := true } : Download).stage = .inSwarm from hstage] at hclosing
    contradiction
  · intro error hunwinding
    rw [show ({ t with touched := true } : Download).stage = .inSwarm from hstage] at hunwinding
    contradiction
  · intro hnot
    exact absurd ⟨by simp [Download.live, hstage], rfl⟩ hnot

/-- The response is good, and the file is opened. -/
theorem Sound.responded
    (hstage : t.stage = .connecting) (halone : s.Alone id t.dest) (contentLength : Option Nat) :
    Sound { s.put id
        { t with
          totalBytes := contentLength.getD 0
          stage := .writing { generation := s.disk.generation t.dest, offset := 0, buffer := [] }
          touched := true } with
      disk := s.disk.openEmpty t.dest } := by
  refine h.next { t with
      totalBytes := contentLength.getD 0
      stage := .writing { generation := s.disk.generation t.dest, offset := 0, buffer := [] }
      touched := true } hget rfl rfl rfl (fun _ hx => hx) ?_ (fun _ _ => rfl) (Or.inr halone)
    (fun _ _ => Or.inr halone) ?_ ?_ ?_ ?_ ?_
  · intro path hne
    exact Dict.get?_set_of_ne _ _ hne.symm
  · intro hconnecting
    contradiction
  · intro handle hwriting
    cases hwriting
    refine ⟨rfl, rfl, [], Dict.get?_set_self _ _ _, rfl, ?_⟩
    exact h.connecting id t hget hstage
  · intro hclosing
    contradiction
  · intro error hunwinding
    contradiction
  · intro hnot
    exact absurd ⟨rfl, rfl⟩ hnot

/-- A chunk goes through the buffer of the handle. -/
theorem Sound.chunkReceived (hstage : t.stage = .writing handle) (chunk : Bytes) {count : Nat}
    (hcount : count ≤ (handle.buffer ++ chunk).length) :
    Sound { s.put id
        { t with
          downloadedBytes := t.downloadedBytes + chunk.length
          stage := .writing
            { handle with
              offset := handle.offset + count
              buffer := (handle.buffer ++ chunk).drop count }
          received := t.received ++ chunk } with
      disk := s.flush t { handle with buffer := handle.buffer ++ chunk } count } := by
  obtain ⟨htouched, hgeneration, content, hfile, hoffset, hreceived⟩ :=
    h.writing id t handle hget hstage
  have hlive : t.live = true := by simp [Download.live, hstage]
  have halone := h.alone_of_touched hget hlive htouched
  refine h.next { t with
      downloadedBytes := t.downloadedBytes + chunk.length
      stage := .writing
        { handle with
          offset := handle.offset + count
          buffer := (handle.buffer ++ chunk).drop count }
      received := t.received ++ chunk } hget rfl rfl rfl (fun _ hx => hx) ?_ ?_ (Or.inr halone)
    (fun _ _ => Or.inr halone) ?_ ?_ ?_ ?_ ?_
  · intro path hne
    exact file_flush_of_ne _ count hne
  · intro path _
    exact generation_flush _ count path
  · intro hconnecting
    contradiction
  · intro handle' hwriting
    cases hwriting
    refine ⟨htouched, ?_, content ++ (handle.buffer ++ chunk).take count, ?_, ?_, ?_⟩
    · exact (generation_flush _ count t.dest).trans hgeneration
    · exact file_flush count hgeneration hfile hoffset
    · rw [List.length_append, List.length_take, Nat.min_eq_left hcount, hoffset]
    · rw [hreceived, List.append_assoc, List.append_assoc, List.take_append_drop]
  · intro hclosing
    contradiction
  · intro error hunwinding
    contradiction
  · intro hnot
    exact absurd ⟨rfl, htouched⟩ hnot

/-- The body ends, and the file is closed. -/
theorem Sound.bodyEnded
    (hstage : t.stage = .writing handle) : Sound { s.put id { t with stage := .closing } with
      disk := s.flush t handle handle.buffer.length } := by
  obtain ⟨htouched, hgeneration, content, hfile, hoffset, hreceived⟩ :=
    h.writing id t handle hget hstage
  have hlive : t.live = true := by simp [Download.live, hstage]
  have halone := h.alone_of_touched hget hlive htouched
  refine h.next { t with stage := .closing } hget rfl rfl rfl (fun _ hx => hx) ?_ ?_
    (Or.inr halone) (fun _ _ => Or.inr halone) ?_ ?_ ?_ ?_ ?_
  · intro path hne
    exact file_flush_of_ne _ _ hne
  · intro path _
    exact generation_flush _ _ path
  · intro hconnecting
    contradiction
  · intro handle' hwriting
    contradiction
  · intro _
    refine ⟨htouched, ?_⟩
    have hflushed := file_flush (s := s) handle.buffer.length hgeneration hfile hoffset
    rw [List.take_length, ← hreceived] at hflushed
    exact hflushed
  · intro error hunwinding
    contradiction
  · intro hnot
    exact absurd ⟨rfl, htouched⟩ hnot

end

/-- A download that is not complete afterwards has nothing to be verified. -/
theorem verified_of_status {sha256 : Bytes → String} (t' : Download)
    (hget : s.downloads.get? id = some t) (hput : s'.downloads = s.downloads.set id t')
    (hstatus : t'.status = .complete → t.status = .complete) : Verified sha256 s s' := by
  refine verified_of_put t' hget hput ?_
  intro hbefore hafter _
  exact absurd (hstatus hafter) hbefore

/-- A download goes on with another stage, before it has opened its file. -/
theorem Sound.goOn {sha256 : Bytes → String} (h : s.Sound) (t' : Download)
    (hget : s.downloads.get? id = some t) (hargs : t'.args = t.args)
    (htouched : t'.touched = t.touched) (hlive : t.live = true)
    (hstage : t'.stage = .fetchingPasskey ∨ t'.stage = .inSwarm ∨
      t'.stage = .connecting ∧ t'.received = [])
    (hstatus : t'.status = .complete → t.status = .complete) :
    (s.put id t').Sound ∧ Verified sha256 s (s.put id t') := by
  refine ⟨h.still t' hget rfl hargs rfl rfl rfl htouched ?_ ?_ ?_ ?_ ?_,
    verified_of_status t' hget rfl hstatus⟩
  · intro _
    rw [hlive]
    rcases hstage with hstage | hstage | ⟨hstage, _⟩ <;> simp [Download.live, hstage]
  · intro hconnecting
    rcases hstage with hstage | hstage | ⟨_, hreceived⟩
    · rw [hstage] at hconnecting
      contradiction
    · rw [hstage] at hconnecting
      contradiction
    · exact hreceived
  · intro handle hwriting
    rcases hstage with hstage | hstage | ⟨hstage, _⟩ <;> simp [hstage] at hwriting
  · intro hclosing
    rcases hstage with hstage | hstage | ⟨hstage, _⟩ <;> simp [hstage] at hclosing
  · intro error hunwinding
    rcases hstage with hstage | hstage | ⟨hstage, _⟩ <;> simp [hstage] at hunwinding

/-- A download that has written nowhere ends by an exception. -/
theorem Sound.quit {sha256 : Bytes → String} (h : s.Sound) (t' : Download)
    (hget : s.downloads.get? id = some t) (hargs : t'.args = t.args)
    (hbefore : t.touched = false) (hafter : t'.touched = false)
    (hstage : t'.stage = .over ∨ ∃ error, t'.stage = .unwinding error)
    (hstatus : t'.status = .complete → t.status = .complete) :
    (s.put id t').Sound ∧ Verified sha256 s (s.put id t') := by
  refine ⟨h.still t' hget rfl hargs rfl rfl rfl (hafter.trans hbefore.symm) ?_ ?_ ?_ ?_ ?_,
    verified_of_status t' hget rfl hstatus⟩
  · intro htouched
    rw [hbefore] at htouched
    contradiction
  · intro hconnecting
    rcases hstage with hstage | ⟨_, hstage⟩ <;> simp [hstage] at hconnecting
  · intro handle hwriting
    rcases hstage with hstage | ⟨_, hstage⟩ <;> simp [hstage] at hwriting
  · intro hclosing
    rcases hstage with hstage | ⟨_, hstage⟩ <;> simp [hstage] at hclosing
  · intro _ _
    exact hafter

variable {sha256 : Bytes → String}

section

variable (h : s.Sound) (hget : s.downloads.get? id = some t)
include h hget

/-- The task begins with the swarm or with a request. -/
theorem Sound.resume_begun
    {available : Bool} (hstep : s.resume sha256 id t (.begun i available) = some s') :
    s'.Sound ∧ Verified sha256 s s' := by
  simp only [resume] at hstep
  split at hstep
  · rename_i hstage
    have hlive : t.live = true := by simp [Download.live, hstage]
    split at hstep
    · cases hstep
      exact h.goOn _ hget rfl rfl hlive (Or.inl rfl) (fun hstatus => hstatus)
    · cases hstep
      exact h.goOn _ hget rfl rfl hlive (Or.inr (Or.inr ⟨rfl, rfl⟩)) nofun
  · contradiction

/-- The swarm is joined. -/
theorem Sound.resume_passkeyFetched (hstep : s.resume sha256 id t (.passkeyFetched i) = some s') :
    s'.Sound ∧ Verified sha256 s s' := by
  simp only [resume] at hstep
  split at hstep
  · rename_i hstage
    have hlive : t.live = true := by simp [Download.live, hstage]
    cases hstep
    exact h.goOn _ hget rfl rfl hlive (Or.inr (Or.inl rfl)) nofun
  · contradiction

/-- The swarm reports how far it is. -/
theorem Sound.resume_swarmProgressed {total downloaded : Nat}
    (hstep : s.resume sha256 id t (.swarmProgressed i total downloaded) = some s') :
    s'.Sound ∧ Verified sha256 s s' := by
  simp only [resume] at hstep
  split at hstep
  · rename_i hstage
    have hlive : t.live = true := by simp [Download.live, hstage]
    cases hstep
    exact h.goOn _ hget rfl rfl hlive (Or.inr (Or.inl hstage)) (fun hstatus => hstatus)
  · contradiction

/-- The swarm writes while it is awaited. -/
theorem Sound.resume_swarmWrote (hstage : t.stage = .inSwarm) (halone : s.Alone id t.dest)
    (hstep : s.resume sha256 id t (.swarmWrote i content) = some s') :
    s'.Sound ∧ Verified sha256 s s' := by
  simp only [resume] at hstep
  split at hstep
  · cases hstep
    exact ⟨h.swarmWrote hget hstage halone content,
      verified_of_status _ hget rfl fun hstatus => hstatus⟩
  · contradiction

/-- The torrent returns with a verified file. -/
theorem Sound.resume_torrentReturned (halone : s.Alone id t.dest)
    (hstep : s.resume sha256 id t (.torrentReturned i) = some s') :
    s'.Sound ∧ Verified sha256 s s' := by
  simp only [resume] at hstep
  split at hstep
  · rename_i content _ hfile
    split at hstep
    · rename_i hdigest
      cases hstep
      exact ⟨h.conclude hget halone _ hfile, verified_conclude hget hfile fun _ _ => hdigest⟩
    · contradiction
  · contradiction

/-- The torrent fails, and a request is made. -/
theorem Sound.resume_torrentRaised (hstep : s.resume sha256 id t (.torrentRaised i) = some s') :
    s'.Sound ∧ Verified sha256 s s' := by
  simp only [resume] at hstep
  split at hstep
  · rename_i hstage
    have hlive : t.live = true := by simp [Download.live, hstage]
    cases hstep
    exact h.goOn _ hget rfl rfl hlive (Or.inr (Or.inr ⟨rfl, rfl⟩)) nofun
  · contradiction

/-- The destination is opened. -/
theorem Sound.resume_responded (halone : s.Alone id t.dest) {contentLength : Option Nat}
    (hstep : s.resume sha256 id t (.responded i contentLength) = some s') :
    s'.Sound ∧ Verified sha256 s s' := by
  simp only [resume] at hstep
  split at hstep
  · rename_i hstage
    cases hstep
    exact ⟨h.responded hget hstage halone contentLength,
      verified_of_status _ hget rfl fun hstatus => hstatus⟩
  · contradiction

/-- A chunk is hashed and written. -/
theorem Sound.resume_chunkReceived {chunk : Bytes} {flushed : Nat}
    (hstep : s.resume sha256 id t (.chunkReceived i chunk flushed) = some s') :
    s'.Sound ∧ Verified sha256 s s' := by
  simp only [resume] at hstep
  split at hstep
  · rename_i handle hstage
    cases hstep
    exact ⟨h.chunkReceived hget hstage chunk (Nat.min_le_right _ _),
      verified_of_status _ hget rfl fun hstatus => hstatus⟩
  · contradiction

/-- The file is closed. -/
theorem Sound.resume_bodyEnded (hstep : s.resume sha256 id t (.bodyEnded i) = some s') :
    s'.Sound ∧ Verified sha256 s s' := by
  simp only [resume] at hstep
  split at hstep
  · rename_i handle hstage
    cases hstep
    exact ⟨h.bodyEnded hget hstage, verified_of_status _ hget rfl fun hstatus => hstatus⟩
  · contradiction

/-- The file is validated. -/
theorem Sound.resume_connectionClosed
    (hstep : s.resume sha256 id t (.connectionClosed i) = some s') :
    s'.Sound ∧ Verified sha256 s s' := by
  simp only [resume] at hstep
  split at hstep
  · rename_i hstage
    cases hstep
    obtain ⟨htouched, hfile⟩ := h.closing _ t hget hstage
    have hlive : t.live = true := by simp [Download.live, hstage]
    exact ⟨h.conclude hget (h.alone_of_touched hget hlive htouched) _ hfile,
      verified_conclude hget hfile digest_of_validateDownload⟩
  · contradiction

/-- An exception comes before anything is written. -/
theorem Sound.resume_failed (huntouched : t.touched = false) {error : String}
    (hstep : s.resume sha256 id t (.failed i error) = some s') :
    s'.Sound ∧ Verified sha256 s s' := by
  have hquit : (s.put id { t with stage := .unwinding error }).Sound ∧
      Verified sha256 s (s.put id { t with stage := .unwinding error }) :=
    h.quit _ hget rfl huntouched huntouched (Or.inr ⟨error, rfl⟩) fun hstatus => hstatus
  simp only [resume] at hstep
  split at hstep
  · cases hstep
    exact hquit
  · cases hstep
    exact hquit
  · rename_i handle hstage
    obtain ⟨htouched, _⟩ := h.writing _ t handle hget hstage
    rw [huntouched] at htouched
    contradiction
  · contradiction

/-- The exception reaches the end of the download. -/
theorem Sound.resume_unwound
    (hstep : s.resume sha256 id t (.unwound i) = some s') : s'.Sound ∧ Verified sha256 s s' := by
  simp only [resume] at hstep
  split at hstep
  · rename_i error hstage
    cases hstep
    have huntouched := h.unwinding _ t error hget hstage
    exact h.quit _ hget rfl huntouched huntouched (Or.inl rfl) nofun
  · contradiction

end

/-- A download goes on. -/
theorem Sound.resume (h : s.Sound) (hid : e.id = id) (hget : s.downloads.get? id = some t)
    (hfit : s.OneWriter e) (hstep : s.resume sha256 id t e = some s') :
    s'.Sound ∧ Verified sha256 s s' := by
  subst hid
  cases e with
  | started id args => contradiction
  | begun id torrentAvailable => exact h.resume_begun hget hstep
  | passkeyFetched id => exact h.resume_passkeyFetched hget hstep
  | swarmProgressed id totalBytes downloadedBytes => exact h.resume_swarmProgressed hget hstep
  | swarmWrote id content => exact h.resume_swarmWrote hget (hfit t hget).1 (hfit t hget).2 hstep
  | torrentReturned id => exact h.resume_torrentReturned hget (hfit t hget) hstep
  | torrentRaised id => exact h.resume_torrentRaised hget hstep
  | responded id contentLength => exact h.resume_responded hget (hfit t hget) hstep
  | chunkReceived id chunk flushed => exact h.resume_chunkReceived hget hstep
  | bodyEnded id => exact h.resume_bodyEnded hget hstep
  | connectionClosed id => exact h.resume_connectionClosed hget hstep
  | failed id error => exact h.resume_failed hget (hfit t hget) hstep
  | unwound id => exact h.resume_unwound hget hstep

/-- A new download has written nowhere. -/
theorem Sound.started (h : s.Sound) (hfree : s.downloads.get? id = none)
    (hput : s'.downloads = s.downloads.set id t') (hdisk : s'.disk = s.disk)
    (hinitial : s'.initial = s.initial) (hpassed : s'.passed = s.passed)
    (hstage : t'.stage = .created) (huntouched : t'.touched = false) :
    s'.Sound ∧ Verified sha256 s s' := by
  have hfile : ∀ path, s'.file path = s.file path := by
    intro path
    unfold file
    rw [hdisk]
  have hcases : ∀ i u, s'.downloads.get? i = some u →
      u = t' ∨ s.downloads.get? i = some u := by
    intro i u hu
    rw [hput] at hu
    rcases Dict.get?_set_cases hu with ⟨_, rfl⟩ | ⟨_, hold⟩
    · exact Or.inl rfl
    · exact Or.inr hold
  have htouched : ∀ i u, s'.downloads.get? i = some u → u.touched = true →
      s.downloads.get? i = some u := by
    intro i u hu hutouched
    rcases hcases i u hu with rfl | hold
    · rw [huntouched] at hutouched
      contradiction
    · exact hold
  refine ⟨⟨?_, ?_, ?_, ?_, ?_, ?_⟩, ?_⟩
  · intro i j u v hu hv hulive hutouched hvlive hvtouched hsame
    exact h.alone i j u v (htouched i u hu hutouched) (htouched j v hv hvtouched) hulive hutouched
      hvlive hvtouched hsame
  · intro path haway
    refine (h.whole path ?_).mono (hfile path) hinitial (fun x hx => by rw [hpassed]; exact hx)
    intro i u hu hulive hutouched
    have hi : id ≠ i := by
      rintro rfl
      rw [hfree] at hu
      contradiction
    exact haway i u (by rw [hput, Dict.get?_set_of_ne _ _ hi, hu]) hulive hutouched
  · intro i u hu hconnecting
    rcases hcases i u hu with rfl | hold
    · rw [hstage] at hconnecting
      contradiction
    · exact h.connecting i u hold hconnecting
  · intro i u handle hu hwriting
    rcases hcases i u hu with rfl | hold
    · rw [hstage] at hwriting
      contradiction
    · rw [hfile, hdisk]
      exact h.writing i u handle hold hwriting
  · intro i u hu hclosing
    rcases hcases i u hu with rfl | hold
    · rw [hstage] at hclosing
      contradiction
    · rw [hfile]
      exact h.closing i u hold hclosing
  · intro i u error hu hunwinding
    rcases hcases i u hu with rfl | hold
    · exact huntouched
    · exact h.unwinding i u error hold hunwinding
  · intro i u u' hu hu' hbefore hafter _
    have hi : id ≠ i := by
      rintro rfl
      rw [hfree] at hu
      contradiction
    rw [hput, Dict.get?_set_of_ne _ _ hi, hu] at hu'
    cases hu'
    exact absurd hafter hbefore

/-- Where each destination has one writer, whole downloads stay, and what becomes complete has the
digest that was expected. -/
theorem Sound.step (h : s.Sound)
    (hfit : s.OneWriter e) (hstep : s.step sha256 e = some s') :
    s'.Sound ∧ Verified sha256 s s' := by
  unfold DownloadManager.step at hstep
  split at hstep
  · rename_i id args hfree
    cases hstep
    exact h.started hfree rfl rfl rfl rfl rfl rfl
  · rename_i t hget
    exact h.resume rfl hget hfit hstep
  · contradiction

end Steps

/-- In every run in which each destination has one writer, and no download that has written ends
by an exception: whole files are left wherever no download is in progress, and every download with
an expected hash that becomes complete has its file. -/
theorem wholeFiles_of_guarded (sha256 : Bytes → String) (files : Dict String Bytes)
    (es : List DownloadEvent) (hguard : Guarded (step sha256) OneWriter (start files) es) :
    EveryStep (step sha256)
      (fun s _ s' => (s'.Quiet → ∀ path, s'.Whole path) ∧ Verified sha256 s s') (start files)
      es := by
  intro pre e post t t' heq hrun hstep
  rw [heq, List.append_cons] at hguard
  have hupTo := guarded_of_append hguard
  have hsound : t.Sound := invariant_of_guarded_run
    (fun _ _ _ h hfit hstep' => (h.step hfit hstep').1) (sound_start files)
    (guarded_of_append hupTo) hrun
  obtain ⟨hsound', hverified⟩ := hsound.step (guard_of_guarded_append hupTo hrun) hstep
  refine ⟨?_, hverified⟩
  intro hquiet path
  apply hsound'.whole path
  intro i u hu hlive
  rw [hquiet i u hu] at hlive
  contradiction

/-- A digest of short contents. -/
def letters (content : Bytes) : String :=
  String.ofList (content.map fun byte => Char.ofNat (96 + byte.toNat))

/-- Side by side: a request with a hash, a swarm with the same hash, and a request that fails. -/
def three : List DownloadEvent :=
  [.started 0 { downloadId := "d1", url := "u", dest := "m.gguf", expectedSha256 := some "ab" },
    .begun 0 false, .responded 0 (some 2),
    .started 1
      { downloadId := "d2", url := "u", dest := "n.gguf", expectedSha256 := some "ab",
        magnet := some "m", licenseAllowsRedistribution := true },
    .begun 1 true, .chunkReceived 0 [1, 2] 1, .passkeyFetched 1, .swarmProgressed 1 2 2,
    .started 2 { downloadId := "d3", url := "u", dest := "m.gguf" }, .begun 2 false,
    .swarmWrote 1 [1, 2], .bodyEnded 0, .failed 2 "timeout", .torrentReturned 1,
    .connectionClosed 0, .unwound 2]

theorem wholeFiles_three :
    EveryStep (step letters)
      (fun s _ s' => (s'.Quiet → ∀ path, s'.Whole path) ∧ Verified letters s s')
      (start Dict.empty) three :=
  wholeFiles_of_guarded letters Dict.empty three (by decide +kernel)

/-- The connection is lost after one chunk. -/
def lost : List DownloadEvent :=
  [.started 0 { downloadId := "d1", url := "u", dest := "m.gguf" }, .begun 0 false,
    .responded 0 (some 4), .chunkReceived 0 [1, 2] 2, .failed 0 "connection lost", .unwound 0]

/-- What came before the connection was lost is left at the destination. -/
theorem not_wholeFiles :
    ¬ EveryStep (step fun _ => "")
      (fun s _ s' => (s'.Quiet → ∀ path, s'.Whole path) ∧ Verified (fun _ => "") s s')
      (start Dict.empty) lost := by
  intro hevery
  obtain ⟨hwhole, _⟩ := hevery (lost.take 5) (.unwound 0) [] _ _ rfl rfl rfl
  rcases hwhole (by decide) "m.gguf" with hnone | hsame | ⟨body, hmem, _⟩
  · exact absurd hnone (by decide)
  · exact absurd hsame (by decide)
  · exact absurd hmem List.not_mem_nil

end DownloadManager

end TinyAgentOS.Store
