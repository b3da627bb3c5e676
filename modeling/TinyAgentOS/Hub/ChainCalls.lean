import TinyAgentOS.Hub.Posts

/-!
# Appending to a chain and deleting from it

An append reads the last row, signs an object that continues it, stores the object and then its row,
under a lock.  A deletion reads the post before it takes the lock, and drops the post and its blobs
after it has given the lock back.

Main results:

- `nextChainPosition_eq`: where a chain is continued.
- `fits_of_build`: what is built there continues it.
-/

namespace TinyAgentOS.Hub

open Collections HashChain

/-! ## Calls -/

/-- The arguments of `append_post`. -/
structure PostDraft where
  visibility : String
  text : String
  attachments : List Attachment

/-- What a call appends to the chain: a post, or the tombstone of an object that was read. -/
inductive Entry (η : Type) where
  | post (draft : PostDraft)
  | tombstone (target : η) (found : SignedObject η)

/-- `POST_VISIBILITY`. -/
def postVisibility : List String :=
  ["public", "circle"]

section Entries

variable {η : Type}

/-- `build_post` or `build_tombstone`, at a position of the chain. -/
def Entry.build (author : String) (position : Int × Option η) (now : String) :
    Entry η → Option (HubBody η)
  | post draft =>
    if postVisibility.contains draft.visibility then
      some (.post author position.1 position.2 now draft.visibility draft.text draft.attachments)
    else none
  | tombstone target _ => some (.tombstone author position.1 position.2 now target)

def Entry.target? : Entry η → Option η
  | post _ => none
  | tombstone target _ => some target

/-- `next_chain_position`. -/
def nextChainPosition [DecidableEq η] (t : HubTables η) (author : String) : Int × Option η :=
  match t.getChainHead author with
  | none => (1, none)
  | some head => (head.seq + 1, some head.hash)

/-- The object continues the chain, and is what its call appends. -/
structure Fits (k : HubKeys η) (bodies : List (HubBody η)) (entry : Entry η)
    (obj : SignedObject η) : Prop where
  signed : obj = k.signObject obj.body
  author : obj.body.author = k.signingFingerprint
  seq : obj.body.seq? = some ((bodies.length : Int) + 1)
  prev : obj.body.prev = lastHash k.objectHash none bodies
  target : obj.body.target? = entry.target?

variable {k : HubKeys η} {bodies : List (HubBody η)} {entry : Entry η} {obj : SignedObject η}
  {t : HubTables η}

/-- A body that fits continues the chain. -/
theorem isChain_append (h : IsChain k bodies) (hfits : Fits k bodies entry obj) :
    IsChain k (bodies ++ [obj.body]) :=
  h.append hfits.author hfits.seq hfits.prev

theorem nextChainPosition_eq [DecidableEq η] (hchain : t.chain = bodies.map (rowOf k))
    (h : IsChain k bodies) : nextChainPosition t k.signingFingerprint =
      ((bodies.length : Int) + 1, lastHash k.objectHash none bodies) := by
  rw [nextChainPosition, HubTables.getChainHead, h.listChainEntries_eq hchain, lastHash_none]
  rcases List.eq_nil_or_concat bodies with rfl | ⟨init, body, rfl⟩
  · rfl
  · rw [List.concat_eq_append] at h ⊢
    have hseq := h.seq_of_append
    simp [rowOf, hseq]

theorem key_notMem (hchain : t.chain = bodies.map (rowOf k)) (h : IsChain k bodies)
    (hfits : Fits k bodies entry obj) : (rowOf k obj.body).key ∉ t.chain.map ChainRow.key := by
  intro hmem
  rw [hchain, List.map_map, List.mem_map] at hmem
  obtain ⟨body, hbody, hkey⟩ := hmem
  obtain ⟨n, hseq, hle⟩ := h.seq_le hbody
  have hrow : body.seq?.getD 0 = obj.body.seq?.getD 0 := congrArg Prod.snd hkey
  rw [hseq, hfits.seq, Option.getD_some, Option.getD_some] at hrow
  omega

theorem Fits.notMem (hfits : Fits k bodies entry obj) (h : IsChain k bodies) :
    obj.body ∉ bodies := by
  intro hmem
  obtain ⟨n, hseq, hle⟩ := h.seq_le hmem
  have hn := Option.some.inj (hseq.symm.trans hfits.seq)
  omega

/-- What is built at the end of the chain fits. -/
theorem fits_of_build {position : Int × Option η} {now : String} {body : HubBody η}
    (hposition : position = ((bodies.length : Int) + 1, lastHash k.objectHash none bodies))
    (hbuild : entry.build k.signingFingerprint position now = some body) :
    Fits k bodies entry (k.signObject body) := by
  subst hposition
  cases entry with
  | post draft =>
    rw [Entry.build] at hbuild
    split at hbuild
    · cases hbuild
      exact ⟨rfl, rfl, rfl, rfl, rfl⟩
    · contradiction
  | tombstone target found =>
    cases hbuild
    exact ⟨rfl, rfl, rfl, rfl, rfl⟩

end Entries

/-- Where a call stands: the statement it awaits, or the lock. -/
inductive HubCall (η : Type) where
  /-- `get_object`, before the lock is taken. -/
  | finding (target : η)
  | waiting (entry : Entry η)
  | positioning (entry : Entry η)
  /-- `INSERT OR IGNORE INTO hub_objects`. -/
  | storing (entry : Entry η) (obj : SignedObject η)
  /-- `INSERT OR IGNORE INTO hub_chain`. -/
  | indexing (entry : Entry η) (obj : SignedObject η)
  | dropping (target : η) (found : SignedObject η) (blobs : List String)
  | appended (hash : η)
  | deleted (target : η)
  | refused

namespace HubCall

variable {η : Type}

/-- The call holds the lock. -/
def inside : HubCall η → Bool
  | positioning _ => true
  | storing _ _ => true
  | indexing _ _ => true
  | _ => false

/-- The call has returned. -/
def returned : HubCall η → Bool
  | appended _ => true
  | deleted _ => true
  | refused => true
  | _ => false

/-- The object that is appended, once it is signed. -/
def object? : HubCall η → Option (Entry η × SignedObject η)
  | storing entry obj => some (entry, obj)
  | indexing entry obj => some (entry, obj)
  | _ => none

/-- The object that is being deleted, once it has been read. -/
def deletes? : HubCall η → Option (η × SignedObject η)
  | waiting (.tombstone target found) => some (target, found)
  | positioning (.tombstone target found) => some (target, found)
  | storing (.tombstone target found) _ => some (target, found)
  | indexing (.tombstone target found) _ => some (target, found)
  | dropping target found _ => some (target, found)
  | _ => none

theorem deletes?_indexing (entry : Entry η) (obj : SignedObject η) :
    (indexing entry obj).deletes? = (storing entry obj).deletes? := by
  cases entry <;> rfl

theorem deletes?_positioning (entry : Entry η) :
    (positioning entry).deletes? = (waiting entry).deletes? := by
  cases entry <;> rfl

theorem deletes?_storing (entry : Entry η) (obj : SignedObject η) :
    (storing entry obj).deletes? = (positioning entry).deletes? := by
  cases entry <;> rfl

/-- What follows the row: the post is returned, or the content is dropped. -/
def afterRow (k : HubKeys η) (obj : SignedObject η) : Entry η → HubCall η
  | .post _ => appended (k.objectHash obj.body)
  | .tombstone target found => dropping target found found.body.blobs

end HubCall

/-- A blob is stored, a call begins, or the next statement of a call is executed at a time. -/
inductive HubEvent (η : Type) where
  | ingested (data : List UInt8) (mime : Option String)
  | appendCalled (id : Nat) (draft : PostDraft)
  | deleteCalled (id : Nat) (target : η)
  | stepped (id : Nat) (now : String)

/-- The tables, the hashes of the blobs that were ever stored, the calls and the holder of the
lock. -/
structure HubState (η : Type) where
  tables : HubTables η
  ingested : List String
  calls : Dict Nat (HubCall η)
  lock : Option Nat

namespace HubState

variable {η : Type}

def goOn (s : HubState η) (id : Nat) (call : HubCall η) : HubState η :=
  { s with calls := s.calls.set id call }

def withTables (s : HubState η) (tables : HubTables η) : HubState η :=
  { s with tables := tables }

/-- The call leaves the lock. -/
def release (s : HubState η) (id : Nat) (call : HubCall η) : HubState η :=
  { s.goOn id call with lock := none }

/-- `put_chain_object` raises no error. -/
def chainable (obj : SignedObject η) : Bool :=
  obj.body.author ≠ "" && obj.sig ≠ ""

/-! ## Calls under way -/

/-- A call that has read the object is going to drop it. -/
def BeingDeleted (s : HubState η) (h : η) : Prop :=
  ∃ id call found, s.calls.get? id = some call ∧ call.deletes? = some (h, found)

/-- A body that cannot be stored again: it is in the chain, or about to be, or of no chain. -/
def Placed (s : HubState η) (bodies : List (HubBody η)) (body : HubBody η) : Prop :=
  body.seq? = none ∨ body ∈ bodies ∨
    ∃ id entry obj, s.calls.get? id = some (.indexing entry obj) ∧ obj.body = body

variable {s s' : HubState η} {bodies : List (HubBody η)} {id : Nat} {call : HubCall η}

variable {body : HubBody η} {id' : Nat} {call' : HubCall η}

/-- A placed body stays so while no call leaves the index behind. -/
theorem placed_mono {bodies' : List (HubBody η)} (hbodies : ∀ body ∈ bodies, body ∈ bodies')
    (hindex : ∀ id entry obj, s.calls.get? id = some (.indexing entry obj) →
      obj.body ∈ bodies' ∨ s'.calls.get? id = some (.indexing entry obj))
    (hplaced : s.Placed bodies body) : s'.Placed bodies' body := by
  rcases hplaced with hnone | hmem | ⟨id, entry, obj, hget, rfl⟩
  · exact Or.inl hnone
  · exact Or.inr (Or.inl (hbodies body hmem))
  · rcases hindex id entry obj hget with hmem | hget'
    · exact Or.inr (Or.inl hmem)
    · exact Or.inr (Or.inr ⟨id, entry, obj, hget', rfl⟩)

section

variable (hcalls : s'.calls = s.calls.set id call)
include hcalls

/-- A call that goes on keeps what it is deleting. -/
theorem beingDeleted_mono (hkeep : ∀ old, s.calls.get? id = some old → ∀ p, old.deletes? = some p →
      call.deletes? = some p) {h : η} (hdeleted : s.BeingDeleted h) : s'.BeingDeleted h := by
  obtain ⟨other, old, found, hget, hdeletes⟩ := hdeleted
  by_cases hid : id = other
  · subst hid
    exact ⟨id, call, found, by rw [hcalls, Dict.get?_set_self], hkeep old hget _ hdeletes⟩
  · exact ⟨other, old, found, by rw [hcalls, Dict.get?_set_of_ne _ _ hid, hget], hdeletes⟩

/-- The calls besides one that goes on. -/
theorem get?_cases (hget : s'.calls.get? id' = some call') :
    id = id' ∧ call = call' ∨ id ≠ id' ∧ s.calls.get? id' = some call' := by
  rw [hcalls] at hget
  exact Dict.get?_set_cases hget

/-- A call stays that is not the one that goes on. -/
theorem get?_of_goOn (hne : s.calls.get? id ≠ some call') (hget : s.calls.get? id' = some call') :
    s'.calls.get? id' = some call' := by
  rw [hcalls]
  exact Dict.get?_set_of_get?_ne call hne hget

/-- What is placed stays so when a call goes on that is not at its row. -/
theorem placed_of_goOn (hrow : ∀ entry obj, s.calls.get? id ≠ some (.indexing entry obj))
    (hplaced : s.Placed bodies body) : s'.Placed bodies body :=
  placed_mono (fun _ hmem => hmem)
    (fun _ entry obj hget => Or.inr (get?_of_goOn hcalls (hrow entry obj) hget)) hplaced

/-- What is being deleted was so before a call went on with its deletion. -/
theorem deletes_of_goOn {old : HubCall η}
    (hold : s.calls.get? id = some old)
    (hsame : ∀ p, call.deletes? = some p → old.deletes? = some p) {p : η × SignedObject η}
    (hget : s'.calls.get? id' = some call') (hdeletes : call'.deletes? = some p) :
    ∃ old', s.calls.get? id' = some old' ∧ old'.deletes? = some p := by
  rcases get?_cases hcalls hget with ⟨rfl, rfl⟩ | ⟨_, hget⟩
  · exact ⟨old, hold, hsame p hdeletes⟩
  · exact ⟨call', hget, hdeletes⟩

end

/-! ## Statements -/

variable [DecidableEq η] (k : HubKeys η)

/-- The next statement of a call. -/
def stepCall (s : HubState η) (id : Nat) (now : String) : HubCall η → Option (HubState η)
  | .finding target =>
    match s.tables.getObject target with
    | none => some (s.goOn id .refused)
    | some found => some (s.goOn id (.waiting (.tombstone target found)))
  | .waiting entry =>
    if s.lock = none then some { s.goOn id (.positioning entry) with lock := some id } else none
  | .positioning entry =>
    match entry.build k.signingFingerprint
        (nextChainPosition s.tables k.signingFingerprint) now with
    | none => some (s.release id .refused)
    | some body =>
      if chainable (k.signObject body) then
        some (s.goOn id (.storing entry (k.signObject body)))
      else some (s.release id .refused)
  | .storing entry obj =>
    some ((s.withTables (s.tables.insertObject (k.objectHash obj.body) obj)).goOn id
      (.indexing entry obj))
  | .indexing entry obj =>
    some ((s.withTables (s.tables.insertRow (rowOf k obj.body))).release id
      (HubCall.afterRow k obj entry))
  | .dropping target found (blob :: blobs) =>
    some ((s.withTables (s.tables.dropBlob blob)).goOn id (.dropping target found blobs))
  | .dropping target _ [] =>
    some ((s.withTables (s.tables.dropObject target)).goOn id (.deleted target))
  | .appended _ => none
  | .deleted _ => none
  | .refused => none

/-- `put_blob`. -/
def ingest (s : HubState η) (data : List UInt8) (mime : Option String) : HubState η :=
  { s with
    tables := s.tables.insertBlob (k.blobHash data) ⟨data, mime⟩
    ingested := k.blobHash data :: s.ingested }

def step (s : HubState η) : HubEvent η → Option (HubState η)
  | .ingested data mime => some (s.ingest k data mime)
  | .appendCalled id draft =>
    if (s.calls.get? id).isSome then none else some (s.goOn id (.waiting (.post draft)))
  | .deleteCalled id target =>
    if (s.calls.get? id).isSome then none else some (s.goOn id (.finding target))
  | .stepped id now => (s.calls.get? id).bind (s.stepCall k id now)

/-! ## The condition -/

/-- A post is not read for deletion while it is being deleted. -/
def FindsOnce (s : HubState η) (target : η) : Prop :=
  ∀ found, s.tables.getObject target = some found → found.body.isPost = true →
    ¬ s.BeingDeleted target

/-- The blobs of a post are stored, unless they never were. -/
def Stocks (s : HubState η) (body : HubBody η) : Prop :=
  ∀ blob ∈ body.blobs, blob ∈ s.ingested → (s.tables.blobs.get? blob).isSome = true

/-- A blob that is dropped is not needed by a post that stays. -/
def DropsUnused (s : HubState η) (blob : String) : Prop :=
  (s.tables.blobs.get? blob).isSome = true →
    ∀ h obj, s.tables.objects.get? h = some obj → obj.body.isPost = true →
      blob ∈ obj.body.blobs → s.BeingDeleted h

def callGuard (s : HubState η) : HubCall η → Prop
  | .finding target => s.FindsOnce target
  | .storing _ obj => obj.body.isPost = true → s.Stocks obj.body
  | .dropping _ _ (blob :: _) => s.DropsUnused blob
  | _ => True

/-- The condition on a step. -/
def guard (s : HubState η) : HubEvent η → Prop
  | .stepped id _ => ∀ call, s.calls.get? id = some call → s.callGuard call
  | _ => True

instance (s : HubState η) (h : η) : Decidable (s.BeingDeleted h) :=
  decidable_of_iff (∃ e ∈ s.calls.entries, ∃ p ∈ e.2.deletes?, p.1 = h) <| by
    simp only [BeingDeleted, Prod.exists, Dict.mem_entries_iff, Option.mem_def, exists_and_right,
      exists_and_left, exists_eq_right]

instance (s : HubState η) (target : η) : Decidable (s.FindsOnce target) :=
  inferInstanceAs (Decidable (∀ found ∈ s.tables.getObject target, _ → _))

instance (s : HubState η) (body : HubBody η) : Decidable (s.Stocks body) :=
  inferInstanceAs (Decidable (∀ blob ∈ body.blobs, _ → _))

instance (s : HubState η) (blob : String) : Decidable (s.DropsUnused blob) :=
  decidable_of_iff ((s.tables.blobs.get? blob).isSome = true → ∀ e ∈ s.tables.objects.entries,
    e.2.body.isPost = true → blob ∈ e.2.body.blobs → s.BeingDeleted e.1) <| by
    simp only [DropsUnused, Prod.forall, Dict.mem_entries_iff]

instance (s : HubState η) : ∀ call, Decidable (s.callGuard call)
  | .finding target => inferInstanceAs (Decidable (s.FindsOnce target))
  | .storing _ obj => inferInstanceAs (Decidable (obj.body.isPost = true → s.Stocks obj.body))
  | .dropping _ _ (blob :: _) => inferInstanceAs (Decidable (s.DropsUnused blob))
  | .dropping _ _ [] | .waiting _ | .positioning _ | .indexing _ _ | .appended _ | .deleted _
  | .refused => isTrue trivial

instance (s : HubState η) : ∀ e, Decidable (s.guard e)
  | .stepped id _ => inferInstanceAs (Decidable (∀ call ∈ s.calls.get? id, s.callGuard call))
  | .ingested _ _ | .appendCalled _ _ | .deleteCalled _ _ => isTrue trivial

end HubState

end TinyAgentOS.Hub
