import TinyAgentOS.Library.Dict
import TinyAgentOS.Library.HashChain
import Mathlib.Data.List.Sort

/-!
# Posts of the hub

An author's posts and tombstones are signed objects, stored under their hashes, and each has a row
in the author's chain that outlives it.  A row has a number and the hash of the row before it.

Main results:

- `verifyChain_eq_none_iff`: what verification looks at.
- `listChainEntries_of_sorted`: rows that were inserted in order are listed so.
-/

namespace TinyAgentOS.Hub

open Collections HashChain

/-! ## Objects -/

structure Attachment where
  blob : String
  size : Nat
  mime : String
deriving DecidableEq

/-- An object without its signature; `η` is the type of the hashes. -/
inductive HubBody (η : Type) where
  | post (author : String) (seq : Int) (prev : Option η) (createdAt visibility text : String)
      (attachments : List Attachment)
  | tombstone (author : String) (seq : Int) (prev : Option η) (createdAt : String) (target : η)
  /-- A profile or another object that is in no chain, with its text. -/
  | other (author text : String)
deriving DecidableEq

namespace HubBody

variable {η : Type}

def author : HubBody η → String
  | post author _ _ _ _ _ _ => author
  | tombstone author _ _ _ _ => author
  | other author _ => author

def seq? : HubBody η → Option Int
  | post _ seq _ _ _ _ _ => some seq
  | tombstone _ seq _ _ _ => some seq
  | other _ _ => none

def prev : HubBody η → Option η
  | post _ _ prev _ _ _ _ => prev
  | tombstone _ _ prev _ _ => prev
  | other _ _ => none

def target? : HubBody η → Option η
  | tombstone _ _ _ _ target => some target
  | _ => none

def attachments : HubBody η → List Attachment
  | post _ _ _ _ _ _ attachments => attachments
  | _ => []

/-- `type`, as far as it is read. -/
def type : HubBody η → String
  | post _ _ _ _ _ _ _ => "post"
  | tombstone _ _ _ _ _ => "tombstone"
  | other _ _ => "profile"

def isPost : HubBody η → Bool
  | post _ _ _ _ _ _ _ => true
  | _ => false

/-- The blobs that are referenced. -/
def blobs (body : HubBody η) : List String :=
  (body.attachments.map Attachment.blob).filter fun blob => blob ≠ ""

end HubBody

structure SignedObject (η : Type) where
  body : HubBody η
  sig : String
deriving DecidableEq

/-- The hashes, and the keys of `identity`. -/
structure HubKeys (η : Type) where
  objectHash : HubBody η → η
  blobHash : List UInt8 → String
  fingerprint : String → String
  /-- The public key of this node. -/
  signingPubkey : String
  sign : HubBody η → String
  verifySignature : String → HubBody η → String → Bool

namespace HubKeys

variable {η : Type} (k : HubKeys η)

def signingFingerprint : String :=
  k.fingerprint k.signingPubkey

/-- What is assumed of the hashes and of the signatures. -/
structure Lawful : Prop where
  objectHash_injective : Function.Injective k.objectHash
  verify_sign : ∀ body, k.verifySignature k.signingPubkey body (k.sign body) = true
  sign_ne_empty : ∀ body, k.sign body ≠ ""
  fingerprint_ne_empty : k.signingFingerprint ≠ ""

def signObject (body : HubBody η) : SignedObject η :=
  ⟨body, k.sign body⟩

def verifyObject (obj : SignedObject η) (signingPubkey : String) : Bool :=
  obj.sig ≠ "" && obj.body.author = k.fingerprint signingPubkey &&
    k.verifySignature signingPubkey obj.body obj.sig

/-- What is signed is verified. -/
theorem verifyObject_signObject (h : k.Lawful) {body : HubBody η}
    (hauthor : body.author = k.signingFingerprint) :
    k.verifyObject (k.signObject body) k.signingPubkey = true := by
  have hsig := h.sign_ne_empty body
  simp only [verifyObject, signObject, Bool.and_eq_true]
  exact ⟨⟨decide_eq_true hsig, decide_eq_true hauthor⟩, h.verify_sign body⟩

end HubKeys

/-! ## Tables -/

/-- A row of `hub_chain`. -/
structure ChainRow (η : Type) where
  author : String
  seq : Int
  hash : η
  prevHash : Option η
  type : String
  target : Option η
deriving DecidableEq

/-- The primary key. -/
def ChainRow.key {η : Type} (row : ChainRow η) : String × Int :=
  (row.author, row.seq)

structure Blob where
  data : List UInt8
  mime : Option String

/-- The tables of the hub; an author's key may be missing. -/
structure HubTables (η : Type) where
  objects : Dict η (SignedObject η)
  blobs : Dict String Blob
  authors : Dict String (Option String)
  chain : List (ChainRow η)
  nodup : (chain.map ChainRow.key).Nodup

namespace HubTables

variable {η : Type}

/-- A row with a new key may be inserted. -/
theorem nodup_insertRow {t : HubTables η} {row : ChainRow η}
    (hnew : row.key ∉ t.chain.map ChainRow.key) : ((t.chain ++ [row]).map ChainRow.key).Nodup := by
  rw [List.map_append, List.nodup_append]
  refine ⟨t.nodup, List.nodup_singleton _, ?_⟩
  rintro a ha b hb rfl
  rw [List.map_singleton, List.mem_singleton] at hb
  exact hnew (hb ▸ ha)

variable [DecidableEq η] (t : HubTables η)

def getObject (h : η) : Option (SignedObject η) :=
  t.objects.get? h

/-- `INSERT OR IGNORE INTO hub_objects`. -/
def insertObject (h : η) (obj : SignedObject η) : HubTables η :=
  if (t.objects.get? h).isSome then t else { t with objects := t.objects.set h obj }

def dropObject (h : η) : HubTables η :=
  { t with objects := t.objects.pop h }

/-- `INSERT OR IGNORE INTO hub_blobs`. -/
def insertBlob (h : String) (blob : Blob) : HubTables η :=
  if (t.blobs.get? h).isSome then t else { t with blobs := t.blobs.set h blob }

def dropBlob (h : String) : HubTables η :=
  { t with blobs := t.blobs.pop h }

/-- `INSERT OR IGNORE INTO hub_chain`. -/
def insertRow (row : ChainRow η) : HubTables η :=
  if hnew : row.key ∈ t.chain.map ChainRow.key then t
  else { t with chain := t.chain ++ [row], nodup := nodup_insertRow hnew }

/-- `SELECT … WHERE author = ? ORDER BY seq ASC`. -/
def listChainEntries (author : String) : List (ChainRow η) :=
  (t.chain.filter fun row => row.author = author).insertionSort fun a b => a.seq ≤ b.seq

/-- `… ORDER BY seq DESC LIMIT 1`. -/
def getChainHead (author : String) : Option (ChainRow η) :=
  (t.listChainEntries author).getLast?

/-- The posts of an author that are stored, with their hashes, in the order of their numbers. -/
def listPosts (author : String) : List (η × SignedObject η) :=
  (t.objects.entries.filter fun e => e.2.body.author = author && e.2.body.isPost).insertionSort
    fun a b => a.2.body.seq?.getD 0 ≤ b.2.body.seq?.getD 0

/-- `get_author`, and its key unless it is empty. -/
def resolvedKey (author : String) : Option String :=
  ((t.authors.get? author).bind id).filter fun key => key ≠ ""

end HubTables

/-! ## Verification -/

/-- The reasons for which a chain is refused. -/
inductive ChainError (η : Type) where
  /-- `prev … does not link to previous entry … (chain broken)` -/
  | broken (seq : Int) (prev previous : Option η)
  /-- `unknown author …` -/
  | unknownAuthor (seq : Int) (author : String)
  /-- `signature invalid (tampered)` -/
  | tampered (seq : Int)

section Verify

variable {η : Type} [DecidableEq η] (k : HubKeys η) (t : HubTables η)

/-- The walk over the rows. -/
def verifyEntries : Option η → List (ChainRow η) → Option (ChainError η)
  | _, [] => none
  | prevHash, entry :: entries =>
    if entry.prevHash ≠ prevHash then some (.broken entry.seq entry.prevHash prevHash)
    else
      match t.getObject entry.hash with
      | none => verifyEntries (some entry.hash) entries
      | some obj =>
        match t.resolvedKey entry.author with
        | none => some (.unknownAuthor entry.seq entry.author)
        | some signingPubkey =>
          if k.verifyObject obj signingPubkey then verifyEntries (some entry.hash) entries
          else some (.tampered entry.seq)

/-- `verify_chain`: no error, or the first. -/
def verifyChain (author : String) : Option (ChainError η) :=
  verifyEntries k t none (t.listChainEntries author)

/-- The body of a row is signed with the key of the row's author, if it is stored. -/
def SignedBody (row : ChainRow η) : Prop :=
  ∀ obj, t.getObject row.hash = some obj →
    ∃ signingPubkey, t.resolvedKey row.author = some signingPubkey ∧
      k.verifyObject obj signingPubkey = true

/-- Verifying finds nothing where the chain is linked and its bodies are signed. -/
theorem verifyEntries_eq_none_iff (prevHash : Option η) (entries : List (ChainRow η)) :
    verifyEntries k t prevHash entries = none ↔
      Linked ChainRow.hash ChainRow.prevHash prevHash entries ∧
        ∀ entry ∈ entries, SignedBody k t entry := by
  induction entries generalizing prevHash with
  | nil => simp [verifyEntries]
  | cons entry entries ih =>
    rw [verifyEntries, linked_cons, List.forall_mem_cons]
    by_cases hlink : entry.prevHash = prevHash
    · rw [if_neg (not_not.mpr hlink)]
      cases hobj : t.getObject entry.hash with
      | none =>
        have hbody : SignedBody k t entry := by
          intro obj h
          rw [hobj] at h
          contradiction
        simp only [ih, hlink, hbody, true_and]
      | some obj =>
        have hbody : SignedBody k t entry ↔ ∃ signingPubkey,
            t.resolvedKey entry.author = some signingPubkey ∧
              k.verifyObject obj signingPubkey = true := by
          unfold SignedBody
          rw [hobj]
          constructor
          · exact fun h => h obj rfl
          · rintro h _ ⟨⟩
            exact h
        rw [hbody]
        cases hkey : t.resolvedKey entry.author with
        | none => simp
        | some signingPubkey =>
          by_cases hverified : k.verifyObject obj signingPubkey = true
          · simp only [hverified, if_true, ih, hlink, true_and]
            simp [hverified]
          · simp [hverified]
    · rw [if_pos hlink]
      simp [hlink]

/-- Verification looks at the links and at the signatures. -/
theorem verifyChain_eq_none_iff (author : String) :
    verifyChain k t author = none ↔
      Linked ChainRow.hash ChainRow.prevHash none (t.listChainEntries author) ∧
        ∀ entry ∈ t.listChainEntries author, SignedBody k t entry :=
  verifyEntries_eq_none_iff k t none _

end Verify

/-! ## The tables read and written -/

namespace HubTables

variable {η : Type} {t : HubTables η}

variable {author : String}

/-- Rows that were inserted in order are listed in that order. -/
theorem listChainEntries_of_sorted (hall : ∀ row ∈ t.chain, row.author = author)
    (hsorted : t.chain.Pairwise fun a b => a.seq ≤ b.seq) :
    t.listChainEntries author = t.chain := by
  have hfilter : (t.chain.filter fun row => row.author = author) = t.chain :=
    List.filter_eq_self.mpr fun row hrow => decide_eq_true (hall row hrow)
  rw [listChainEntries, hfilter]
  exact List.Pairwise.insertionSort_eq hsorted

/-- An inserted blob is there. -/
theorem isSome_insertBlob (t : HubTables η) (h h' : String) (blob : Blob) :
    ((t.insertBlob h blob).blobs.get? h').isSome = true ↔
      h = h' ∨ (t.blobs.get? h').isSome = true := by
  unfold insertBlob
  by_cases hget : (t.blobs.get? h).isSome = true
  · rw [if_pos hget]
    constructor
    · exact Or.inr
    · rintro (rfl | hold)
      · exact hget
      · exact hold
  · rw [if_neg hget, Dict.get?_set]
    by_cases hh : h = h'
    · simp [hh]
    · simp [hh]

/-- The entries of an author are the author's. -/
theorem author_of_mem {row : ChainRow η}
    (hrow : row ∈ t.listChainEntries author) : row.author = author := by
  rw [listChainEntries, List.mem_insertionSort, List.mem_filter] at hrow
  exact of_decide_eq_true hrow.2

@[simp]
theorem chain_insertBlob (t : HubTables η) (h : String) (blob : Blob) :
    (t.insertBlob h blob).chain = t.chain := by
  unfold insertBlob
  split <;> rfl

@[simp]
theorem objects_insertBlob (t : HubTables η) (h : String) (blob : Blob) :
    (t.insertBlob h blob).objects = t.objects := by
  unfold insertBlob
  split <;> rfl

@[simp]
theorem authors_insertBlob (t : HubTables η) (h : String) (blob : Blob) :
    (t.insertBlob h blob).authors = t.authors := by
  unfold insertBlob
  split <;> rfl

/-- A row with a new key is inserted last. -/
theorem chain_insertRow {row : ChainRow η} (hnew : row.key ∉ t.chain.map ChainRow.key) :
    (t.insertRow row).chain = t.chain ++ [row] := by
  rw [insertRow, dif_neg hnew]

@[simp]
theorem objects_insertRow (t : HubTables η) (row : ChainRow η) :
    (t.insertRow row).objects = t.objects := by
  unfold insertRow
  split <;> rfl

@[simp]
theorem blobs_insertRow (t : HubTables η) (row : ChainRow η) :
    (t.insertRow row).blobs = t.blobs := by
  unfold insertRow
  split <;> rfl

@[simp]
theorem authors_insertRow (t : HubTables η) (row : ChainRow η) :
    (t.insertRow row).authors = t.authors := by
  unfold insertRow
  split <;> rfl

variable [DecidableEq η]

/-- Inserting an object leaves those that exist alone. -/
theorem get?_insertObject (t : HubTables η) (h h' : η) (obj : SignedObject η) :
    (t.insertObject h obj).objects.get? h' =
      if h = h' then some ((t.objects.get? h).getD obj) else t.objects.get? h' := by
  unfold insertObject
  cases hget : t.objects.get? h with
  | none =>
    rw [if_neg (by simp), Dict.get?_set]
    rfl
  | some old =>
    rw [if_pos (by simp)]
    by_cases hh : h = h'
    · rw [if_pos hh, ← hh, hget]
      rfl
    · rw [if_neg hh]

@[simp]
theorem chain_insertObject (t : HubTables η) (h : η) (obj : SignedObject η) :
    (t.insertObject h obj).chain = t.chain := by
  unfold insertObject
  split <;> rfl

@[simp]
theorem blobs_insertObject (t : HubTables η) (h : η) (obj : SignedObject η) :
    (t.insertObject h obj).blobs = t.blobs := by
  unfold insertObject
  split <;> rfl

@[simp]
theorem authors_insertObject (t : HubTables η) (h : η) (obj : SignedObject η) :
    (t.insertObject h obj).authors = t.authors := by
  unfold insertObject
  split <;> rfl

/-- The posts that are listed are the author's. -/
theorem mem_listPosts {e : η × SignedObject η} : e ∈ t.listPosts author ↔
      t.objects.get? e.1 = some e.2 ∧ e.2.body.author = author ∧ e.2.body.isPost = true := by
  rw [listPosts, List.mem_insertionSort, List.mem_filter, ← Dict.mem_entries_iff]
  simp

end HubTables

/-! ## The chain of an author -/

section Bodies

variable {η : Type}

/-- The row of `put_chain_object`. -/
def rowOf (k : HubKeys η) (body : HubBody η) : ChainRow η where
  author := body.author
  seq := body.seq?.getD 0
  hash := k.objectHash body
  prevHash := body.prev
  type := body.type
  target := body.target?

/-- Bodies that form the chain of this node. -/
structure IsChain (k : HubKeys η) (bodies : List (HubBody η)) : Prop where
  author : ∀ body ∈ bodies, body.author = k.signingFingerprint
  numbered : bodies.map HubBody.seq? =
    (List.range bodies.length).map fun i : Nat => some ((i : Int) + 1)
  linked : Linked k.objectHash HubBody.prev none bodies

namespace IsChain

variable {k : HubKeys η} {bodies : List (HubBody η)}

theorem nil : IsChain k ([] : List (HubBody η)) :=
  ⟨fun _ h => absurd h List.not_mem_nil, rfl, trivial⟩

variable {body : HubBody η}

/-- The number of a body is its place. -/
theorem seq_of_append {bodies₁ bodies₂ : List (HubBody η)}
    (h : IsChain k (bodies₁ ++ body :: bodies₂)) :
    body.seq? = some ((bodies₁.length : Int) + 1) := by
  have hat := congrArg (fun l => l[bodies₁.length]?) h.numbered
  simpa [List.getElem?_append_right] using hat

section

variable (h : IsChain k bodies)
include h

/-- No number is beyond the length of the chain. -/
theorem seq_le (hbody : body ∈ bodies) : ∃ n : Int, body.seq? = some n ∧ n ≤ bodies.length := by
  obtain ⟨bodies₁, bodies₂, rfl⟩ := List.append_of_mem hbody
  refine ⟨_, h.seq_of_append, ?_⟩
  rw [List.length_append, List.length_cons]
  omega

/-- The place of a body is its number. -/
theorem getElem?_eq (hbody : body ∈ bodies)
    {i : Nat} (hseq : body.seq? = some ((i : Int) + 1)) : bodies[i]? = some body := by
  obtain ⟨bodies₁, bodies₂, rfl⟩ := List.append_of_mem hbody
  have hplace := Option.some.inj (h.seq_of_append.symm.trans hseq)
  have hlength : i = bodies₁.length := by omega
  rw [hlength, List.getElem?_append_right (le_refl _), Nat.sub_self]
  rfl

/-- Posts are numbered by their place. -/
theorem seq_of_getElem? {i : Nat}
    (hbody : bodies[i]? = some body) : body.seq? = some ((i : Int) + 1) := by
  have hat : (bodies.map HubBody.seq?)[i]? = some body.seq? := by
    rw [List.getElem?_map, hbody]
    rfl
  rw [h.numbered, List.getElem?_map] at hat
  obtain ⟨hlt, _⟩ := List.getElem?_eq_some_iff.mp hbody
  rw [List.getElem?_range hlt] at hat
  exact (Option.some.inj hat).symm

/-- A body with the next number, that names the last hash, continues the chain. -/
theorem append (hauthor : body.author = k.signingFingerprint)
    (hseq : body.seq? = some ((bodies.length : Int) + 1))
    (hprev : body.prev = lastHash k.objectHash none bodies) : IsChain k (bodies ++ [body]) := by
  constructor
  · intro b hb
    rcases List.mem_append.mp hb with hold | hnew
    · exact h.author b hold
    · rw [List.mem_singleton.mp hnew]
      exact hauthor
  · rw [List.map_append, h.numbered, List.length_append, List.length_singleton, List.range_succ,
      List.map_append, List.map_singleton, List.map_singleton, hseq]
  · exact linked_append_singleton h.linked hprev

/-- The numbers of the rows have no gap. -/
theorem map_seq : (bodies.map (rowOf k)).map ChainRow.seq =
      (List.range bodies.length).map fun i : Nat => (i : Int) + 1 := by
  have hseq : (bodies.map HubBody.seq?).map (fun seq => seq.getD 0) =
      (List.range bodies.length).map fun i : Nat => (i : Int) + 1 := by
    rw [h.numbered, List.map_map]
    rfl
  rw [List.map_map] at hseq ⊢
  exact hseq

theorem linked_rows : Linked ChainRow.hash ChainRow.prevHash none (bodies.map (rowOf k)) :=
  linked_map.mpr h.linked

end

/-- The rows of a chain are listed in their order. -/
theorem listChainEntries_eq {t : HubTables η} (hchain : t.chain = bodies.map (rowOf k))
    (h : IsChain k bodies) : t.listChainEntries k.signingFingerprint = bodies.map (rowOf k) := by
  rw [← hchain]
  apply HubTables.listChainEntries_of_sorted
  · intro row hrow
    rw [hchain] at hrow
    obtain ⟨body, hbody, rfl⟩ := List.mem_map.mp hrow
    exact h.author body hbody
  · have hsorted : (t.chain.map ChainRow.seq).Pairwise (· ≤ ·) := by
      rw [hchain, h.map_seq, List.pairwise_map]
      exact List.pairwise_lt_range.imp fun hlt => by omega
    exact List.pairwise_map.mp hsorted

end IsChain

end Bodies

end TinyAgentOS.Hub
