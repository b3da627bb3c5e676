import TinyAgentOS.Hub.Chain

/-!
# Verification of a chain that was tampered with

Somebody without the author's key may have changed the rows of a chain and the bodies that are
stored.  Verification looks at the links between the rows and at the signatures of the bodies, and
not at the number that a body carries, nor for the tombstone of a body that is missing.

Main results:

- `detects_iff`: which tampering is detected.
- `not_detects_firstRemoved`: a post that was removed without a trace.
-/

namespace TinyAgentOS.Hub

open Collections HashChain

section Tampering

variable {η : Type} [DecidableEq η] (k : HubKeys η) (t : HubTables η) (bodies : List (HubBody η))

/-- Nobody but the author signs: what verifies is in the chain, or is an object of no chain. -/
def Unforged : Prop :=
  ∀ h obj, t.getObject h = some obj → k.verifyObject obj k.signingPubkey = true →
    obj.body ∈ bodies ∨ obj.body.seq? = none

/-- A tombstone for the body is read back. -/
def Tombstoned (body : HubBody η) : Prop :=
  ∃ row ∈ t.listChainEntries k.signingFingerprint, ∃ tomb, t.getObject row.hash = some tomb ∧
    tomb.body.target? = some (k.objectHash body)

/-- A row reads back as a body, or that body is missing and has a tombstone. -/
def ReadsAs (row : ChainRow η) (body : HubBody η) : Prop :=
  match t.getObject row.hash with
  | some obj => obj.body = body
  | none => Tombstoned k t body

/-- What is read back begins the honest chain, but for bodies with a tombstone. -/
def ReadsPrefix : Prop :=
  ∀ (i : Nat) (row : ChainRow η), (t.listChainEntries k.signingFingerprint)[i]? = some row →
    ∃ body, bodies[i]? = some body ∧ ReadsAs k t row body

/-- Verification reports ok only for what begins the honest chain. -/
def Detects : Prop :=
  verifyChain k t k.signingFingerprint = none → ReadsPrefix k t bodies

/-- The links are right, and the bodies are signed. -/
def Unbroken : Prop :=
  Linked ChainRow.hash ChainRow.prevHash none (t.listChainEntries k.signingFingerprint) ∧
    ∀ row ∈ t.listChainEntries k.signingFingerprint, SignedBody k t row

/-- A body that is found carries the number of its place. -/
def NumberedByPlace : Prop :=
  ∀ (i : Nat) (row : ChainRow η) obj, (t.listChainEntries k.signingFingerprint)[i]? = some row →
    t.getObject row.hash = some obj → obj.body.seq? = some ((i : Int) + 1)

/-- Where no body is found, a tombstone names the one that was there. -/
def TombstonedByPlace : Prop :=
  ∀ (i : Nat) (row : ChainRow η), (t.listChainEntries k.signingFingerprint)[i]? = some row →
    t.getObject row.hash = none → ∃ body, bodies[i]? = some body ∧ Tombstoned k t body

variable {k t bodies}

/-- What was signed and is found at its place is the honest body. -/
theorem readsPrefix_iff (h : IsChain k bodies)
    (hkey : t.resolvedKey k.signingFingerprint = some k.signingPubkey)
    (hunforged : Unforged k t bodies)
    (hsigned : ∀ row ∈ t.listChainEntries k.signingFingerprint, SignedBody k t row) :
    ReadsPrefix k t bodies ↔ NumberedByPlace k t ∧ TombstonedByPlace k t bodies := by
  constructor
  · intro hreads
    constructor
    · intro i row obj hrow hobj
      obtain ⟨body, hbody, has⟩ := hreads i row hrow
      rw [ReadsAs, hobj] at has
      rw [show obj.body = body from has]
      exact h.seq_of_getElem? hbody
    · intro i row hrow hnone
      obtain ⟨body, hbody, has⟩ := hreads i row hrow
      rw [ReadsAs, hnone] at has
      exact ⟨body, hbody, has⟩
  · rintro ⟨hnumbered, htombstoned⟩ i row hrow
    cases hobj : t.getObject row.hash with
    | none =>
      obtain ⟨body, hbody, htomb⟩ := htombstoned i row hrow hobj
      refine ⟨body, hbody, ?_⟩
      rw [ReadsAs, hobj]
      exact htomb
    | some obj =>
      have hseq := hnumbered i row obj hrow hobj
      have hmem : row ∈ t.listChainEntries k.signingFingerprint := List.mem_of_getElem? hrow
      obtain ⟨pubkey, hresolved, hverified⟩ := hsigned row hmem obj hobj
      have hauthor : row.author = k.signingFingerprint := HubTables.author_of_mem hmem
      rw [hauthor, hkey] at hresolved
      rw [← Option.some.inj hresolved] at hverified
      rcases hunforged row.hash obj hobj hverified with hbody | hnone
      · refine ⟨obj.body, h.getElem?_eq hbody hseq, ?_⟩
        rw [ReadsAs, hobj]
      · rw [hnone] at hseq
        contradiction

/-- Tampering is detected if a link or a signature is broken by it, and else where the bodies keep
their numbers and the missing ones their tombstones. -/
theorem detects_iff (h : IsChain k bodies)
    (hkey : t.resolvedKey k.signingFingerprint = some k.signingPubkey)
    (hunforged : Unforged k t bodies) :
    Detects k t bodies ↔ (Unbroken k t → NumberedByPlace k t ∧ TombstonedByPlace k t bodies) := by
  rw [Detects, verifyChain_eq_none_iff]
  constructor
  · intro hdetects hunbroken
    exact (readsPrefix_iff h hkey hunforged hunbroken.2).mp (hdetects hunbroken)
  · intro hplaces hunbroken
    exact (readsPrefix_iff h hkey hunforged hunbroken.2).mpr (hplaces hunbroken)

end Tampering

/-! ## A post that was removed -/

section Removal

open Digest

/-- Two posts of an author. -/
def twoPosts : List (HubBody Digest) :=
  let first := HubBody.post "key" 1 none "now" "public" "first" []
  [first, .post "key" 2 (some (ofBody first)) "now" "public" "second" []]

theorem isChain_twoPosts : IsChain keys twoPosts where
  author := fun body hbody => by
    rcases List.mem_pair.mp hbody with rfl | rfl
    · rfl
    · rfl
  numbered := by decide
  linked := ⟨rfl, rfl, trivial⟩

def secondPost : SignedObject Digest :=
  keys.signObject (.post "key" 2
    (some (ofBody (.post "key" 1 none "now" "public" "first" []))) "now" "public" "second" [])

/-- The first post is gone, and the row of the second says that it is the first. -/
def firstRemoved : HubTables Digest where
  objects := Dict.empty.set (ofBody secondPost.body) secondPost
  blobs := Dict.empty
  authors := Dict.empty.set "key" (some "key")
  chain := [{ rowOf keys secondPost.body with prevHash := none }]
  nodup := List.nodup_singleton _

theorem unforged_firstRemoved : Unforged keys firstRemoved twoPosts := by
  intro h obj hobj _
  rcases Dict.get?_set_cases hobj with ⟨_, rfl⟩ | ⟨_, hobj⟩
  · exact Or.inl (List.mem_cons_of_mem _ List.mem_cons_self)
  · contradiction

/-- The author's key is still found. -/
theorem resolvedKey_firstRemoved :
    firstRemoved.resolvedKey keys.signingFingerprint = some keys.signingPubkey := by
  decide

/-- What detecting the removal comes to. -/
theorem detects_iff_firstRemoved :
    Detects keys firstRemoved twoPosts ↔
      (Unbroken keys firstRemoved →
        NumberedByPlace keys firstRemoved ∧ TombstonedByPlace keys firstRemoved twoPosts) :=
  detects_iff isChain_twoPosts resolvedKey_firstRemoved unforged_firstRemoved

/-- The removal of the first of two posts is not detected. -/
theorem not_detects_firstRemoved :
    keys.Lawful ∧ IsChain keys twoPosts ∧ Unforged keys firstRemoved twoPosts ∧
      ¬ Detects keys firstRemoved twoPosts := by
  refine ⟨lawful_keys, isChain_twoPosts, unforged_firstRemoved, fun hdetects => ?_⟩
  have hok : verifyChain keys firstRemoved keys.signingFingerprint = none := by decide
  obtain ⟨body, hbody, has⟩ := hdetects hok 0 { rowOf keys secondPost.body with prevHash := none }
    (by decide)
  have hfirst : twoPosts[0]? = some (.post "key" 1 none "now" "public" "first" []) := by decide
  rw [hfirst] at hbody
  rw [← Option.some.inj hbody] at has
  have hfound : firstRemoved.getObject (rowOf keys secondPost.body).hash = some secondPost := by
    decide
  have hread : secondPost.body = .post "key" 1 none "now" "public" "first" [] := by
    have hmatch := has
    rw [ReadsAs, hfound] at hmatch
    exact hmatch
  exact absurd hread (by decide)

end Removal

end TinyAgentOS.Hub
