import TinyAgentOS.Hub.ChainSteps
import TinyAgentOS.Library.Transition

/-!
# The chain between operations

Calls append and delete in any order.  Once they have returned, the chain verifies and is numbered
without gaps, whoever was first.  A picture that two posts show is lost with one of them, and a post
that two calls delete at once has two tombstones.

Main results:

- `HubState.whole_of_guarded_run`: between operations, the chain is whole if no post was read for
  deletion twice, and no blob was dropped or missing that a listed post needs.
-/

namespace TinyAgentOS.Hub

open Collections Transition

namespace HubState

variable {η : Type} [DecidableEq η] (k : HubKeys η)

/-! ## Between operations -/

/-- A node that has published nothing; it may have profiles and blobs. -/
structure Fresh (s : HubState η) : Prop where
  key : s.tables.resolvedKey k.signingFingerprint = some k.signingPubkey
  chain : s.tables.chain = []
  objects : ∀ h obj, s.tables.objects.get? h = some obj →
    h = k.objectHash obj.body ∧ obj.body.seq? = none
  calls : s.calls = Dict.empty
  lock : s.lock = none

/-- No call is under way. -/
def Idle (s : HubState η) : Prop :=
  ∀ id call, s.calls.get? id = some call → call.returned = true

/-- The chain is whole. -/
structure Whole (s : HubState η) : Prop where
  verified : verifyChain k s.tables k.signingFingerprint = none
  numbered : ∃ n : Nat, (s.tables.listChainEntries k.signingFingerprint).map ChainRow.seq =
    (List.range n).map fun i : Nat => (i : Int) + 1
  indexed : ∀ e ∈ s.tables.listPosts k.signingFingerprint,
    ∃ row ∈ s.tables.listChainEntries k.signingFingerprint, row.hash = e.1
  unlisted : ∀ id target, s.calls.get? id = some (.deleted target) →
    ∀ e ∈ s.tables.listPosts k.signingFingerprint, e.1 ≠ target
  once : ∀ row ∈ s.tables.listChainEntries k.signingFingerprint, row.type = "post" →
    ((s.tables.listChainEntries k.signingFingerprint).countP
      fun tomb => tomb.target = some row.hash) ≤ 1
  stocked : ∀ e ∈ s.tables.listPosts k.signingFingerprint, ∀ blob ∈ e.2.body.blobs,
    blob ∈ s.ingested → (s.tables.blobs.get? blob).isSome = true

section Runs

variable {k} {s s₀ : HubState η} {bodies : List (HubBody η)}

theorem sound_of_fresh (h : Fresh k s) : Sound k s [] := by
  have hnobody : ∀ id, s.calls.get? id = none := by
    intro id
    rw [h.calls, Dict.get?_empty]
  have hno : ∀ {P : Prop} {id : Nat} {call : HubCall η}, s.calls.get? id = some call → P :=
    fun hget => absurd ((hnobody _).symm.trans hget) nofun
  have hpost : ∀ {h' obj}, s.tables.objects.get? h' = some obj → obj.body.isPost ≠ true := by
    intro h' obj hobj hpost
    have hseq := (h.objects h' obj hobj).2
    cases hbody : obj.body with
    | post author seq prev createdAt visibility text attachments =>
      rw [hbody] at hseq
      contradiction
    | tombstone | other =>
      rw [hbody] at hpost
      contradiction
  exact
    { key := h.key
      chain := h.chain
      honest := IsChain.nil
      keyed := fun h' obj hobj => (h.objects h' obj hobj).1
      signed := fun h' obj hobj hseq => absurd (h.objects h' obj hobj).2 hseq
      holder := fun _ _ hget => hno hget
      fits := fun _ _ _ _ hget => hno hget
      placed := fun h' obj hobj => Or.inl (h.objects h' obj hobj).2
      found := fun _ _ _ _ hget => hno hget
      alone := fun _ _ _ _ _ _ _ hget => hno hget
      buried := fun _ htomb => absurd htomb List.not_mem_nil
      once := List.Pairwise.nil
      gone := fun _ _ hget => hno hget
      stocked := fun _ _ hobj hpost' => absurd hpost' (hpost hobj) }

/-- At most one is counted where any two exclude one another. -/
theorem countP_le_one {α : Type} {as : List α} {p : α → Bool}
    (h : as.Pairwise fun a b => p a = true → p b ≠ true) : as.countP p ≤ 1 := by
  induction as with
  | nil => simp
  | cons a as ih =>
    obtain ⟨hfirst, hrest⟩ := List.pairwise_cons.mp h
    by_cases ha : p a = true
    · have hnone : as.countP p = 0 := List.countP_eq_zero.mpr fun b hb => hfirst b hb ha
      rw [List.countP_cons_of_pos ha, hnone]
    · rw [List.countP_cons_of_neg ha]
      exact ih hrest

/-- Where no call is under way, what holds says that the chain is whole. -/
theorem Sound.whole (hlawful : k.Lawful) (h : Sound k s bodies) (hidle : s.Idle) : Whole k s := by
  have hlisted := h.honest.listChainEntries_eq h.chain
  have hmem : ∀ {body}, s.Placed bodies body → body.seq? ≠ none → body ∈ bodies := by
    rintro body (hnone | hmem | ⟨id, entry, obj, hget, rfl⟩) hseq
    · exact absurd hnone hseq
    · exact hmem
    · exact absurd (hidle id _ hget) nofun
  have hchained : ∀ {body : HubBody η}, body.isPost = true → body.seq? ≠ none := by
    intro body hpost
    cases body with
    | post author seq prev createdAt visibility text attachments => exact nofun
    | tombstone | other => contradiction
  refine ⟨?_, ⟨bodies.length, ?_⟩, ?_, ?_, ?_, ?_⟩
  · rw [verifyChain_eq_none_iff, hlisted]
    refine ⟨h.honest.linked_rows, fun row hrow obj hobj => ?_⟩
    obtain ⟨body, hbody, rfl⟩ := List.mem_map.mp hrow
    have hsame : body = obj.body := hlawful.objectHash_injective (h.keyed _ obj hobj)
    obtain ⟨n, hseq, _⟩ := h.honest.seq_le hbody
    have hsigned := h.signed _ obj hobj (by rw [← hsame, hseq]; exact nofun)
    refine ⟨k.signingPubkey, ?_, ?_⟩
    · rw [show (rowOf k body).author = k.signingFingerprint from h.honest.author body hbody]
      exact h.key
    · rw [hsigned.1]
      exact k.verifyObject_signObject hlawful hsigned.2
  · rw [hlisted]
    exact h.honest.map_seq
  · intro e he
    obtain ⟨hobj, _, hpost⟩ := HubTables.mem_listPosts.mp he
    rw [hlisted]
    exact ⟨rowOf k e.2.body,
      List.mem_map_of_mem (hmem (h.placed e.1 e.2 hobj) (hchained hpost)),
      (h.keyed e.1 e.2 hobj).symm⟩
  · rintro id target hget e he rfl
    obtain ⟨hobj, _, _⟩ := HubTables.mem_listPosts.mp he
    exact absurd ((h.gone id _ hget).1.symm.trans hobj) nofun
  · intro row hrow htype
    rw [hlisted] at hrow ⊢
    obtain ⟨body, hbody, rfl⟩ := List.mem_map.mp hrow
    have hpost : body.isPost = true := by
      cases body with
      | post author seq prev createdAt visibility text attachments => rfl
      | tombstone author seq prev createdAt target =>
        exact absurd (show "tombstone" = "post" from htype) (by decide)
      | other author text => exact absurd (show "profile" = "post" from htype) (by decide)
    apply countP_le_one
    rw [List.pairwise_map]
    refine h.once.imp fun hab ha => ?_
    rw [decide_eq_true_eq] at ha
    rw [ne_eq, decide_eq_true_eq]
    exact hab body hpost ha
  · intro e he blob hblob hing
    obtain ⟨hobj, _, hpost⟩ := HubTables.mem_listPosts.mp he
    rcases h.stocked e.1 e.2 hobj hpost blob hblob hing with hstored | ⟨id, call, _, hget, hdel⟩
    · exact hstored
    · have hreturned := hidle id call hget
      cases call <;> contradiction

/-- Between operations the chain is whole, if every step meets the condition. -/
theorem whole_of_guarded_run (hlawful : k.Lawful) {es : List (HubEvent η)} (hfresh : Fresh k s₀)
    (hguard : Guarded (step k) guard s₀ es) (hrun : run (step k) s₀ es = some s)
    (hidle : s.Idle) : Whole k s := by
  have hsound : ∃ bodies, Sound k s bodies := by
    refine invariant_of_guarded_run (I := fun s => ∃ bodies, Sound k s bodies) ?_
      ⟨[], sound_of_fresh hfresh⟩ hguard hrun
    rintro s e s' ⟨bodies, h⟩ hg hstep
    exact h.step hlawful hg hstep
  obtain ⟨bodies, h⟩ := hsound
  exact h.whole hlawful hidle

end Runs

end HubState

/-! ## A shared picture -/

/-- Hashes that are the hashed objects themselves. -/
inductive Digest where
  | firstPost (author : String) (seq : Int) (createdAt visibility text : String)
      (attachments : List Attachment)
  | post (prev : Digest) (author : String) (seq : Int) (createdAt visibility text : String)
      (attachments : List Attachment)
  | firstTombstone (target : Digest) (author : String) (seq : Int) (createdAt : String)
  | tombstone (prev target : Digest) (author : String) (seq : Int) (createdAt : String)
  | other (author text : String)
deriving DecidableEq

namespace Digest

def ofBody : HubBody Digest → Digest
  | .post author seq none createdAt visibility text attachments =>
    firstPost author seq createdAt visibility text attachments
  | .post author seq (some prev) createdAt visibility text attachments =>
    post prev author seq createdAt visibility text attachments
  | .tombstone author seq none createdAt target => firstTombstone target author seq createdAt
  | .tombstone author seq (some prev) createdAt target =>
    tombstone prev target author seq createdAt
  | .other author text => other author text

def toBody : Digest → HubBody Digest
  | firstPost author seq createdAt visibility text attachments =>
    .post author seq none createdAt visibility text attachments
  | post prev author seq createdAt visibility text attachments =>
    .post author seq (some prev) createdAt visibility text attachments
  | firstTombstone target author seq createdAt => .tombstone author seq none createdAt target
  | tombstone prev target author seq createdAt =>
    .tombstone author seq (some prev) createdAt target
  | other author text => .other author text

theorem toBody_ofBody (body : HubBody Digest) : toBody (ofBody body) = body := by
  cases body with
  | post author seq prev createdAt visibility text attachments => cases prev <;> rfl
  | tombstone author seq prev createdAt target => cases prev <;> rfl
  | other author text => rfl

/-- Keys with these hashes; a signature is the word for it. -/
def keys : HubKeys Digest where
  objectHash := ofBody
  blobHash := fun data => String.ofList (data.map fun byte => Char.ofNat byte.toNat)
  fingerprint := id
  signingPubkey := "key"
  sign := fun _ => "signature"
  verifySignature := fun key _ sig => key = "key" && sig = "signature"

theorem lawful_keys : keys.Lawful where
  objectHash_injective := Function.LeftInverse.injective toBody_ofBody
  verify_sign := fun _ => rfl
  sign_ne_empty := fun _ => (by decide : "signature" ≠ "")
  fingerprint_ne_empty := by decide

end Digest

namespace HubState

open Digest

/-- A node whose key is registered. -/
def newNode : HubState Digest where
  tables := ⟨Dict.empty, Dict.empty, Dict.empty.set "key" (some "key"), [], List.nodup_nil⟩
  ingested := []
  calls := Dict.empty
  lock := none

theorem fresh_newNode : Fresh keys newNode where
  key := by decide
  chain := rfl
  objects := fun _ _ hobj => absurd hobj nofun
  calls := rfl
  lock := rfl

/-- A post with a picture. -/
def holiday : PostDraft :=
  ⟨"public", "", [⟨"p", 1, "image/webp"⟩]⟩

/-- The picture is stored, and the post is published. -/
def published (id : Nat) : List (HubEvent Digest) :=
  .ingested [112] none :: .appendCalled id holiday :: List.replicate 4 (.stepped id "now")

/-- The post is deleted, and its picture dropped. -/
def deletion (id : Nat) : List (HubEvent Digest) :=
  .deleteCalled id (firstPost "key" 1 "now" "public" "" [⟨"p", 1, "image/webp"⟩]) ::
    List.replicate 7 (.stepped id "now")

/-- Two posts with a deletion between them leave the node whole. -/
theorem whole_published :
    ∃ s, run (step keys) newNode (published 0 ++ deletion 1 ++ published 2) = some s ∧
      Whole keys s := by
  have hidle : (run (step keys) newNode (published 0 ++ deletion 1 ++ published 2)).any
      (fun s => s.calls.values.all HubCall.returned) = true := by decide
  obtain ⟨s, hrun, hreturned⟩ := (Option.any_eq_true _ _).mp hidle
  refine ⟨s, hrun, whole_of_guarded_run lawful_keys fresh_newNode (by decide) hrun ?_⟩
  intro id call hget
  exact List.all_eq_true.mp hreturned call (Dict.mem_values_iff.mpr ⟨id, hget⟩)

/-- A deletion drops a picture that another post shows. -/
def sharedPicture : List (HubEvent Digest) :=
  published 0 ++ published 1 ++
    .deleteCalled 2 (firstPost "key" 1 "now" "public" "" [⟨"p", 1, "image/webp"⟩]) ::
      List.replicate 7 (.stepped 2 "now")

/-- Some listed post shows a picture that was stored, and is not. -/
def lacksPicture (s : HubState Digest) : Bool :=
  (s.tables.listPosts "key").any fun e => e.2.body.blobs.any fun blob =>
    s.ingested.contains blob && !(s.tables.blobs.get? blob).isSome

/-- Two posts share a picture, and the deletion of one takes it from the other. -/
theorem not_whole_sharedPicture :
    keys.Lawful ∧ Fresh keys newNode ∧
      ∃ s, run (step keys) newNode sharedPicture = some s ∧ s.Idle ∧ ¬ Whole keys s := by
  have hlacks : (run (step keys) newNode sharedPicture).any
      (fun s => s.calls.values.all HubCall.returned && s.lacksPicture) = true := by decide
  obtain ⟨s, hrun, hs⟩ := (Option.any_eq_true _ _).mp hlacks
  obtain ⟨hreturned, hpicture⟩ := Bool.and_eq_true_iff.mp hs
  refine ⟨lawful_keys, fresh_newNode, s, hrun, fun id call hget => ?_, fun hwhole => ?_⟩
  · exact List.all_eq_true.mp hreturned call (Dict.mem_values_iff.mpr ⟨id, hget⟩)
  · obtain ⟨e, he, hany⟩ := List.any_eq_true.mp hpicture
    obtain ⟨blob, hblob, hlost⟩ := List.any_eq_true.mp hany
    obtain ⟨hing, hgone⟩ := Bool.and_eq_true_iff.mp hlost
    rw [hwhole.stocked e he blob hblob (List.contains_iff_mem.mp hing)] at hgone
    exact Bool.false_ne_true hgone

end HubState

end TinyAgentOS.Hub
