import TinyAgentOS.Library.Custody
import TinyAgentOS.Cluster.Pairing

/-!
# Blocked workers and dead keys

A worker that is blocked pairs again only once it is unblocked, and the key of a worker that
is revoked or blocked is dead.  A confirmation and a claim of an authorisation check the flag
on a row they read, and clear it when they write; the claim stores a key it read before.

Main results:

- `PairingState.blocksAreFinal`: a block lasts in exactly the runs where no write falls on a
  worker blocked since the read, and a key stays dead in the runs where the authorisation that is
  deleted is the one that was read.
- `PairingState.not_blocksAreFinal`: a confirmation that a block overtakes clears it, and a late
  claim brings a revoked key back.
-/

namespace TinyAgentOS.Cluster

open Collections Transition
open Custody (Exclusive)
open Projects (Clock)

namespace Pairing

/-- The key that a call will store. -/
def PairingCall.taken : PairingCall → Option Key
  | .storing _ _ key => some key
  | _ => none

/-- Where a key lies that is to authenticate somebody. -/
inductive Place where
  | worker (name : String)
  | authorisation (codeHash : String)
  | claim (id : Nat)
deriving DecidableEq

namespace PairingState

variable {sha256 : String → String}

/-- The key at a place. -/
def keyAt (s : PairingState) : Place → Option Key
  | .worker name => (s.pairings.get? name).bind PairingRow.signingKey
  | .authorisation codeHash => (s.manual.get? codeHash).map ManualRow.signingKey
  | .claim id => (s.calls.get? id).bind PairingCall.taken

/-- The worker is blocked. -/
def IsBlocked (s : PairingState) (name : String) : Prop :=
  ∃ row, s.pairings.get? name = some row ∧ row.blocked = true

/-- Every key lies at one place, and a dead one only at workers that are revoked. -/
structure Buried (s : PairingState) : Prop where
  exclusive : Exclusive s.keyAt
  drawn : ∀ p key, s.keyAt p = some key → key < s.drawn
  dead : ∀ key ∈ s.dead, key < s.drawn
  revoked : ∀ key ∈ s.dead, ∀ p, s.keyAt p = some key →
    ∃ name row, p = .worker name ∧ s.pairings.get? name = some row ∧ row.revoked = true

/-- No write clears a block that fell after the read. -/
def Unblocked (s : PairingState) : PairingEvent → Prop
  | .confirmWritten id _ =>
    ∀ name code, s.calls.get? id = some (.confirming name code) → ¬s.IsBlocked name
  | .manualStored id _ =>
    ∀ name url key, s.calls.get? id = some (.storing name url key) → ¬s.IsBlocked name
  | _ => True

/-- The authorisation that a claim deletes is the one it read. -/
def Consumes (s : PairingState) : PairingEvent → Prop
  | .manualConsumed id =>
    ∀ name codeHash url key, s.calls.get? id = some (.consuming name codeHash url key) →
      ∀ row ∈ s.manual.get? codeHash, row.signingKey = key
  | _ => True

/-! ## Rows -/

/-- A row that is written keeps its key, and the flags of a worker that is out. -/
structure KeepsOut (row row' : PairingRow) : Prop where
  key : row'.signingKey = row.signingKey
  revoked : row.revoked = true → row'.revoked = true

theorem keyAt_goOn (s : PairingState) (id : Nat) (call : PairingCall) (p : Place) :
    (s.goOn id call).keyAt p = if p = .claim id then call.taken else s.keyAt p := by
  cases p with
  | worker | authorisation => simp [keyAt, goOn]
  | claim x =>
    by_cases hx : id = x
    · simp [keyAt, hx]
    · simp [keyAt, hx, Ne.symm hx]

theorem keyAt_update (s : PairingState) (name : String) (f : PairingRow → PairingRow) (p : Place) :
    (s.update name f).keyAt p =
      if p = .worker name then (s.pairings.get? name).bind fun row => (f row).signingKey
      else s.keyAt p := by
  cases p with
  | worker x =>
    by_cases hx : name = x
    · subst hx
      simp [keyAt, Option.bind_map]
    · simp [keyAt, hx, Ne.symm hx]
  | authorisation | claim => simp [keyAt, update]

theorem keyAt_upsert (s : PairingState) (name : String) (now : Clock)
    (f : PairingRow → PairingRow) (p : Place) : (s.upsert name now f).keyAt p =
      if p = .worker name then
        (f ((s.pairings.get? name).getD { createdTs := now })).signingKey
      else s.keyAt p := by
  cases p with
  | worker x =>
    by_cases hx : name = x
    · subst hx
      simp [keyAt]
    · simp [keyAt, hx, Ne.symm hx]
  | authorisation | claim => simp [keyAt, upsert]

variable {s s' : PairingState} {f : PairingRow → PairingRow} {e : PairingEvent} {now : Clock}

theorem mem_keyAt_worker {name : String} {row : PairingRow}
    (hget : s.pairings.get? name = some row) : s.keyAt (.worker name) = row.signingKey := by
  simp [keyAt, hget]

/-! ## Blocks -/

/-- The blocked workers stay blocked, but for one that is unblocked. -/
def KeepsBlocks (s : PairingState) (e : PairingEvent) (s' : PairingState) : Prop :=
  ∀ name, s.IsBlocked name → e ≠ .unblocked name → s'.IsBlocked name

theorem isBlocked_update {x : String} (h : s.IsBlocked x) (name : String)
    (hf : ∀ row, row.blocked = true → (f row).blocked = true) : (s.update name f).IsBlocked x := by
  obtain ⟨row, hget, hblocked⟩ := h
  by_cases hx : name = x
  · exact ⟨f row, by rw [get?_update, if_pos hx, hget, Option.map_some], hf row hblocked⟩
  · exact ⟨row, by rw [get?_update, if_neg hx, hget], hblocked⟩

/-- A write that leaves a worker unblocked keeps the blocks exactly when the worker was not
blocked. -/
theorem keepsBlocks_iff_of_cleared {name : String}
    (hothers : ∀ x, name ≠ x → s'.pairings.get? x = s.pairings.get? x)
    (hcleared : ∀ row, s'.pairings.get? name = some row → row.blocked = false)
    (hne : ∀ x, e ≠ .unblocked x) : KeepsBlocks s e s' ↔ ¬s.IsBlocked name := by
  constructor
  · intro hkeeps hblocked
    obtain ⟨row, hget, hstill⟩ := hkeeps name hblocked (hne name)
    rw [hcleared row hget] at hstill
    contradiction
  · rintro hnot x ⟨row, hget, hblocked⟩ _
    have hx : name ≠ x := by
      rintro rfl
      exact hnot ⟨row, hget, hblocked⟩
    exact ⟨row, by rw [hothers x hx, hget], hblocked⟩

/-- Nothing is asked of a statement that cannot be executed. -/
theorem unblocked_of_none (hstep : s.step sha256 e = none) : s.Unblocked e := by
  cases e with
  | confirmWritten id now =>
    intro name code hcall
    simp [step, hcall] at hstep
  | manualStored id now =>
    intro name url key hcall
    simp [step, hcall] at hstep
  | _ => trivial

/-- The statements that keep every block. -/
theorem keepsBlocks_step_iff (hstep : s.step sha256 e = some s') :
    KeepsBlocks s e s' ↔ s.Unblocked e := by
  cases e with
  | confirmWritten id now =>
    simp only [step] at hstep
    split at hstep
    · rename_i name code hcall
      cases hstep
      have hguard : s.Unblocked (.confirmWritten id now) ↔ ¬s.IsBlocked name := by
        simp [Unblocked, hcall]
      rw [hguard]
      apply keepsBlocks_iff_of_cleared
      · intro x hx
        exact (get?_update s name _ x).trans (if_neg hx)
      · intro row hget
        have hget' := (get?_update s name _ name).symm.trans hget
        rw [if_pos rfl] at hget'
        obtain ⟨before, _, rfl⟩ := Option.map_eq_some_iff.mp hget'
        rfl
      · exact fun x => by simp
    · contradiction
  | manualStored id now =>
    simp only [step] at hstep
    split at hstep
    · rename_i name url key hcall
      cases hstep
      have hguard : s.Unblocked (.manualStored id now) ↔ ¬s.IsBlocked name := by
        simp [Unblocked, hcall]
      rw [hguard]
      apply keepsBlocks_iff_of_cleared
      · intro x hx
        exact (get?_upsert s name now (fun row => row.restored key) x).trans (if_neg hx)
      · intro row hget
        have hget' :=
          (get?_upsert s name now (fun row => row.restored key) name).symm.trans hget
        rw [if_pos rfl] at hget'
        cases hget'
        rfl
      · exact fun x => by simp
    · contradiction
  | announced name url platform codeHash now =>
    refine iff_of_true ?_ trivial
    cases hstep
    rintro x ⟨row, hget, hblocked⟩ _
    by_cases hx : name = x
    · subst hx
      refine ⟨row.announced url platform codeHash now, ?_, hblocked⟩
      rw [get?_upsert, if_pos rfl, hget, Option.getD_some]
    · exact ⟨row, by rw [get?_upsert, if_neg hx, hget], hblocked⟩
  | claimCleared id =>
    refine iff_of_true ?_ trivial
    intro x hblocked _
    simp only [step] at hstep
    split at hstep
    · split at hstep <;> cases hstep
      · exact isBlocked_update (f := PairingRow.cleared) hblocked _ fun _ hrow => hrow
      · exact hblocked
    · contradiction
  | attemptCounted id =>
    refine iff_of_true ?_ trivial
    intro x hblocked _
    simp only [step] at hstep
    split at hstep
    · rename_i name reply hcall
      cases hstep
      exact isBlocked_update hblocked name fun _ hrow => hrow
    · contradiction
  | attemptFailed name =>
    refine iff_of_true ?_ trivial
    intro x hblocked _
    cases hstep
    exact isBlocked_update hblocked name fun _ hrow => hrow
  | revoked name =>
    refine iff_of_true ?_ trivial
    intro x hblocked _
    simp only [step] at hstep
    split at hstep <;> cases hstep
    · exact isBlocked_update (f := fun row => { row with revoked := true }) hblocked name
        fun _ hrow => hrow
    · exact hblocked
  | blocked name =>
    refine iff_of_true ?_ trivial
    intro x hblocked _
    simp only [step] at hstep
    split at hstep <;> cases hstep
    · exact isBlocked_update (f := fun row => { row with revoked := true, blocked := true })
        hblocked name fun _ _ => rfl
    · exact hblocked
  | unblocked name =>
    refine iff_of_true ?_ trivial
    rintro x ⟨row, hget, hblocked⟩ hne
    simp only [step] at hstep
    split at hstep <;> cases hstep
    · have hx : name ≠ x := fun heq => hne (by rw [heq])
      exact ⟨row, by rw [get?_update, if_neg hx, hget], hblocked⟩
    · exact ⟨row, hget, hblocked⟩
  | manualAuthorized url code now =>
    refine iff_of_true ?_ trivial
    intro x hblocked _
    cases hstep
    exact hblocked
  | _ =>
    refine iff_of_true ?_ trivial
    intro x hblocked _
    simp only [step] at hstep
    split at hstep
    all_goals first | contradiction | (cases hstep; exact hblocked) | skip
    all_goals split at hstep <;> (cases hstep; exact hblocked)

/-! ## Dead keys -/

/-- A statement that moves no key, and brings no worker back. -/
theorem Buried.mono (h : s.Buried) (hdrawn : s.drawn ≤ s'.drawn)
    (hdead : s'.dead = s.dead) (hkeys : ∀ p key, s'.keyAt p = some key → s.keyAt p = some key)
    (hrevoked : ∀ name row, s.pairings.get? name = some row → row.revoked = true →
      ∃ row', s'.pairings.get? name = some row' ∧ row'.revoked = true) : s'.Buried := by
  refine ⟨h.exclusive.mono hkeys, ?_, ?_, ?_⟩
  · exact fun p key hkey => lt_of_lt_of_le (h.drawn p key (hkeys p key hkey)) hdrawn
  · rw [hdead]
    exact fun key hmem => lt_of_lt_of_le (h.dead key hmem) hdrawn
  · rw [hdead]
    intro key hmem p hkey
    obtain ⟨name, row, hp, hget, hrow⟩ := h.revoked key hmem p (hkeys p key hkey)
    obtain ⟨row', hget', hrow'⟩ := hrevoked name row hget hrow
    exact ⟨name, row', hp, hget', hrow'⟩

/-- A call that goes on takes no key. -/
theorem Buried.goOn (h : s.Buried) (id : Nat) (call : PairingCall)
    (htaken : call.taken = none) : (s.goOn id call).Buried := by
  refine h.mono le_rfl rfl ?_ fun name row hget hrow => ⟨row, hget, hrow⟩
  intro p key hkey
  rw [keyAt_goOn] at hkey
  split at hkey
  · rw [htaken] at hkey
    contradiction
  · exact hkey

/-- A row is written over, and keeps a key out. -/
theorem Buried.update (h : s.Buried) (name : String) (hf : ∀ row, KeepsOut row (f row)) :
    (s.update name f).Buried := by
  refine h.mono le_rfl rfl ?_ ?_
  · intro p key hkey
    rw [keyAt_update] at hkey
    split at hkey
    · rename_i hp
      subst hp
      obtain ⟨row, hget, hrow⟩ := Option.bind_eq_some_iff.mp hkey
      rw [mem_keyAt_worker hget, ← (hf row).key, hrow]
    · exact hkey
  · intro x row hget hrow
    by_cases hx : name = x
    · exact ⟨f row, by rw [get?_update, if_pos hx, hget, Option.map_some], (hf row).revoked hrow⟩
    · exact ⟨row, by rw [get?_update, if_neg hx, hget], hrow⟩

theorem Buried.incrementAttempts (h : s.Buried) (name : String) :
    (s.incrementAttempts name).Buried :=
  h.update name fun _ => ⟨rfl, id⟩

/-- An announcement keeps the keys out. -/
theorem Buried.announced (h : s.Buried) (name url platform codeHash : String) (now : Clock) :
    (s.upsert name now fun row => row.announced url platform codeHash now).Buried := by
  refine h.mono le_rfl rfl ?_ ?_
  · intro p key hkey
    rw [keyAt_upsert] at hkey
    split at hkey
    · rename_i hp
      subst hp
      cases hget : s.pairings.get? name with
      | none =>
        rw [hget] at hkey
        contradiction
      | some row =>
        rw [hget] at hkey
        rw [mem_keyAt_worker hget]
        exact hkey
    · exact hkey
  · intro x row hget hrow
    by_cases hx : name = x
    · subst hx
      refine ⟨row.announced url platform codeHash now, ?_, hrow⟩
      rw [get?_upsert, if_pos rfl, hget, Option.getD_some]
    · exact ⟨row, by rw [get?_upsert, if_neg hx, hget], hrow⟩

/-- A key that is drawn is put at a place. -/
theorem Buried.draw (h : s.Buried) (place : Place)
    (hdrawn : s'.drawn = s.drawn + 1) (hdead : s'.dead = s.dead)
    (hput : ∀ p key, s'.keyAt p = some key →
      p = place ∧ key = s.drawn ∨ p ≠ place ∧ s.keyAt p = some key)
    (hrows : ∀ name, .worker name ≠ place → s'.pairings.get? name = s.pairings.get? name) :
    s'.Buried := by
  refine ⟨?_, ?_, ?_, ?_⟩
  · apply h.exclusive.put (m := place) (u := s.drawn)
    · exact fun p hkey => absurd (h.drawn p s.drawn hkey) (lt_irrefl _)
    · intro p key hkey
      rcases hput p key hkey with hnew | ⟨_, hold⟩
      · exact Or.inl hnew
      · exact Or.inr hold
  · intro p key hkey
    rw [hdrawn]
    rcases hput p key hkey with ⟨_, rfl⟩ | ⟨_, hold⟩
    · exact Nat.lt_succ_self _
    · exact Nat.lt_succ_of_lt (h.drawn p key hold)
  · rw [hdead, hdrawn]
    exact fun key hmem => Nat.lt_succ_of_lt (h.dead key hmem)
  · rw [hdead]
    intro key hmem p hkey
    rcases hput p key hkey with ⟨_, rfl⟩ | ⟨hne, hold⟩
    · exact absurd (h.dead _ hmem) (lt_irrefl _)
    · obtain ⟨name, row, rfl, hget, hrow⟩ := h.revoked key hmem p hold
      exact ⟨name, row, rfl, by rw [hrows name hne, hget], hrow⟩

/-- A key that is not dead is moved. -/
theorem Buried.move (h : s.Buried) (source target : Place)
    (hdrawn : s'.drawn = s.drawn) (hdead : s'.dead = s.dead)
    (hsource : ∀ name, source ≠ .worker name) (hempty : s'.keyAt source = none)
    (hmove : ∀ p key, s'.keyAt p = some key →
      p = target ∧ s.keyAt source = some key ∨ p ≠ target ∧ s.keyAt p = some key)
    (hrows : ∀ name, .worker name ≠ target → s'.pairings.get? name = s.pairings.get? name) :
    s'.Buried := by
  refine ⟨?_, ?_, ?_, ?_⟩
  · apply h.exclusive.move hempty
    intro p key hkey
    rcases hmove p key hkey with hmoved | ⟨_, hold⟩
    · exact Or.inl hmoved
    · exact Or.inr hold
  · rw [hdrawn]
    intro p key hkey
    rcases hmove p key hkey with ⟨_, hold⟩ | ⟨_, hold⟩
    · exact h.drawn source key hold
    · exact h.drawn p key hold
  · rw [hdead, hdrawn]
    exact h.dead
  · rw [hdead]
    intro key hmem p hkey
    rcases hmove p key hkey with ⟨_, hold⟩ | ⟨hne, hold⟩
    · obtain ⟨name, _, hworker, _⟩ := h.revoked key hmem source hold
      exact absurd hworker (hsource name)
    · obtain ⟨name, row, rfl, hget, hrow⟩ := h.revoked key hmem p hold
      exact ⟨name, row, rfl, by rw [hrows name hne, hget], hrow⟩

/-- The key of a worker dies with its revocation. -/
theorem Buried.kill (h : s.Buried) (name : String)
    (hkey : ∀ row, (f row).signingKey = row.signingKey)
    (hrevoked : ∀ row, (f row).revoked = true) : (s.kill name f).Buried := by
  have hrow := h.update name (f := f) fun row => ⟨hkey row, fun _ => hrevoked row⟩
  refine { hrow with dead := ?_, revoked := ?_ }
  · intro key hmem
    rcases List.mem_append.mp hmem with hnow | hbefore
    · exact h.drawn (.worker name) key (Option.mem_toList.mp hnow)
    · exact h.dead key hbefore
  · intro key hmem p hkeyAt
    rcases List.mem_append.mp hmem with hnow | hbefore
    · -- the key lies at the worker whose row is written, and nowhere else
      have hworker : s.keyAt (.worker name) = some key := Option.mem_toList.mp hnow
      obtain ⟨row, hget, hsigning⟩ := Option.bind_eq_some_iff.mp hworker
      have hget' : (s.update name f).pairings.get? name = some (f row) := by
        rw [get?_update, if_pos rfl, hget, Option.map_some]
      have hlies : (s.update name f).keyAt (.worker name) = some key := by
        rw [mem_keyAt_worker hget', hkey, hsigning]
      exact ⟨name, f row, hrow.exclusive p _ key hkeyAt hlies, hget', hrevoked row⟩
    · exact hrow.revoked key hbefore p hkeyAt

/-- A confirmation has taken no key yet. -/
theorem confirmCall_taken (found : Option PairingRow) (name code : String) (now : Clock) :
    (confirmCall sha256 found name code now).taken = none := by
  cases found with
  | none => rfl
  | some row =>
    simp only [confirmCall]
    split
    · rfl
    · split <;> rfl

/-- A claim has taken no key yet. -/
theorem claimCall_taken (found : Option PairingRow) (name code : String) (now : Clock) :
    (claimCall sha256 found name code now).taken = none := by
  cases found with
  | none => rfl
  | some row =>
    simp only [claimCall]
    split
    · rfl
    · split <;> rfl

/-- A manual claim has taken no key yet. -/
theorem manualCall_taken (found : Option ManualRow) (name codeHash : String) (now : Clock) :
    (manualCall found name codeHash now).taken = none := by
  cases found with
  | none => rfl
  | some row =>
    simp only [manualCall]
    split <;> rfl

/-- A confirmation is written. -/
theorem Buried.confirmWritten {id : Nat} (h : s.Buried)
    (hstep : s.step sha256 (.confirmWritten id now) = some s') : s'.Buried := by
  simp only [step] at hstep
  split at hstep
  · rename_i name code hcall
    cases hstep
    refine h.draw (.worker name) rfl rfl ?_ ?_
    · intro p key hkey
      have hkey' : ((s.update name fun row => row.confirmedBy s.drawn now).goOn id
          (.done (.confirmed true))).keyAt p = some key := hkey
      rw [keyAt_goOn] at hkey'
      split at hkey'
      · contradiction
      · rw [keyAt_update] at hkey'
        split at hkey'
        · rename_i hp
          obtain ⟨row, _, hdrawn⟩ := Option.bind_eq_some_iff.mp hkey'
          exact Or.inl ⟨hp, (Option.some.inj hdrawn).symm⟩
        · rename_i hp
          exact Or.inr ⟨hp, hkey'⟩
    · intro x hx
      exact (get?_update s name _ x).trans (if_neg fun heq => hx (by rw [heq]))
  · contradiction

/-- A manual pairing is authorised. -/
theorem Buried.manualAuthorized {url code : String}
    (h : s.Buried) (hstep : s.step sha256 (.manualAuthorized url code now) = some s') :
    s'.Buried := by
  cases hstep
  refine h.draw (.authorisation (sha256 code)) rfl rfl ?_ ?_
  · intro p key hkey
    cases p with
    | worker | claim => exact Or.inr ⟨by simp, hkey⟩
    | authorisation codeHash =>
      simp only [keyAt, Dict.get?_set] at hkey
      split at hkey
      · rename_i heq
        exact Or.inl ⟨by rw [heq], (Option.some.inj hkey).symm⟩
      · rename_i hne
        exact Or.inr ⟨fun heq => hne (Place.authorisation.inj heq).symm, hkey⟩
  · exact fun _ _ => rfl

/-- A claim takes the key of the authorisation it deletes. -/
theorem Buried.manualConsumed {id : Nat} (h : s.Buried)
    (hconsumes : s.Consumes (.manualConsumed id))
    (hstep : s.step sha256 (.manualConsumed id) = some s') : s'.Buried := by
  simp only [step] at hstep
  split at hstep
  · rename_i name codeHash url key hcall
    split at hstep
    · cases hstep
      exact h.goOn id _ rfl
    · rename_i hsome
      cases hstep
      obtain ⟨row, hrow⟩ := Option.ne_none_iff_exists'.mp (by simpa using hsome)
      have hkey : row.signingKey = key := hconsumes name codeHash url key hcall row hrow
      refine h.move (.authorisation codeHash) (.claim id) rfl rfl ?_ ?_ ?_ ?_
      · exact fun x => by simp
      · simp [keyAt]
      · intro p taken htaken
        cases p with
        | worker x => exact Or.inr ⟨by simp, htaken⟩
        | authorisation x =>
          simp only [keyAt, Dict.get?_pop] at htaken
          split at htaken
          · contradiction
          · exact Or.inr ⟨by simp, htaken⟩
        | claim x =>
          have htaken' : (s.goOn id (.storing name url key)).keyAt (.claim x) = some taken :=
            htaken
          rw [keyAt_goOn] at htaken'
          split at htaken'
          · rename_i hx
            refine Or.inl ⟨hx, ?_⟩
            rw [keyAt, hrow, Option.map_some, hkey]
            exact htaken'
          · rename_i hx
            exact Or.inr ⟨hx, htaken'⟩
      · exact fun _ _ => rfl
  · contradiction

/-- The key that was taken is the worker's. -/
theorem Buried.manualStored {id : Nat} (h : s.Buried)
    (hstep : s.step sha256 (.manualStored id now) = some s') : s'.Buried := by
  simp only [step] at hstep
  split at hstep
  · rename_i name url key hcall
    cases hstep
    refine h.move (.claim id) (.worker name) rfl rfl ?_ ?_ ?_ ?_
    · exact fun x => by simp
    · rw [keyAt_goOn, if_pos rfl]
      rfl
    · intro p taken htaken
      rw [keyAt_goOn] at htaken
      split at htaken
      · contradiction
      rw [keyAt_upsert] at htaken
      split at htaken
      · rename_i hp
        refine Or.inl ⟨hp, ?_⟩
        rw [keyAt, hcall]
        exact htaken
      · rename_i hp
        exact Or.inr ⟨hp, htaken⟩
    · intro x hx
      exact (get?_upsert s name now (fun row => row.restored key) x).trans
        (if_neg fun heq => hx (by rw [heq]))
  · contradiction

/-- Dead keys stay buried where claims take the keys they read. -/
theorem Buried.step (h : s.Buried)
    (hconsumes : s.Consumes e) (hstep : s.step sha256 e = some s') : s'.Buried := by
  cases e with
  | announced name url platform codeHash now =>
    cases hstep
    exact h.announced name url platform codeHash now
  | confirmRead id name code now =>
    simp only [step] at hstep
    split at hstep
    · contradiction
    cases hstep
    exact h.goOn id _ (confirmCall_taken _ name code now)
  | confirmWritten id now => exact h.confirmWritten hstep
  | claimRead id name code now =>
    simp only [step] at hstep
    split at hstep
    · contradiction
    cases hstep
    exact h.goOn id _ (claimCall_taken _ name code now)
  | claimCleared id =>
    simp only [step] at hstep
    split at hstep
    · rename_i name code key hcall
      split at hstep <;> cases hstep
      · have hrow := h.update name (f := PairingRow.cleared) fun _ => ⟨rfl, fun hr => hr⟩
        have hcleared := hrow.goOn id (.done (.claimed (some key))) rfl
        exact hcleared.mono le_rfl rfl (fun _ _ hkey => hkey) fun _ row hget hrow =>
          ⟨row, hget, hrow⟩
      · exact h.goOn id _ rfl
    · contradiction
  | attemptCounted id =>
    simp only [step] at hstep
    split at hstep
    · rename_i name reply hcall
      cases hstep
      exact (h.incrementAttempts name).goOn id _ rfl
    · contradiction
  | manualAuthorized url code now => exact h.manualAuthorized hstep
  | manualRead id name code now =>
    simp only [step] at hstep
    split at hstep
    · contradiction
    cases hstep
    exact h.goOn id _ (manualCall_taken _ name _ now)
  | manualDiscarded id =>
    simp only [step] at hstep
    split at hstep
    · rename_i codeHash hcall
      cases hstep
      have hdone := h.goOn id (.done (.manual none)) rfl
      refine hdone.mono le_rfl rfl ?_ fun _ row hget hrow => ⟨row, hget, hrow⟩
      intro p key hkey
      cases p with
      | worker | claim => exact hkey
      | authorisation x =>
        simp only [keyAt, Dict.get?_pop] at hkey
        split at hkey
        · contradiction
        · exact hkey
    · contradiction
  | manualChecked id =>
    simp only [step] at hstep
    split at hstep
    · split at hstep <;> (cases hstep; exact h.goOn id _ rfl)
    · contradiction
  | manualConsumed id => exact h.manualConsumed hconsumes hstep
  | manualStored id now => exact h.manualStored hstep
  | attemptFailed name =>
    cases hstep
    exact h.incrementAttempts name
  | revoked name | blocked name =>
    simp only [step] at hstep
    split at hstep <;> cases hstep
    · exact h.kill name (fun _ => rfl) fun _ => rfl
    · exact h
  | unblocked name =>
    simp only [step] at hstep
    split at hstep <;> cases hstep
    · exact h.update name fun _ => ⟨rfl, fun hr => hr⟩
    · exact h

theorem buried_init : init.Buried := by
  refine ⟨?_, ?_, ?_, ?_⟩
  · intro p q key hkey
    cases p <;> contradiction
  · intro p key hkey
    cases p <;> contradiction
  · intro key hmem
    contradiction
  · intro key hmem
    contradiction

/-- A dead key authenticates nobody. -/
theorem Buried.signingKey_ne (h : s.Buried) {key : Key} (hdead : key ∈ s.dead)
    (name : String) : s.signingKey name ≠ some key := by
  intro hkey
  obtain ⟨row, hget, hsigning, hrevoked, _⟩ := signingKey_eq_some_iff.mp hkey
  have hlies : s.keyAt (.worker name) = some key := by rw [mem_keyAt_worker hget, hsigning]
  obtain ⟨name', row', hp, hget', hrow'⟩ := h.revoked key hdead _ hlies
  obtain rfl : name = name' := Place.worker.inj hp
  rw [hget] at hget'
  cases hget'
  rw [hrevoked] at hrow'
  contradiction

/-! ## Runs -/

/-- A blocked worker stays blocked until it is unblocked. -/
def BlocksLast (sha256 : String → String) (es : List PairingEvent) : Prop :=
  EveryStep (step sha256) KeepsBlocks init es

/-- A revoked key authenticates nobody again. -/
def KeysStayDead (sha256 : String → String) (es : List PairingEvent) : Prop :=
  ∀ pre post s, es = pre ++ post → run (step sha256) init pre = some s →
    ∀ key ∈ s.dead, ∀ name, s.signingKey name ≠ some key

/-- Blocks last in exactly the runs that clear none unread; keys stay dead where claims take the
keys they read. -/
theorem blocksAreFinal (sha256 : String → String) (es : List PairingEvent) :
    (BlocksLast sha256 es ↔ Guarded (step sha256) Unblocked init es) ∧
      (Guarded (step sha256) Consumes init es → KeysStayDead sha256 es) := by
  constructor
  · apply everyStep_iff_guarded (I := fun _ => True)
    · exact fun _ _ hstep => unblocked_of_none hstep
    · exact fun _ _ _ _ _ _ => trivial
    · exact fun _ _ _ _ hstep => keepsBlocks_step_iff hstep
    · trivial
  · rintro hconsumes pre post s rfl hrun key hdead
    have hburied : s.Buried :=
      invariant_of_guarded_run (fun _ _ _ h hguard hstep => h.step hguard hstep) buried_init
        (guarded_of_append hconsumes) hrun
    exact hburied.signingKey_ne hdead

/-- An authorisation is claimed, and the worker is revoked. -/
def claimedAndRevoked : List PairingEvent :=
  [.manualAuthorized "http://w" "123456" 0, .manualRead 0 "w" "123456" 1, .manualChecked 0,
    .manualConsumed 0, .manualStored 0 1, .revoked "w"]

theorem keysStayDead_claimedAndRevoked : KeysStayDead id claimedAndRevoked := by
  apply (blocksAreFinal id claimedAndRevoked).2
  refine ⟨trivial, trivial, trivial, ?_, trivial, trivial, trivial⟩
  intro name codeHash url key hcall row hrow
  cases hcall
  cases hrow
  rfl

/-- A worker is blocked between the read and the write of its confirmation. -/
def confirmedLate : List PairingEvent :=
  [.announced "w" "http://w" "linux" "123456" 0, .confirmRead 0 "w" "123456" 1, .blocked "w",
    .confirmWritten 0 1]

/-- Two claims read one authorisation.  The first is served and its worker revoked; the code is
authorised again, and the second claim deletes that authorisation and stores the key it read. -/
def claimedLate : List PairingEvent :=
  [.manualAuthorized "http://w" "123456" 0, .manualRead 0 "w" "123456" 1,
    .manualRead 1 "w" "123456" 1, .manualChecked 0, .manualChecked 1, .manualConsumed 0,
    .manualStored 0 1, .revoked "w", .manualAuthorized "http://w" "123456" 2, .manualConsumed 1,
    .manualStored 1 2]

/-- A block is cleared by a confirmation, and a revoked key authenticates again. -/
theorem not_blocksAreFinal : ¬BlocksLast id confirmedLate ∧ ¬KeysStayDead id claimedLate := by
  constructor
  · intro hlast
    have hkeeps := hlast (confirmedLate.take 3) (.confirmWritten 0 1) [] _ _ rfl rfl rfl "w"
      ⟨_, rfl, rfl⟩ (by decide)
    obtain ⟨row, hget, hblocked⟩ := hkeeps
    cases hget
    contradiction
  · intro hdead
    exact absurd rfl (hdead claimedLate [] _ (by simp) rfl 0 (by decide) "w")

end PairingState
end Pairing

end TinyAgentOS.Cluster
