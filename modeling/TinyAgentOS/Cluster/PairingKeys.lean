import TinyAgentOS.Cluster.Pairing

/-!
# The party a key is handed to

An admin confirms a code, and the key drawn for it is meant for the worker that shows
that code.  Announcements, confirmations and claims interleave statement by statement: an
announcement can fall between the read and the write of a confirmation, and so can a
confirmation within a claim.

Main results:

- `PairingState.handsOver_of_intact`: where every write finds the row that was read, a key goes to
  the code that was confirmed, once, and is then accepted.
- `PairingState.not_handsOver`: an announcement during a confirmation is given the key.
-/

namespace TinyAgentOS.Cluster

open Collections Transition

namespace Pairing
namespace PairingState

variable {sha256 : String → String}

/-- A confirmed row waits for the code that its key was released for. -/
structure Sealed (sha256 : String → String) (s : PairingState) : Prop where
  drawn : ∀ key release, s.releases.get? key = some release → key < s.drawn
  codes : ∀ h ∈ s.handouts, s.releases.get? h.key = some (h.name, h.code)
  once : (s.handouts.map Handout.key).Nodup
  rows : ∀ name row, s.pairings.get? name = some row → row.confirmed = true →
    ∃ key code, row.signingKey = some key ∧ s.releases.get? key = some (name, code) ∧
      (∀ codeHash ∈ row.pendingCodeHash, codeHash = sha256 code) ∧
      key ∉ s.handouts.map Handout.key
  calls : ∀ id name code key, s.calls.get? id = some (.clearing name code key) →
    s.releases.get? key = some (name, code)

/-- Every write finds the row that was read: the code that is confirmed is still announced, the
key that is handed out is still the worker's, and no confirmed row is given another key.  Two
codes of one digest do not meet. -/
def Intact (sha256 : String → String) (s : PairingState) : PairingEvent → Prop
  | .confirmWritten id _ =>
    ∀ name code, s.calls.get? id = some (.confirming name code) →
      ∀ row ∈ s.pairings.get? name, row.pendingCodeHash = some (sha256 code)
  | .claimRead _ name code _ =>
    ∀ row ∈ s.pairings.get? name, ∀ key ∈ row.signingKey, ∀ confirmed,
      s.releases.get? key = some (name, confirmed) → sha256 code = sha256 confirmed →
        code = confirmed
  | .claimCleared id =>
    ∀ name code key, s.calls.get? id = some (.clearing name code key) →
      ∀ row ∈ s.pairings.get? name, row.confirmed = true →
        row.signingKey = some key ∧ row.revoked = false ∧ row.blocked = false
  | .manualStored id _ =>
    ∀ name url key, s.calls.get? id = some (.storing name url key) →
      ∀ row ∈ s.pairings.get? name, row.confirmed = false
  | _ => True

/-! ## Statements -/

/-- A row that is written waits for a claim only if it did before, for the same one. -/
def StillWaits (row row' : PairingRow) : Prop :=
  row'.confirmed = true → row.confirmed = true ∧ row'.signingKey = row.signingKey ∧
    row'.pendingCodeHash = row.pendingCodeHash

variable {s s' : PairingState} {id : Nat} {e : PairingEvent}

/-- A statement that confirms nothing and hands out nothing. -/
theorem Sealed.mono (h : s.Sealed sha256)
    (hdrawn : s.drawn ≤ s'.drawn) (hreleases : s'.releases = s.releases)
    (hhandouts : s'.handouts = s.handouts)
    (hrows : ∀ name row', s'.pairings.get? name = some row' → row'.confirmed = true →
      ∃ row, s.pairings.get? name = some row ∧ StillWaits row row')
    (hcalls : ∀ id name code key, s'.calls.get? id = some (.clearing name code key) →
      s.calls.get? id = some (.clearing name code key)) : s'.Sealed sha256 := by
  refine ⟨?_, ?_, ?_, ?_, ?_⟩
  · intro key release hkey
    rw [hreleases] at hkey
    exact lt_of_lt_of_le (h.drawn key release hkey) hdrawn
  · rw [hreleases, hhandouts]
    exact h.codes
  · rw [hhandouts]
    exact h.once
  · intro name row' hget hconfirmed
    obtain ⟨row, hrow, hstill⟩ := hrows name row' hget hconfirmed
    obtain ⟨hbefore, hkey, hhash⟩ := hstill hconfirmed
    rw [hkey, hhash, hreleases, hhandouts]
    exact h.rows name row hrow hbefore
  · intro id name code key hcall
    rw [hreleases]
    exact h.calls id name code key (hcalls id name code key hcall)

/-- Only the read of a claim leads to its write. -/
theorem clearing_of_goOn {call : PairingCall}
    (hcall : ∀ name code key, call ≠ .clearing name code key) {x : Nat} {name code : String}
    {key : Key} (hget : (s.goOn id call).calls.get? x = some (.clearing name code key)) :
    s.calls.get? x = some (.clearing name code key) := by
  rcases Dict.get?_set_cases hget with ⟨_, hnew⟩ | ⟨_, hold⟩
  · exact absurd hnew (hcall name code key)
  · exact hold

theorem Sealed.goOn (h : s.Sealed sha256) (id : Nat) (call : PairingCall)
    (hcall : ∀ name code key, call ≠ .clearing name code key) : (s.goOn id call).Sealed sha256 := by
  refine h.mono le_rfl rfl rfl ?_ fun _ _ _ _ hget => clearing_of_goOn hcall hget
  exact fun _ row' hget hconfirmed => ⟨row', hget, fun _ => ⟨hconfirmed, rfl, rfl⟩⟩

variable {f : PairingRow → PairingRow} {now : Projects.Clock}

/-- A row is written, and waits for a claim only if it did. -/
theorem Sealed.update (h : s.Sealed sha256) (name : String) (hf : ∀ row, StillWaits row (f row)) :
    (s.update name f).Sealed sha256 := by
  refine h.mono le_rfl rfl rfl ?_ fun _ _ _ _ hget => hget
  intro x row' hget hconfirmed
  rcases Dict.get?_modify_cases hget with ⟨_, row, hrow, rfl⟩ | ⟨_, hold⟩
  · exact ⟨row, hrow, hf row⟩
  · exact ⟨row', hold, fun _ => ⟨hconfirmed, rfl, rfl⟩⟩

theorem Sealed.incrementAttempts (h : s.Sealed sha256) (name : String) :
    (s.incrementAttempts name).Sealed sha256 :=
  h.update name fun _ hconfirmed => ⟨hconfirmed, rfl, rfl⟩

/-- A row is written or inserted, and waits for no claim. -/
theorem Sealed.upsert (h : s.Sealed sha256) (name : String)
    (now : Projects.Clock)
    (hf : (f ((s.pairings.get? name).getD { createdTs := now })).confirmed = false) :
    (s.upsert name now f).Sealed sha256 := by
  refine h.mono le_rfl rfl rfl ?_ fun _ _ _ _ hget => hget
  intro x row' hget hconfirmed
  rw [get?_upsert] at hget
  split at hget
  · cases hget
    rw [hf] at hconfirmed
    contradiction
  · exact ⟨row', hget, fun _ => ⟨hconfirmed, rfl, rfl⟩⟩

attribute [local simp] step

/-- The key drawn is for the code that is announced. -/
theorem Sealed.confirmWritten
    (h : s.Sealed sha256) (hintact : s.Intact sha256 (.confirmWritten id now))
    (hstep : s.step sha256 (.confirmWritten id now) = some s') : s'.Sealed sha256 := by
  simp only [step] at hstep
  split at hstep
  · rename_i name code hcall
    cases hstep
    have hnew : s.releases.get? s.drawn = none := by
      cases hget : s.releases.get? s.drawn with
      | none => rfl
      | some release => exact absurd (h.drawn _ release hget) (lt_irrefl _)
    have hkept : ∀ key release, s.releases.get? key = some release →
        (s.releases.set s.drawn (name, code)).get? key = some release := by
      intro key release hget
      rw [Dict.get?_set_of_ne _ _ (ne_of_gt (h.drawn key release hget)), hget]
    refine ⟨?_, ?_, h.once, ?_, ?_⟩
    · intro key release hget
      rcases Dict.get?_set_cases hget with ⟨rfl, _⟩ | ⟨_, hold⟩
      · exact Nat.lt_succ_self _
      · exact Nat.lt_succ_of_lt (h.drawn key release hold)
    · exact fun handout hmem => hkept _ _ (h.codes handout hmem)
    · intro x row' hget hconfirmed
      rcases Dict.get?_modify_cases hget with ⟨rfl, row, hrow, rfl⟩ | ⟨_, hold⟩
      · refine ⟨s.drawn, code, rfl, Dict.get?_set_self _ _ _, ?_, ?_⟩
        · intro codeHash hhash
          have hannounced := hintact name code hcall row hrow
          exact Option.some.inj (hhash.symm.trans hannounced)
        · intro hmem
          obtain ⟨handout, hhandout, hkey⟩ := List.mem_map.mp hmem
          have hreleased := h.codes handout hhandout
          rw [hkey, hnew] at hreleased
          contradiction
      · obtain ⟨key, code', hkey, hreleased, hhash, hfresh⟩ := h.rows x row' hold hconfirmed
        exact ⟨key, code', hkey, hkept _ _ hreleased, hhash, hfresh⟩
    · intro x name' code' key hget
      exact hkept _ _ (h.calls x name' code' key
        (clearing_of_goOn (s := s) (fun _ _ _ => by simp) hget))
  · contradiction

/-- A claim that goes on has found the code that was confirmed. -/
theorem Sealed.claimRead {name code : String} (h : s.Sealed sha256)
    (hintact : s.Intact sha256 (.claimRead id name code now))
    (hstep : s.step sha256 (.claimRead id name code now) = some s') : s'.Sealed sha256 := by
  simp only [step] at hstep
  split at hstep
  · contradiction
  cases hstep
  refine ⟨h.drawn, h.codes, h.once, h.rows, ?_⟩
  intro x name' code' key hget
  rw [get?_goOn] at hget
  split at hget
  · obtain ⟨rfl, rfl, row, hrow, hconfirmed, hpending, hkey⟩ :=
      claimCall_eq_clearing (Option.some.inj hget)
    obtain ⟨key', confirmed, hkey', hreleased, hhash, _⟩ := h.rows name' row hrow hconfirmed
    obtain rfl : key = key' := Option.some.inj (hkey.symm.trans hkey')
    have hcode := hintact row hrow key hkey confirmed hreleased (hhash _ hpending)
    rw [hcode]
    exact hreleased
  · exact h.calls x name' code' key hget

/-- What the write of a claim does: it hands the key out where the row is confirmed. -/
theorem claimCleared_cases (hstep : s.step sha256 (.claimCleared id) = some s') :
    ∃ name code key, s.calls.get? id = some (.clearing name code key) ∧
      ((∃ row, s.pairings.get? name = some row ∧ row.confirmed = true ∧
        s' = { (s.update name PairingRow.cleared).goOn id (.done (.claimed (some key))) with
          handouts := s.handouts ++ [⟨name, code, key⟩] }) ∨
        s' = s.goOn id (.done (.claimed none))) := by
  simp only [step] at hstep
  split at hstep
  · rename_i name code key hcall
    refine ⟨name, code, key, hcall, ?_⟩
    cases hrow : s.pairings.get? name with
    | none =>
      rw [hrow] at hstep
      exact Or.inr (Option.some.inj hstep).symm
    | some row =>
      rw [hrow, Option.any_some] at hstep
      split at hstep
      · rename_i hconfirmed
        exact Or.inl ⟨row, rfl, hconfirmed, (Option.some.inj hstep).symm⟩
      · exact Or.inr (Option.some.inj hstep).symm
  · contradiction

/-- A claim hands out the key it read, once. -/
theorem Sealed.claimCleared (h : s.Sealed sha256) (hintact : s.Intact sha256 (.claimCleared id))
    (hstep : s.step sha256 (.claimCleared id) = some s') : s'.Sealed sha256 := by
  obtain ⟨name, code, key, hcall, ⟨row, hrow, hconfirmed, rfl⟩ | rfl⟩ :=
    claimCleared_cases hstep
  · have hreleased := h.calls id name code key hcall
    obtain ⟨hkey, _, _⟩ := hintact name code key hcall row hrow hconfirmed
    have hcleared := (h.update name (f := PairingRow.cleared) fun _ hfalse => by
      simp [PairingRow.cleared] at hfalse).goOn id (.done (.claimed (some key)))
        fun _ _ _ => by simp
    refine ⟨h.drawn, ?_, ?_, ?_, hcleared.calls⟩
    · intro handout hmem
      rcases List.mem_append.mp hmem with hold | hnew
      · exact h.codes handout hold
      · rw [List.mem_singleton.mp hnew]
        exact hreleased
    · obtain ⟨key', _, hkey', _, _, hfresh⟩ := h.rows name row hrow hconfirmed
      obtain rfl : key = key' := Option.some.inj (hkey.symm.trans hkey')
      rw [List.map_append, List.map_singleton, ← List.concat_eq_append, List.nodup_concat]
      exact ⟨hfresh, h.once⟩
    · intro x row' hget hwaits
      obtain ⟨key', code', hkey', hreleased', hhash, hfresh⟩ :=
        hcleared.rows x row' hget hwaits
      refine ⟨key', code', hkey', hreleased', hhash, ?_⟩
      intro hmem
      rw [List.map_append, List.mem_append, List.map_singleton, List.mem_singleton] at hmem
      rcases hmem with hold | heq
      · exact hfresh hold
      · -- the key handed out was released for another worker, whose row is cleared
        subst heq
        have hsame := Option.some.inj (hreleased.symm.trans hreleased')
        have hname : name = x := congrArg Prod.fst hsame
        have hget' : (s.update name PairingRow.cleared).pairings.get? x = some row' := hget
        rw [get?_update, if_pos hname, ← hname, hrow] at hget'
        cases hget'
        contradiction
  · exact h.goOn id _ fun _ _ _ => by simp

theorem confirmCall_ne_clearing (found : Option PairingRow) (name code : String)
    (now : Projects.Clock) (name' code' : String) (key : Key) :
    confirmCall sha256 found name code now ≠ .clearing name' code' key := by
  cases found with
  | none => simp [confirmCall]
  | some row =>
    simp only [confirmCall]
    split
    · simp
    · split <;> simp

theorem manualCall_ne_clearing (found : Option ManualRow) (name codeHash : String)
    (now : Projects.Clock) (name' code' : String) (key : Key) :
    manualCall found name codeHash now ≠ .clearing name' code' key := by
  cases found with
  | none => simp [manualCall]
  | some row =>
    simp only [manualCall]
    split <;> simp

/-- Every confirmed row waits for the code that its key was released for. -/
theorem Sealed.step (h : s.Sealed sha256)
    (hintact : s.Intact sha256 e) (hstep : s.step sha256 e = some s') : s'.Sealed sha256 := by
  cases e with
  | announced name url platform codeHash now =>
    cases hstep
    exact h.upsert name now rfl
  | confirmRead id name code now =>
    simp only [step] at hstep
    split at hstep
    · contradiction
    cases hstep
    exact h.goOn id _ (confirmCall_ne_clearing _ name code now)
  | confirmWritten id now => exact h.confirmWritten hintact hstep
  | claimRead id name code now => exact h.claimRead hintact hstep
  | claimCleared id => exact h.claimCleared hintact hstep
  | attemptCounted id =>
    simp only [step] at hstep
    split at hstep
    · rename_i name reply hcall
      cases hstep
      exact (h.incrementAttempts name).goOn id _ fun _ _ _ => by simp
    · contradiction
  | manualAuthorized url code now =>
    cases hstep
    exact h.mono (Nat.le_succ _) rfl rfl
      (fun _ row' hget hconfirmed => ⟨row', hget, fun _ => ⟨hconfirmed, rfl, rfl⟩⟩)
      fun _ _ _ _ hget => hget
  | manualRead id name code now =>
    simp only [step] at hstep
    split at hstep
    · contradiction
    cases hstep
    exact h.goOn id _ (manualCall_ne_clearing _ name _ now)
  | manualDiscarded id =>
    simp only [step] at hstep
    split at hstep
    · cases hstep
      have hdone := h.goOn id (.done (.manual none)) fun _ _ _ => by simp
      exact ⟨hdone.drawn, hdone.codes, hdone.once, hdone.rows, hdone.calls⟩
    · contradiction
  | manualChecked id =>
    simp only [step] at hstep
    split at hstep
    · split at hstep <;> (cases hstep; exact h.goOn id _ fun _ _ _ => by simp)
    · contradiction
  | manualConsumed id =>
    simp only [step] at hstep
    split at hstep
    · rename_i name codeHash url key hcall
      split at hstep
      · cases hstep
        exact h.goOn id _ fun _ _ _ => by simp
      · cases hstep
        have hstoring := h.goOn id (.storing name url key) fun _ _ _ => by simp
        exact ⟨hstoring.drawn, hstoring.codes, hstoring.once, hstoring.rows, hstoring.calls⟩
    · contradiction
  | manualStored id now =>
    simp only [step] at hstep
    split at hstep
    · rename_i name url key hcall
      cases hstep
      refine (h.upsert name now ?_).goOn id _ fun _ _ _ => by simp
      cases hget : s.pairings.get? name with
      | none => rfl
      | some row => exact hintact name url key hcall row hget
    · contradiction
  | attemptFailed name =>
    cases hstep
    exact h.incrementAttempts name
  | revoked name =>
    simp only [step] at hstep
    split at hstep
    · cases hstep
      have hrow := h.update name (f := fun row => { row with revoked := true })
        fun _ hconfirmed => ⟨hconfirmed, rfl, rfl⟩
      exact ⟨hrow.drawn, hrow.codes, hrow.once, hrow.rows, hrow.calls⟩
    · cases hstep
      exact h
  | blocked name =>
    simp only [step] at hstep
    split at hstep
    · cases hstep
      have hrow := h.update name (f := fun row => { row with revoked := true, blocked := true })
        fun _ hconfirmed => ⟨hconfirmed, rfl, rfl⟩
      exact ⟨hrow.drawn, hrow.codes, hrow.once, hrow.rows, hrow.calls⟩
    · cases hstep
      exact h
  | unblocked name =>
    simp only [step] at hstep
    split at hstep
    · cases hstep
      exact h.update name fun _ hconfirmed => ⟨hconfirmed, rfl, rfl⟩
    · cases hstep
      exact h

theorem sealed_init : init.Sealed sha256 := by
  refine ⟨?_, ?_, List.nodup_nil, ?_, ?_⟩
  · intro key release hget
    contradiction
  · intro handout hmem
    contradiction
  · intro name row hget _
    contradiction
  · intro id name code key hcall
    contradiction

/-- The statements other than the write of a claim hand nothing out. -/
theorem handouts_of_ne (hne : ∀ id, e ≠ .claimCleared id) (hstep : s.step sha256 e = some s') :
    s'.handouts = s.handouts := by
  cases e with
  | claimCleared id => exact absurd rfl (hne id)
  | announced | manualAuthorized | attemptFailed => cases hstep; rfl
  | _ =>
    simp only [step] at hstep
    split at hstep
    all_goals first | contradiction | skip
    all_goals first | (cases hstep; rfl) | (split at hstep <;> (cases hstep; rfl))

/-- The key that a claim hands out authenticates the worker. -/
theorem accepted_of_intact (hintact : s.Intact sha256 e) (hstep : s.step sha256 e = some s')
    {h : Handout}
    (hmore : s'.handouts = s.handouts ++ [h]) : s'.signingKey h.name = some h.key := by
  by_cases hclaim : ∃ id, e = .claimCleared id
  · obtain ⟨id, rfl⟩ := hclaim
    obtain ⟨name, code, key, hcall, ⟨row, hrow, hconfirmed, rfl⟩ | rfl⟩ :=
      claimCleared_cases hstep
    · obtain rfl : ⟨name, code, key⟩ = h :=
        List.singleton_inj.mp (List.append_cancel_left hmore)
      obtain ⟨hkey, hrevoked, hblocked⟩ := hintact name code key hcall row hrow hconfirmed
      refine signingKey_eq_some_iff.mpr ⟨row.cleared, ?_, hkey, hrevoked, hblocked⟩
      have hget : (s.update name PairingRow.cleared).pairings.get? name = some row.cleared := by
        rw [get?_update, if_pos rfl, hrow, Option.map_some]
      exact hget
    · exact absurd hmore (by simp [goOn])
  · have hsame := handouts_of_ne (fun id heq => hclaim ⟨id, heq⟩) hstep
    rw [hsame] at hmore
    exact absurd hmore (by simp)

/-! ## Runs -/

/-- Whatever a claim returns was released to the code it shows, is returned once, and is then
accepted. -/
structure HandsOver (sha256 : String → String) (es : List PairingEvent) : Prop where
  codes : ∀ pre post s, es = pre ++ post → run (step sha256) init pre = some s →
    ∀ h ∈ s.handouts, s.releases.get? h.key = some (h.name, h.code)
  once : ∀ pre post s, es = pre ++ post → run (step sha256) init pre = some s →
    (s.handouts.map Handout.key).Nodup
  accepted : EveryStep (step sha256)
    (fun t _ t' => ∀ h, t'.handouts = t.handouts ++ [h] → t'.signingKey h.name = some h.key)
    init es

/-- Where every write finds the row that was read, keys go to the parties that were confirmed. -/
theorem handsOver_of_intact {es : List PairingEvent}
    (hintact : Guarded (step sha256) (Intact sha256) init es) : HandsOver sha256 es := by
  have hsealed : ∀ pre post s, es = pre ++ post → run (step sha256) init pre = some s →
      s.Sealed sha256 := by
    rintro pre post s rfl hrun
    exact invariant_of_guarded_run (fun _ _ _ h hguard hstep => h.step hguard hstep) sealed_init
      (guarded_of_append hintact) hrun
  refine ⟨?_, ?_, ?_⟩
  · exact fun pre post s heq hrun => (hsealed pre post s heq hrun).codes
  · exact fun pre post s heq hrun => (hsealed pre post s heq hrun).once
  · refine everyStep_of_guarded ?_ hintact
    exact fun s e s' hguard hstep h hmore => accepted_of_intact hguard hstep hmore

/-- A digest without collisions. -/
def digest (code : String) : String := code

/-- A worker announces a code, the code is confirmed, and the worker claims its key. -/
def paired : List PairingEvent :=
  [.announced "w" "http://w" "linux" (digest "123456") 0, .confirmRead 0 "w" "123456" 1,
    .confirmWritten 0 1, .claimRead 1 "w" "123456" 2, .claimCleared 1]

theorem handsOver_paired : HandsOver digest paired := by
  apply handsOver_of_intact
  refine ⟨trivial, trivial, ?_, ?_, ?_, trivial⟩
  · intro name code hcall row hrow
    cases hcall
    cases hrow
    rfl
  · intro row hrow key hkey confirmed hreleased hdigest
    exact hdigest
  · intro name code key hcall row hrow hconfirmed
    cases hcall
    cases hrow
    exact ⟨rfl, rfl, rfl⟩

/-- Another code is announced between the read and the write of the confirmation. -/
def overtaken : List PairingEvent :=
  [.announced "w" "http://w" "linux" (digest "123456") 0, .confirmRead 0 "w" "123456" 1,
    .announced "w" "http://m" "linux" (digest "999999") 1, .confirmWritten 0 1,
    .claimRead 1 "w" "999999" 2, .claimCleared 1]

/-- The announcer that nobody confirmed is given the key. -/
theorem not_handsOver : ¬HandsOver digest overtaken := by
  intro h
  have hcodes := h.codes overtaken [] _ (by simp) rfl ⟨"w", "999999", 0⟩ (by decide)
  exact absurd hcodes (by decide)

end PairingState
end Pairing

end TinyAgentOS.Cluster
