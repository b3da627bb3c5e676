import TinyAgentOS.Projects.Invites

/-!
# The cap on pending invites

A mint counts the pending rows of its scope in one statement and inserts its own in a
later one, and an expiry is recorded only when somebody reads the invite.  So other
mints may insert in between, a rolled back claim is pending again without any count,
and an invite that lapsed unread still takes a place.

Main results:

- `InviteState.liveCount_of_adds`: the two statements that add an unexpired invite.
- `InviteState.liveCount_le_of_adds_eq_none`: no other statement does.
- `TimedInvites.capped_iff`: the runs in which the cap is exact.
- `TimedInvites.not_capped`: eleven pending invites, and ten lapsed ones.
-/

namespace TinyAgentOS.Projects

open Collections Transition

/-! ## Unexpired invites -/

/-- Has the invite not lapsed by this time?  This is the comparison of `get`. -/
def Invite.unexpired (invite : Invite) (now : Clock) : Bool :=
  now ≤ invite.expiresTs

/-- The row that a call is about to insert. -/
def InviteCall.mints : InviteCall → Option Invite
  | .minting row _ => some row
  | _ => none

/-- The invite that a call has claimed. -/
def InviteCall.holds : InviteCall → Option InviteId
  | .holding inviteId => some inviteId
  | _ => none

/-- The reading of the clock that a statement comes with. -/
def InviteEvent.reading : InviteEvent → Option Clock
  | .mintCalled _ _ _ now => some now
  | .getCalled _ _ now => some now
  | .redeemCalled _ _ _ now => some now
  | _ => none

namespace InviteState

/-- The number of pending invites of a scope that have not lapsed. -/
def liveCount (s : InviteState) (scope : Option String) (now : Clock) : Nat :=
  s.invites.count fun invite =>
    (invite.projectId = scope && invite.status = .pending) && invite.unexpired now

/-- The row that a statement makes pending. -/
def adds (s : InviteState) : InviteEvent → Option Invite
  | .mintInserted id inviteId =>
    if (s.invites.get? inviteId).isNone then (s.calls.get? id).bind InviteCall.mints else none
  | .rolledBack id =>
    (((s.calls.get? id).bind InviteCall.holds).bind s.invites.get?).filter
      fun invite => invite.status = .claimed
  | _ => none

/-- Has the call been refused for the cap? -/
def RefusedForCap (s : InviteState) (id : Nat) : Prop :=
  ∃ message, s.calls.get? id = some (.done (some (.pendingCap message)))

/-- Time alone adds no invite. -/
theorem liveCount_antitone (s : InviteState) (scope : Option String) {now later : Clock}
    (h : now ≤ later) : s.liveCount scope later ≤ s.liveCount scope now := by
  apply Dict.count_mono
  intro invite hlive
  simp only [Invite.unexpired, Bool.and_eq_true, decide_eq_true_eq] at hlive ⊢
  exact ⟨hlive.1, le_trans h hlive.2⟩

@[simp]
theorem liveCount_goOn (s : InviteState) (id : Nat) (call : InviteCall) (scope : Option String)
    (now : Clock) : (s.goOn id call).liveCount scope now = s.liveCount scope now :=
  rfl

variable {f : Invite → Invite} {s s' : InviteState} {sha256 : String → String}

/-- An update that makes no invite pending adds none to the count. -/
theorem liveCount_update_le (s : InviteState) (inviteId : InviteId) (expected : List InviteStatus)
    (hf : ∀ v, (f v).status = .pending → f v = v ∨ ∃ n, f v = { v with redeemAttempts := n })
    (scope : Option String) (now : Clock) :
    (s.update inviteId expected f).liveCount scope now ≤ s.liveCount scope now := by
  apply Dict.count_modify_le
  intro v hlive
  by_cases hmem : v.status ∈ expected
  · simp only [hmem, if_true, Bool.and_eq_true, decide_eq_true_eq] at hlive ⊢
    rcases hf v hlive.1.2 with heq | ⟨n, heq⟩
    · rwa [heq] at hlive
    · rw [heq] at hlive
      exact hlive
  · simpa only [hmem, if_false] using hlive

/-- An update to another status makes no invite pending. -/
theorem liveCount_update_le_of_status (s : InviteState) (inviteId : InviteId)
    (expected : List InviteStatus) (hf : ∀ v, (f v).status ≠ .pending)
    (scope : Option String) (now : Clock) :
    (s.update inviteId expected f).liveCount scope now ≤ s.liveCount scope now :=
  liveCount_update_le s inviteId expected (fun v hpending => absurd hpending (hf v)) scope now

/-- An update that finds no row adds none. -/
theorem liveCount_update_of_unmatched {inviteId : InviteId}
    {expected : List InviteStatus} (f : Invite → Invite)
    (hnone : s.matchesRow inviteId expected = false) (scope : Option String) (now : Clock) :
    (s.update inviteId expected f).liveCount scope now = s.liveCount scope now := by
  unfold update liveCount
  cases hget : s.invites.get? inviteId with
  | none => simp [Dict.modify, hget]
  | some v =>
    have hmem : v.status ∉ expected := by
      simpa [matchesRow, status, hget] using hnone
    simp only [Dict.modify_of_get? hget, hmem, if_false]
    have hcount := Dict.count_set_of_get?
      (fun v => (v.projectId = scope && v.status = .pending) && v.unexpired now) v hget
    omega

theorem liveCount_redeem_le (s : InviteState) (inviteId : InviteId)
    (expected : List InviteStatus) (hf : ∀ v, (f v).status ≠ .pending)
    (scope : Option String) (now : Clock) :
    (s.redeem inviteId expected f).liveCount scope now ≤ s.liveCount scope now := by
  unfold redeem
  split
  · exact liveCount_update_le_of_status s inviteId expected hf scope now
  · exact le_rfl

/-! ## What a statement adds -/

/-- An insertion, or a rolled back claim, counts its row if that has not lapsed. -/
theorem liveCount_of_adds {e : InviteEvent}
    {row : Invite} (hstep : s.step sha256 e = some s') (hadds : s.adds e = some row)
    (scope : Option String) (now : Clock) :
    s'.liveCount scope now =
      s.liveCount scope now + if row.projectId = scope ∧ now ≤ row.expiresTs then 1 else 0 := by
  cases e with
  | mintInserted id inviteId =>
    simp only [adds] at hadds
    split at hadds
    · rename_i hfresh
      obtain ⟨call, hcall, hmints⟩ := Option.bind_eq_some_iff.mp hadds
      cases call with
      | minting row' attempt =>
        cases hmints
        simp only [step, hcall, hfresh, if_true, Option.some.injEq] at hstep
        subst hstep
        have hcount := Dict.count_set_new
          (fun v => (v.projectId = scope && v.status = .pending) && v.unexpired now)
          { row with status := .pending } (Option.isNone_iff_eq_none.mp hfresh)
        simpa [liveCount, Invite.unexpired] using hcount
      | _ => contradiction
    · contradiction
  | rolledBack id =>
    obtain ⟨hread, hclaimed⟩ := Option.filter_eq_some_iff.mp hadds
    obtain ⟨inviteId, hholds, hget⟩ := Option.bind_eq_some_iff.mp hread
    obtain ⟨call, hcall, hholding⟩ := Option.bind_eq_some_iff.mp hholds
    cases call with
    | holding inviteId' =>
      cases hholding
      have hstatus : row.status = .claimed := by simpa using hclaimed
      simp only [step, hcall, Option.some.injEq] at hstep
      subst hstep
      rw [liveCount_goOn]
      unfold update liveCount
      simp only [Dict.modify_of_get? hget]
      have hcount := Dict.count_set_of_get?
        (fun v => (v.projectId = scope && v.status = .pending) && v.unexpired now)
        { row with status := .pending } hget
      simpa [hstatus, Invite.unexpired] using hcount
    | _ => contradiction
  | _ => contradiction

/-- No other statement adds an invite. -/
theorem liveCount_le_of_adds_eq_none {e : InviteEvent} (hstep : s.step sha256 e = some s')
    (hadds : s.adds e = none)
    (scope : Option String) (now : Clock) : s'.liveCount scope now ≤ s.liveCount scope now := by
  cases e with
  | mintCalled | getCalled | redeemCalled =>
    simp only [step] at hstep
    split at hstep
    · contradiction
    · split at hstep <;> (cases hstep; exact le_rfl)
  | mintInserted id inviteId =>
    simp only [step] at hstep
    split at hstep
    · rename_i row attempt hcall
      split at hstep
      · rename_i hfresh
        simp [adds, hfresh, hcall, InviteCall.mints] at hadds
      · split at hstep <;> (cases hstep; exact le_rfl)
    · contradiction
  | lapsed id =>
    simp only [step] at hstep
    split at hstep
    · cases hstep
      rw [liveCount_goOn]
      exact liveCount_update_le_of_status _ _ _ (fun v => by simp) scope now
    · contradiction
  | counted id =>
    simp only [step] at hstep
    split at hstep
    · cases hstep
      rw [liveCount_goOn]
      exact liveCount_update_le _ _ _ (fun v _ => Or.inr ⟨_, rfl⟩) scope now
    · contradiction
  | claimTried id =>
    simp only [step] at hstep
    split at hstep
    · split at hstep
      · cases hstep
        rw [liveCount_goOn]
        exact liveCount_update_le_of_status _ _ _ (fun v => by simp) scope now
      · cases hstep
        exact le_rfl
    · contradiction
  | markedRedeemed id redeemedBy requestId =>
    simp only [step] at hstep
    split at hstep
    · cases hstep
      rw [liveCount_goOn]
      exact liveCount_redeem_le _ _ _ (fun v => by simp) scope now
    · contradiction
  | rolledBack id =>
    simp only [step] at hstep
    split at hstep
    · rename_i inviteId hcall
      cases hstep
      rw [liveCount_goOn]
      have hnone : s.matchesRow inviteId [.claimed] = false := by
        simp only [adds, hcall, Option.bind_some, InviteCall.holds,
          Option.filter_eq_none_iff] at hadds
        cases hget : s.invites.get? inviteId with
        | none => simp [matchesRow, status, hget]
        | some v =>
          have hstatus := hadds v hget
          simpa [matchesRow, status, hget] using hstatus
      exact (liveCount_update_of_unmatched _ hnone scope now).le
    · contradiction
  | revokeCalled | markExpired =>
    cases hstep
    exact liveCount_update_le_of_status _ _ _ (fun v => by simp) scope now
  | markAccepted inviteId acceptedBy =>
    cases hstep
    exact liveCount_redeem_le _ _ _ (fun v => by simp) scope now

/-- `mint` refuses for the cap when it counts that many, expired or not. -/
theorem mintRow_pendingCap_iff (sha256 : String → String) (args : MintArgs) (count : Nat)
    (pin : String) (now : Clock) :
    (∃ message, mintRow sha256 args count pin now = .error (.pendingCap message)) ↔
      ¬(args.kind = .collab ∧ args.scopes ≠ []) ∧ pendingCap ≤ count := by
  unfold mintRow
  by_cases hcollab : args.kind = .collab ∧ args.scopes ≠ []
  · simp [hcollab]
  · by_cases hcap : pendingCap ≤ count
    · simp [hcollab, hcap]
    · rw [if_neg hcollab, if_neg hcap]
      split <;> simp [hcap]

theorem refusedForCap_iff {id : Nat} {args : MintArgs} {pin : String} {now : Clock}
    (hstep : s.step sha256 (.mintCalled id args pin now) = some s') :
    s'.RefusedForCap id ↔
      ¬(args.kind = .collab ∧ args.scopes ≠ []) ∧ pendingCap ≤ s.pendingCount args.projectId := by
  rw [← mintRow_pendingCap_iff sha256 args (s.pendingCount args.projectId) pin now]
  simp only [step] at hstep
  split at hstep
  · contradiction
  split at hstep
  · rename_i error hrow
    cases hstep
    simp [RefusedForCap, goOn, hrow]
  · rename_i row hrow
    cases hstep
    simp [RefusedForCap, goOn, hrow]

end InviteState

/-! ## Time -/

/-- The store at a time. -/
structure TimedInvites where
  now : Clock
  store : InviteState

/-- A statement and the time it is executed at. -/
structure TimedEvent where
  stamp : Clock
  event : InviteEvent

namespace TimedInvites

/-- Time does not run back, and a call reads the clock when it runs. -/
def OnTime (w : TimedInvites) (e : TimedEvent) : Prop :=
  w.now ≤ e.stamp ∧ ∀ reading ∈ e.event.reading, reading = e.stamp

instance (w : TimedInvites) (e : TimedEvent) : Decidable (w.OnTime e) := by
  unfold OnTime
  infer_instance

/-- One statement at its time. -/
def step (sha256 : String → String) (w : TimedInvites) (e : TimedEvent) : Option TimedInvites :=
  if w.OnTime e then
    (w.store.step sha256 e.event).map fun s => ⟨e.stamp, s⟩
  else none

/-- No scope has more unexpired pending invites than the cap, now or later. -/
def WithinCap (w : TimedInvites) : Prop :=
  ∀ now ≥ w.now, ∀ scope, w.store.liveCount scope now ≤ pendingCap

/-- A mint that is refused for the cap finds that many unexpired invites. -/
def RefusesRightly (w : TimedInvites) (e : TimedEvent) (w' : TimedInvites) : Prop :=
  ∀ id args pin now, e.event = .mintCalled id args pin now → w'.store.RefusedForCap id →
    pendingCap ≤ w.store.liveCount args.projectId now

/-- What a run is to do: within the cap in every state, refusing for it only when it is met. -/
def Capped (sha256 : String → String) (start : Clock) (es : List TimedEvent) : Prop :=
  (∀ pre post w, es = pre ++ post → run (step sha256) ⟨start, InviteState.init⟩ pre = some w →
    w.WithinCap) ∧
  ∀ pre e post w w', es = pre ++ e :: post →
    run (step sha256) ⟨start, InviteState.init⟩ pre = some w → step sha256 w e = some w' →
    w.RefusesRightly e w'

/-- A row that is added unexpired finds room at that time, and a count that meets the cap has
not counted expired rows to do so. -/
def Counts (s : InviteState) (stamp : Clock) (e : InviteEvent) : Prop :=
  (∀ row ∈ s.adds e, stamp ≤ row.expiresTs → s.liveCount row.projectId stamp < pendingCap) ∧
  ∀ id args pin now, e = .mintCalled id args pin now → s.calls.get? id = none →
    ¬(args.kind = .collab ∧ args.scopes ≠ []) → pendingCap ≤ s.pendingCount args.projectId →
    pendingCap ≤ s.liveCount args.projectId now

/-- The guard on a statement at its time. -/
def CountsOnTime (w : TimedInvites) (e : TimedEvent) : Prop :=
  w.OnTime e → Counts w.store e.stamp e.event

variable {sha256 : String → String} {w w' : TimedInvites} {e : TimedEvent}

theorem step_eq_some_iff : w.step sha256 e = some w' ↔
      w.OnTime e ∧ ∃ s, w.store.step sha256 e.event = some s ∧ w' = ⟨e.stamp, s⟩ := by
  unfold step
  by_cases htime : w.OnTime e
  · simp only [htime, if_true, Option.map_eq_some_iff, true_and]
    constructor
    · rintro ⟨s, hs, rfl⟩
      exact ⟨s, hs, rfl⟩
    · rintro ⟨s, hs, rfl⟩
      exact ⟨s, hs, rfl⟩
  · simp [htime]

/-- Nothing is asked of a statement that cannot be executed. -/
theorem countsOnTime_of_none (hstep : w.step sha256 e = none) : w.CountsOnTime e := by
  intro htime
  have hnone : w.store.step sha256 e.event = none := by
    simpa [step, htime] using hstep
  constructor
  · intro row hadds
    rw [Option.mem_def] at hadds
    cases he : e.event with
    | mintInserted id inviteId =>
      rw [he] at hnone hadds
      simp only [InviteState.adds] at hadds
      split at hadds
      · rename_i hfresh
        obtain ⟨call, hcall, hmints⟩ := Option.bind_eq_some_iff.mp hadds
        cases call with
        | minting row' attempt => simp [InviteState.step, hcall, hfresh] at hnone
        | _ => contradiction
      · contradiction
    | rolledBack id =>
      rw [he] at hnone hadds
      obtain ⟨hread, _⟩ := Option.filter_eq_some_iff.mp hadds
      obtain ⟨inviteId, hholds, _⟩ := Option.bind_eq_some_iff.mp hread
      obtain ⟨call, hcall, hholding⟩ := Option.bind_eq_some_iff.mp hholds
      cases call with
      | holding inviteId' => simp [InviteState.step, hcall] at hnone
      | _ => contradiction
    | _ =>
      rw [he] at hadds
      contradiction
  · intro id args pin now he hnew
    rw [he] at hnone
    simp only [InviteState.step, hnew, Option.isSome_none, Bool.false_eq_true, if_false] at hnone
    split at hnone <;> contradiction

/-- A row added with room left keeps the scope within the cap. -/
theorem WithinCap.step (h : w.WithinCap) (hguard : w.CountsOnTime e)
    (hstep : w.step sha256 e = some w') : w'.WithinCap := by
  obtain ⟨htime, s, hs, rfl⟩ := step_eq_some_iff.mp hstep
  intro now hnow scope
  have hbefore : w.store.liveCount scope now ≤ pendingCap := h now (le_trans htime.1 hnow) scope
  cases hadds : w.store.adds e.event with
  | none =>
    have hle := InviteState.liveCount_le_of_adds_eq_none hs hadds scope now
    exact le_trans hle hbefore
  | some row =>
    show s.liveCount scope now ≤ pendingCap
    rw [InviteState.liveCount_of_adds hs hadds scope now]
    split
    · rename_i hrow
      have hroom := (hguard htime).1 row hadds (le_trans hnow hrow.2)
      have hlater : w.store.liveCount row.projectId now ≤
          w.store.liveCount row.projectId e.stamp :=
        w.store.liveCount_antitone row.projectId hnow
      rw [← hrow.1]
      omega
    · exact hbefore

/-- The guard says exactly which statements are good. -/
theorem good_step_iff (h : w.WithinCap) (hstep : w.step sha256 e = some w') :
    w'.WithinCap ∧ w.RefusesRightly e w' ↔ w.CountsOnTime e := by
  constructor
  · rintro ⟨hcap, hrefuse⟩ htime
    obtain ⟨_, s, hs, rfl⟩ := step_eq_some_iff.mp hstep
    constructor
    · intro row hadds hlive
      have hafter := hcap e.stamp le_rfl row.projectId
      have hcount := InviteState.liveCount_of_adds hs hadds row.projectId e.stamp
      rw [if_pos ⟨rfl, hlive⟩] at hcount
      simp only at hafter
      omega
    · intro id args pin now he hnew hscopes hcount
      apply hrefuse id args pin now he
      rw [he] at hs
      exact (InviteState.refusedForCap_iff hs).mpr ⟨hscopes, hcount⟩
  · intro hguard
    refine ⟨h.step hguard hstep, ?_⟩
    obtain ⟨htime, s, hs, rfl⟩ := step_eq_some_iff.mp hstep
    intro id args pin now he hrefused
    rw [he] at hs
    obtain ⟨hscopes, hcount⟩ := (InviteState.refusedForCap_iff hs).mp hrefused
    have hnew : w.store.calls.get? id = none := by
      cases hget : w.store.calls.get? id with
      | none => rfl
      | some call => simp [InviteState.step, hget] at hs
    exact (hguard htime).2 id args pin now he hnew hscopes hcount

/-- The cap is exact in the runs whose insertions and roll backs find room, and whose counts do
not meet the cap with the help of expired rows. -/
theorem capped_iff (sha256 : String → String) (start : Clock) (es : List TimedEvent) :
    Capped sha256 start es ↔
      Guarded (step sha256) CountsOnTime ⟨start, InviteState.init⟩ es := by
  have hinit : WithinCap ⟨start, InviteState.init⟩ := fun _ _ _ => Nat.zero_le _
  have hsteps : EveryStep (step sha256) (fun w e w' => w'.WithinCap ∧ w.RefusesRightly e w')
      ⟨start, InviteState.init⟩ es ↔
      Guarded (step sha256) CountsOnTime ⟨start, InviteState.init⟩ es := by
    apply everyStep_iff_guarded (I := WithinCap)
    · exact fun _ _ hstep => countsOnTime_of_none hstep
    · exact fun _ _ _ h hguard hstep => h.step hguard hstep
    · exact fun _ _ _ h hstep => good_step_iff h hstep
    · exact hinit
  unfold Capped
  rw [states_iff_everyStep hinit, ← hsteps, everyStep_and]
  rfl

/-- The ids of eleven invites. -/
def elevenIds : List (Nat × InviteId) :=
  [(0, "a"), (1, "b"), (2, "c"), (3, "d"), (4, "e"), (5, "f"), (6, "g"), (7, "h"), (8, "i"),
    (9, "j"), (10, "k")]

/-- A call that mints an invite for a project. -/
def mintAt (id : Nat) (now : Clock) : TimedEvent :=
  ⟨now, .mintCalled id
    ⟨some "prj", [], "auto", 1800, "lead", none, .agent, true, none, none⟩ "pin" now⟩

/-- Eleven calls count the invites of the project before any of them inserts its own. -/
def mintedTogether : List TimedEvent :=
  (elevenIds.map fun p => mintAt p.1 0) ++
    elevenIds.map fun p => ⟨0, .mintInserted p.1 p.2⟩

/-- Ten calls mint one after the other, and nobody reads the invites for an hour. -/
def mintedAndForgotten : List TimedEvent :=
  (elevenIds.take 10).flatMap fun p => [mintAt p.1 0, ⟨0, .mintInserted p.1 p.2⟩]

/-- The project gets an eleventh pending invite, and is refused one while it has none. -/
theorem not_capped :
    ¬Capped id 0 mintedTogether ∧ ¬Capped id 0 (mintedAndForgotten ++ [mintAt 10 3601]) := by
  constructor
  · rintro ⟨hcap, _⟩
    have hcount := hcap mintedTogether [] _ rfl rfl 0 (by decide) (some "prj")
    exact absurd hcount (by decide)
  · rintro ⟨_, hrefuse⟩
    have hcount := hrefuse mintedAndForgotten (mintAt 10 3601) [] _ _ rfl rfl rfl 10 _ _ _ rfl
      ⟨_, rfl⟩
    exact absurd hcount (by decide)

end TimedInvites

end TinyAgentOS.Projects
