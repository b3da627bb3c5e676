import TinyAgentOS.Projects.Invites

/-!
# Guessing an invite's PIN

A wrong PIN is compared in the step that reads the row, and counted by a later
statement; the limit is tested on the count that was read.  Callers that read
before the others count are all let through to the comparison.

Main results:

- `InviteState.Tally.step`: every wrong PIN is on the row or about to be counted.
- `InviteState.everyStep_bounded_iff`: the runs that bound the guesses.
- `InviteState.sixth_guess`: six callers read the row before one counts.
-/

namespace TinyAgentOS.Projects

open Collections Transition

/-! ## Comparisons -/

/-- Does `redeem` get as far as comparing the PIN with this row's? -/
def Invite.Comparable (invite : Invite) (now : Clock) : Prop :=
  invite.status ≠ .revoked ∧ invite.status ≠ .redeemed ∧ now ≤ invite.expiresTs ∧
    invite.redeemAttempts < maxAttempts

instance (invite : Invite) (now : Clock) : Decidable (invite.Comparable now) :=
  inferInstanceAs (Decidable (_ ∧ _ ∧ _ ∧ _))

/-- Did the comparison decide? -/
def Verdict.compared : Verdict → Bool
  | .wrongPin _ => true
  | .rightPin => true
  | _ => false

theorem compared_verdict_iff {sha256 : String → String} {row : Option Invite} {pin : String}
    {now : Clock} :
    (verdict sha256 row pin now).compared = true ↔ ∃ invite ∈ row, invite.Comparable now := by
  cases row with
  | none => simp [verdict, Verdict.compared]
  | some invite =>
    simp only [verdict, Option.mem_some_iff, exists_eq_left', Invite.Comparable]
    by_cases hrevoked : invite.status = .revoked
    · simp [hrevoked, Verdict.compared]
    by_cases hredeemed : invite.status = .redeemed
    · simp [hredeemed, Verdict.compared]
    by_cases hexpired : invite.expiresTs < now
    · simp [hrevoked, hredeemed, hexpired, Verdict.compared]
    by_cases hattempts : maxAttempts ≤ invite.redeemAttempts
    · simp [hrevoked, hredeemed, hexpired, hattempts, Verdict.compared]
    · have htime : now ≤ invite.expiresTs := not_lt.mp hexpired
      have hfew : invite.redeemAttempts < maxAttempts := not_le.mp hattempts
      by_cases hpin : sha256 pin = invite.pinHash <;>
        simp [hrevoked, hredeemed, hexpired, hattempts, hpin, htime, hfew, Verdict.compared]

/-- The invite whose wrong PIN a call is about to count. -/
def InviteCall.counts : InviteCall → Option InviteId
  | .counting inviteId _ => some inviteId
  | _ => none

namespace InviteState

/-- The wrong PINs counted on an invite's row. -/
def attempts (s : InviteState) (inviteId : InviteId) : Nat :=
  ((s.invites.get? inviteId).map Invite.redeemAttempts).getD 0

/-- The wrong PINs that calls have compared and not counted yet. -/
def uncounted (s : InviteState) (inviteId : InviteId) : Nat :=
  s.calls.count fun call => call.counts = some inviteId

/-! ## The tally -/

/-- What a call carries: a fresh row, or an invite that exists. -/
def CallSound (s : InviteState) : InviteCall → Prop
  | .minting row _ => row.redeemAttempts = 0
  | .counting inviteId _ => (s.invites.get? inviteId).isSome = true
  | _ => True

/-- Every wrong PIN compared is on the row, or in the call that is to count it. -/
structure Tally (s : InviteState) : Prop where
  calls : ∀ id call, s.calls.get? id = some call → CallSound s call
  total : ∀ x, s.wrongPins.count x = s.attempts x + s.uncounted x

section Tallies

variable {s : InviteState}

theorem tally_init : Tally init := by
  constructor
  · intro id call hcall
    contradiction
  · intro x
    rfl

/-- No row goes away, and none is made but by `mint`. -/
theorem isSome_update (inviteId : InviteId) (expected : List InviteStatus) (f : Invite → Invite)
    (x : InviteId) :
    ((s.update inviteId expected f).invites.get? x).isSome = (s.invites.get? x).isSome := by
  simp only [update, Dict.get?_modify]
  split <;> simp

variable {f : Invite → Invite} {call : InviteCall} {inviteId : InviteId} {id : Nat}

theorem attempts_update (inviteId : InviteId) (expected : List InviteStatus)
    (hf : ∀ v, (f v).redeemAttempts = v.redeemAttempts) (x : InviteId) :
    (s.update inviteId expected f).attempts x = s.attempts x := by
  simp only [attempts, update, Dict.get?_modify]
  split
  · rw [Option.map_map]
    congr 2
    funext v
    simp only [Function.comp]
    split
    · exact hf v
    · rfl
  · rfl

theorem CallSound.of_isSome {t : InviteState} (h : CallSound s call)
    (hrows : ∀ x, (s.invites.get? x).isSome = true → (t.invites.get? x).isSome = true) :
    CallSound t call := by
  cases call with
  | counting x n => exact hrows x h
  | minting row attempt => exact h
  | _ => trivial

/-- An update that leaves the attempts alone. -/
theorem Tally.update (h : Tally s) (inviteId : InviteId) (expected : List InviteStatus)
    (hf : ∀ v, (f v).redeemAttempts = v.redeemAttempts) : Tally (s.update inviteId expected f) := by
  constructor
  · intro id call hcall
    apply (h.calls id call hcall).of_isSome
    intro x hx
    rwa [isSome_update]
  · intro x
    rw [attempts_update inviteId expected hf]
    exact h.total x

theorem Tally.redeem (h : Tally s) (inviteId : InviteId) (expected : List InviteStatus)
    (hf : ∀ v, (f v).redeemAttempts = v.redeemAttempts) : Tally (s.redeem inviteId expected f) := by
  have hupdate := h.update inviteId expected hf
  unfold InviteState.redeem
  split
  · exact ⟨hupdate.calls, hupdate.total⟩
  · exact h

/-- A fresh row has no attempts. -/
theorem Tally.insert (h : Tally s) (row : Invite)
    (hfresh : s.invites.get? inviteId = none) (hrow : row.redeemAttempts = 0) :
    Tally { s with invites := s.invites.set inviteId row } := by
  constructor
  · intro id call hcall
    apply (h.calls id call hcall).of_isSome
    intro x hx
    by_cases hxi : inviteId = x
    · simp [hxi]
    · simpa [Dict.get?_set_of_ne _ _ hxi] using hx
  · intro x
    have hattempts : attempts { s with invites := s.invites.set inviteId row } x =
        s.attempts x := by
      by_cases hxi : inviteId = x
      · subst hxi
        simp [attempts, hfresh, hrow]
      · simp [attempts, Dict.get?_set_of_ne _ _ hxi]
    rw [hattempts]
    exact h.total x

/-- A call goes on without counting. -/
theorem Tally.goOn (h : Tally s) (id : Nat) (hcall : CallSound s call)
    (hcount : ∀ x, (s.goOn id call).uncounted x = s.uncounted x) : Tally (s.goOn id call) := by
  constructor
  · intro id' call' hget
    rcases Dict.get?_set_cases hget with ⟨_, rfl⟩ | ⟨_, hget⟩
    · exact hcall
    · exact h.calls id' call' hget
  · intro x
    rw [hcount x]
    exact h.total x

theorem uncounted_goOn {old : InviteCall} (hold : s.calls.get? id = some old)
    (call : InviteCall) (x : InviteId) :
    (s.goOn id call).uncounted x + (if old.counts = some x then 1 else 0) =
      s.uncounted x + if call.counts = some x then 1 else 0 := by
  have hcount := Dict.count_set_of_get? (fun c => decide (InviteCall.counts c = some x)) call hold
  simpa [uncounted, InviteState.goOn] using hcount

theorem uncounted_goOn_new (hnew : s.calls.get? id = none) (call : InviteCall) (x : InviteId) :
    (s.goOn id call).uncounted x = s.uncounted x + if call.counts = some x then 1 else 0 := by
  unfold uncounted InviteState.goOn
  rw [Dict.count_set_new _ _ hnew]
  simp

/-- A call that had nothing to count goes on to a statement that counts nothing. -/
theorem Tally.goOn_of_none (h : Tally s) {old : InviteCall} (call : InviteCall)
    (hold : s.calls.get? id = some old) (hcounts : old.counts = none)
    (hcounts' : call.counts = none) (hcall : CallSound s call) : Tally (s.goOn id call) := by
  apply h.goOn id hcall
  intro x
  simpa [hcounts, hcounts'] using uncounted_goOn hold call x

/-- A call starts with a statement that counts nothing. -/
theorem Tally.start (h : Tally s)
    (hnew : ¬(s.calls.get? id).isSome = true) (hcounts : call.counts = none)
    (hcall : CallSound s call) : Tally (s.goOn id call) := by
  apply h.goOn id hcall
  intro x
  simpa [hcounts] using uncounted_goOn_new (by simpa using hnew) call x

/-- A wrong PIN is compared, by a call that is to count it. -/
theorem Tally.compare (h : Tally s) {n : Nat}
    (hnew : ¬(s.calls.get? id).isSome = true) (hrow : (s.invites.get? inviteId).isSome = true) :
    Tally
      { s.goOn id (.counting inviteId n) with wrongPins := inviteId :: s.wrongPins } := by
  constructor
  · intro id' call' hget
    rcases Dict.get?_set_cases hget with ⟨_, rfl⟩ | ⟨_, hget⟩
    · exact hrow
    · exact h.calls id' call' hget
  · intro x
    have huncounted := uncounted_goOn_new (by simpa using hnew) (.counting inviteId n) x
    have htotal := h.total x
    simp only [InviteCall.counts, Option.some.injEq] at huncounted
    show (inviteId :: s.wrongPins).count x = s.attempts x +
      (s.goOn id (.counting inviteId n)).uncounted x
    rw [huncounted, List.count_cons, htotal]
    simp only [beq_iff_eq]
    omega

/-- A wrong PIN is counted. -/
theorem Tally.count (h : Tally s) {n : Nat}
    (hold : s.calls.get? id = some (.counting inviteId n)) (hcounts : call.counts = none)
    (hcall : ∀ t, CallSound t call) :
    Tally ((s.update inviteId anyStatus fun v =>
      { v with redeemAttempts := v.redeemAttempts + 1 }).goOn id call) := by
  constructor
  · intro id' call' hget
    rcases Dict.get?_set_cases hget with ⟨_, rfl⟩ | ⟨_, hget⟩
    · exact hcall _
    · apply (h.calls id' call' hget).of_isSome
      intro x hx
      exact (isSome_update inviteId anyStatus _ x).trans hx
  · intro x
    have huncounted := uncounted_goOn hold call x
    have htotal := h.total x
    have hattempts : attempts (s.update inviteId anyStatus fun v =>
        { v with redeemAttempts := v.redeemAttempts + 1 }) x =
        s.attempts x + if inviteId = x then 1 else 0 := by
      by_cases hx : inviteId = x
      · subst hx
        obtain ⟨v, hv⟩ := Option.isSome_iff_exists.mp (h.calls id _ hold)
        cases hstatus : v.status <;>
          simp [attempts, InviteState.update, Dict.get?_modify, hv, anyStatus, hstatus]
      · simp [attempts, InviteState.update, Dict.get?_modify, hx]
    have hold_counts : (InviteCall.counting inviteId n).counts = some inviteId := rfl
    simp only [hold_counts, hcounts, Option.some.injEq, reduceCtorEq, if_false, Nat.add_zero]
      at huncounted
    show s.wrongPins.count x = attempts (s.update inviteId anyStatus fun v =>
      { v with redeemAttempts := v.redeemAttempts + 1 }) x + (s.goOn id call).uncounted x
    rw [hattempts, htotal, ← huncounted]
    omega

end Tallies

/-! ## Steps -/

variable {pin : String} {sha256 : String → String} {now : Clock} {e : InviteEvent}

theorem redeemAttempts_of_mintRow {args : MintArgs} {n : Nat} {row : Invite}
    (hrow : mintRow sha256 args n pin now = .ok row) : row.redeemAttempts = 0 := by
  unfold mintRow at hrow
  split at hrow
  · contradiction
  split at hrow
  · contradiction
  split at hrow
  · contradiction
  cases hrow
  rfl

theorem isSome_of_wrongPin {row : Option Invite} {n : Nat}
    (h : verdict sha256 row pin now = .wrongPin n) : row.isSome = true := by
  cases row with
  | none => contradiction
  | some invite => rfl

/-- Every statement keeps the tally. -/
theorem Tally.step {s s' : InviteState}
    (h : Tally s) (hstep : s.step sha256 e = some s') : Tally s' := by
  cases e with
  | mintCalled id args pin now =>
    simp only [step] at hstep
    split at hstep
    · contradiction
    rename_i hnew
    split at hstep
    · cases hstep
      exact h.start hnew rfl trivial
    · rename_i row hrow
      cases hstep
      exact h.start hnew rfl (redeemAttempts_of_mintRow hrow)
  | mintInserted id inviteId =>
    simp only [step] at hstep
    split at hstep
    · rename_i row attempt hcall
      have hrow : row.redeemAttempts = 0 := h.calls id _ hcall
      split at hstep
      · rename_i hfresh
        cases hstep
        have hinsert := h.insert { row with status := .pending }
          (Option.isNone_iff_eq_none.mp hfresh) hrow
        exact hinsert.goOn_of_none (.done none) hcall rfl rfl trivial
      · split at hstep
        · cases hstep
          exact h.goOn_of_none _ hcall rfl rfl trivial
        · cases hstep
          exact h.goOn_of_none _ hcall rfl rfl hrow
    · contradiction
  | getCalled id inviteId now =>
    simp only [step] at hstep
    split at hstep
    · contradiction
    rename_i hnew
    split at hstep
    · cases hstep
      exact h.start hnew rfl trivial
    · cases hstep
      exact h.start hnew rfl trivial
  | redeemCalled id inviteId pin now =>
    simp only [step] at hstep
    split at hstep
    · contradiction
    rename_i hnew
    split at hstep
    · cases hstep
      exact h.start hnew rfl trivial
    · cases hstep
      exact h.start hnew rfl trivial
    · rename_i n hwrong
      cases hstep
      exact h.compare hnew (isSome_of_wrongPin hwrong)
    · cases hstep
      exact h.start hnew rfl trivial
  | lapsed id =>
    simp only [step] at hstep
    split at hstep
    · rename_i inviteId error hcall
      cases hstep
      have hupdate := h.update inviteId anyStatus (f := fun v => { v with status := .expired })
        fun _ => rfl
      exact hupdate.goOn_of_none (.done error) hcall rfl rfl trivial
    · contradiction
  | counted id =>
    simp only [step] at hstep
    split at hstep
    · rename_i inviteId n hcall
      cases hstep
      apply h.count hcall
      · split <;> rfl
      · intro t
        split <;> trivial
    · contradiction
  | claimTried id =>
    simp only [step] at hstep
    split at hstep
    · rename_i inviteId hcall
      split at hstep
      · cases hstep
        have hupdate := h.update inviteId [.pending]
          (f := fun v => { v with status := .claimed }) fun _ => rfl
        exact hupdate.goOn_of_none (.holding inviteId) hcall rfl rfl trivial
      · cases hstep
        exact h.goOn_of_none _ hcall rfl rfl trivial
    · contradiction
  | markedRedeemed id redeemedBy requestId =>
    simp only [step] at hstep
    split at hstep
    · rename_i inviteId hcall
      cases hstep
      have hredeem := h.redeem inviteId [.claimed]
        (f := fun v =>
          { v with
            redeemedBy := some redeemedBy
            redeemedRequestId := some requestId
            status := .redeemed })
        fun _ => rfl
      have hheld : ∀ f, (s.redeem inviteId [.claimed] f).calls.get? id =
          some (.holding inviteId) := by
        intro f
        unfold InviteState.redeem
        split <;> exact hcall
      exact hredeem.goOn_of_none (.done none) (hheld _) rfl rfl trivial
    · contradiction
  | rolledBack id =>
    simp only [step] at hstep
    split at hstep
    · rename_i inviteId hcall
      cases hstep
      have hupdate := h.update inviteId [.claimed] (f := fun v => { v with status := .pending })
        fun _ => rfl
      exact hupdate.goOn_of_none (.done none) hcall rfl rfl trivial
    · contradiction
  | revokeCalled inviteId =>
    cases hstep
    exact h.update inviteId [.pending, .expired] fun _ => rfl
  | markAccepted inviteId acceptedBy =>
    cases hstep
    exact h.redeem inviteId [.pending, .claimed] fun _ => rfl
  | markExpired inviteId =>
    cases hstep
    exact h.update inviteId [.pending] fun _ => rfl

/-- The only wrong PIN that a statement adds is the one it compares. -/
theorem wrongPins_step {s s' : InviteState} (hstep : s.step sha256 e = some s') :
    s'.wrongPins = s.wrongPins ∨
      ∃ id x pin now, e = .redeemCalled id x pin now ∧
        (verdict sha256 (s.invites.get? x) pin now).compared = true ∧
        s'.wrongPins = x :: s.wrongPins := by
  have hredeem : ∀ x expected f, (s.redeem x expected f).wrongPins = s.wrongPins := by
    intro x expected f
    unfold redeem
    split <;> rfl
  cases e with
  | redeemCalled id x pin now =>
    simp only [step] at hstep
    split at hstep
    · contradiction
    split at hstep
    · cases hstep
      exact Or.inl rfl
    · cases hstep
      exact Or.inl rfl
    · rename_i n hwrong
      cases hstep
      exact Or.inr ⟨id, x, pin, now, rfl, by rw [hwrong]; rfl, rfl⟩
    · cases hstep
      exact Or.inl rfl
  | revokeCalled | markExpired =>
    cases hstep
    exact Or.inl rfl
  | markAccepted x acceptedBy =>
    cases hstep
    exact Or.inl (hredeem _ _ _)
  | markedRedeemed id redeemedBy requestId =>
    simp only [step] at hstep
    split at hstep
    · cases hstep
      exact Or.inl (hredeem _ _ _)
    · contradiction
  | mintInserted id x =>
    simp only [step] at hstep
    split at hstep
    · split at hstep
      · cases hstep
        exact Or.inl rfl
      · split at hstep <;> cases hstep <;> exact Or.inl rfl
    · contradiction
  | claimTried id =>
    simp only [step] at hstep
    split at hstep
    · split at hstep <;> cases hstep <;> exact Or.inl rfl
    · contradiction
  | mintCalled id args pin now | getCalled id x now =>
    simp only [step] at hstep
    split at hstep
    · contradiction
    · split at hstep <;> cases hstep <;> exact Or.inl rfl
  | lapsed id | counted id | rolledBack id =>
    simp only [step] at hstep
    split at hstep
    · cases hstep
      exact Or.inl rfl
    · contradiction

/-! ## The limit -/

/-- No invite has more wrong PINs compared than the limit. -/
def Few (s : InviteState) : Prop :=
  ∀ x, s.wrongPins.count x ≤ maxAttempts

/-- A statement leaves few wrong PINs, and compares none with an invite that has had its share. -/
def Bounded (sha256 : String → String) (s : InviteState) (e : InviteEvent) (s' : InviteState) :
    Prop :=
  Few s' ∧ ∀ id x pin now, e = .redeemCalled id x pin now →
    (verdict sha256 (s.invites.get? x) pin now).compared = true → s.wrongPins.count x < maxAttempts

/-- A caller whose PIN is to be compared finds few wrong PINs, those not counted yet included. -/
def GuessOrderly (s : InviteState) : InviteEvent → Prop
  | .redeemCalled id x _ now =>
    s.calls.get? id = none → ∀ invite ∈ s.invites.get? x, invite.Comparable now →
      invite.redeemAttempts + s.uncounted x < maxAttempts
  | _ => True

theorem guessOrderly_of_none {s : InviteState}
    (hstep : s.step sha256 e = none) : s.GuessOrderly e := by
  cases e with
  | redeemCalled id x pin now =>
    intro hnew
    simp only [step, hnew, Option.isSome_none, Bool.false_eq_true, if_false] at hstep
    split at hstep <;> contradiction
  | _ => trivial

/-- Under the tally, a call compares within the limit exactly when the guard lets it. -/
theorem Tally.guessOrderly_iff {s : InviteState} (h : Tally s)
    {id : Nat} {x : InviteId} (hnew : s.calls.get? id = none) :
    s.GuessOrderly (.redeemCalled id x pin now) ↔
      ((verdict sha256 (s.invites.get? x) pin now).compared = true →
        s.wrongPins.count x < maxAttempts) := by
  have hattempts : ∀ invite, s.invites.get? x = some invite →
      s.wrongPins.count x = invite.redeemAttempts + s.uncounted x := by
    intro invite hrow
    rw [h.total x]
    simp [attempts, hrow]
  rw [compared_verdict_iff]
  constructor
  · rintro hguess ⟨invite, hrow, hcomparable⟩
    rw [hattempts invite hrow]
    exact hguess hnew invite hrow hcomparable
  · intro hlimit _ invite hrow hcomparable
    rw [← hattempts invite hrow]
    exact hlimit ⟨invite, hrow, hcomparable⟩

/-- A statement stays within the limit exactly when the guard lets it. -/
theorem Tally.bounded_iff {s s' : InviteState}
    (h : Tally s) (hfew : Few s) (hstep : s.step sha256 e = some s') :
    Bounded sha256 s e s' ↔ s.GuessOrderly e := by
  have hnew : ∀ id x pin now, e = .redeemCalled id x pin now → s.calls.get? id = none := by
    rintro id x pin now rfl
    simp only [InviteState.step] at hstep
    split at hstep
    · contradiction
    rename_i hsome
    simpa using hsome
  constructor
  · rintro ⟨_, hlimit⟩
    cases e with
    | redeemCalled id x pin now =>
      exact (h.guessOrderly_iff (hnew id x pin now rfl)).mpr (hlimit id x pin now rfl)
    | _ => trivial
  · intro hguess
    have hlimit : ∀ id x pin now, e = .redeemCalled id x pin now →
        (verdict sha256 (s.invites.get? x) pin now).compared = true →
        s.wrongPins.count x < maxAttempts := by
      rintro id x pin now rfl
      exact (h.guessOrderly_iff (hnew id x pin now rfl)).mp hguess
    refine ⟨?_, hlimit⟩
    intro y
    rcases wrongPins_step hstep with hsame | ⟨id, x, pin, now, he, hcompared, hmore⟩
    · rw [hsame]
      exact hfew y
    · rw [hmore]
      by_cases hxy : x = y
      · subst hxy
        rw [List.count_cons_self]
        exact hlimit id x pin now he hcompared
      · rw [List.count_cons_of_ne hxy]
        exact hfew y

/-- The guesses are bounded in exactly the runs in which each caller that gets to the comparison
finds few wrong PINs, counted or not. -/
theorem everyStep_bounded_iff (sha256 : String → String) (es : List InviteEvent) :
    EveryStep (step sha256) (Bounded sha256) init es ↔
      Guarded (step sha256) GuessOrderly init es := by
  apply everyStep_iff_guarded (I := fun s => Tally s ∧ Few s)
  · exact fun _ _ hstep => guessOrderly_of_none hstep
  · rintro s e s' ⟨htally, hfew⟩ hguess hstep
    exact ⟨htally.step hstep, ((htally.bounded_iff hfew hstep).mpr hguess).1⟩
  · rintro s e s' ⟨htally, hfew⟩ hstep
    exact htally.bounded_iff hfew hstep
  · refine ⟨tally_init, ?_⟩
    intro x
    exact Nat.zero_le _

/-- An invite is minted, and five callers compare a wrong PIN. -/
def fiveGuesses : List InviteEvent :=
  [.mintCalled 0 ⟨some "prj", [], "auto", 1800, "lead", none, .agent, true, none, none⟩ "pin" 0,
    .mintInserted 0 "inv", .redeemCalled 1 "inv" "1" 1, .redeemCalled 2 "inv" "2" 1,
    .redeemCalled 3 "inv" "3" 1, .redeemCalled 4 "inv" "4" 1, .redeemCalled 5 "inv" "5" 1]

/-- The sixth caller reads the row before any of the five has counted. -/
theorem sixth_guess :
    ¬EveryStep (step id) (Bounded id) init (fiveGuesses ++ [.redeemCalled 6 "inv" "6" 1]) := by
  intro hevery
  obtain ⟨hfew, _⟩ := hevery fiveGuesses _ [] _ _ rfl rfl rfl
  exact absurd (hfew "inv") (by decide)

end InviteState

end TinyAgentOS.Projects
