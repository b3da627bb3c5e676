import TinyAgentOS.Library.Dict
import TinyAgentOS.Library.Transition
import TinyAgentOS.Projects.TaskStore

/-!
# Project invites

An invite is minted pending, claimed by the call that shows its PIN, and then
marked redeemed or rolled back by that call.  Every statement of the store is
atomic, but a call awaits each of its own, so it may act on a row it read earlier.
Most updates name the status they expect; the lazy expiry does not.

Main results:

- `InviteState.step_turn`: what each guarded statement does to an invite.
- `InviteState.Sound.step`: one claim at a time, one redemption at most.
- `InviteState.lifeCycle_iff`: the runs in which an end state is final.
- `InviteState.lapse_undoes_redemption`: an expiry decided before a redemption.
-/

namespace TinyAgentOS.Projects

open Collections Transition

/-! ## Rows -/

abbrev InviteId := String

/-- The values of the status column. -/
inductive InviteStatus where
  | pending
  | claimed
  | redeemed
  | expired
  | revoked
deriving DecidableEq

/-- `_VALID_KINDS`. -/
inductive InviteKind where
  | agent
  | collab
deriving DecidableEq

/-- A row of `project_invites`. -/
structure Invite where
  projectId : Option String
  pinHash : String
  scopes : List String
  approvalMode : String
  checkIntervalSecs : Int
  createdBy : String
  createdTs : Clock
  expiresTs : Clock
  redeemAttempts : Nat
  status : InviteStatus
  redeemedBy : Option String
  redeemedRequestId : Option String
  displayName : Option String
  kind : InviteKind
  pinRequired : Bool
  contactId : Option String
deriving DecidableEq

/-- `_EXPIRY_SECS`. -/
def expirySecs : Int := 60 * 60

/-- `_MAX_ATTEMPTS`. -/
def maxAttempts : Nat := 5

/-- `_PENDING_CAP`. -/
def pendingCap : Nat := 10

/-- How often `mint` draws an id. -/
def maxRetries : Nat := 5

/-- The exceptions of the store. -/
inductive InviteError where
  | pin
  | expired
  | alreadyRedeemed
  | revoked
  | pendingCap (message : String)
  | valueError (message : String)
  | runtimeError (message : String)
deriving DecidableEq

/-- The arguments of `mint`. -/
structure MintArgs where
  projectId : Option String
  scopes : List String
  approvalMode : String
  checkIntervalSecs : Int
  createdBy : String
  displayName : Option String := none
  kind : InviteKind := .agent
  pinRequired : Bool := true
  contactId : Option String := none
  ttlSecs : Option Int := none

section Decisions

variable (sha256 : String → String)

/-- `mint` up to its first `INSERT`, from the number of pending invites. -/
def mintRow (args : MintArgs) (pendingCount : Nat) (pin : String) (now : Clock) :
    Except InviteError Invite :=
  if args.kind = .collab ∧ args.scopes ≠ [] then
    .error (.valueError "collab invites must carry no scopes")
  else if pendingCap ≤ pendingCount then
    let scopeLabel := (args.projectId.map ("project " ++ ·)).getD "OS-level"
    .error (.pendingCap (scopeLabel ++ " already has 10 pending invites"))
  else if args.ttlSecs.any (fun ttl => ttl ≤ 0) then
    .error (.valueError "ttl_secs must be positive")
  else
    let scopes := args.scopes.eraseDups
    .ok
      { projectId := args.projectId
        pinHash := sha256 pin
        scopes :=
          if args.projectId = none then scopes else (scopes ++ ["project_tasks"]).eraseDups
        approvalMode := args.approvalMode
        checkIntervalSecs := args.checkIntervalSecs
        createdBy := args.createdBy
        createdTs := now
        expiresTs := now + args.ttlSecs.getD expirySecs
        redeemAttempts := 0
        status := .pending
        redeemedBy := none
        redeemedRequestId := none
        displayName := args.displayName
        kind := args.kind
        pinRequired := args.pinRequired
        contactId := args.contactId }

/-- What `redeem` decides from the row it read. -/
inductive Verdict where
  | refuse (error : InviteError)
  | expire
  | wrongPin (attempts : Nat)
  | rightPin
deriving DecidableEq

/-- `redeem` up to its first `UPDATE`. -/
def verdict (row : Option Invite) (pin : String) (now : Clock) : Verdict :=
  match row with
  | none => .refuse .pin
  | some invite =>
    if invite.status = .revoked then .refuse .revoked
    else if invite.status = .redeemed then .refuse .alreadyRedeemed
    else if invite.expiresTs < now then .expire
    else if maxAttempts ≤ invite.redeemAttempts then .refuse .pin
    else if sha256 pin ≠ invite.pinHash then .wrongPin invite.redeemAttempts
    else .rightPin

end Decisions

/-! ## Calls -/

/-- Where a call of the store stands: the statement it awaits. -/
inductive InviteCall where
  | minting (row : Invite) (attempt : Nat)
  /-- `SET status = 'expired'`, whatever the status is by then. -/
  | expiring (inviteId : InviteId) (error : Option InviteError)
  /-- `SET redeem_attempts = redeem_attempts + 1`, after a wrong PIN. -/
  | counting (inviteId : InviteId) (attempts : Nat)
  | claiming (inviteId : InviteId)
  /-- `redeem` has returned; its caller is to mark the invite redeemed or roll back. -/
  | holding (inviteId : InviteId)
  | done (error : Option InviteError)
deriving DecidableEq

/-- The invite that a call is about to expire. -/
def InviteCall.lapses : InviteCall → Option InviteId
  | .expiring inviteId _ => some inviteId
  | _ => none

/-- The statements of the calls. -/
inductive InviteEvent where
  | mintCalled (id : Nat) (args : MintArgs) (pin : String) (now : Clock)
  | mintInserted (id : Nat) (inviteId : InviteId)
  | getCalled (id : Nat) (inviteId : InviteId) (now : Clock)
  | redeemCalled (id : Nat) (inviteId : InviteId) (pin : String) (now : Clock)
  | lapsed (id : Nat)
  | counted (id : Nat)
  | claimTried (id : Nat)
  | markedRedeemed (id : Nat) (redeemedBy requestId : String)
  | rolledBack (id : Nat)
  | revokeCalled (inviteId : InviteId)
  | markAccepted (inviteId : InviteId) (acceptedBy : String)
  | markExpired (inviteId : InviteId)

/-- The table and the calls, with the wrong PINs compared and the redemptions so far. -/
structure InviteState where
  invites : Dict InviteId Invite
  calls : Dict Nat InviteCall
  wrongPins : List InviteId
  redemptions : List InviteId

namespace InviteState

/-- An empty table. -/
def init : InviteState := ⟨Dict.empty, Dict.empty, [], []⟩

/-- The status of an invite. -/
def status (s : InviteState) (inviteId : InviteId) : Option InviteStatus :=
  (s.invites.get? inviteId).map Invite.status

/-- The calls that hold a claim on an invite. -/
def holders (s : InviteState) (inviteId : InviteId) : Nat :=
  s.calls.count fun call => call = .holding inviteId

/-- The number of pending invites of a project, or of those without one. -/
def pendingCount (s : InviteState) (projectId : Option String) : Nat :=
  s.invites.count fun invite => invite.projectId = projectId && invite.status = .pending

/-- `UPDATE … WHERE invite_id = ? AND status IN …`. -/
def update (s : InviteState) (inviteId : InviteId) (expected : List InviteStatus)
    (f : Invite → Invite) : InviteState :=
  { s with
    invites := s.invites.modify inviteId fun v => if v.status ∈ expected then f v else v }

/-- Does such an update find its row? -/
def matchesRow (s : InviteState) (inviteId : InviteId) (expected : List InviteStatus) : Bool :=
  (s.status inviteId).any fun status => status ∈ expected

/-- The call awaits another statement, or has ended. -/
def goOn (s : InviteState) (id : Nat) (call : InviteCall) : InviteState :=
  { s with calls := s.calls.set id call }

/-- Every status. -/
def anyStatus : List InviteStatus := [.pending, .claimed, .redeemed, .expired, .revoked]

/-- Record that an invite is redeemed, when the update finds its row. -/
def redeem (s : InviteState) (inviteId : InviteId) (expected : List InviteStatus)
    (f : Invite → Invite) : InviteState :=
  if s.matchesRow inviteId expected then
    { s.update inviteId expected f with redemptions := inviteId :: s.redemptions }
  else s

/-- One statement. -/
def step (sha256 : String → String) (s : InviteState) : InviteEvent → Option InviteState
  | .mintCalled id args pin now =>
    if (s.calls.get? id).isSome then none
    else
      match mintRow sha256 args (s.pendingCount args.projectId) pin now with
      | .error e => some (s.goOn id (.done (some e)))
      | .ok row => some (s.goOn id (.minting row 0))
  | .mintInserted id inviteId =>
    match s.calls.get? id with
    | some (.minting row attempt) =>
      if (s.invites.get? inviteId).isNone then
        some
          { s.goOn id (.done none) with
            invites := s.invites.set inviteId { row with status := .pending } }
      else if attempt + 1 = maxRetries then
        some (s.goOn id (.done (some (.runtimeError
          "Failed to generate a unique invite ID after 5 attempts"))))
      else some (s.goOn id (.minting row (attempt + 1)))
    | _ => none
  | .getCalled id inviteId now =>
    if (s.calls.get? id).isSome then none
    else if (s.invites.get? inviteId).any
        (fun invite => invite.status = .pending && invite.expiresTs < now) then
      some (s.goOn id (.expiring inviteId none))
    else some (s.goOn id (.done none))
  | .redeemCalled id inviteId pin now =>
    if (s.calls.get? id).isSome then none
    else
      match verdict sha256 (s.invites.get? inviteId) pin now with
      | .refuse e => some (s.goOn id (.done (some e)))
      | .expire => some (s.goOn id (.expiring inviteId (some .expired)))
      | .wrongPin attempts =>
        some
          { s.goOn id (.counting inviteId attempts) with
            wrongPins := inviteId :: s.wrongPins }
      | .rightPin => some (s.goOn id (.claiming inviteId))
  | .lapsed id =>
    match s.calls.get? id with
    | some (.expiring inviteId error) =>
      some ((s.update inviteId anyStatus fun v => { v with status := .expired }).goOn id
        (.done error))
    | _ => none
  | .counted id =>
    match s.calls.get? id with
    | some (.counting inviteId attempts) =>
      some ((s.update inviteId anyStatus fun v =>
          { v with redeemAttempts := v.redeemAttempts + 1 }).goOn id
        (if maxAttempts ≤ attempts + 1 then .expiring inviteId (some .pin)
          else .done (some .pin)))
    | _ => none
  | .claimTried id =>
    match s.calls.get? id with
    | some (.claiming inviteId) =>
      if s.matchesRow inviteId [.pending] then
        some ((s.update inviteId [.pending] fun v => { v with status := .claimed }).goOn id
          (.holding inviteId))
      else some (s.goOn id (.done (some .alreadyRedeemed)))
    | _ => none
  | .markedRedeemed id redeemedBy requestId =>
    match s.calls.get? id with
    | some (.holding inviteId) =>
      some ((s.redeem inviteId [.claimed] fun v =>
        { v with
          redeemedBy := some redeemedBy
          redeemedRequestId := some requestId
          status := .redeemed }).goOn id (.done none))
    | _ => none
  | .rolledBack id =>
    match s.calls.get? id with
    | some (.holding inviteId) =>
      some ((s.update inviteId [.claimed] fun v => { v with status := .pending }).goOn id
        (.done none))
    | _ => none
  | .revokeCalled inviteId =>
    some (s.update inviteId [.pending, .expired] fun v => { v with status := .revoked })
  | .markAccepted inviteId acceptedBy =>
    some (s.redeem inviteId [.pending, .claimed] fun v =>
      { v with redeemedBy := some acceptedBy, status := .redeemed })
  | .markExpired inviteId =>
    some (s.update inviteId [.pending] fun v => { v with status := .expired })

/-! ## What a statement does -/

/-- What a guarded statement does to the status, the claims and the redemptions of an invite. -/
inductive Turn : Option InviteStatus → Nat → Nat → Option InviteStatus → Nat → Nat → Prop where
  | kept {st : Option InviteStatus} {h h' m : Nat} (hle : h' ≤ h) : Turn st h m st h' m
  | minted {h m : Nat} : Turn none h m (some .pending) h m
  | claimed {h m : Nat} : Turn (some .pending) h m (some .claimed) (h + 1) m
  | rolledBack {h m : Nat} : Turn (some .claimed) (h + 1) m (some .pending) h m
  | redeemed {h m : Nat} : Turn (some .claimed) (h + 1) m (some .redeemed) h (m + 1)
  | accepted {st : InviteStatus} {h m : Nat} (hst : st ∈ [InviteStatus.pending, .claimed]) :
      Turn (some st) h m (some .redeemed) h (m + 1)
  | revoked {st : InviteStatus} {h m : Nat} (hst : st ∈ [InviteStatus.pending, .expired]) :
      Turn (some st) h m (some .revoked) h m
  | declined {h m : Nat} : Turn (some .pending) h m (some .expired) h m

section Effects

variable {s : InviteState} {inviteId : InviteId} {expected : List InviteStatus}
  {f : Invite → Invite}

/-- The status after a conditional update. -/
theorem status_update (s : InviteState) (inviteId : InviteId) (expected : List InviteStatus)
    (f : Invite → Invite) (x : InviteId) : (s.update inviteId expected f).status x =
      if x = inviteId then
        (s.invites.get? x).map fun v => if v.status ∈ expected then (f v).status else v.status
      else s.status x := by
  unfold status update
  simp only [Dict.get?_modify]
  by_cases hx : inviteId = x
  · rw [if_pos hx, if_pos hx.symm, Option.map_map]
    congr 1
    funext v
    simp only [Function.comp]
    split <;> rfl
  · rw [if_neg hx, if_neg (Ne.symm hx)]

/-- An update that expects a status finds its row, or changes nothing. -/
theorem status_update_cases (s : InviteState) (inviteId : InviteId)
    (expected : List InviteStatus) (f : Invite → Invite) {target : InviteStatus}
    (hf : ∀ v, (f v).status = target) (x : InviteId) :
    x = inviteId ∧ s.matchesRow inviteId expected = true ∧
        (∃ st ∈ expected, s.status x = some st) ∧
        (s.update inviteId expected f).status x = some target ∨
      (x = inviteId → s.matchesRow inviteId expected = false) ∧
        (s.update inviteId expected f).status x = s.status x := by
  rw [status_update]
  by_cases hx : x = inviteId
  · subst hx
    cases hget : s.invites.get? x with
    | none =>
      right
      simp [matchesRow, status, hget]
    | some v =>
      by_cases hmem : v.status ∈ expected
      · left
        simp [matchesRow, status, hget, hmem, hf]
      · right
        simp [matchesRow, status, hget, hmem]
  · right
    simp [hx]

/-- An update that finds its row is about another invite than one it leaves alone. -/
theorem ne_of_unmatched {x : InviteId} (hmatch : s.matchesRow inviteId expected = true)
    (hnone : x = inviteId → s.matchesRow inviteId expected = false) : inviteId ≠ x := by
  rintro rfl
  rw [hnone rfl] at hmatch
  contradiction

@[simp]
theorem status_goOn (s : InviteState) (id : Nat) (call : InviteCall) (x : InviteId) :
    (s.goOn id call).status x = s.status x :=
  rfl

/-- A new call that holds nothing. -/
theorem holders_goOn_new {id : Nat} {call : InviteCall} (hnew : s.calls.get? id = none)
    (hcall : ∀ y, call ≠ .holding y) (x : InviteId) : (s.goOn id call).holders x = s.holders x := by
  unfold holders goOn
  rw [Dict.count_set_new _ _ hnew]
  simp [hcall x]

/-- A call that goes on gives its claim up, and may get another. -/
theorem holders_goOn {id : Nat} {old : InviteCall} (hold : s.calls.get? id = some old)
    (call : InviteCall) (x : InviteId) :
    (s.goOn id call).holders x + (if old = .holding x then 1 else 0) =
      s.holders x + if call = .holding x then 1 else 0 := by
  have hcount := Dict.count_set_of_get? (fun c => decide (c = InviteCall.holding x)) call hold
  simpa [holders, goOn] using hcount

/-- A call that held nothing and holds nothing. -/
theorem holders_goOn_of_ne {id : Nat} {old call : InviteCall}
    (hold : s.calls.get? id = some old) (hne : ∀ y, old ≠ .holding y)
    (hcall : ∀ y, call ≠ .holding y) (x : InviteId) : (s.goOn id call).holders x = s.holders x := by
  have hcount := holders_goOn hold call x
  simpa [hne x, hcall x] using hcount

end Effects

/-- The turn an invite takes between two states. -/
def TurnTo (s s' : InviteState) (x : InviteId) : Prop :=
  Turn (s.status x) (s.holders x) (s.redemptions.count x) (s'.status x) (s'.holders x)
    (s'.redemptions.count x)

variable {s' : InviteState} {st : Option InviteStatus} {e : InviteEvent}

/-- Nothing happens to an invite, but for a claim that ends. -/
theorem TurnTo.of_eq {s : InviteState} {x : InviteId} (hstatus : s'.status x = s.status x)
    (hholders : s'.holders x ≤ s.holders x)
    (hredemptions : s'.redemptions.count x = s.redemptions.count x) : s.TurnTo s' x := by
  unfold TurnTo
  rw [hstatus, hredemptions]
  exact Turn.kept hholders

variable {sha256 : String → String} {st' : Option InviteStatus}

theorem turn_mintInserted {s : InviteState} {id : Nat}
    {inviteId : InviteId} (hstep : s.step sha256 (.mintInserted id inviteId) = some s')
    (x : InviteId) : s.TurnTo s' x := by
  simp only [step] at hstep
  split at hstep
  · rename_i row attempt hcall
    have hholders : ∀ call : InviteCall, (∀ y, call ≠ .holding y) →
        (s.goOn id call).holders x = s.holders x :=
      fun call hne => holders_goOn_of_ne hcall (fun y => by simp) hne x
    split at hstep
    · rename_i hfresh
      cases hstep
      have hkeep := hholders (.done none) (fun y => by simp)
      by_cases hx : x = inviteId
      · subst hx
        have hnone : s.status x = none := by
          unfold status
          rw [Option.isNone_iff_eq_none.mp hfresh]
          rfl
        unfold TurnTo
        rw [hnone]
        show Turn _ _ _ (((s.invites.set x { row with status := .pending }).get? x).map
          Invite.status) ((s.goOn id (.done none)).holders x) _
        rw [Dict.get?_set_self, hkeep]
        exact Turn.minted
      · refine TurnTo.of_eq ?_ hkeep.le rfl
        simp [status, Dict.get?_set_of_ne _ _ (Ne.symm hx)]
    · split at hstep
      · cases hstep
        exact TurnTo.of_eq rfl (hholders _ fun y => by simp).le rfl
      · cases hstep
        exact TurnTo.of_eq rfl (hholders _ fun y => by simp).le rfl
  · contradiction

theorem turn_claimTried {s : InviteState} {id : Nat}
    (hstep : s.step sha256 (.claimTried id) = some s') (x : InviteId) : s.TurnTo s' x := by
  simp only [step] at hstep
  split at hstep
  · rename_i inviteId hcall
    split at hstep
    · rename_i hmatch
      cases hstep
      have hcount := holders_goOn hcall (.holding inviteId) x
      rcases s.status_update_cases inviteId [.pending] (fun v => { v with status := .claimed })
        (fun _ => rfl) x with ⟨rfl, _, ⟨st, hst, hstatus⟩, hafter⟩ | ⟨hnone, hafter⟩
      · obtain rfl := List.mem_singleton.mp hst
        simp only [reduceCtorEq, if_false, Nat.add_zero, if_true] at hcount
        unfold TurnTo
        rw [hstatus, status_goOn, hafter]
        show Turn _ _ _ _ ((s.goOn id (.holding x)).holders x) _
        rw [hcount]
        exact Turn.claimed
      · have hx := ne_of_unmatched hmatch hnone
        simp only [reduceCtorEq, if_false, Nat.add_zero, InviteCall.holding.injEq, hx] at hcount
        exact TurnTo.of_eq hafter hcount.le rfl
    · cases hstep
      exact TurnTo.of_eq rfl
        (holders_goOn_of_ne hcall (fun y => by simp) (fun y => by simp) x).le rfl
  · contradiction

/-- A call that held a claim, or not, ends while the row moves as it expects. -/
theorem turn_markedRedeemed {s : InviteState} {id : Nat} {redeemedBy requestId : String}
    (hstep : s.step sha256 (.markedRedeemed id redeemedBy requestId) = some s') (x : InviteId) :
    s.TurnTo s' x := by
  simp only [step] at hstep
  split at hstep
  · rename_i inviteId hcall
    cases hstep
    have hcount := holders_goOn hcall (.done none) x
    simp only [reduceCtorEq, if_false, Nat.add_zero, InviteCall.holding.injEq] at hcount
    unfold redeem
    split
    · rename_i hmatch
      rcases s.status_update_cases inviteId [.claimed] (fun v =>
          { v with
            redeemedBy := some redeemedBy
            redeemedRequestId := some requestId
            status := .redeemed })
        (fun _ => rfl) x with ⟨rfl, _, ⟨st, hst, hstatus⟩, hafter⟩ | ⟨hnone, hafter⟩
      · obtain rfl := List.mem_singleton.mp hst
        simp only [if_true] at hcount
        unfold TurnTo
        rw [hstatus, ← hcount]
        show Turn _ _ _ ((s.update x [.claimed] _).status x) ((s.goOn id (.done none)).holders x)
          ((x :: s.redemptions).count x)
        rw [hafter, List.count_cons_self]
        exact Turn.redeemed
      · have hx := ne_of_unmatched hmatch hnone
        rw [if_neg hx, Nat.add_zero] at hcount
        refine TurnTo.of_eq hafter hcount.le ?_
        show (inviteId :: s.redemptions).count x = _
        rw [List.count_cons_of_ne hx]
    · refine TurnTo.of_eq rfl ?_ rfl
      omega
  · contradiction

theorem turn_rolledBack {s : InviteState} {id : Nat}
    (hstep : s.step sha256 (.rolledBack id) = some s') (x : InviteId) : s.TurnTo s' x := by
  simp only [step] at hstep
  split at hstep
  · rename_i inviteId hcall
    cases hstep
    have hcount := holders_goOn hcall (.done none) x
    simp only [reduceCtorEq, if_false, Nat.add_zero, InviteCall.holding.injEq] at hcount
    rcases s.status_update_cases inviteId [.claimed] (fun v => { v with status := .pending })
      (fun _ => rfl) x with ⟨rfl, _, ⟨st, hst, hstatus⟩, hafter⟩ | ⟨_, hafter⟩
    · obtain rfl := List.mem_singleton.mp hst
      simp only [if_true] at hcount
      unfold TurnTo
      rw [hstatus, ← hcount, status_goOn, hafter]
      exact Turn.rolledBack
    · refine TurnTo.of_eq hafter ?_ rfl
      show (s.goOn id (.done none)).holders x ≤ _
      omega
  · contradiction

theorem turn_revokeCalled {s : InviteState} {inviteId : InviteId}
    (hstep : s.step sha256 (.revokeCalled inviteId) = some s') (x : InviteId) : s.TurnTo s' x := by
  cases hstep
  rcases s.status_update_cases inviteId [.pending, .expired]
    (fun v => { v with status := .revoked }) (fun _ => rfl) x with
    ⟨rfl, _, ⟨st, hst, hstatus⟩, hafter⟩ | ⟨_, hafter⟩
  · unfold TurnTo
    rw [hstatus, hafter]
    exact Turn.revoked hst
  · exact TurnTo.of_eq hafter le_rfl rfl

theorem turn_markAccepted {s : InviteState} {inviteId : InviteId}
    {acceptedBy : String} (hstep : s.step sha256 (.markAccepted inviteId acceptedBy) = some s')
    (x : InviteId) : s.TurnTo s' x := by
  cases hstep
  unfold redeem
  split
  · rename_i hmatch
    rcases s.status_update_cases inviteId [.pending, .claimed]
      (fun v => { v with redeemedBy := some acceptedBy, status := .redeemed }) (fun _ => rfl) x with
      ⟨rfl, _, ⟨st, hst, hstatus⟩, hafter⟩ | ⟨hnone, hafter⟩
    · unfold TurnTo
      rw [hstatus]
      show Turn _ _ _ ((s.update x [.pending, .claimed] _).status x) (s.holders x)
        ((x :: s.redemptions).count x)
      rw [hafter, List.count_cons_self]
      exact Turn.accepted hst
    · have hx := ne_of_unmatched hmatch hnone
      refine TurnTo.of_eq hafter le_rfl ?_
      show (inviteId :: s.redemptions).count x = _
      rw [List.count_cons_of_ne hx]
  · exact TurnTo.of_eq rfl le_rfl rfl

theorem turn_markExpired {s : InviteState} {inviteId : InviteId}
    (hstep : s.step sha256 (.markExpired inviteId) = some s') (x : InviteId) : s.TurnTo s' x := by
  cases hstep
  rcases s.status_update_cases inviteId [.pending] (fun v => { v with status := .expired })
    (fun _ => rfl) x with ⟨rfl, _, ⟨st, hst, hstatus⟩, hafter⟩ | ⟨_, hafter⟩
  · obtain rfl := List.mem_singleton.mp hst
    unfold TurnTo
    rw [hstatus, hafter]
    exact Turn.declined
  · exact TurnTo.of_eq hafter le_rfl rfl

/-- A call that starts touches no row, and holds nothing. -/
theorem turn_started {s : InviteState} {id : Nat} {call : InviteCall}
    (hnew : ¬(s.calls.get? id).isSome = true) (hne : ∀ y, call ≠ .holding y)
    (wrongPins : List InviteId) (x : InviteId) :
    s.TurnTo { s.goOn id call with wrongPins := wrongPins } x :=
  TurnTo.of_eq rfl (holders_goOn_new (by simpa using hnew) hne x).le rfl

theorem turn_counted {s : InviteState} {id : Nat}
    (hstep : s.step sha256 (.counted id) = some s') (x : InviteId) : s.TurnTo s' x := by
  simp only [step] at hstep
  split at hstep
  · rename_i inviteId attempts hcall
    cases hstep
    refine TurnTo.of_eq ?_ ?_ rfl
    · rw [status_goOn, status_update]
      split
      · unfold status
        congr 1
        funext v
        simp
      · rfl
    · exact (holders_goOn_of_ne hcall (fun y => by simp) (fun y => by split <;> simp) x).le
  · contradiction

/-- The lazy expiry: the status the row has by then does not matter. -/
theorem lapsed_cases {s : InviteState} {id : Nat} (hstep : s.step sha256 (.lapsed id) = some s') :
    ∃ inviteId error, s.calls.get? id = some (.expiring inviteId error) ∧
      s'.status = (fun x =>
        if x = inviteId then (s.status x).map fun _ => .expired else s.status x) ∧
      s'.holders = s.holders ∧ s'.redemptions = s.redemptions := by
  simp only [step] at hstep
  split at hstep
  · rename_i inviteId error hcall
    cases hstep
    refine ⟨inviteId, error, hcall, ?_, ?_, rfl⟩
    · funext x
      rw [status_goOn, status_update]
      split
      · unfold status
        rw [Option.map_map]
        congr 1
        funext v
        cases v.status <;> simp [anyStatus]
      · rfl
    · funext x
      exact holders_goOn_of_ne hcall (fun y => by simp) (fun y => by simp) x
  · contradiction

/-! ## Claims and redemptions -/

/-- How many claims and redemptions an invite may have in each status. -/
def Books : Option InviteStatus → Nat → Nat → Prop
  | none, holders, redemptions => holders = 0 ∧ redemptions = 0
  | some .pending, holders, redemptions => holders = 0 ∧ redemptions = 0
  | some .claimed, holders, redemptions => holders ≤ 1 ∧ redemptions = 0
  | some _, holders, redemptions => holders ≤ 1 ∧ redemptions ≤ 1

theorem Books.le_one {h m : Nat} (hbooks : Books st h m) : h ≤ 1 ∧ m ≤ 1 := by
  cases st with
  | none => exact ⟨by rw [hbooks.1]; omega, by rw [hbooks.2]; omega⟩
  | some st => cases st <;> (simp only [Books] at hbooks; omega)

theorem Books.turn {h h' m m' : Nat} (hbooks : Books st h m)
    (hturn : Turn st h m st' h' m') : Books st' h' m' := by
  cases hturn with
  | kept hle =>
    cases st with
    | none => exact ⟨by have := hbooks.1; omega, hbooks.2⟩
    | some st => cases st <;> (simp only [Books] at hbooks ⊢; omega)
  | minted => exact hbooks
  | claimed | rolledBack | redeemed | declined => simp only [Books] at hbooks ⊢; omega
  | @accepted st h m hst =>
    rcases List.mem_cons.mp hst with rfl | hst
    · simp only [Books] at hbooks ⊢
      omega
    · obtain rfl := List.mem_singleton.mp hst
      simp only [Books] at hbooks ⊢
      omega
  | @revoked st h m hst =>
    rcases List.mem_cons.mp hst with rfl | hst
    · simp only [Books] at hbooks ⊢
      omega
    · obtain rfl := List.mem_singleton.mp hst
      exact hbooks

theorem Books.lapse {h m : Nat} (hbooks : Books st h m) : Books (st.map fun _ => .expired) h m := by
  cases st with
  | none => exact hbooks
  | some st => exact hbooks.le_one

/-- Every invite's books are in order. -/
def Sound (s : InviteState) : Prop :=
  ∀ x, Books (s.status x) (s.holders x) (s.redemptions.count x)

/-- What each statement but the lazy expiry does to an invite. -/
theorem step_turn {s : InviteState}
    (hstep : s.step sha256 e = some s') (hlapse : ∀ id, e ≠ .lapsed id) (x : InviteId) :
    s.TurnTo s' x := by
  cases e with
  | mintCalled | getCalled | redeemCalled =>
    simp only [step] at hstep
    split at hstep
    · contradiction
    rename_i hnew
    split at hstep <;> cases hstep <;>
      exact turn_started hnew (fun y => by simp) _ x
  | mintInserted id inviteId => exact turn_mintInserted hstep x
  | lapsed id => exact absurd rfl (hlapse id)
  | counted id => exact turn_counted hstep x
  | claimTried id => exact turn_claimTried hstep x
  | markedRedeemed id redeemedBy requestId => exact turn_markedRedeemed hstep x
  | rolledBack id => exact turn_rolledBack hstep x
  | revokeCalled inviteId => exact turn_revokeCalled hstep x
  | markAccepted inviteId acceptedBy => exact turn_markAccepted hstep x
  | markExpired inviteId => exact turn_markExpired hstep x

/-- Every statement keeps the books. -/
theorem Sound.step {s : InviteState}
    (h : s.Sound) (hstep : s.step sha256 e = some s') : s'.Sound := by
  intro x
  by_cases hlapse : ∃ id, e = .lapsed id
  · obtain ⟨id, rfl⟩ := hlapse
    obtain ⟨inviteId, error, _, hstatus, hholders, hredemptions⟩ := lapsed_cases hstep
    rw [hstatus, hholders, hredemptions]
    by_cases hx : x = inviteId
    · simp only [hx, if_true]
      exact (h inviteId).lapse
    · simp only [hx, if_false]
      exact h x
  · exact (h x).turn (step_turn hstep (fun id heq => hlapse ⟨id, heq⟩) x)

/-- In every run an invite has at most one claim and is redeemed at most once. -/
theorem run_books {s : InviteState} {es : List InviteEvent}
    (hrun : run (step sha256) init es = some s) (x : InviteId) :
    s.holders x ≤ 1 ∧ s.redemptions.count x ≤ 1 := by
  have hsound : s.Sound := by
    apply invariant_of_run (I := Sound) (fun _ _ _ h hstep => h.step hstep) _ hrun
    intro y
    exact ⟨rfl, rfl⟩
  exact (hsound x).le_one

/-! ## End states -/

/-- The statuses that an invite is to keep. -/
def endStatuses : List InviteStatus := [.redeemed, .revoked]

/-- Every invite in an end state is still in it. -/
def Keeps (s s' : InviteState) : Prop :=
  ∀ x, ∀ st ∈ endStatuses, s.status x = some st → s'.status x = some st

theorem Turn.keeps {h h' m m' : Nat}
    (hturn : Turn st h m st' h' m') {final : InviteStatus} (hfinal : final ∈ endStatuses)
    (hst : st = some final) : st' = some final := by
  cases hturn with
  | kept _ => exact hst
  | minted => contradiction
  | claimed | rolledBack | redeemed | declined => cases hst; simp [endStatuses] at hfinal
  | accepted hmem | revoked hmem =>
    cases hst
    simp only [endStatuses, List.mem_cons, List.not_mem_nil, or_false] at hfinal hmem
    rcases hmem with rfl | rfl <;> simp at hfinal

/-- A stretch of a run that keeps the end states may follow another. -/
theorem Keeps.trans {s t u : InviteState} (h : Keeps s t) (h' : Keeps t u) : Keeps s u :=
  fun x st hst hstatus => h' x st hst (h x st hst hstatus)

/-- A lazy expiry is written while the invite is in no end state. -/
def LapseOrderly (s : InviteState) : InviteEvent → Prop
  | .lapsed id =>
    ∀ call ∈ s.calls.get? id, ∀ inviteId ∈ call.lapses, ∀ st ∈ s.status inviteId,
      st ∉ endStatuses
  | _ => True

theorem lapseOrderly_of_none {s : InviteState}
    (hstep : s.step sha256 e = none) : s.LapseOrderly e := by
  cases e with
  | lapsed id =>
    intro call hcall inviteId hlapses
    cases call with
    | expiring y error =>
      rw [Option.mem_def] at hcall
      simp [step, hcall] at hstep
    | _ => contradiction
  | _ => trivial

/-- The lazy expiry keeps the end states where it finds none to undo. -/
theorem keeps_lapsed_iff {s : InviteState} {id : Nat}
    (hstep : s.step sha256 (.lapsed id) = some s') : Keeps s s' ↔ s.LapseOrderly (.lapsed id) := by
  obtain ⟨inviteId, error, hcall, hstatus, _⟩ := lapsed_cases hstep
  constructor
  · intro hkeeps call hcall' y hlapses st hst hfinal
    rw [Option.mem_def, hcall, Option.some.injEq] at hcall'
    subst hcall'
    obtain rfl : inviteId = y := by simpa [InviteCall.lapses] using hlapses
    have hkept := hkeeps inviteId st hfinal hst
    rw [hstatus] at hkept
    simp only [if_true, Option.mem_def.mp hst, Option.map_some, Option.some.injEq] at hkept
    subst hkept
    simp [endStatuses] at hfinal
  · intro horderly x st hfinal hst
    rw [hstatus]
    by_cases hx : x = inviteId
    · subst hx
      exact absurd hfinal (horderly _ hcall x rfl st hst)
    · simpa only [hx, if_false] using hst

/-- A statement keeps the end states exactly when it is no expiry decided too early. -/
theorem keeps_step_iff {s : InviteState}
    (hstep : s.step sha256 e = some s') : Keeps s s' ↔ s.LapseOrderly e := by
  by_cases hlapse : ∃ id, e = .lapsed id
  · obtain ⟨id, rfl⟩ := hlapse
    exact keeps_lapsed_iff hstep
  · have horderly : s.LapseOrderly e := by
      cases e with
      | lapsed id => exact absurd ⟨id, rfl⟩ hlapse
      | _ => trivial
    refine iff_of_true ?_ horderly
    intro x st hfinal hst
    exact (step_turn hstep (fun id heq => hlapse ⟨id, heq⟩) x).keeps hfinal hst

/-- What a run is to do: redeemed and revoked invites stay so, and in every state an invite has
at most one claim and one redemption. -/
def LifeCycle (sha256 : String → String) (es : List InviteEvent) : Prop :=
  (∀ pre mid post t u, es = pre ++ mid ++ post → run (step sha256) init pre = some t →
    run (step sha256) t mid = some u → Keeps t u) ∧
  ∀ pre post u, es = pre ++ post → run (step sha256) init pre = some u →
    ∀ x, u.holders x ≤ 1 ∧ u.redemptions.count x ≤ 1

/-- Invites keep their life cycle in exactly the runs whose lazy expiries find no end state. -/
theorem lifeCycle_iff (sha256 : String → String) (es : List InviteEvent) :
    LifeCycle sha256 es ↔ Guarded (step sha256) LapseOrderly init es := by
  have hbooks : ∀ pre post u, es = pre ++ post → run (step sha256) init pre = some u →
      ∀ x, u.holders x ≤ 1 ∧ u.redemptions.count x ≤ 1 :=
    fun pre post u _ hrun x => run_books hrun x
  have hstretches : (∀ pre mid post t u, es = pre ++ mid ++ post →
      run (step sha256) init pre = some t → run (step sha256) t mid = some u → Keeps t u) ↔
      EveryStep (step sha256) (fun t _ u => Keeps t u) init es := by
    apply stretches_iff_everyStep
    · exact fun _ _ _ _ hst => hst
    · exact fun _ _ _ h h' => h.trans h'
  have hsteps : EveryStep (step sha256) (fun t _ u => Keeps t u) init es ↔
      Guarded (step sha256) LapseOrderly init es := by
    apply everyStep_iff_guarded (I := fun _ => True)
    · exact fun _ _ hstep => lapseOrderly_of_none hstep
    · exact fun _ _ _ h _ _ => h
    · exact fun _ _ _ _ hstep => keeps_step_iff hstep
    · trivial
  constructor
  · rintro ⟨hkeeps, _⟩
    exact hsteps.mp (hstretches.mp hkeeps)
  · intro horderly
    exact ⟨hstretches.mpr (hsteps.mpr horderly), hbooks⟩

instance (s : InviteState) (e : InviteEvent) : Decidable (s.LapseOrderly e) := by
  apply InviteEvent.casesOn (motive := fun e => Decidable (s.LapseOrderly e)) e <;> intros <;>
    unfold LapseOrderly <;> infer_instance

/-- An invite is minted, read in time by one call and too late by another, and redeemed by the
first. -/
def redeemedInTime : List InviteEvent :=
  [.mintCalled 1 ⟨some "prj", [], "auto", 1800, "lead", none, .agent, true, none, none⟩ "pin" 0,
    .mintInserted 1 "inv", .redeemCalled 2 "inv" "pin" 3600, .getCalled 3 "inv" 3601,
    .claimTried 2, .markedRedeemed 2 "agent" "req"]

/-- The late reader's expiry undoes the redemption. -/
theorem lapse_undoes_redemption : ¬LifeCycle id (redeemedInTime ++ [.lapsed 3]) := by
  rintro ⟨hkeeps, _⟩
  have hkept := hkeeps redeemedInTime [.lapsed 3] [] _ _ rfl rfl rfl "inv" .redeemed (by decide)
    (by decide)
  exact absurd hkept (by decide)

end InviteState

end TinyAgentOS.Projects
