import TinyAgentOS.Library.Dict
import TinyAgentOS.Library.Transition
import TinyAgentOS.Projects.TaskStore

/-!
# Pairing of cluster workers

A worker announces the hash of its code, an admin confirms the code, and the worker
claims the key that the confirmation drew.  In the manual flow the admin authorises a
code first, and the key waits under its hash.  A confirmation and both claims read a
row in one statement and write in a later one.  A key is 32 random bytes: each draw is
a number not drawn before.

Main results:

- `PairingState.get?_update` and `PairingState.get?_upsert`: the row that a statement writes.
- `PairingState.signingKey_eq_some_iff`: the key that authenticates a worker.
-/

namespace TinyAgentOS.Cluster

open Collections Transition
open Projects (Clock)

namespace Pairing

/-- `_EXPIRY_SECS`. -/
def expirySecs : Int := 15 * 60

/-- `_MAX_ATTEMPTS`. -/
def maxAttempts : Nat := 5

abbrev Key := Nat

/-- A row of `cluster_pairings`. -/
structure PairingRow where
  signingKey : Option Key := none
  pendingCodeHash : Option String := none
  pendingUrl : Option String := none
  pendingPlatform : Option String := none
  pendingTs : Option Clock := none
  claimAttempts : Nat := 0
  confirmed : Bool := false
  createdTs : Clock
  confirmedTs : Option Clock := none
  blocked : Bool := false
  revoked : Bool := false

/-- A row of `cluster_manual_pairings`. -/
structure ManualRow where
  url : String
  signingKey : Key
  createdTs : Clock

/-- `_pending_valid`. -/
def PairingRow.pendingValid (row : PairingRow) (now : Clock) : Bool :=
  row.pendingCodeHash.isSome && row.claimAttempts < maxAttempts &&
    row.pendingTs.any fun ts => now - ts ≤ expirySecs

/-- The `UPDATE` of `announce`; it leaves the key and the flags alone. -/
def PairingRow.announced (row : PairingRow) (url platform codeHash : String) (now : Clock) :
    PairingRow :=
  { row with
    pendingCodeHash := some codeHash
    pendingUrl := some url
    pendingPlatform := some platform
    pendingTs := some now
    claimAttempts := 0
    confirmed := false }

/-- The `UPDATE` of `confirm`. -/
def PairingRow.confirmedBy (row : PairingRow) (key : Key) (now : Clock) : PairingRow :=
  { row with
    signingKey := some key
    confirmed := true
    blocked := false
    revoked := false
    confirmedTs := some now }

/-- The `UPDATE` of `claim`. -/
def PairingRow.cleared (row : PairingRow) : PairingRow :=
  { row with
    pendingCodeHash := none
    pendingUrl := none
    pendingPlatform := none
    pendingTs := none
    claimAttempts := 0
    confirmed := false }

/-- The `UPDATE` of `manual_claim`. -/
def PairingRow.restored (row : PairingRow) (key : Key) : PairingRow :=
  { row with signingKey := some key, blocked := false, revoked := false }

/-! ## Calls -/

/-- What a call returns. -/
inductive PairingReply where
  | confirmed (ok : Bool)
  | claimed (key : Option Key)
  | manual (claimed : Option (Key × String))
  /-- An exception. -/
  | raised

/-- Where a call stands: the statement it awaits. -/
inductive PairingCall where
  /-- A wrong code is to be counted. -/
  | counting (name : String) (reply : PairingReply)
  /-- `confirm` has found the code right. -/
  | confirming (name code : String)
  /-- `claim` has found the code right, and has the key. -/
  | clearing (name code : String) (key : Key)
  /-- `manual_claim` has found an authorisation that has expired. -/
  | discarding (codeHash : String)
  /-- `manual_claim` has found an authorisation. -/
  | checking (name codeHash url : String) (key : Key)
  /-- `manual_claim` has found the worker not blocked. -/
  | consuming (name codeHash url : String) (key : Key)
  /-- `manual_claim` has deleted the authorisation. -/
  | storing (name url : String) (key : Key)
  | done (reply : PairingReply)

/-- The statements of the calls. -/
inductive PairingEvent where
  | announced (name url platform codeHash : String) (now : Clock)
  | confirmRead (id : Nat) (name code : String) (now : Clock)
  | confirmWritten (id : Nat) (now : Clock)
  | claimRead (id : Nat) (name code : String) (now : Clock)
  | claimCleared (id : Nat)
  | attemptCounted (id : Nat)
  | manualAuthorized (url code : String) (now : Clock)
  | manualRead (id : Nat) (name code : String) (now : Clock)
  | manualDiscarded (id : Nat)
  | manualChecked (id : Nat)
  | manualConsumed (id : Nat)
  | manualStored (id : Nat) (now : Clock)
  | attemptFailed (name : String)
  | revoked (name : String)
  | blocked (name : String)
  | unblocked (name : String)
deriving DecidableEq

/-- A key that a claim has returned. -/
structure Handout where
  name : String
  code : String
  key : Key
deriving DecidableEq

/-- The two tables and the calls, with the number of keys drawn, the name and the code of each
confirmation by the key it drew, the keys that claims have returned, and the keys that were in
use when their worker was revoked or blocked. -/
structure PairingState where
  pairings : Dict String PairingRow
  manual : Dict String ManualRow
  calls : Dict Nat PairingCall
  drawn : Nat
  releases : Dict Key (String × String)
  handouts : List Handout
  dead : List Key

namespace PairingState

/-- Empty tables. -/
def init : PairingState := ⟨Dict.empty, Dict.empty, Dict.empty, 0, Dict.empty, [], []⟩

/-- The call awaits another statement, or has ended. -/
def goOn (s : PairingState) (id : Nat) (call : PairingCall) : PairingState :=
  { s with calls := s.calls.set id call }

/-- `UPDATE cluster_pairings … WHERE name = ?`. -/
def update (s : PairingState) (name : String) (f : PairingRow → PairingRow) : PairingState :=
  { s with pairings := s.pairings.modify name f }

/-- `INSERT … ON CONFLICT(name) DO UPDATE`. -/
def upsert (s : PairingState) (name : String) (now : Clock) (f : PairingRow → PairingRow) :
    PairingState :=
  { s with
    pairings := s.pairings.set name (f ((s.pairings.get? name).getD { createdTs := now })) }

/-- `_increment_attempts`. -/
def incrementAttempts (s : PairingState) (name : String) : PairingState :=
  s.update name fun row => { row with claimAttempts := row.claimAttempts + 1 }

/-- `get_signing_key`. -/
def signingKey (s : PairingState) (name : String) : Option Key :=
  ((s.pairings.get? name).filter fun row => !row.revoked && !row.blocked).bind
    PairingRow.signingKey

/-- The key of a worker that is revoked or blocked is dead. -/
def kill (s : PairingState) (name : String) (f : PairingRow → PairingRow) : PairingState :=
  { s.update name f with
    dead := ((s.pairings.get? name).bind PairingRow.signingKey).toList ++ s.dead }

section Statements

variable (sha256 : String → String)

/-- `hmac.compare_digest`, which raises on strings that are not ASCII. -/
def compareDigest (a b : String) : Option Bool :=
  if (a.toList ++ b.toList).all fun c => c.toNat < 128 then some (a = b) else none

/-- `confirm` up to its first write. -/
def confirmCall (row : Option PairingRow) (name code : String) (now : Clock) : PairingCall :=
  match row with
  | none => .done (.confirmed false)
  | some row =>
    if row.blocked || !row.pendingValid now then .done (.confirmed false)
    else
      match compareDigest (sha256 code) (row.pendingCodeHash.getD "") with
      | none => .done .raised
      | some false => .counting name (.confirmed false)
      | some true => .confirming name code

/-- `claim` up to its first write. -/
def claimCall (row : Option PairingRow) (name code : String) (now : Clock) : PairingCall :=
  match row with
  | none => .done (.claimed none)
  | some row =>
    if !row.confirmed || !row.pendingValid now then .done (.claimed none)
    else
      match compareDigest (sha256 code) (row.pendingCodeHash.getD ""), row.signingKey with
      | none, _ => .done .raised
      | some false, _ => .counting name (.claimed none)
      | some true, none => .done .raised
      | some true, some key => .clearing name code key

/-- `manual_claim` after its first read. -/
def manualCall (row : Option ManualRow) (name codeHash : String) (now : Clock) : PairingCall :=
  match row with
  | none => .done (.manual none)
  | some row =>
    if expirySecs < now - row.createdTs then .discarding codeHash
    else .checking name codeHash row.url row.signingKey

/-- One statement. -/
def step (s : PairingState) : PairingEvent → Option PairingState
  | .announced name url platform codeHash now =>
    some (s.upsert name now fun row => row.announced url platform codeHash now)
  | .confirmRead id name code now =>
    if (s.calls.get? id).isSome then none
    else some (s.goOn id (confirmCall sha256 (s.pairings.get? name) name code now))
  | .confirmWritten id now =>
    match s.calls.get? id with
    | some (.confirming name code) =>
      some
        { (s.update name fun row => row.confirmedBy s.drawn now).goOn id
            (.done (.confirmed true)) with
          drawn := s.drawn + 1
          releases := s.releases.set s.drawn (name, code) }
    | _ => none
  | .claimRead id name code now =>
    if (s.calls.get? id).isSome then none
    else some (s.goOn id (claimCall sha256 (s.pairings.get? name) name code now))
  | .claimCleared id =>
    match s.calls.get? id with
    | some (.clearing name code key) =>
      if (s.pairings.get? name).any PairingRow.confirmed then
        some
          { (s.update name PairingRow.cleared).goOn id (.done (.claimed (some key))) with
            handouts := s.handouts ++ [⟨name, code, key⟩] }
      else some (s.goOn id (.done (.claimed none)))
    | _ => none
  | .attemptCounted id =>
    match s.calls.get? id with
    | some (.counting name reply) => some ((s.incrementAttempts name).goOn id (.done reply))
    | _ => none
  | .manualAuthorized url code now =>
    some
      { s with
        manual := s.manual.set (sha256 code) ⟨url, s.drawn, now⟩
        drawn := s.drawn + 1 }
  | .manualRead id name code now =>
    if (s.calls.get? id).isSome then none
    else
      some (s.goOn id (manualCall (s.manual.get? (sha256 code)) name (sha256 code) now))
  | .manualDiscarded id =>
    match s.calls.get? id with
    | some (.discarding codeHash) =>
      some { s.goOn id (.done (.manual none)) with manual := s.manual.pop codeHash }
    | _ => none
  | .manualChecked id =>
    match s.calls.get? id with
    | some (.checking name codeHash url key) =>
      if (s.pairings.get? name).any PairingRow.blocked then
        some (s.goOn id (.done (.manual none)))
      else some (s.goOn id (.consuming name codeHash url key))
    | _ => none
  | .manualConsumed id =>
    match s.calls.get? id with
    | some (.consuming name codeHash url key) =>
      if (s.manual.get? codeHash).isNone then some (s.goOn id (.done (.manual none)))
      else some { s.goOn id (.storing name url key) with manual := s.manual.pop codeHash }
    | _ => none
  | .manualStored id now =>
    match s.calls.get? id with
    | some (.storing name url key) =>
      some ((s.upsert name now fun row => row.restored key).goOn id
        (.done (.manual (some (key, url)))))
    | _ => none
  | .attemptFailed name => some (s.incrementAttempts name)
  | .revoked name =>
    if (s.pairings.get? name).any fun row => !row.revoked then
      some (s.kill name fun row => { row with revoked := true })
    else some s
  | .blocked name =>
    if (s.pairings.get? name).any fun row => !row.blocked then
      some (s.kill name fun row => { row with revoked := true, blocked := true })
    else some s
  | .unblocked name =>
    if (s.pairings.get? name).any PairingRow.blocked then
      some (s.update name fun row => { row with blocked := false })
    else some s

end Statements

/-! ## Reads after writes -/

/-- Only the call that goes on is changed. -/
@[simp]
theorem get?_goOn (s : PairingState) (id : Nat) (call : PairingCall) (x : Nat) :
    (s.goOn id call).calls.get? x = if id = x then some call else s.calls.get? x :=
  Dict.get?_set _ _ _ _

/-- Only the row of the name is changed. -/
@[simp]
theorem get?_update (s : PairingState) (name : String) (f : PairingRow → PairingRow) (x : String) :
    (s.update name f).pairings.get? x =
      if name = x then (s.pairings.get? x).map f else s.pairings.get? x :=
  Dict.get?_modify _ _ _ _

/-- The row of the name is made where there is none. -/
@[simp]
theorem get?_upsert (s : PairingState) (name : String) (now : Clock)
    (f : PairingRow → PairingRow) (x : String) : (s.upsert name now f).pairings.get? x =
      if name = x then some (f ((s.pairings.get? name).getD { createdTs := now }))
      else s.pairings.get? x :=
  Dict.get?_set _ _ _ _

/-- Digests that compare as equal are equal. -/
theorem eq_of_compareDigest {a b : String} (h : compareDigest a b = some true) : a = b := by
  unfold compareDigest at h
  split at h
  · simpa using h
  · contradiction

/-- A claim that clears has found the code of a confirmed row, and its key. -/
theorem claimCall_eq_clearing {sha256 : String → String} {found : Option PairingRow}
    {name code name' code' : String} {now : Clock} {key : Key}
    (h : claimCall sha256 found name code now = .clearing name' code' key) :
    name' = name ∧ code' = code ∧ ∃ row, found = some row ∧ row.confirmed = true ∧
      row.pendingCodeHash = some (sha256 code) ∧ row.signingKey = some key := by
  cases found with
  | none => contradiction
  | some row =>
    simp only [claimCall] at h
    split at h
    · contradiction
    rename_i hvalid
    simp only [PairingRow.pendingValid, Bool.or_eq_true, Bool.not_eq_true',
      Bool.and_eq_false_iff, not_or, Bool.not_eq_false] at hvalid
    split at h
    · contradiction
    · contradiction
    · contradiction
    · rename_i hdigest hkey
      cases h
      have hhash := eq_of_compareDigest hdigest
      refine ⟨rfl, rfl, row, rfl, hvalid.1, ?_, hkey⟩
      cases hpending : row.pendingCodeHash with
      | none => simp [hpending] at hvalid
      | some codeHash => rw [hhash, hpending, Option.getD_some]

/-- The key of a worker authenticates it while it is neither revoked nor blocked. -/
theorem signingKey_eq_some_iff {s : PairingState} {name : String} {key : Key} :
    s.signingKey name = some key ↔
      ∃ row, s.pairings.get? name = some row ∧ row.signingKey = some key ∧
        row.revoked = false ∧ row.blocked = false := by
  unfold signingKey
  simp only [Option.bind_eq_some_iff, Option.filter_eq_some_iff, Bool.and_eq_true,
    Bool.not_eq_true']
  constructor
  · rintro ⟨row, ⟨hget, hrevoked, hblocked⟩, hkey⟩
    exact ⟨row, hget, hkey, hrevoked, hblocked⟩
  · rintro ⟨row, hget, hkey, hrevoked, hblocked⟩
    exact ⟨row, ⟨hget, hrevoked, hblocked⟩, hkey⟩

end PairingState

end Pairing

end TinyAgentOS.Cluster
