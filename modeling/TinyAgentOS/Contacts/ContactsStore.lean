import Mathlib.Data.Rat.Defs
import TinyAgentOS.Library.Dict
import TinyAgentOS.Library.Session

/-!
# The store of contacts and peer links

Contacts, their links with the hashes of the tokens, and the nonces of the envelopes that were
received.  A method is a sequence of statements; the methods that run at the same time share one
connection, on which a nonce that is there already makes `record_nonce` roll back.

Main results:

- `find_eq_some`: what a token is looked up to.
- `write_cases` and `rollback_cases`: which calls write, and which roll back.
-/

namespace TinyAgentOS.Contacts

open Collections Connections

/-! ## Tables -/

/-- `VALID_CONTACT_STATUSES`. -/
inductive ContactStatus where
  | pending
  | active
  | blocked
  | revoked
deriving DecidableEq

def ContactStatus.parse : String → Option ContactStatus
  | "pending" => some .pending
  | "active" => some .active
  | "blocked" => some .blocked
  | "revoked" => some .revoked
  | _ => none

/-- A row of `contacts`, beside its key. -/
structure Contact where
  hubUsername : String
  displayName : String
  ed25519Pub : String
  x25519Pub : String
  status : ContactStatus
  localCrmId : Option String
  createdAt : ℚ
  revokedAt : Option ℚ
deriving DecidableEq

/-- A row of `peer_links`, beside its key. -/
structure PeerLink where
  inboundTokenHash : String
  outboundToken : String
  endpoints : List String
  establishedAt : ℚ
  lastSeenAt : Option ℚ
  revokedAt : Option ℚ
deriving DecidableEq

/-- `ON CONFLICT(contact_id) DO UPDATE`. -/
def Contact.refresh (old contact : Contact) : Contact :=
  { contact with hubUsername := old.hubUsername, createdAt := old.createdAt, revokedAt := none }

/-- `ON CONFLICT(contact_id) DO UPDATE`. -/
def PeerLink.refresh (old link : PeerLink) : PeerLink :=
  { link with lastSeenAt := old.lastSeenAt, revokedAt := none }

/-- `PRIMARY KEY (contact_id, kind, nonce)`. -/
structure NonceKey where
  contactId : String
  kind : String
  nonce : String
deriving DecidableEq

structure Tables where
  contacts : Dict String Contact
  links : Dict String PeerLink
  nonces : Dict NonceKey ℚ

/-- A parameter as the driver binds it to a column of text, which must not be null. -/
inductive Binding where
  | text (s : String)
  | null
  | unsupported
deriving DecidableEq

/-- `NONCE_MAX_AGE_SECS`. -/
def nonceMaxAgeSecs : ℚ := 600

/-- The row that `record_nonce` is to insert. -/
structure NonceRow where
  nonce : Binding
  contactId : String
  kind : Binding
  seenAt : ℚ
deriving DecidableEq

inductive InsertError where
  | integrityError
  | unsupportedType
deriving DecidableEq

/-- `DELETE FROM peer_nonces WHERE seen_at < ?`. -/
def Tables.prune (t : Tables) (cutoff : ℚ) : Tables :=
  { t with nonces := t.nonces.filterValues fun seenAt => decide (cutoff ≤ seenAt) }

/-- `INSERT INTO peer_nonces`. -/
def Tables.insertNonce (t : Tables) (row : NonceRow) : Except InsertError Tables :=
  match row.nonce, row.kind with
  | .text nonce, .text kind =>
    if (t.nonces.get? ⟨row.contactId, kind, nonce⟩).isSome then .error .integrityError
    else .ok { t with nonces := t.nonces.set ⟨row.contactId, kind, nonce⟩ row.seenAt }
  | .unsupported, _ => .error .unsupportedType
  | _, .unsupported => .error .unsupportedType
  | _, _ => .error .integrityError

inductive Statement where
  | upsertContact (contactId : String) (contact : Contact)
  | setStatus (contactId : String) (status : ContactStatus) (revokedAt : Option ℚ)
  | upsertLink (contactId : String) (link : PeerLink)
  | setLastSeen (contactId : String) (now : ℚ)
  | revokeLink (contactId : String) (now : ℚ)
  | revokeContact (contactId : String) (now : ℚ)
deriving DecidableEq

/-- A statement, or the `IntegrityError` of a user name that another contact has. -/
def Statement.run (t : Tables) : Statement → Option Tables
  | .upsertContact contactId contact =>
    match t.contacts.get? contactId with
    | some old =>
      some { t with contacts := t.contacts.set contactId (old.refresh contact) }
    | none =>
      if t.contacts.values.any fun other => other.hubUsername = contact.hubUsername then none
      else some { t with contacts := t.contacts.set contactId contact }
  | .setStatus contactId status revokedAt =>
    some { t with
      contacts := t.contacts.modify contactId fun row => { row with status, revokedAt } }
  | .upsertLink contactId link =>
    match t.links.get? contactId with
    | some old =>
      some { t with links := t.links.set contactId (old.refresh link) }
    | none => some { t with links := t.links.set contactId link }
  | .setLastSeen contactId now =>
    some { t with
      links := t.links.modify contactId fun row => { row with lastSeenAt := some now } }
  | .revokeLink contactId now =>
    some { t with
      links := t.links.modify contactId fun row => { row with revokedAt := some now } }
  | .revokeContact contactId now =>
    some { t with
      contacts := t.contacts.modify contactId fun row =>
        { row with status := .revoked, revokedAt := some now } }

/-! ## Queries -/

/-- A row of `contacts` joined with one of `peer_links`. -/
structure PeerRow where
  contactId : String
  contact : Contact
  link : PeerLink
deriving DecidableEq

inductive Query where
  | getContact (contactId : String)
  | getContactByUsername (hubUsername : String)
  | listContacts (status : Option String)
  | getPeerLink (contactId : String)
  | findContactByInboundToken (token : String)
deriving DecidableEq

inductive Result where
  | done
  | flag (value : Bool)
  | contact (found : Option (String × Contact))
  | contacts (rows : List (String × Contact))
  | link (found : Option PeerLink)
  | peer (found : Option PeerRow)
deriving DecidableEq

section Lookups

variable (hashToken : String → String)

/-- The row of a link that is not revoked, with a contact that is active, under the hash of the
token. -/
def Tables.peerRow? (t : Tables) (token : String) (e : String × PeerLink) : Option PeerRow :=
  match t.contacts.get? e.1 with
  | none => none
  | some contact =>
    if e.2.inboundTokenHash = hashToken token ∧ contact.status = .active ∧
        e.2.revokedAt = none then some ⟨e.1, contact, e.2⟩
    else none

/-- `find_contact_by_inbound_token`. -/
def Tables.findContactByInboundToken (t : Tables) (token : String) : Option PeerRow :=
  (t.links.entries.filterMap (t.peerRow? hashToken token)).head?

/-- The result of a query. -/
def Query.run (t : Tables) : Query → Result
  | .getContact contactId =>
    .contact ((t.contacts.get? contactId).map fun contact => (contactId, contact))
  | .getContactByUsername hubUsername =>
    .contact (t.contacts.entries.find? fun e => e.2.hubUsername = hubUsername)
  | .listContacts status =>
    .contacts ((t.contacts.entries.filter fun e =>
      match status with
      | none => true
      | some status => status = "" || ContactStatus.parse status = some e.2.status).mergeSort
        fun x y => decide (x.2.createdAt ≤ y.2.createdAt))
  | .getPeerLink contactId => .link (t.links.get? contactId)
  | .findContactByInboundToken token => .peer (t.findContactByInboundToken hashToken token)

end Lookups

/-! ## Calls -/

structure ContactArgs where
  contactId : String
  hubUsername : String
  displayName : String
  ed25519Pub : String
  x25519Pub : String
  status : String := "active"
  localCrmId : Option String := none
deriving DecidableEq

inductive Operation where
  | addContact (args : ContactArgs)
  | setContactStatus (contactId status : String)
  | establishPeerLink (contactId inboundToken outboundToken : String) (endpoints : List String)
  | recordNonce (nonce : Binding) (contactId : String) (kind : Binding)
  | markPeerSeen (contactId : String)
  | revokePeerLink (contactId : String)
  | lookup (query : Query)
deriving DecidableEq

/-- A call, by what it comes to next. -/
inductive Call where
  | writing (next : Statement) (rest : List Statement)
  | committing
  | pruning (row : NonceRow)
  | committingPrune (row : NonceRow)
  | inserting (row : NonceRow)
  | committingNonce (row : NonceRow)
  | rollingBack (row : NonceRow)
  | querying (query : Query)
  | returned (result : Result)
  | failed
deriving DecidableEq

section Statements

variable (hashToken : String → String)

/-- A call begins, at a time; an invalid status makes it fail before its statement. -/
def Operation.begin (now : ℚ) : Operation → Call
  | .addContact args =>
    match ContactStatus.parse args.status with
    | none => .failed
    | some status =>
      .writing (.upsertContact args.contactId
        { hubUsername := args.hubUsername
          displayName := args.displayName
          ed25519Pub := args.ed25519Pub
          x25519Pub := args.x25519Pub
          status
          localCrmId := args.localCrmId
          createdAt := now
          revokedAt := none }) []
  | .setContactStatus contactId status =>
    match ContactStatus.parse status with
    | none => .failed
    | some status =>
      .writing (.setStatus contactId status
        (if status = .blocked ∨ status = .revoked then some now else none)) []
  | .establishPeerLink contactId inboundToken outboundToken endpoints =>
    .writing (.upsertLink contactId
      { inboundTokenHash := hashToken inboundToken
        outboundToken
        endpoints
        establishedAt := now
        lastSeenAt := none
        revokedAt := none }) []
  | .recordNonce nonce contactId kind => .pruning ⟨nonce, contactId, kind, now⟩
  | .markPeerSeen contactId => .writing (.setLastSeen contactId now) []
  | .revokePeerLink contactId =>
    .writing (.revokeLink contactId now) [.revokeContact contactId now]
  | .lookup query => .querying query

/-- The statements that are left, then the commit. -/
def Call.afterStatements : List Statement → Call
  | [] => .committing
  | next :: rest => .writing next rest

/-- The next statement of a call on the tables that it sees: what it does to the connection, and
how the call goes on. -/
def Call.next (t : Tables) : Call → Option (Effect Tables × Call)
  | .writing next rest =>
    match next.run t with
    | none => some (.read, .failed)
    | some t' => some (.write t', .afterStatements rest)
  | .committing => some (.commit, .returned .done)
  | .pruning row => some (.write (t.prune (row.seenAt - nonceMaxAgeSecs)), .committingPrune row)
  | .committingPrune row => some (.commit, .inserting row)
  | .inserting row =>
    match t.insertNonce row with
    | .error .integrityError => some (.read, .rollingBack row)
    | .error .unsupportedType => some (.read, .failed)
    | .ok t' => some (.write t', .committingNonce row)
  | .committingNonce _ => some (.commit, .returned (.flag true))
  | .rollingBack _ => some (.rollback, .returned (.flag false))
  | .querying query => some (.read, .returned (query.run hashToken t))
  | .returned _ => none
  | .failed => none

end Statements

section Facts

variable {hashToken : String → String} {t t' : Tables}

/-- A token is looked up to the active contact of a link that has its hash and is not revoked. -/
theorem find_eq_some {token : String} {row : PeerRow}
    (h : t.findContactByInboundToken hashToken token = some row) :
    t.contacts.get? row.contactId = some row.contact ∧
      t.links.get? row.contactId = some row.link ∧ row.contact.status = .active ∧
      row.link.revokedAt = none ∧ row.link.inboundTokenHash = hashToken token := by
  obtain ⟨⟨contactId, link⟩, hentry, hrow⟩ := List.mem_filterMap.mp (List.mem_of_mem_head? h)
  simp only [Tables.peerRow?] at hrow
  split at hrow
  · contradiction
  rename_i contact hcontact
  split at hrow
  · rename_i hmeets
    cases hrow
    exact ⟨hcontact, Dict.mem_entries_iff.mp hentry, hmeets.2.1, hmeets.2.2, hmeets.1⟩
  · contradiction

/-- A nonce changes nothing but the nonces. -/
theorem insertNonce_eq_ok {row : NonceRow} (h : t.insertNonce row = .ok t') :
    ∃ kind nonce, row.kind = .text kind ∧ row.nonce = .text nonce ∧
      t.nonces.get? ⟨row.contactId, kind, nonce⟩ = none ∧
      t' = { t with nonces := t.nonces.set ⟨row.contactId, kind, nonce⟩ row.seenAt } := by
  unfold Tables.insertNonce at h
  split at h
  · rename_i nonce kind hnonce hkind
    split at h
    · contradiction
    rename_i hfree
    cases h
    exact ⟨kind, nonce, hkind, hnonce, Option.not_isSome_iff_eq_none.mp hfree, rfl⟩
  · contradiction
  · contradiction
  · contradiction

/-- No other statement changes the nonces. -/
theorem nonces_of_run {stmt : Statement} (h : stmt.run t = some t') : t'.nonces = t.nonces := by
  cases stmt with
  | upsertContact contactId contact =>
    simp only [Statement.run] at h
    split at h
    · cases h
      rfl
    · split at h
      · contradiction
      · cases h
        rfl
  | upsertLink contactId link =>
    simp only [Statement.run] at h
    split at h <;> cases h <;> rfl
  | setStatus | setLastSeen | revokeLink | revokeContact =>
    cases h
    rfl

variable {call call' : Call}

/-- A call writes with a statement of its own, by removing old nonces or by adding one. -/
theorem write_cases (h : call.next hashToken t = some (.write t', call')) :
    (∃ next rest, call = .writing next rest ∧ next.run t = some t' ∧
      call' = .afterStatements rest) ∨
      (∃ row, call = .pruning row ∧ t' = t.prune (row.seenAt - nonceMaxAgeSecs) ∧
        call' = .committingPrune row) ∨
      ∃ row, call = .inserting row ∧ t.insertNonce row = .ok t' ∧
        call' = .committingNonce row := by
  cases call with
  | writing next rest =>
    simp only [Call.next] at h
    split at h
    · cases h
    rename_i hrun
    cases h
    exact Or.inl ⟨next, rest, rfl, hrun, rfl⟩
  | pruning row =>
    cases h
    exact Or.inr (Or.inl ⟨row, rfl, rfl, rfl⟩)
  | inserting row =>
    simp only [Call.next] at h
    split at h
    · cases h
    · cases h
    · rename_i hinsert
      cases h
      exact Or.inr (Or.inr ⟨row, rfl, hinsert, rfl⟩)
  | returned | failed => contradiction
  | _ => cases h

/-- Only a nonce that is there already rolls back. -/
theorem rollback_cases (h : call.next hashToken t = some (.rollback, call')) :
    ∃ row, call = .rollingBack row ∧ call' = .returned (.flag false) := by
  cases call with
  | rollingBack row =>
    cases h
    exact ⟨row, rfl, rfl⟩
  | writing | inserting =>
    simp only [Call.next] at h
    split at h <;> cases h
  | returned | failed => contradiction
  | _ => cases h

end Facts

end TinyAgentOS.Contacts
