import TinyAgentOS.Library.Dict
import TinyAgentOS.Library.Transition

/-!
# The secrets store

Values are kept encrypted.  A value in the legacy format is encrypted anew by whoever reads it,
with statements of other calls between the reading and the writing.  Calls interleave statement by
statement on one connection, whose open transaction nothing rolls back.

Main results:

- `decrypt_encrypt`: an encrypted value is decrypted to itself.
-/

namespace TinyAgentOS.Secrets

open Collections

/-! ## Encryption -/

/-- `_FERNET_PREFIX`. -/
def fernetPrefix : String := "fernet:"

/-- `Fernet` under the key of the directory, encrypting with what it draws at random, and
`_xor_decrypt`; a decryption may raise. -/
structure Cipher where
  fernetEncrypt : String → String → String
  fernetDecrypt : String → Option String
  xorDecrypt : String → Option String

/-- Decryption inverts encryption. -/
structure Cipher.Lawful (c : Cipher) : Prop where
  decrypt_encrypt : ∀ random value, c.fernetDecrypt (c.fernetEncrypt random value) = some value

/-- `ciphertext.startswith(_FERNET_PREFIX)`. -/
def isFernet (ciphertext : String) : Bool :=
  fernetPrefix.toList.isPrefixOf ciphertext.toList

/-- `SecretsStore._enc`. -/
def encrypt (c : Cipher) (random value : String) : String :=
  fernetPrefix ++ c.fernetEncrypt random value

/-- `_decrypt`. -/
def decrypt (c : Cipher) (encrypted : String) : Option String :=
  if isFernet encrypted then
    c.fernetDecrypt (String.ofList (encrypted.toList.drop fernetPrefix.toList.length))
  else c.xorDecrypt encrypted

theorem decrypt_encrypt {c : Cipher} (h : c.Lawful) (random value : String) :
    decrypt c (encrypt c random value) = some value := by
  have hchars : (encrypt c random value).toList =
      fernetPrefix.toList ++ (c.fernetEncrypt random value).toList := String.toList_append
  have hprefix : isFernet (encrypt c random value) = true := by
    unfold isFernet
    rw [hchars]
    exact List.isPrefixOf_iff_prefix.mpr (List.prefix_append _ _)
  unfold decrypt
  rw [if_pos hprefix, hchars, List.drop_left, String.ofList_toList]
  exact h.decrypt_encrypt random value

/-! ## Tables and calls -/

/-- A row of `secrets`, without its dates. -/
structure Secret where
  name : String
  category : String
  value : String
  description : String

/-- What `get` returns. -/
structure Found where
  id : Nat
  name : String
  category : String
  value : String
  description : String
  agents : List String

/-- What `list` returns of a secret. -/
structure Listed where
  id : Nat
  name : String
  category : String
  description : String
  agents : List String

/-- What `get_agent_secrets` returns of a secret. -/
structure Granted where
  id : Nat
  name : String
  category : String
  value : String
  description : String

structure AddArgs where
  name : String
  value : String
  category : String := "general"
  description : String := ""
  agents : List String := []

structure UpdateArgs where
  name : String
  value : Option String := none
  category : Option String := none
  description : Option String := none
  agents : Option (List String) := none

inductive Statement where
  | setValue (name value : String)
  | setCategory (name category : String)
  | setDescription (name description : String)
  | dropAccess (secretId : Nat)
  | insertAccess (secretId : Nat) (agentName : String)

inductive Result where
  | secretId (id : Nat)
  | found (secret : Option Found)
  | flag (value : Bool)
  | listed (secrets : List Listed)
  | granted (secrets : List Granted)

/-- Who called `get`: nobody, or `update`. -/
inductive Reader where
  | caller
  | updating (args : UpdateArgs)

/-- What is left to do after a value was decrypted. -/
inductive Continuation where
  | found (row : Secret) (agents : List String) (reader : Reader)
  | rows (row : Secret) (rest : List (Nat × Secret)) (done : List Granted)

/-- A call, by the statement that it comes to next.  A commit changes nothing that a statement
sees, and is not a step of its own. -/
inductive Call where
  | inserting (args : AddArgs)
  | running (next : Statement) (rest : List Statement) (result : Result)
  | selecting (name : String) (reader : Reader)
  | selectingAgents (id : Nat) (row : Secret) (reader : Reader)
  | migrating (id : Nat) (plaintext : String) (k : Continuation)
  | deleting (name : String)
  | listing (category : Option String)
  | listingAgents (id : Nat) (row : Secret) (rest : List (Nat × Secret)) (done : List Listed)
  | selectingForAgent (agentName : String)
  | returned (result : Result)
  | failed

/-- A value was written to a secret by a call, or was there before all calls. -/
structure Write where
  secretId : Nat
  caller : Option Nat
  value : String
deriving DecidableEq

/-- The two tables, the next value of `AUTOINCREMENT`, the calls, and the writes of values,
the last one first, which the store does not keep. -/
structure State where
  secrets : Dict Nat Secret
  nextId : Nat
  access : List (Nat × String)
  calls : Dict Nat Call
  writes : List Write

inductive Operation where
  | add (args : AddArgs)
  | get (name : String)
  | list (category : Option String)
  | update (args : UpdateArgs)
  | delete (name : String)
  | getAgentSecrets (agentName : String)

inductive Event where
  | call (id : Nat) (operation : Operation)
  | go (id : Nat) (random : String)

/-- The first statement of a call. -/
def Operation.begin : Operation → Call
  | .add args => .inserting args
  | .get name => .selecting name .caller
  | .list category => .listing category
  | .update args => .selecting args.name (.updating args)
  | .delete name => .deleting name
  | .getAgentSecrets agentName => .selectingForAgent agentName

/-- The statements that are left, then the result. -/
def Call.afterStatements : List Statement → Result → Call
  | [], result => .returned result
  | next :: rest, result => .running next rest result

/-- The statements of `update` after `get`. -/
def UpdateArgs.statements (args : UpdateArgs) (secretId : Nat) : List Statement :=
  (args.value.map (.setValue args.name)).toList ++
    (args.category.map (.setCategory args.name)).toList ++
    (args.description.map (.setDescription args.name)).toList ++
    match args.agents with
    | none => []
    | some agents => .dropAccess secretId :: agents.map (.insertAccess secretId)

/-- `get` returns. -/
def Reader.resume (found : Found) : Reader → Call
  | .caller => .returned (.found (some found))
  | .updating args => .afterStatements (args.statements found.id) (.flag true)

/-- The loop of `get_agent_secrets`, up to a value that is to be encrypted anew. -/
def decryptRows (c : Cipher) : List (Nat × Secret) → List Granted → Call
  | [], done => .returned (.granted done)
  | (id, row) :: rest, done =>
    match decrypt c row.value with
    | none => .failed
    | some plaintext =>
      if isFernet row.value then
        decryptRows c rest
          (done ++ [⟨id, row.name, row.category, plaintext, row.description⟩])
      else .migrating id plaintext (.rows row rest done)

/-- `_dec` returns. -/
def Continuation.resume (c : Cipher) (id : Nat) (plaintext : String) : Continuation → Call
  | .found row agents reader =>
    reader.resume ⟨id, row.name, row.category, plaintext, row.description, agents⟩
  | .rows row rest done =>
    decryptRows c rest (done ++ [⟨id, row.name, row.category, plaintext, row.description⟩])

/-- `ORDER BY category, name`. -/
def precedes (x y : Nat × Secret) : Bool :=
  decide (x.2.category < y.2.category) ||
    (decide (x.2.category = y.2.category) && decide (x.2.name ≤ y.2.name))

/-- The loop of `list`. -/
def listRows : List (Nat × Secret) → List Listed → Call
  | [], done => .returned (.listed done)
  | (id, row) :: rest, done => .listingAgents id row rest done

namespace State

/-- The call goes on. -/
def put (s : State) (id : Nat) (call : Call) : State :=
  { s with calls := s.calls.set id call }

/-- `WHERE name = ?`. -/
def byName (s : State) (name : String) : Option (Nat × Secret) :=
  s.secrets.entries.find? fun e => e.2.name = name

/-- `_get_agents`. -/
def agentsOf (s : State) (secretId : Nat) : List String :=
  (s.access.filter fun a => a.1 = secretId).map Prod.snd

/-- `UPDATE secrets SET ... WHERE name = ?`, of a column other than the value. -/
def updateRow (s : State) (name : String) (f : Secret → Secret) : State :=
  match s.byName name with
  | none => s
  | some e => { s with secrets := s.secrets.modify e.1 f }

/-- `UPDATE secrets SET value = ? WHERE id = ?`. -/
def storeValue (s : State) (secretId : Nat) (ciphertext : String) : State :=
  { s with secrets := s.secrets.modify secretId fun row => { row with value := ciphertext } }

/-- A call writes a value. -/
def record (s : State) (secretId : Nat) (caller : Nat) (value : String) : State :=
  { s with writes := ⟨secretId, some caller, value⟩ :: s.writes }

/-- `INSERT INTO secret_access`, which may break the primary key or the foreign key. -/
def insertAccess (s : State) (secretId : Nat) (agentName : String) : Option State :=
  if (s.secrets.get? secretId).isNone || s.access.contains (secretId, agentName) then none
  else some { s with access := s.access ++ [(secretId, agentName)] }

/-- A statement of a call, or an `IntegrityError`. -/
def apply (c : Cipher) (s : State) (id : Nat) (random : String) : Statement → Option State
  | .setValue name value =>
    match s.byName name with
    | none => some s
    | some e => some ((s.storeValue e.1 (encrypt c random value)).record e.1 id value)
  | .setCategory name category => some (s.updateRow name fun row => { row with category })
  | .setDescription name description =>
    some (s.updateRow name fun row => { row with description })
  | .dropAccess secretId =>
    some { s with access := s.access.filter fun a => a.1 ≠ secretId }
  | .insertAccess secretId agentName => s.insertAccess secretId agentName

/-- `INSERT INTO secrets`, unless the name is taken. -/
def insert (c : Cipher) (s : State) (id : Nat) (random : String) (args : AddArgs) : State :=
  if (s.byName args.name).isSome then s.put id .failed
  else
    let row : Secret := ⟨args.name, args.category, encrypt c random args.value, args.description⟩
    ({ s with secrets := s.secrets.set s.nextId row, nextId := s.nextId + 1 }.record s.nextId id
      args.value).put id
      (.afterStatements (args.agents.map (.insertAccess s.nextId)) (.secretId s.nextId))

/-- `DELETE FROM secrets WHERE name = ?`, with the rows of `secret_access`. -/
def delete (s : State) (id : Nat) (name : String) : State :=
  match s.byName name with
  | none => s.put id (.returned (.flag false))
  | some e =>
    { s with
      secrets := s.secrets.pop e.1
      access := s.access.filter fun a => a.1 ≠ e.1 }.put id (.returned (.flag true))

/-- The rows that `list` selects. -/
def rowsIn (s : State) (category : Option String) : List (Nat × Secret) :=
  (s.secrets.entries.filter fun e =>
    match category with
    | none => true
    | some category => category = "" || e.2.category = category).mergeSort precedes

/-- The rows that `get_agent_secrets` selects. -/
def rowsOf (s : State) (agentName : String) : List (Nat × Secret) :=
  (s.secrets.entries.filter fun e => s.access.contains (e.1, agentName)).mergeSort precedes

/-- `_dec` of a value that `get` has read. -/
def decryptRow (c : Cipher) (s : State) (secretId : Nat) (row : Secret) (reader : Reader) :
    Call :=
  match decrypt c row.value with
  | none => .failed
  | some plaintext =>
    let k := Continuation.found row (s.agentsOf secretId) reader
    if isFernet row.value then k.resume c secretId plaintext
    else .migrating secretId plaintext k

/-- The next statement of a call. -/
def exec (c : Cipher) (s : State) (id : Nat) (random : String) : Call → Option State
  | .inserting args => some (s.insert c id random args)
  | .running next rest result =>
    match s.apply c id random next with
    | none => some (s.put id .failed)
    | some s' => some (s'.put id (.afterStatements rest result))
  | .selecting name reader =>
    match s.byName name, reader with
    | none, .caller => some (s.put id (.returned (.found none)))
    | none, .updating _ => some (s.put id (.returned (.flag false)))
    | some e, reader => some (s.put id (.selectingAgents e.1 e.2 reader))
  | .selectingAgents secretId row reader =>
    some (s.put id (s.decryptRow c secretId row reader))
  | .migrating secretId plaintext k =>
    some ((s.storeValue secretId (encrypt c random plaintext)).put id
      (k.resume c secretId plaintext))
  | .deleting name => some (s.delete id name)
  | .listing category => some (s.put id (listRows (s.rowsIn category) []))
  | .listingAgents secretId row rest done =>
    some (s.put id (listRows rest (done ++
      [⟨secretId, row.name, row.category, row.description, s.agentsOf secretId⟩])))
  | .selectingForAgent agentName => some (s.put id (decryptRows c (s.rowsOf agentName) []))
  | .returned _ => none
  | .failed => none

/-- A call begins under a number that no call has, or goes on. -/
def step (c : Cipher) (s : State) : Event → Option State
  | .call id operation =>
    if (s.calls.get? id).isSome then none else some (s.put id operation.begin)
  | .go id random => (s.calls.get? id).bind (s.exec c id random)

/-- The store before all calls. -/
def start (c : Cipher) (secrets : Dict Nat Secret) (nextId : Nat) (access : List (Nat × String)) :
    State :=
  { secrets, nextId, access
    calls := Dict.empty
    writes := secrets.entries.filterMap fun e =>
      (decrypt c e.2.value).map fun value => ⟨e.1, none, value⟩ }

end State

end TinyAgentOS.Secrets
