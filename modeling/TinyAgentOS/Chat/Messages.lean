import TinyAgentOS.Library.Connection
import TinyAgentOS.Library.Json
import TinyAgentOS.Library.Transition
import TinyAgentOS.Projects.TaskStore

/-!
# Chat messages

All messages are written through one connection.  A message of a remote contact that was
delivered before violates a unique index, and its call rolls the connection back.  The
rollback takes with it whatever other calls have inserted and not yet committed; these
commit nothing then, and return as if they had.

Main results:

- `MessageState.Books.step`: what a message needs to become durable.
- `MessageState.Books.sound`: then calls that returned have stored their message.
- `MessageState.always_sound`: the runs in which no accepted message is lost.
- `MessageState.not_sound`: a message lost, and a delivery stored zero times.
-/

namespace TinyAgentOS.Chat

open Collections Connections Transition
open Projects (Clock)

/-! ## Rows -/

/-- A row of `chat_messages`; the JSON columns are kept as their values. -/
structure Message where
  channelId : String
  threadId : Option String
  authorId : String
  authorType : String
  content : String
  contentType : String
  contentBlocks : List Json.Value
  embeds : List Json.Value
  components : List Json.Value
  attachments : List Json.Value
  state : String
  metadata : Dict String Json.Value
  createdAt : Clock
  expiresAt : Option Clock
  remoteMsgId : Option String
  deliveredAt : Option Clock

/-- What the unique index is on, where it applies. -/
abbrev RemoteKey := String × String

def Message.remoteKey (m : Message) : Option RemoteKey :=
  m.remoteMsgId.map fun remoteMsgId => (m.channelId, remoteMsgId)

/-- The arguments of `send_message`. -/
structure SendArgs where
  channelId : String
  authorId : String
  authorType : String
  content : String
  contentType : String := "text"
  threadId : Option String := none
  embeds : Option (List Json.Value) := none
  components : Option (List Json.Value) := none
  attachments : Option (List Json.Value) := none
  contentBlocks : Option (List Json.Value) := none
  metadata : Option (Dict String Json.Value) := none
  state : String := "complete"
  expiresAt : Option Clock := none

/-- The row that `send_message` inserts. -/
def SendArgs.row (args : SendArgs) (now : Clock) : Message :=
  { channelId := args.channelId
    threadId := args.threadId
    authorId := args.authorId
    authorType := args.authorType
    content := args.content
    contentType := args.contentType
    contentBlocks := args.contentBlocks.getD []
    embeds := args.embeds.getD []
    components := args.components.getD []
    attachments := args.attachments.getD []
    state := args.state
    metadata := args.metadata.getD Dict.empty
    createdAt := now
    expiresAt := args.expiresAt
    remoteMsgId := none
    deliveredAt := none }

/-- The arguments of `send_remote_message`. -/
structure RemoteArgs where
  channelId : String
  authorId : String
  contactId : String
  remoteMsgId : String
  content : String
  contentType : String := "text"
  threadId : Option String := none
  contentBlocks : Option (List Json.Value) := none
  metadata : Option (Dict String Json.Value) := none
  createdAt : Option Clock := none

def RemoteArgs.key (args : RemoteArgs) : RemoteKey :=
  (args.channelId, args.remoteMsgId)

/-- `merged_meta`. -/
def RemoteArgs.mergedMeta (args : RemoteArgs) : Dict String Json.Value :=
  let metadata := args.metadata.getD Dict.empty
  if (metadata.get? "contact_id").isSome then metadata
  else metadata.set "contact_id" (.str args.contactId)

/-- The row that `send_remote_message` inserts. -/
def RemoteArgs.row (args : RemoteArgs) (now : Clock) : Message :=
  { channelId := args.channelId
    threadId := args.threadId
    authorId := args.authorId
    authorType := "user"
    content := args.content
    contentType := args.contentType
    contentBlocks := args.contentBlocks.getD []
    embeds := []
    components := []
    attachments := []
    state := "complete"
    metadata := args.mergedMeta
    createdAt := args.createdAt.getD now
    expiresAt := none
    remoteMsgId := some args.remoteMsgId
    deliveredAt := some now }

@[simp]
theorem SendArgs.remoteKey_row (args : SendArgs) (now : Clock) : (args.row now).remoteKey = none :=
  rfl

@[simp]
theorem RemoteArgs.remoteKey_row (args : RemoteArgs) (now : Clock) :
    (args.row now).remoteKey = some args.key :=
  rfl

/-! ## Statements -/

/-- A row under its id. -/
abbrev Insertion := String × Message

/-- Where a call stands, or how it has ended. -/
inductive SendCall where
  /-- The row is inserted. -/
  | committing (msgId : String) (row : Message)
  /-- The call has committed, and is to read the row back. -/
  | reading (msgId : String) (row : Message)
  /-- The insertion has failed, on the index if a key is given. -/
  | rollingBack (key : Option RemoteKey)
  /-- The call returned what it found under its id. -/
  | accepted (msgId : String) (row : Message) (found : Option Message)
  /-- The call returned that the message was delivered before. -/
  | duplicate (key : RemoteKey)
  | raised

/-- Has the call inserted its row, and still to commit? -/
def SendCall.isCommitting : SendCall → Bool
  | .committing _ _ => true
  | _ => false

/-- The statements of the calls, and their ends. -/
inductive MessageEvent where
  | sent (id : Nat) (args : SendArgs) (msgId : String) (now : Clock)
  | remoteSent (id : Nat) (args : RemoteArgs) (msgId : String) (now : Clock)
  | committed (id : Nat)
  | readBack (id : Nat)
  | rolledBack (id : Nat)
  /-- A cancellation reaches the call. -/
  | interrupted (id : Nat)

structure MessageState where
  db : Connection Nat Insertion
  calls : Dict Nat SendCall

namespace MessageState

/-- An empty table. -/
def init : MessageState := ⟨Connection.init, Dict.empty⟩

/-- The rows that a statement sees. -/
def rows (s : MessageState) : List Insertion :=
  (s.db.durable ++ s.db.pending).map Prod.snd

def hasId (s : MessageState) (msgId : String) : Bool :=
  s.rows.any fun w => w.1 = msgId

def hasKey (s : MessageState) (key : RemoteKey) : Bool :=
  s.rows.any fun w => w.2.remoteKey = some key

/-- `get_message`. -/
def getMessage (s : MessageState) (msgId : String) : Option Message :=
  (s.rows.find? fun w => w.1 = msgId).map Prod.snd

/-- The call awaits another statement, or has ended. -/
def goOn (s : MessageState) (id : Nat) (call : SendCall) : MessageState :=
  { s with calls := s.calls.set id call }

/-- The row is inserted. -/
def insert (s : MessageState) (id : Nat) (msgId : String) (row : Message) : MessageState :=
  { s.goOn id (.committing msgId row) with db := s.db.write id (msgId, row) }

/-- One statement. -/
def step (s : MessageState) : MessageEvent → Option MessageState
  | .sent id args msgId now =>
    if (s.calls.get? id).isSome then none
    else if s.hasId msgId then some (s.goOn id .raised)
    else some (s.insert id msgId (args.row now))
  | .remoteSent id args msgId now =>
    if (s.calls.get? id).isSome then none
    else if args.remoteMsgId = "" then some (s.goOn id .raised)
    else if s.hasId msgId then some (s.goOn id (.rollingBack none))
    else if s.hasKey args.key then some (s.goOn id (.rollingBack (some args.key)))
    else some (s.insert id msgId (args.row now))
  | .committed id =>
    match s.calls.get? id with
    | some (.committing msgId row) =>
      some { s.goOn id (.reading msgId row) with db := s.db.commit }
    | _ => none
  | .readBack id =>
    match s.calls.get? id with
    | some (.reading msgId row) =>
      some (s.goOn id (.accepted msgId row (s.getMessage msgId)))
    | _ => none
  | .rolledBack id =>
    match s.calls.get? id with
    | some (.rollingBack none) => some { s.goOn id .raised with db := s.db.rollback }
    | some (.rollingBack (some key)) =>
      some { s.goOn id (.duplicate key) with db := s.db.rollback }
    | _ => none
  | .interrupted id =>
    match s.calls.get? id with
    | some (.committing _ _) => some (s.goOn id .raised)
    | some (.reading _ _) => some (s.goOn id .raised)
    | some (.rollingBack _) => some (s.goOn id .raised)
    | _ => none

/-! ## Accepted messages -/

/-- The keys of remote messages in a log. -/
def remoteKeys (log : List (Nat × Insertion)) : List RemoteKey :=
  log.filterMap fun p => p.2.2.remoteKey

/-- The remote message is in the database, in one row. -/
def StoredOnce (s : MessageState) (key : RemoteKey) : Prop :=
  (remoteKeys s.db.durable).count key = 1

/-- Every message whose call returned is in the database, a remote one in one row. -/
structure Sound (s : MessageState) : Prop where
  accepted : ∀ id msgId row found, s.calls.get? id = some (.accepted msgId row found) →
    (id, msgId, row) ∈ s.db.durable ∧ ∀ key, row.remoteKey = some key → s.StoredOnce key
  duplicate : ∀ id key, s.calls.get? id = some (.duplicate key) → s.StoredOnce key

/-- What holds of the log for a call to be right. -/
def CallBooks (s : MessageState) (id : Nat) : SendCall → Prop
  | .committing msgId row => (id, msgId, row) ∈ s.db.durable ++ s.db.pending
  | .reading msgId row => (id, msgId, row) ∈ s.db.durable
  | .accepted msgId row _ => (id, msgId, row) ∈ s.db.durable
  | .duplicate key => key ∈ remoteKeys s.db.durable
  | .rollingBack _ => True
  | .raised => True

/-- No remote message is in the log twice, and the calls that went well have their rows in it. -/
structure Books (s : MessageState) : Prop where
  keys : (remoteKeys (s.db.durable ++ s.db.pending)).Nodup
  calls : ∀ id call, s.calls.get? id = some call → s.CallBooks id call

/-- A call that rolls back undoes no insertion that its call has still to commit, and no remote
message that it has taken for delivered. -/
def safeRollback (s : MessageState) : MessageEvent → Bool
  | .rolledBack id =>
    match s.calls.get? id with
    | some (.rollingBack key) =>
      (s.db.pending.all fun p => !(s.calls.get? p.1).any SendCall.isCommitting) &&
        key.all fun k => k ∈ remoteKeys s.db.durable
    | _ => true
  | _ => true

variable {s s' : MessageState} {e : MessageEvent}

theorem remoteKeys_append (log log' : List (Nat × Insertion)) :
    remoteKeys (log ++ log') = remoteKeys log ++ remoteKeys log' :=
  List.filterMap_append

theorem mem_remoteKeys {log : List (Nat × Insertion)} {p : Nat × Insertion} {key : RemoteKey}
    (hp : p ∈ log) (hkey : p.2.2.remoteKey = some key) : key ∈ remoteKeys log :=
  List.mem_filterMap.mpr ⟨p, hp, hkey⟩

/-- What the index has let in. -/
theorem hasKey_eq_false_iff {key : RemoteKey} :
    s.hasKey key = false ↔ key ∉ remoteKeys (s.db.durable ++ s.db.pending) := by
  rw [← Bool.not_eq_true, hasKey, rows, List.any_map, List.any_eq_true]
  apply not_congr
  constructor
  · rintro ⟨p, hp, hkey⟩
    exact mem_remoteKeys hp (by simpa using hkey)
  · intro hmem
    obtain ⟨p, hp, hkey⟩ := List.mem_filterMap.mp hmem
    exact ⟨p, hp, by simpa using hkey⟩

/-- A call that writes nothing goes on. -/
theorem Books.goOn (h : s.Books) {id : Nat} {call : SendCall} (hcall : s.CallBooks id call) :
    (s.goOn id call).Books := by
  refine ⟨h.keys, ?_⟩
  intro i c hc
  rcases Dict.get?_set_cases hc with ⟨rfl, rfl⟩ | ⟨_, hc⟩
  · exact hcall
  · exact h.calls i c hc

/-- A row is inserted whose key, if any, is new. -/
theorem Books.insert (h : s.Books) {id : Nat} {msgId : String} {row : Message}
    (hnew : ∀ key, row.remoteKey = some key → s.hasKey key = false) :
    (s.insert id msgId row).Books := by
  have hlog : (s.insert id msgId row).db.durable ++ (s.insert id msgId row).db.pending =
      (s.db.durable ++ s.db.pending) ++ [(id, msgId, row)] :=
    (List.append_assoc _ _ _).symm
  constructor
  · rw [hlog, remoteKeys_append]
    cases hkey : row.remoteKey with
    | none =>
      have hnone : remoteKeys [(id, msgId, row)] = [] := by simp [remoteKeys, hkey]
      rw [hnone, List.append_nil]
      exact h.keys
    | some key =>
      have hone : remoteKeys [(id, msgId, row)] = [key] := by simp [remoteKeys, hkey]
      rw [hone, List.nodup_append]
      refine ⟨h.keys, List.nodup_singleton key, ?_⟩
      rintro k hk k' hk' rfl
      rw [List.mem_singleton.mp hk'] at hk
      exact hasKey_eq_false_iff.mp (hnew key hkey) hk
  · intro i c hc
    rcases Dict.get?_set_cases hc with ⟨rfl, rfl⟩ | ⟨_, hc⟩
    · show (_ : Nat × Insertion) ∈ _
      rw [hlog]
      exact List.mem_append_right _ List.mem_cons_self
    · have hbooks := h.calls i c hc
      cases c with
      | committing m r =>
        show (_ : Nat × Insertion) ∈ _
        rw [hlog]
        exact List.mem_append_left _ hbooks
      | reading | accepted | duplicate => exact hbooks
      | rollingBack key => trivial
      | raised => trivial

/-- All insertions become durable. -/
theorem Books.commit (h : s.Books) : Books { s with db := s.db.commit } := by
  have hlog : s.db.commit.durable ++ s.db.commit.pending = s.db.durable ++ s.db.pending :=
    List.append_nil _
  constructor
  · show (remoteKeys (s.db.commit.durable ++ s.db.commit.pending)).Nodup
    rw [hlog]
    exact h.keys
  · intro i c hc
    have hbooks := h.calls i c hc
    cases c with
    | committing m r =>
      show (_ : Nat × Insertion) ∈ s.db.commit.durable ++ s.db.commit.pending
      rw [hlog]
      exact hbooks
    | reading | accepted => exact List.mem_append_left _ hbooks
    | duplicate key =>
      show key ∈ remoteKeys (s.db.durable ++ s.db.pending)
      rw [remoteKeys_append]
      exact List.mem_append_left _ hbooks
    | rollingBack key => trivial
    | raised => trivial

/-- The insertions that are undone are none that is to be committed. -/
theorem Books.rollback (h : s.Books)
    (hsafe : (s.db.pending.all fun p => !(s.calls.get? p.1).any SendCall.isCommitting) = true) :
    Books { s with db := s.db.rollback } := by
  have hlog : s.db.rollback.durable ++ s.db.rollback.pending = s.db.durable :=
    List.append_nil _
  constructor
  · show (remoteKeys (s.db.rollback.durable ++ s.db.rollback.pending)).Nodup
    have hkeys := h.keys
    rw [remoteKeys_append, List.nodup_append] at hkeys
    rw [hlog]
    exact hkeys.1
  · intro i c hc
    have hbooks := h.calls i c hc
    cases c with
    | committing m r =>
      show (_ : Nat × Insertion) ∈ s.db.rollback.durable ++ s.db.rollback.pending
      rw [hlog]
      rcases List.mem_append.mp hbooks with hdurable | hpending
      · exact hdurable
      · have hnot := List.all_eq_true.mp hsafe _ hpending
        simp [hc, SendCall.isCommitting] at hnot
    | reading | accepted | duplicate => exact hbooks
    | rollingBack key => trivial
    | raised => trivial

/-- A safe statement keeps the books. -/
theorem Books.step (h : s.Books) (hsafe : s.safeRollback e = true) (hstep : s.step e = some s') :
    s'.Books := by
  cases e with
  | sent id args msgId now =>
    simp only [step] at hstep
    split at hstep
    · contradiction
    split at hstep
    · cases hstep
      exact h.goOn trivial
    · cases hstep
      apply h.insert
      intro key hkey
      contradiction
  | remoteSent id args msgId now =>
    simp only [step] at hstep
    split at hstep
    · contradiction
    split at hstep
    · cases hstep
      exact h.goOn trivial
    · split at hstep
      · cases hstep
        exact h.goOn trivial
      · split at hstep
        · cases hstep
          exact h.goOn trivial
        · rename_i hnew
          cases hstep
          apply h.insert
          intro key hkey
          rw [RemoteArgs.remoteKey_row, Option.some.injEq] at hkey
          rw [← hkey]
          simpa using hnew
  | committed id =>
    simp only [step] at hstep
    split at hstep
    · rename_i msgId row hcall
      cases hstep
      have hmem : (id, msgId, row) ∈ s.db.durable ++ s.db.pending := h.calls id _ hcall
      show (MessageState.goOn { s with db := s.db.commit } id (.reading msgId row)).Books
      exact h.commit.goOn hmem
    · contradiction
  | readBack id =>
    simp only [step] at hstep
    split at hstep
    · rename_i msgId row hcall
      cases hstep
      have hmem : (id, msgId, row) ∈ s.db.durable := h.calls id _ hcall
      exact h.goOn hmem
    · contradiction
  | rolledBack id =>
    simp only [step] at hstep
    split at hstep
    · rename_i hcall
      cases hstep
      simp only [safeRollback, hcall, Bool.and_eq_true] at hsafe
      show (MessageState.goOn { s with db := s.db.rollback } id .raised).Books
      exact (h.rollback hsafe.1).goOn trivial
    · rename_i key hcall
      cases hstep
      simp only [safeRollback, hcall, Bool.and_eq_true] at hsafe
      have hmem : key ∈ remoteKeys s.db.durable := by simpa using hsafe.2
      show (MessageState.goOn { s with db := s.db.rollback } id (.duplicate key)).Books
      exact (h.rollback hsafe.1).goOn hmem
    · contradiction
  | interrupted id =>
    simp only [step] at hstep
    split at hstep
    all_goals
      first
        | contradiction
        | cases hstep
          exact h.goOn trivial

/-- With the books in order, the messages of the calls that returned are in the database. -/
theorem Books.sound (h : s.Books) : s.Sound := by
  have hnodup : (remoteKeys s.db.durable).Nodup := by
    have hkeys := h.keys
    rw [remoteKeys_append, List.nodup_append] at hkeys
    exact hkeys.1
  constructor
  · intro id msgId row found hcall
    have hmem : (id, msgId, row) ∈ s.db.durable := h.calls id _ hcall
    refine ⟨hmem, ?_⟩
    intro key hkey
    exact List.count_eq_one_of_mem hnodup (mem_remoteKeys hmem hkey)
  · intro id key hcall
    exact List.count_eq_one_of_mem hnodup (h.calls id _ hcall)

/-! ## Runs -/

theorem Books.init : init.Books := by
  refine ⟨List.nodup_nil, ?_⟩
  intro id call hcall
  contradiction

/-- In every state the messages of the calls that returned are in the database. -/
def AlwaysSound (es : List MessageEvent) : Prop :=
  ∀ pre post s, es = pre ++ post → run step init pre = some s → s.Sound

/-- In a run of safe rollbacks every accepted message is in the database. -/
theorem always_sound (es : List MessageEvent)
    (hsafe : Guarded step (fun s e => s.safeRollback e = true) init es) : AlwaysSound es := by
  intro pre post s hes hrun
  have hpre : Guarded step (fun s e => s.safeRollback e = true) init pre := by
    rw [hes] at hsafe
    exact guarded_of_append hsafe
  have hbooks : s.Books :=
    invariant_of_guarded_run (fun s e s' h hsafe hstep => h.step hsafe hstep) Books.init hpre hrun
  exact hbooks.sound

/-- A message of a remote contact. -/
def hello : RemoteArgs where
  channelId := "dm"
  authorId := "hub:ada"
  contactId := "ada"
  remoteMsgId := "r1"
  content := "hello"

/-- A message of a user. -/
def reply : SendArgs where
  channelId := "dm"
  authorId := "user"
  authorType := "user"
  content := "hi"

/-- The message is delivered again, and then the user writes. -/
def redelivered : List MessageEvent :=
  [.remoteSent 1 hello "m1" 5, .committed 1, .readBack 1, .remoteSent 2 hello "m2" 6,
    .rolledBack 2, .sent 3 reply "m3" 7, .committed 3, .readBack 3]

theorem always_sound_redelivered : AlwaysSound redelivered :=
  always_sound redelivered (by decide)

/-- The message is delivered again while the user writes. -/
def overlapping : List MessageEvent :=
  [.remoteSent 1 hello "m1" 5, .committed 1, .readBack 1, .sent 2 reply "m2" 6,
    .remoteSent 3 hello "m3" 7, .rolledBack 3, .committed 2, .readBack 2]

/-- The message is delivered twice at once. -/
def twiceAtOnce : List MessageEvent :=
  [.remoteSent 1 hello "m1" 5, .remoteSent 2 hello "m2" 6, .rolledBack 2, .committed 1,
    .readBack 1]

/-- The call that writes the user's message returns, and the message is lost; both deliveries
return, and the message is stored zero times. -/
theorem not_sound :
    (run step init overlapping).map (fun s => (s.calls.get? 2, s.db.durable)) =
      some (some (.accepted "m2" (reply.row 6) none), [(1, "m1", hello.row 5)]) ∧
    (run step init twiceAtOnce).map (fun s => (s.calls.get? 2, s.db.durable)) =
      some (some (.duplicate ("dm", "r1")), []) ∧
    ¬ AlwaysSound overlapping ∧ ¬ AlwaysSound twiceAtOnce := by
  have hlost : (run step init overlapping).map (fun s => (s.calls.get? 2, s.db.durable)) =
      some (some (.accepted "m2" (reply.row 6) none), [(1, "m1", hello.row 5)]) := rfl
  have hzero : (run step init twiceAtOnce).map (fun s => (s.calls.get? 2, s.db.durable)) =
      some (some (.duplicate ("dm", "r1")), []) := rfl
  refine ⟨hlost, hzero, ?_, ?_⟩
  · intro hsound
    obtain ⟨s, hs, hpair⟩ := Option.map_eq_some_iff.mp hlost
    obtain ⟨hcall, hdurable⟩ := Prod.mk.inj hpair
    have hmem := ((hsound overlapping [] s (List.append_nil _).symm hs).accepted 2 "m2" _ _
      hcall).1
    rw [hdurable] at hmem
    have hid := congrArg (fun p => p.1) (List.mem_singleton.mp hmem)
    contradiction
  · intro hsound
    obtain ⟨s, hs, hpair⟩ := Option.map_eq_some_iff.mp hzero
    obtain ⟨hcall, hdurable⟩ := Prod.mk.inj hpair
    have honce := (hsound twiceAtOnce [] s (List.append_nil _).symm hs).duplicate 2 ("dm", "r1")
      hcall
    rw [StoredOnce, hdurable] at honce
    contradiction

end MessageState

end TinyAgentOS.Chat
