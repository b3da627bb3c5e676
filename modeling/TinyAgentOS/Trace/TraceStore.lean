import Mathlib
import TinyAgentOS.Library.Json
import TinyAgentOS.Library.Newest
import TinyAgentOS.Trace.Buckets

/-!
# The trace of an agent

An event is kept in the database of its hour, in the fallback lines of the hour when the database
fails, or in its late lines once the database is sealed.  A listing reads the newest hours first,
stops when it has enough rows, and merges the lines in.

Main definitions:

- `TraceStore.record`: an envelope goes to a file of its hour, whatever the database does.
- `TraceStore.list`: a listing of the newest envelopes that pass a filter.
- `TraceHistory.after`: what a run of calls leaves.
-/

namespace TinyAgentOS.Trace

open Collections Newest

/-! ## Envelopes -/

def VALID_KINDS : List String :=
  ["message_in", "message_out", "llm_call", "tool_call", "tool_result", "reasoning", "error",
    "lifecycle", "reasoning_audit", "governance", "gpu_op"]

def SCHEMA_VERSION : Nat := 1

/-- `SEAL_AGE_SECONDS`, in microseconds. -/
def SEAL_AGE : Int := 7200000000

/-- The fields of a call of `record`. -/
structure TraceFields where
  id : Option String := none
  traceId : Option String := none
  parentId : Option String := none
  createdAt : Option Instant := none
  channelId : Option String := none
  threadId : Option String := none
  backendName : Option String := none
  model : Option String := none
  durationMs : Option Int := none
  /-- A time in microseconds, from which a duration is computed. -/
  tsStart : Option Int := none
  tokensIn : Option Int := none
  tokensOut : Option Int := none
  costUsd : Option Rat := none
  error : Option String := none
  payload : Option (Dict String Json.Value) := none

/-- An event as it is kept; JSON gives a payload back as it was. -/
structure Envelope where
  v : Nat
  id : String
  traceId : Option String
  parentId : Option String
  createdAt : Instant
  agentName : String
  kind : String
  channelId : Option String
  threadId : Option String
  backendName : Option String
  model : Option String
  durationMs : Option Int
  tokensIn : Option Int
  tokensOut : Option Int
  costUsd : Option Rat
  error : Option String
  payload : Dict String Json.Value

inductive TraceError where
  | unknownKind (kind : String) (valid : List String)

/-- `_build_envelope`; an empty id and a time of zero count as left out. -/
def buildEnvelope (agentName kind : String) (fields : TraceFields) (now : Instant)
    (newId : String) : Except TraceError Envelope :=
  if kind ∉ VALID_KINDS then .error (.unknownKind kind VALID_KINDS)
  else
    .ok
      { v := SCHEMA_VERSION
        id := (fields.id.filter fun id => id ≠ "").getD newId
        traceId := fields.traceId
        parentId := fields.parentId
        createdAt := (fields.createdAt.filter fun t => t.micros ≠ 0).getD now
        agentName := agentName
        kind := kind
        channelId := fields.channelId
        threadId := fields.threadId
        backendName := fields.backendName
        model := fields.model
        durationMs :=
          fields.durationMs.or
            (fields.tsStart.map fun tsStart => max 0 ((now.micros - tsStart).tdiv 1000))
        tokensIn := fields.tokensIn
        tokensOut := fields.tokensOut
        costUsd := fields.costUsd
        error := fields.error
        payload := fields.payload.getD Dict.empty }

/-! ## Files -/

abbrev Bucket := List Char

/-- The committed rows of a database, and whether its file is read-only. -/
structure BucketDb where
  rows : List Envelope
  isSealed : Bool

/-- The files of an agent by their buckets, and the open connections, each with the rows of its
open transaction. -/
structure TraceStore where
  dbs : Dict Bucket BucketDb
  fallback : Dict Bucket (List Envelope)
  late : Dict Bucket (List Envelope)
  connections : Dict Bucket (List Envelope)

/-- How far a write to a database gets; only the last may succeed. -/
inductive DbWrite where
  /-- No connection, perhaps with a file that was made for it. -/
  | unopened (created : Bool)
  | unexecuted
  | uncommitted
  /-- Committed; the call may fail all the same. -/
  | committed (raised : Bool)

namespace TraceStore

def init : TraceStore :=
  ⟨Dict.empty, Dict.empty, Dict.empty, Dict.empty⟩

def rows (s : TraceStore) (b : Bucket) : List Envelope :=
  ((s.dbs.get? b).map BucketDb.rows).getD []

def pending (s : TraceStore) (b : Bucket) : List Envelope :=
  (s.connections.get? b).getD []

/-- The rows that a connection reads. -/
def visible (s : TraceStore) (b : Bucket) : List Envelope :=
  s.rows b ++ s.pending b

def lines (files : Dict Bucket (List Envelope)) (b : Bucket) : List Envelope :=
  (files.get? b).getD []

def isSealedBucket (s : TraceStore) (b : Bucket) : Bool :=
  (s.dbs.get? b).any BucketDb.isSealed

/-- A database without rows, unless there is one. -/
def createDb (s : TraceStore) (b : Bucket) : TraceStore :=
  if (s.dbs.get? b).isSome then s else { s with dbs := s.dbs.set b ⟨[], false⟩ }

/-- `_open_bucket`. -/
def openBucket (s : TraceStore) (b : Bucket) : TraceStore :=
  if (s.connections.get? b).isSome then s
  else { s.createDb b with connections := s.connections.set b [] }

/-- `INSERT OR IGNORE`, in the open transaction. -/
def execute (s : TraceStore) (b : Bucket) (e : Envelope) : TraceStore :=
  if e.id ∈ (s.visible b).map Envelope.id then s
  else { s with connections := s.connections.set b (s.pending b ++ [e]) }

def commit (s : TraceStore) (b : Bucket) : TraceStore :=
  { s with
    dbs := s.dbs.modify b fun db => { db with rows := s.visible b }
    connections := s.connections.set b [] }

/-- `_append_fallback`. -/
def appendFallback (s : TraceStore) (b : Bucket) (e : Envelope) : TraceStore :=
  { s with fallback := s.fallback.set b (lines s.fallback b ++ [e]) }

/-- `_append_late`. -/
def appendLate (s : TraceStore) (b : Bucket) (e : Envelope) : TraceStore :=
  { s with late := s.late.set b (lines s.late b ++ [e]) }

/-- The current bucket and the one before it. -/
def keep (current : Bucket) : List Bucket :=
  current :: ((strptime current).map fun start => bucketKey (start - microsPerHour)).toList

/-- A connection is closed, its open transaction is lost, and an old bucket is sealed where that
takes effect. -/
def closeBucket (seals : Bucket → Bool) (now : Instant) (s : TraceStore) (b : Bucket) :
    TraceStore :=
  let closed := { s with connections := s.connections.pop b }
  if (strptime b).any (fun start => SEAL_AGE ≤ now.micros - start) && seals b then
    { closed with dbs := closed.dbs.modify b fun db => { db with isSealed := true } }
  else closed

-- The law has a name of its own, which the definitions below refer to.
local instance lawfulBEqBucket : LawfulBEq Bucket := inferInstanceAs (LawfulBEq (List Char))

/-- `_evict_old_buckets`. -/
def evictOldBuckets (seals : Bucket → Bool) (now : Instant) (current : Bucket) (s : TraceStore) :
    TraceStore :=
  (s.connections.keys.filter fun b => b ∉ keep current).foldl (closeBucket seals now) s

/-- What happens while an envelope is recorded: how the database fares, the readings of the clock
at the eviction, and which files can be sealed. -/
structure Weather where
  write : DbWrite
  current : Instant
  now : Instant
  seals : Bucket → Bool

/-- The row is written to the database, or else the line to the fallback. -/
def write (s : TraceStore) (b : Bucket) (e : Envelope) : DbWrite → TraceStore
  | .unopened created =>
    (if created = true ∧ s.connections.get? b = none then s.createDb b else s).appendFallback b e
  | .unexecuted => (s.openBucket b).appendFallback b e
  | .uncommitted => ((s.openBucket b).execute b e).appendFallback b e
  | .committed raised =>
    let done := ((s.openBucket b).execute b e).commit b
    if raised then done.appendFallback b e else done

/-- `record`, of an envelope. -/
def record (s : TraceStore) (w : Weather) (e : Envelope) : TraceStore :=
  let b := bucketKey e.createdAt.micros
  let written := if s.isSealedBucket b then s.appendLate b e else s.write b e w.write
  written.evictOldBuckets w.seals w.now (bucketKey w.current.micros)

/-- `close`. -/
def close (s : TraceStore) : TraceStore :=
  { s with connections := Dict.empty }

end TraceStore

/-! ## Listings -/

/-- A bound on a time, which may be infinite. -/
abbrev Bound := WithBot (WithTop ℚ)

def Bound.ofMicros (t : Int) : Bound := ((t : ℚ) : WithTop ℚ)

structure TraceFilter where
  kind : Option String := none
  channelId : Option String := none
  traceId : Option String := none
  since : Option Bound := none
  until? : Option Bound := none

/-- The tests on a row and on a line. -/
def TraceFilter.admits (f : TraceFilter) (e : Envelope) : Bool :=
  f.kind.all (fun kind => e.kind = kind) &&
    f.channelId.all (fun channelId => e.channelId = some channelId) &&
    f.traceId.all (fun traceId => e.traceId = some traceId) &&
    f.since.all (fun since => since ≤ .ofMicros e.createdAt.micros) &&
    f.until?.all (fun until? => .ofMicros e.createdAt.micros ≤ until?)

/-- `_bucket_overlaps`. -/
def bucketOverlaps (b : Bucket) (f : TraceFilter) : Bool :=
  match strptime b with
  | none => true
  | some start =>
    !(f.since.any fun since => .ofMicros (start + microsPerHour) < since) &&
      !(f.until?.any fun until? => until? < .ofMicros start)

/-- `ORDER BY created_at DESC`: rows of one time in any order. -/
structure RowOrder where
  sort : List Envelope → List Envelope
  perm : ∀ es, (sort es).Perm es
  ordered : ∀ es, (sort es).Pairwise fun a b => b.createdAt.micros ≤ a.createdAt.micros

/-- `sorted(trace_dir.glob(...), reverse=True)`. -/
def names {ν : Type} (files : Dict Bucket ν) : List Bucket :=
  files.keys.mergeSort fun a b => b ≤ a

/-- An event whose id is among the seen ones is left out. -/
def addUnseen (merged : List Envelope) (e : Envelope) : List Envelope :=
  if e.id ∈ merged.map Envelope.id then merged else merged ++ [e]

/-- The databases one after the other, up to four times as many rows as asked for. -/
def readDbs (order : RowOrder) (f : TraceFilter) (limit : Nat) :
    TraceStore → List Envelope → List Bucket → TraceStore × List Envelope
  | s, merged, [] => (s, merged)
  | s, merged, b :: bs =>
    if bucketOverlaps b f then
      let opened := s.openBucket b
      let found := (order.sort ((opened.visible b).filter f.admits)).take limit
      let merged := found.foldl addUnseen merged
      if limit * 4 ≤ merged.length then (opened, merged)
      else readDbs order f limit opened merged bs
    else readDbs order f limit s merged bs

/-- `_read_jsonl_file`. -/
def readLines (f : TraceFilter) (files : Dict Bucket (List Envelope)) (merged : List Envelope)
    (b : Bucket) : List Envelope :=
  if bucketOverlaps b f then
    ((TraceStore.lines files b).filter f.admits).foldl addUnseen merged
  else merged

/-- `list`. -/
def TraceStore.list (s : TraceStore) (order : RowOrder) (f : TraceFilter) (limit : Nat) :
    TraceStore × List Envelope :=
  let limit := max 1 (min limit 1000)
  let (opened, found) := readDbs order f limit s [] (names s.dbs)
  let withFallback := (names s.fallback).foldl (readLines f s.fallback) found
  let merged := (names s.late).foldl (readLines f s.late) withFallback
  (opened, (merged.mergeSort fun a b => b.createdAt.micros ≤ a.createdAt.micros).take limit)

/-! ## Runs -/

inductive TraceCall where
  | record (kind : String) (fields : TraceFields) (now : Instant) (newId : String)
      (weather : TraceStore.Weather)
  | list (order : RowOrder) (filter : TraceFilter) (limit : Nat)
  | close

/-- The store, and the envelopes that `record` has returned. -/
structure TraceHistory where
  store : TraceStore
  recorded : List Envelope

namespace TraceHistory

def step (slug : String) (h : TraceHistory) : TraceCall → TraceHistory
  | .record kind fields now newId weather =>
    match buildEnvelope slug kind fields now newId with
    | .error _ => h
    | .ok e => ⟨h.store.record weather e, h.recorded ++ [e]⟩
  | .list order filter limit => { h with store := (h.store.list order filter limit).1 }
  | .close => { h with store := h.store.close }

/-- What a run of calls leaves. -/
def after (slug : String) (calls : List TraceCall) : TraceHistory :=
  calls.foldl (step slug) ⟨TraceStore.init, []⟩

/-- An id that occurs again comes with the same fields. -/
def SameFields (h : TraceHistory) : Prop :=
  ∀ e ∈ h.recorded, ∀ e' ∈ h.recorded, e.id = e'.id → e = e'

end TraceHistory

end TinyAgentOS.Trace
