import TinyAgentOS.Library.Transition

/-!
# Memory leases

A lease is a row of a table with one row a resource key at most.  An agent
acquires it for a time, and may extend it a bounded number of times.  Most
operations delete the expired rows first; `renew` does not.  Every operation
is one transaction under the manager's lock, so it is one step.

Main results:

- `LeaseTable.origin_step`: where the rows after a step come from.
- `LeaseTable.everyStep_within_iff`: the runs in which leases stay within bounds.
- `LeaseTable.renew_revives_lease`: a renewal long after the expiry.
-/

namespace TinyAgentOS.Scheduling
namespace MemoryLeases

open Transition

/-! ## The table -/

/-- Readings of `time.time()`, in seconds. -/
abbrev Instant := Int

/-- A row of `leases`. -/
structure MemoryLease where
  id : String
  resourceKey : String
  agentName : String
  acquiredAt : Instant
  expiresAt : Instant
  renewedCount : Nat
deriving DecidableEq

/-- `MAX_TTL`. -/
def maxTtl : Int := 3600

/-- `MAX_RENEW_COUNT`. -/
def maxRenewCount : Nat := 5

/-- The rows, under the constraints of `SCHEMA`. -/
structure LeaseTable where
  rows : List MemoryLease
  primaryKey : (rows.map MemoryLease.id).Nodup
  unique : (rows.map MemoryLease.resourceKey).Nodup

/-- A lease with one more renewal. -/
def MemoryLease.renew (l : MemoryLease) (ttl : Int) (now : Instant) : MemoryLease :=
  { l with expiresAt := now + ttl, renewedCount := l.renewedCount + 1 }

/-- `sqlite3.IntegrityError`. -/
inductive LeaseError where
  | integrityError
deriving DecidableEq

namespace LeaseTable

/-- A new database. -/
def init : LeaseTable := ⟨[], List.nodup_nil, List.nodup_nil⟩

/-- `DELETE FROM leases WHERE …`. -/
def delete (t : LeaseTable) (p : MemoryLease → Bool) : LeaseTable where
  rows := t.rows.filter fun l => !p l
  primaryKey := t.primaryKey.sublist ((List.filter_sublist).map _)
  unique := t.unique.sublist ((List.filter_sublist).map _)

/-- `_cleanup_expired`. -/
def cleanupExpired (t : LeaseTable) (now : Instant) : LeaseTable :=
  t.delete fun l => l.expiresAt < now

/-- `INSERT INTO leases`, which fails where a constraint does. -/
def insert (t : LeaseTable) (l : MemoryLease) : Except LeaseError LeaseTable :=
  if h : l.id ∉ t.rows.map MemoryLease.id ∧ l.resourceKey ∉ t.rows.map MemoryLease.resourceKey then
    .ok ⟨l :: t.rows, List.nodup_cons.mpr ⟨h.1, t.primaryKey⟩, List.nodup_cons.mpr ⟨h.2, t.unique⟩⟩
  else .error .integrityError

/-- An update of the rows with an id leaves alone what a renewal does. -/
theorem map_renew {β : Type} (f : MemoryLease → β) {ttl : Int} {now : Instant}
    (hf : ∀ l : MemoryLease, f (l.renew ttl now) = f l) (leaseId : String)
    (rows : List MemoryLease) :
    (rows.map fun l => if l.id = leaseId then l.renew ttl now else l).map f = rows.map f := by
  rw [List.map_map]
  apply List.map_congr_left
  intro l _
  simp only [Function.comp]
  split
  · exact hf l
  · rfl

/-- `UPDATE leases SET expires_at = ?, renewed_count = renewed_count + 1 WHERE id = ?`. -/
def extend (t : LeaseTable) (leaseId : String) (ttl : Int) (now : Instant) : LeaseTable where
  rows := t.rows.map fun l => if l.id = leaseId then l.renew ttl now else l
  primaryKey := by
    rw [map_renew MemoryLease.id fun _ => rfl]
    exact t.primaryKey
  unique := by
    rw [map_renew MemoryLease.resourceKey fun _ => rfl]
    exact t.unique

/-- `_renew_locked`. -/
def renewLocked (t : LeaseTable) (existing : MemoryLease) (ttl : Int) (now : Instant) :
    LeaseTable × Option MemoryLease :=
  if maxRenewCount ≤ existing.renewedCount then (t, none)
  else (t.extend existing.id ttl now, some (existing.renew ttl now))

/-- `_sync_acquire`; an exception rolls everything back, the cleanup included. -/
def acquire (t : LeaseTable) (resourceKey agentName : String) (ttl : Int) (now : Instant)
    (leaseId : String) : LeaseTable × Except LeaseError (Option MemoryLease) :=
  let ttl := min ttl maxTtl
  let purged := t.cleanupExpired now
  match purged.rows.find? (fun l => l.resourceKey = resourceKey) with
  | some existing =>
    if existing.agentName = agentName then
      let (t', result) := purged.renewLocked existing ttl now
      (t', .ok result)
    else (purged, .ok none)
  | none =>
    let row : MemoryLease := ⟨leaseId, resourceKey, agentName, now, now + ttl, 0⟩
    match purged.insert row with
    | .ok t' => (t', .ok (some row))
    | .error e => (t, .error e)

/-- `_sync_renew`. -/
def renew (t : LeaseTable) (resourceKey agentName : String) (ttl : Int) (now : Instant) :
    LeaseTable × Option MemoryLease :=
  let ttl := min ttl maxTtl
  match t.rows.find? (fun l => l.resourceKey = resourceKey && l.agentName = agentName) with
  | some existing => t.renewLocked existing ttl now
  | none => (t, none)

/-- `_sync_release`, and whether a row was deleted. -/
def release (t : LeaseTable) (resourceKey agentName : String) : LeaseTable × Bool :=
  let held (l : MemoryLease) : Bool := l.resourceKey = resourceKey && l.agentName = agentName
  (t.delete held, t.rows.any held)

/-- `_sync_release_all`, and the number of rows deleted. -/
def releaseAll (t : LeaseTable) (agentName : String) : LeaseTable × Nat :=
  (t.delete fun l => l.agentName = agentName, t.rows.countP fun l => l.agentName = agentName)

/-- `_sync_check`. -/
def check (t : LeaseTable) (resourceKey : String) (now : Instant) :
    LeaseTable × Option MemoryLease :=
  let t := t.cleanupExpired now
  (t, t.rows.find? fun l => l.resourceKey = resourceKey)

/-- `_sync_is_held_by`. -/
def isHeldBy (t : LeaseTable) (resourceKey agentName : String) (now : Instant) :
    LeaseTable × Bool :=
  let t := t.cleanupExpired now
  (t, t.rows.any fun l => l.resourceKey = resourceKey && l.agentName = agentName)

/-- `_sync_agent_leases`. -/
def agentLeases (t : LeaseTable) (agentName : String) (now : Instant) :
    LeaseTable × List MemoryLease :=
  let t := t.cleanupExpired now
  (t, (t.rows.filter fun l => l.agentName = agentName).mergeSort
    fun l l' => l.acquiredAt ≤ l'.acquiredAt)

/-- `_sync_stats`: the active leases, and the agents that hold them. -/
def stats (t : LeaseTable) (now : Instant) : LeaseTable × Nat × Nat :=
  let t := t.cleanupExpired now
  (t, t.rows.length, (t.rows.map MemoryLease.agentName).eraseDups.length)

end LeaseTable

/-- The calls of the manager, with what they read of the clock and the id drawn. -/
inductive LeaseEvent where
  | acquire (resourceKey agentName : String) (ttl : Int) (now : Instant) (leaseId : String)
  | renew (resourceKey agentName : String) (ttl : Int) (now : Instant)
  | release (resourceKey agentName : String)
  | releaseAll (agentName : String)
  | check (resourceKey : String) (now : Instant)
  | isHeldBy (resourceKey agentName : String) (now : Instant)
  | agentLeases (agentName : String) (now : Instant)
  | stats (now : Instant)

/-- The time at which a call is made, where it reads the clock. -/
def LeaseEvent.now : LeaseEvent → Option Instant
  | acquire _ _ _ now _ => some now
  | renew _ _ _ now => some now
  | release _ _ => none
  | releaseAll _ => none
  | check _ now => some now
  | isHeldBy _ _ now => some now
  | agentLeases _ now => some now
  | stats now => some now

namespace LeaseTable

/-- The table after a call. -/
def step (t : LeaseTable) : LeaseEvent → Option LeaseTable
  | .acquire resourceKey agentName ttl now leaseId =>
    some (t.acquire resourceKey agentName ttl now leaseId).1
  | .renew resourceKey agentName ttl now => some (t.renew resourceKey agentName ttl now).1
  | .release resourceKey agentName => some (t.release resourceKey agentName).1
  | .releaseAll agentName => some (t.releaseAll agentName).1
  | .check resourceKey now => some (t.check resourceKey now).1
  | .isHeldBy resourceKey agentName now => some (t.isHeldBy resourceKey agentName now).1
  | .agentLeases agentName now => some (t.agentLeases agentName now).1
  | .stats now => some (t.stats now).1

/-! ## Where rows come from -/

section Rows

variable {t : LeaseTable} {l l' : MemoryLease}

theorem mem_delete {p : MemoryLease → Bool} : l ∈ (t.delete p).rows ↔ l ∈ t.rows ∧ p l = false := by
  simp [delete]

variable {now : Instant}

theorem mem_cleanupExpired : l ∈ (t.cleanupExpired now).rows ↔ l ∈ t.rows ∧ now ≤ l.expiresAt := by
  simp [cleanupExpired, mem_delete]

theorem eq_of_id (h : l ∈ t.rows) (h' : l' ∈ t.rows) (hid : l.id = l'.id) : l = l' :=
  List.inj_on_of_nodup_map t.primaryKey h h' hid

theorem eq_of_resourceKey (h : l ∈ t.rows) (h' : l' ∈ t.rows)
    (hkey : l.resourceKey = l'.resourceKey) : l = l' :=
  List.inj_on_of_nodup_map t.unique h h' hkey

theorem insert_eq_ok {t' : LeaseTable} (h : t.insert l = .ok t') : t'.rows = l :: t.rows := by
  unfold insert at h
  split at h
  · cases h
    rfl
  · contradiction

/-- A renewal changes the row that was read, and no other. -/
theorem mem_renewLocked {existing : MemoryLease} {ttl : Int}
    (hexisting : existing ∈ t.rows) (h : l ∈ (t.renewLocked existing ttl now).1.rows) :
    l ∈ t.rows ∨ existing.renewedCount < maxRenewCount ∧ l = existing.renew ttl now := by
  unfold renewLocked at h
  split at h
  · exact Or.inl h
  · rename_i hcount
    obtain ⟨old, hold, rfl⟩ := List.mem_map.mp h
    by_cases hid : old.id = existing.id
    · obtain rfl := eq_of_id hold hexisting hid
      rw [if_pos rfl]
      exact Or.inr ⟨by omega, rfl⟩
    · simp only [hid, if_false]
      exact Or.inl hold

/-- A renewal that is allowed leaves the renewed row. -/
theorem renew_mem_renewLocked {existing : MemoryLease} {ttl : Int}
    (hexisting : existing ∈ t.rows) (hcount : existing.renewedCount < maxRenewCount) :
    existing.renew ttl now ∈ (t.renewLocked existing ttl now).1.rows := by
  unfold renewLocked
  rw [if_neg (by omega)]
  exact List.mem_map.mpr ⟨existing, hexisting, by simp⟩

end Rows

/-- Where a row after a call comes from. -/
inductive Origin (t : LeaseTable) (e : LeaseEvent) : MemoryLease → Prop where
  | kept {l : MemoryLease} (hl : l ∈ t.rows) : Origin t e l
  | inserted {leaseId resourceKey agentName : String} {ttl : Int} {now : Instant}
      (hnow : e.now = some now) (httl : ttl ≤ maxTtl) :
      Origin t e ⟨leaseId, resourceKey, agentName, now, now + ttl, 0⟩
  | renewed {l : MemoryLease} {ttl : Int} {now : Instant} (hl : l ∈ t.rows)
      (hnow : e.now = some now) (httl : ttl ≤ maxTtl) (hcount : l.renewedCount < maxRenewCount)
      (htime : now ≤ l.expiresAt ∨ ∃ ttl', e = .renew l.resourceKey l.agentName ttl' now) :
      Origin t e (l.renew ttl now)

variable {now : Instant} {e : LeaseEvent}

theorem origin_acquire {t : LeaseTable} {resourceKey agentName leaseId : String} {ttl : Int}
    {l : MemoryLease} (h : l ∈ (t.acquire resourceKey agentName ttl now leaseId).1.rows) :
    Origin t (.acquire resourceKey agentName ttl now leaseId) l := by
  unfold acquire at h
  dsimp only at h
  split at h
  · rename_i existing hfind
    have hexisting := List.mem_of_find?_eq_some hfind
    obtain ⟨hmem, htime⟩ := mem_cleanupExpired.mp hexisting
    split at h
    · rcases mem_renewLocked hexisting h with hl | ⟨hcount, rfl⟩
      · exact Origin.kept (mem_cleanupExpired.mp hl).1
      · exact Origin.renewed hmem rfl (min_le_right ttl maxTtl) hcount (Or.inl htime)
    · exact Origin.kept (mem_cleanupExpired.mp h).1
  · split at h
    · rename_i t' hinsert
      rw [insert_eq_ok hinsert] at h
      rcases List.mem_cons.mp h with rfl | hl
      · exact Origin.inserted rfl (min_le_right ttl maxTtl)
      · exact Origin.kept (mem_cleanupExpired.mp hl).1
    · exact Origin.kept h

theorem origin_renew {t : LeaseTable} {resourceKey agentName : String} {ttl : Int} {l : MemoryLease}
    (h : l ∈ (t.renew resourceKey agentName ttl now).1.rows) :
    Origin t (.renew resourceKey agentName ttl now) l := by
  unfold renew at h
  dsimp only at h
  split at h
  · rename_i existing hfind
    have hexisting := List.mem_of_find?_eq_some hfind
    have hholder := List.find?_some hfind
    simp only [Bool.and_eq_true, decide_eq_true_eq] at hholder
    obtain ⟨rfl, rfl⟩ := hholder
    rcases mem_renewLocked hexisting h with hl | ⟨hcount, rfl⟩
    · exact Origin.kept hl
    · exact Origin.renewed hexisting rfl (min_le_right ttl maxTtl) hcount (Or.inr ⟨ttl, rfl⟩)
  · exact Origin.kept h

/-- Every row after a call was there before, or is inserted or renewed by it. -/
theorem origin_step {t t' : LeaseTable} (hstep : t.step e = some t')
    {l : MemoryLease} (h : l ∈ t'.rows) : Origin t e l := by
  cases e with
  | acquire resourceKey agentName ttl now leaseId =>
    cases hstep
    exact origin_acquire h
  | renew resourceKey agentName ttl now =>
    cases hstep
    exact origin_renew h
  | release resourceKey agentName | releaseAll agentName =>
    cases hstep
    exact Origin.kept (mem_delete.mp h).1
  | check resourceKey now | isHeldBy resourceKey agentName now | agentLeases agentName now
  | stats now =>
    cases hstep
    exact Origin.kept (mem_cleanupExpired.mp h).1

/-! ## Bounds -/

/-- What a call is to keep: one unexpired lease a key at most, no renewal of an expired lease,
and no lease that has lasted longer than all its renewals allow. -/
def Within (t : LeaseTable) (e : LeaseEvent) (t' : LeaseTable) : Prop :=
  (∀ resourceKey now,
    (t'.rows.filter fun l => l.resourceKey = resourceKey && now ≤ l.expiresAt).length ≤ 1) ∧
  (∀ now ∈ e.now, ∀ l ∈ t.rows, ∀ l' ∈ t'.rows, l'.id = l.id →
    l.renewedCount < l'.renewedCount → now ≤ l.expiresAt) ∧
  ∀ l ∈ t'.rows, l.expiresAt - l.acquiredAt ≤ (maxRenewCount + 1) * maxTtl

/-- The holder that a `renew` may extend has not let the lease expire. -/
def RenewTimely (t : LeaseTable) : LeaseEvent → Prop
  | .renew resourceKey agentName _ now =>
    ∀ l ∈ t.rows, l.resourceKey = resourceKey → l.agentName = agentName →
      l.renewedCount < maxRenewCount → now ≤ l.expiresAt
  | _ => True

/-- No lease outlasts the renewals it has had. -/
def Extended (t : LeaseTable) : Prop :=
  ∀ l ∈ t.rows, l.renewedCount ≤ maxRenewCount ∧
    l.expiresAt ≤ l.acquiredAt + (l.renewedCount + 1) * maxTtl

/-- Two rows of a key would break the constraint. -/
theorem length_filter_le_one (t : LeaseTable) (resourceKey : String) (now : Instant) :
    (t.rows.filter fun l => l.resourceKey = resourceKey && now ≤ l.expiresAt).length ≤ 1 := by
  rw [← List.countP_eq_length_filter]
  calc t.rows.countP (fun l => l.resourceKey = resourceKey && now ≤ l.expiresAt)
      ≤ t.rows.countP (fun l => l.resourceKey = resourceKey) := by
        apply List.countP_mono_left
        intro l _ hl
        simp only [Bool.and_eq_true] at hl
        exact hl.1
    _ = (t.rows.map MemoryLease.resourceKey).count resourceKey := by
        rw [List.count, List.countP_map]
        congr 1
    _ ≤ 1 := List.nodup_iff_count_le_one.mp t.unique resourceKey

/-- A renewed lease was timely, under the guard. -/
theorem timely_of_renewTimely {t : LeaseTable} (hguard : t.RenewTimely e)
    {l : MemoryLease} (hl : l ∈ t.rows) (hcount : l.renewedCount < maxRenewCount)
    (htime : now ≤ l.expiresAt ∨ ∃ ttl, e = .renew l.resourceKey l.agentName ttl now) :
    now ≤ l.expiresAt := by
  rcases htime with htime | ⟨ttl, rfl⟩
  · exact htime
  · exact hguard l hl rfl rfl hcount

theorem Extended.step {t t' : LeaseTable} (h : t.Extended)
    (hguard : t.RenewTimely e) (hstep : t.step e = some t') : t'.Extended := by
  intro l' hl'
  cases origin_step hstep hl' with
  | kept hl => exact h l' hl
  | inserted hnow httl =>
    refine ⟨Nat.zero_le _, ?_⟩
    simp only [Nat.cast_zero]
    linarith
  | @renewed l ttl now hl hnow httl hcount htime =>
    have htimely := timely_of_renewTimely hguard hl hcount htime
    have hlast := (h l hl).2
    refine ⟨hcount, ?_⟩
    simp only [MemoryLease.renew, Nat.cast_add, Nat.cast_one]
    linarith

/-- The renewals allowed bound how long a lease lasts. -/
theorem Extended.bound {t : LeaseTable} (h : t.Extended) {l : MemoryLease} (hl : l ∈ t.rows) :
    l.expiresAt - l.acquiredAt ≤ (maxRenewCount + 1) * maxTtl := by
  obtain ⟨hcount, hlast⟩ := h l hl
  have hcast : (l.renewedCount : Int) ≤ maxRenewCount := by exact_mod_cast hcount
  have hmul : ((l.renewedCount : Int) + 1) * maxTtl ≤ (maxRenewCount + 1) * maxTtl :=
    mul_le_mul_of_nonneg_right (by linarith) (by decide)
  linarith

/-- A call stays within the bounds exactly when the guard lets it. -/
theorem within_iff {t t' : LeaseTable} (h : t.Extended)
    (hstep : t.step e = some t') : Within t e t' ↔ t.RenewTimely e := by
  constructor
  · rintro ⟨_, hrevive, _⟩
    cases e with
    | renew resourceKey agentName ttl now =>
      rintro l hl rfl rfl hcount
      have hfind : t.rows.find? (fun l' => l'.resourceKey = l.resourceKey &&
          l'.agentName = l.agentName) = some l := by
        have hsome : (t.rows.find? fun l' => l'.resourceKey = l.resourceKey &&
            l'.agentName = l.agentName).isSome = true :=
          List.find?_isSome.mpr ⟨l, hl, by simp⟩
        obtain ⟨l', hl'⟩ := Option.isSome_iff_exists.mp hsome
        have hholder := List.find?_some hl'
        simp only [Bool.and_eq_true, decide_eq_true_eq] at hholder
        rw [hl', eq_of_resourceKey (List.mem_of_find?_eq_some hl') hl hholder.1]
      have hmem : l.renew (min ttl maxTtl) now ∈ t'.rows := by
        cases hstep
        unfold renew
        simp only [hfind]
        exact renew_mem_renewLocked hl hcount
      exact hrevive now rfl l hl _ hmem rfl (Nat.lt_succ_self _)
    | _ => trivial
  · intro hguard
    refine ⟨t'.length_filter_le_one, ?_, fun l hl => (h.step hguard hstep).bound hl⟩
    intro now hnow l hl l' hl' hid hmore
    cases origin_step hstep hl' with
    | kept hold =>
      obtain rfl := eq_of_id hold hl hid
      exact absurd hmore (lt_irrefl _)
    | inserted hnow' httl => exact absurd hmore (Nat.not_lt_zero _)
    | renewed hold hnow' httl hcount htime =>
      obtain rfl := eq_of_id hold hl hid
      obtain rfl : _ = now := Option.some.inj (hnow'.symm.trans hnow)
      exact timely_of_renewTimely hguard hl hcount htime

/-- Leases stay within their bounds in exactly the runs that renew none after its expiry. -/
theorem everyStep_within_iff (es : List LeaseEvent) :
    EveryStep step Within init es ↔ Guarded step RenewTimely init es := by
  apply everyStep_iff_guarded (I := Extended)
  · intro t e hstep
    cases e <;> contradiction
  · exact fun _ _ _ h hguard hstep => h.step hguard hstep
  · exact fun _ _ _ h hstep => within_iff h hstep
  · intro l hl
    contradiction

/-- The lease has expired for hours; only `renew` runs, which purges nothing. -/
theorem renew_revives_lease :
    ¬EveryStep step Within init
      [.acquire "kg:jay" "agent" 600 0 "lease", .renew "kg:jay" "agent" 600 90000] := by
  intro hevery
  obtain ⟨_, hrevive, _⟩ := hevery [.acquire "kg:jay" "agent" 600 0 "lease"] _ [] _ _ rfl rfl rfl
  have htime := hrevive 90000 rfl ⟨"lease", "kg:jay", "agent", 0, 600, 0⟩ (by decide)
    ⟨"lease", "kg:jay", "agent", 0, 90600, 1⟩ (by decide) rfl (by decide)
  exact absurd htime (by decide)

end LeaseTable

end MemoryLeases
end TinyAgentOS.Scheduling
