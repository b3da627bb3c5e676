import TinyAgentOS.Library.Dict
import TinyAgentOS.Library.Transition

/-!
# VRAM reservations: the check-and-reserve ledger

The manager keeps a running total of the reserved VRAM beside the map of the
pending reservations.  Three operations move both: a grant inside
`reserve`, `release`, and the sweep of stale reservations.

A `reserve` call holds the lock across its probe, so it is two
stretches: acquiring the lock (which sweeps) and the decision once the probe
has answered.  `release` and the sweep are synchronous and may run between
the two.

Main results:

- `VramReservationManager.Balanced.reserveDecision` and its siblings: each operation keeps the
  total equal to the sum of the pending reservations.
- `run_ledgerSafe`: the ledger invariant over every interleaving.
-/

namespace TinyAgentOS.Vram

open Collections Transition

/-- Identifiers handed out by `secrets.token_hex`. -/
abbrev ReservationId := String

/-- Readings of `time.time()`, counted in clock ticks. -/
abbrev Clock := Int

/-- A probe answers with free and total VRAM, or cannot tell. -/
abbrev Probe := Option (Int × Int)

/-- Default age after which a reservation counts as abandoned. -/
def defaultReservationTtlSeconds : Clock := 3600

/-- A held VRAM reservation. -/
structure VramReservation where
  reservationId : ReservationId
  vramMb : Int
  caller : String
  createdAt : Clock

/-- The ledger: a running total beside the pending reservations. -/
structure VramReservationManager where
  reservedVramMb : Int
  pending : Dict ReservationId VramReservation
  ttlSeconds : Clock

namespace VramReservationManager

/-- A ledger without reservations. -/
def init (ttlSeconds : Clock) : VramReservationManager :=
  ⟨0, Dict.empty, ttlSeconds⟩

/-- Total VRAM of the pending reservations. -/
def pendingVramMb (m : VramReservationManager) : Int :=
  Dict.sumBy VramReservation.vramMb m.pending

/-- Pop a reservation, if it is there, and take its size off the total. -/
def popReservation (m : VramReservationManager) (rid : ReservationId) :
    VramReservationManager :=
  match m.pending.get? rid with
  | none => m
  | some res =>
    { m with
      reservedVramMb := m.reservedVramMb - res.vramMb
      pending := m.pending.pop rid }

/-- Release a reservation; the flag tells whether it was still held. -/
def release (m : VramReservationManager) (rid : ReservationId) :
    VramReservationManager × Bool :=
  (m.popReservation rid, (m.pending.get? rid).isSome)

/-- Reservations older than the TTL, in ledger order. -/
def staleIds (m : VramReservationManager) (now : Clock) : List ReservationId :=
  (m.pending.entries.filter fun e => decide (now - e.2.createdAt > m.ttlSeconds)).map Prod.fst

/-- The reservations a sweep reclaims: none when the TTL is disabled. -/
def reclaimedIds (m : VramReservationManager) (now : Clock) : List ReservationId :=
  if m.ttlSeconds ≤ 0 then [] else m.staleIds now

/-- The defensive clamp after a reclaim: a total below zero becomes zero. -/
def clampReserved (stale : List ReservationId) (m : VramReservationManager) :
    VramReservationManager :=
  if stale ≠ [] ∧ m.reservedVramMb < 0 then { m with reservedVramMb := 0 } else m

/-- Drop reservations whose age exceeds the TTL and count them. -/
def sweepStaleUnlocked (m : VramReservationManager) (now : Clock) :
    VramReservationManager × Nat :=
  if m.ttlSeconds ≤ 0 then (m, 0)
  else
    (clampReserved (m.staleIds now) ((m.staleIds now).foldl popReservation m),
      (m.staleIds now).length)

/-- What the probe leaves after the reservations already promised. -/
def effectiveFree (m : VramReservationManager) (freeMb : Int) : Int :=
  max 0 (freeMb - m.reservedVramMb)

/-- Record a reservation in the total and in the map. -/
def grant (m : VramReservationManager) (res : VramReservation) : VramReservationManager :=
  { m with
    reservedVramMb := m.reservedVramMb + res.vramMb
    pending := m.pending.set res.reservationId res }

/-- The second stretch of `reserve`: decide once the probe has answered.
Without a probe the call fails open and only keeps the books. -/
def reserveDecision (m : VramReservationManager) (vramMb : Int) (caller : String) (probe : Probe)
    (rid : ReservationId) (now : Clock) :
    VramReservationManager × Option VramReservation :=
  let res : VramReservation := ⟨rid, vramMb, caller, now⟩
  match probe with
  | none => (m.grant res, some res)
  | some (freeMb, _) =>
    if m.effectiveFree freeMb < vramMb then (m, none) else (m.grant res, some res)

/-- The marker that a reservation without VRAM returns; the ledger is not touched. -/
def marker (caller : String) (rid : ReservationId) (now : Clock) : VramReservation :=
  ⟨rid, 0, if caller = "" then "noop" else caller, now⟩

/-- Effective free and total VRAM, after a sweep. -/
def availableVram (m : VramReservationManager) (now : Clock) (probe : Probe) :
    VramReservationManager × (Int × Int) :=
  let swept := (m.sweepStaleUnlocked now).1
  match probe with
  | none => (swept, (0, 0))
  | some (freeMb, totalMb) => (swept, (swept.effectiveFree freeMb, totalMb))

/-! ## The books balance -/

/-- The running total is the sum of the pending reservations, all of them positive. -/
structure Balanced (m : VramReservationManager) : Prop where
  total_eq : m.reservedVramMb = m.pendingVramMb
  positive : ∀ rid res, m.pending.get? rid = some res → 0 < res.vramMb

theorem Balanced.init (ttlSeconds : Clock) : Balanced (init ttlSeconds) where
  total_eq := rfl
  positive := by simp [VramReservationManager.init]

variable {m : VramReservationManager}

theorem Balanced.nonneg (h : Balanced m) : 0 ≤ m.reservedVramMb := by
  rw [h.total_eq]
  apply Dict.sumBy_nonneg
  intro res hres
  obtain ⟨rid, hrid⟩ := Dict.mem_values_iff.mp hres
  exact (h.positive rid res hrid).le

theorem popReservation_get? (m : VramReservationManager) (rid rid' : ReservationId) :
    (m.popReservation rid).pending.get? rid' =
      if rid = rid' then none else m.pending.get? rid' := by
  unfold popReservation
  split
  · rename_i hnone
    split <;> simp_all
  · simp [Dict.get?_pop]

theorem Balanced.popReservation (h : Balanced m)
    (rid : ReservationId) : Balanced (m.popReservation rid) := by
  refine ⟨?_, ?_⟩
  · unfold VramReservationManager.popReservation
    split
    · exact h.total_eq
    · rename_i res hres
      simp only [pendingVramMb, Dict.sumBy_pop _ hres]
      rw [h.total_eq, pendingVramMb]
  · intro rid' res hres
    rw [popReservation_get?] at hres
    split at hres
    · contradiction
    · exact h.positive rid' res hres

/-- Popping a list of reservations removes exactly those. -/
theorem foldl_popReservation_get? (rids : List ReservationId) (m : VramReservationManager)
    (rid : ReservationId) : (rids.foldl VramReservationManager.popReservation m).pending.get? rid =
      if rid ∈ rids then none else m.pending.get? rid := by
  induction rids generalizing m with
  | nil => simp
  | cons r rids ih =>
    simp only [List.foldl_cons, ih, popReservation_get?, List.mem_cons]
    by_cases hmem : rid ∈ rids
    · simp [hmem]
    · by_cases heq : r = rid
      · simp [heq]
      · simp [hmem, heq, Ne.symm heq]

theorem Balanced.foldl_popReservation (h : Balanced m) (rids : List ReservationId) :
    Balanced (rids.foldl VramReservationManager.popReservation m) := by
  induction rids generalizing m with
  | nil => exact h
  | cons r rids ih => exact ih (h.popReservation r)

theorem clampReserved_of_nonneg (stale : List ReservationId)
    (h : 0 ≤ m.reservedVramMb) : clampReserved stale m = m := by
  unfold clampReserved
  rw [if_neg]
  rintro ⟨_, hneg⟩
  omega

/-- On balanced books the defensive clamp never fires. -/
theorem Balanced.sweep_eq (h : Balanced m) (now : Clock) : (m.sweepStaleUnlocked now).1 =
      (m.reclaimedIds now).foldl VramReservationManager.popReservation m := by
  unfold sweepStaleUnlocked reclaimedIds
  split
  · rfl
  · have hnonneg := (h.foldl_popReservation (m.staleIds now)).nonneg
    exact clampReserved_of_nonneg _ hnonneg

theorem Balanced.sweep (h : Balanced m) (now : Clock) : Balanced (m.sweepStaleUnlocked now).1 := by
  rw [h.sweep_eq]
  exact h.foldl_popReservation _

/-- A sweep keeps what it does not reclaim. -/
theorem Balanced.sweep_get? (h : Balanced m) (now : Clock) (rid : ReservationId) :
    (m.sweepStaleUnlocked now).1.pending.get? rid =
      if rid ∈ m.reclaimedIds now then none else m.pending.get? rid := by
  rw [h.sweep_eq, foldl_popReservation_get?]

theorem mem_reclaimedIds_pending {now : Clock}
    {rid : ReservationId} (h : rid ∈ m.reclaimedIds now) :
    ∃ res, m.pending.get? rid = some res := by
  unfold reclaimedIds at h
  split at h
  · simp at h
  obtain ⟨⟨rid', res⟩, hmem, rfl⟩ := List.mem_map.mp h
  exact ⟨res, Dict.mem_entries_iff.mp (List.mem_filter.mp hmem).1⟩

theorem reclaimedIds_nodup (m : VramReservationManager) (now : Clock) :
    (m.reclaimedIds now).Nodup := by
  unfold reclaimedIds
  split
  · exact List.nodup_nil
  · exact m.pending.nodup.sublist (List.filter_sublist.map Prod.fst)

theorem Balanced.grant (h : Balanced m) {res : VramReservation}
    (hfresh : m.pending.get? res.reservationId = none) (hpos : 0 < res.vramMb) :
    Balanced (m.grant res) where
  total_eq := by
    simp only [VramReservationManager.grant, pendingVramMb, Dict.sumBy_set_new _ res hfresh]
    rw [h.total_eq, pendingVramMb]
  positive := by
    intro rid res' hget
    simp only [VramReservationManager.grant, Dict.get?_set] at hget
    split at hget
    · cases hget
      exact hpos
    · exact h.positive rid res' hget

/-- A decision either leaves the ledger alone or grants the new reservation. -/
theorem reserveDecision_cases (m : VramReservationManager) (vramMb : Int) (caller : String)
    (probe : Probe) (rid : ReservationId) (now : Clock) :
    (m.reserveDecision vramMb caller probe rid now = (m, none)) ∨
      (m.reserveDecision vramMb caller probe rid now =
          (m.grant ⟨rid, vramMb, caller, now⟩, some ⟨rid, vramMb, caller, now⟩) ∧
        ∀ freeMb totalMb, probe = some (freeMb, totalMb) → vramMb ≤ m.effectiveFree freeMb) := by
  unfold reserveDecision
  split
  · exact .inr ⟨rfl, by simp⟩
  · rename_i freeMb totalMb
    split
    · exact .inl rfl
    · refine .inr ⟨rfl, ?_⟩
      intro freeMb' totalMb' heq
      cases heq
      omega

/-- What fits, or cannot be read, is granted. -/
theorem reserveDecision_granted (m : VramReservationManager) {vramMb : Int} (caller : String)
    {probe : Probe} (rid : ReservationId) (now : Clock)
    (hfits : ∀ reading ∈ probe, vramMb ≤ m.effectiveFree reading.1) :
    (m.reserveDecision vramMb caller probe rid now).2.isSome = true := by
  unfold reserveDecision
  split
  · rfl
  · rename_i freeMb totalMb
    rw [if_neg (not_lt.mpr (hfits (freeMb, totalMb) rfl))]
    rfl

/-- A reservation granted against a reading fits into it with all the others. -/
theorem Balanced.grant_fits (h : Balanced m) {res : VramReservation} {freeMb : Int}
    (hfresh : m.pending.get? res.reservationId = none) (hpos : 0 < res.vramMb)
    (hfits : res.vramMb ≤ m.effectiveFree freeMb) : (m.grant res).pendingVramMb ≤ freeMb := by
  rw [← (h.grant hfresh hpos).total_eq]
  simp only [VramReservationManager.grant]
  unfold effectiveFree at hfits
  omega

end VramReservationManager

/-! ## Interleaved callers -/

/-- A grant as it happened: the probe it was made against and the pending total it left. -/
structure Grant where
  probe : Probe
  pendingVramMb : Int

/-- The ledger with its lock, and the history the invariant speaks about. -/
structure LedgerState where
  manager : VramReservationManager
  /-- The `reserve` call that holds the lock while its probe runs. -/
  lock : Option (Int × String)
  issued : List ReservationId
  subtracted : List ReservationId
  grants : List Grant

/-- A new ledger. -/
def LedgerState.init (ttlSeconds : Clock) : LedgerState :=
  ⟨VramReservationManager.init ttlSeconds, none, [], [], []⟩

/-- The stretches between awaits of the ledger's callers. -/
inductive LedgerEvent where
  /-- `reserve` for no VRAM: no lock, no probe. -/
  | reserveMarker (vramMb : Int) (caller : String) (rid : ReservationId) (now : Clock)
  /-- `reserve` gets the lock, sweeps and goes into its probe. -/
  | reserveAcquire (vramMb : Int) (caller : String) (now : Clock)
  /-- The probe of the lock's holder answers. -/
  | reserveProbed (probe : Probe) (rid : ReservationId) (now : Clock)
  /-- The probe raises, or its caller is cancelled: the lock is given back. -/
  | reserveAborted
  | release (rid : ReservationId)
  | sweepStale (now : Clock)
  | availableVram (now : Clock) (probe : Probe)

namespace LedgerState

/-- Run the sweep and log what it takes off the total. -/
def sweep (s : LedgerState) (now : Clock) : LedgerState :=
  { s with
    manager := (s.manager.sweepStaleUnlocked now).1
    subtracted := s.subtracted ++ s.manager.reclaimedIds now }

/-- One stretch.  Identifiers are fresh; a call that waits for the lock has
done nothing yet, so its first stretch is the acquisition. -/
def step (s : LedgerState) : LedgerEvent → Option LedgerState
  | .reserveMarker vramMb _ rid _ =>
    if vramMb ≤ 0 ∧ rid ∉ s.issued then some { s with issued := rid :: s.issued } else none
  | .reserveAcquire vramMb caller now =>
    if 0 < vramMb ∧ s.lock = none then
      some { s.sweep now with lock := some (vramMb, caller) }
    else none
  | .reserveProbed probe rid now =>
    match s.lock with
    | none => none
    | some (vramMb, caller) =>
      if rid ∈ s.issued then none
      else
        let decided := s.manager.reserveDecision vramMb caller probe rid now
        some
          { s with
            manager := decided.1
            lock := none
            issued := rid :: s.issued
            grants :=
              if decided.2.isSome then
                s.grants ++ [⟨probe, decided.1.pendingVramMb⟩]
              else s.grants }
  | .reserveAborted => if s.lock = none then none else some { s with lock := none }
  | .release rid =>
    let released := s.manager.release rid
    some
      { s with
        manager := released.1
        subtracted := if released.2 then s.subtracted ++ [rid] else s.subtracted }
  | .sweepStale now => some (s.sweep now)
  | .availableVram now _ => some (s.sweep now)

/-- What the ledger promises in a reachable state. -/
structure Safe (s : LedgerState) : Prop where
  total_eq : s.manager.reservedVramMb = s.manager.pendingVramMb
  nonneg : 0 ≤ s.manager.reservedVramMb
  subtracted_once : ∀ rid, s.subtracted.count rid ≤ 1
  grants_fit : ∀ g ∈ s.grants, ∀ freeMb totalMb,
    g.probe = some (freeMb, totalMb) → g.pendingVramMb ≤ freeMb

/-- The inductive strengthening: what is pending or subtracted was issued, and
nothing is both. -/
structure Invariant (s : LedgerState) : Prop where
  balanced : s.manager.Balanced
  lock_positive : ∀ vramMb caller, s.lock = some (vramMb, caller) → 0 < vramMb
  pending_issued : ∀ rid res, s.manager.pending.get? rid = some res → rid ∈ s.issued
  subtracted_issued : ∀ rid ∈ s.subtracted, rid ∈ s.issued
  subtracted_gone : ∀ rid ∈ s.subtracted, s.manager.pending.get? rid = none
  subtracted_nodup : s.subtracted.Nodup
  grants_fit : ∀ g ∈ s.grants, ∀ freeMb totalMb,
    g.probe = some (freeMb, totalMb) → g.pendingVramMb ≤ freeMb

variable {s s' : LedgerState}

theorem Invariant.safe (h : Invariant s) : Safe s where
  total_eq := h.balanced.total_eq
  nonneg := h.balanced.nonneg
  subtracted_once rid := List.nodup_iff_count_le_one.mp h.subtracted_nodup rid
  grants_fit := h.grants_fit

theorem Invariant.init (ttlSeconds : Clock) : Invariant (init ttlSeconds) where
  balanced := VramReservationManager.Balanced.init ttlSeconds
  lock_positive := by simp [LedgerState.init]
  pending_issued := by simp [LedgerState.init, VramReservationManager.init]
  subtracted_issued := by simp [LedgerState.init]
  subtracted_gone := by simp [LedgerState.init]
  subtracted_nodup := by simp [LedgerState.init]
  grants_fit := by simp [LedgerState.init]

/-- Taking pending reservations off the ledger and logging them keeps the invariant. -/
theorem Invariant.subtract (h : Invariant s) {rids : List ReservationId}
    (hbalanced : s'.manager.Balanced) (hget : ∀ rid, s'.manager.pending.get? rid =
      if rid ∈ rids then none else s.manager.pending.get? rid)
    (hsub : s'.subtracted = s.subtracted ++ rids) (hnodup : rids.Nodup)
    (hheld : ∀ rid ∈ rids, ∃ res, s.manager.pending.get? rid = some res)
    (hlock : s'.lock = s.lock) (hissued : s'.issued = s.issued) (hgrants : s'.grants = s.grants) :
    Invariant s' where
  balanced := hbalanced
  lock_positive := by rw [hlock]; exact h.lock_positive
  pending_issued := by
    intro rid res hres
    rw [hget] at hres
    split at hres
    · contradiction
    · exact hissued ▸ h.pending_issued rid res hres
  subtracted_issued := by
    intro rid hrid
    rw [hsub, List.mem_append] at hrid
    rw [hissued]
    rcases hrid with hold | hnew
    · exact h.subtracted_issued rid hold
    · obtain ⟨res, hres⟩ := hheld rid hnew
      exact h.pending_issued rid res hres
  subtracted_gone := by
    intro rid hrid
    rw [hsub, List.mem_append] at hrid
    rw [hget]
    rcases hrid with hold | hnew
    · simp [h.subtracted_gone rid hold]
    · simp [hnew]
  subtracted_nodup := by
    rw [hsub]
    refine h.subtracted_nodup.append hnodup ?_
    intro rid hold hnew
    obtain ⟨res, hres⟩ := hheld rid hnew
    simp [h.subtracted_gone rid hold] at hres
  grants_fit := by rw [hgrants]; exact h.grants_fit

theorem Invariant.sweep (h : Invariant s) (now : Clock) : Invariant (s.sweep now) :=
  h.subtract (h.balanced.sweep now) (h.balanced.sweep_get? now) rfl
    (s.manager.reclaimedIds_nodup now)
    (fun _ hrid => VramReservationManager.mem_reclaimedIds_pending hrid) rfl rfl rfl

/-- The decision of the lock's holder keeps the invariant. -/
theorem Invariant.probed (h : Invariant s) {probe : Probe}
    {rid : ReservationId} {now : Clock} (hstep : s.step (.reserveProbed probe rid now) = some s') :
    Invariant s' := by
  simp only [step] at hstep
  split at hstep
  · contradiction
  rename_i vramMb caller hlock
  split at hstep
  · contradiction
  rename_i hfreshId
  have hpos : 0 < vramMb := h.lock_positive vramMb caller hlock
  have hfresh : s.manager.pending.get? rid = none := by
    rw [Dict.get?_eq_none_iff, Dict.mem_keys_iff]
    rintro ⟨res, hres⟩
    exact hfreshId (h.pending_issued rid res hres)
  rcases s.manager.reserveDecision_cases vramMb caller probe rid now with
    hdeny | ⟨hgrant, hfits⟩
  · rw [hdeny] at hstep
    cases hstep
    exact
      { h with
        lock_positive := by simp
        pending_issued := fun r res hr => List.mem_cons_of_mem _ (h.pending_issued r res hr)
        subtracted_issued := fun r hr => List.mem_cons_of_mem _ (h.subtracted_issued r hr) }
  · rw [hgrant] at hstep
    cases hstep
    refine ⟨h.balanced.grant hfresh hpos, by simp, ?_, ?_, ?_, h.subtracted_nodup, ?_⟩
    · intro r res hr
      simp only [VramReservationManager.grant, Dict.get?_set] at hr
      split at hr
      · rename_i heq
        simp [heq]
      · exact List.mem_cons_of_mem _ (h.pending_issued r res hr)
    · exact fun r hr => List.mem_cons_of_mem _ (h.subtracted_issued r hr)
    · intro r hr
      have hne : rid ≠ r := fun heq => hfreshId (heq ▸ h.subtracted_issued r hr)
      simp [VramReservationManager.grant, Dict.get?_set, hne, h.subtracted_gone r hr]
    · intro g hg freeMb totalMb hprobe
      simp only [Option.isSome_some, if_true, List.mem_append, List.mem_singleton] at hg
      rcases hg with hold | rfl
      · exact h.grants_fit g hold freeMb totalMb hprobe
      · exact h.balanced.grant_fits hfresh hpos (hfits freeMb totalMb hprobe)

/-- Every stretch of every caller keeps the invariant. -/
theorem Invariant.step (h : Invariant s) {e : LedgerEvent}
    (hstep : s.step e = some s') : Invariant s' := by
  cases e with
  | reserveMarker vramMb caller rid now =>
    simp only [LedgerState.step, Option.ite_none_right_eq_some] at hstep
    obtain ⟨_, hs⟩ := hstep
    cases hs
    exact
      { h with
        pending_issued := fun r res hr => List.mem_cons_of_mem _ (h.pending_issued r res hr)
        subtracted_issued := fun r hr => List.mem_cons_of_mem _ (h.subtracted_issued r hr) }
  | reserveAcquire vramMb caller now =>
    simp only [LedgerState.step, Option.ite_none_right_eq_some] at hstep
    obtain ⟨⟨hpos, _⟩, hs⟩ := hstep
    cases hs
    refine { h.sweep now with lock_positive := ?_ }
    intro vramMb' caller' heq
    cases heq
    exact hpos
  | reserveProbed probe rid now => exact h.probed hstep
  | reserveAborted =>
    simp only [LedgerState.step, Option.ite_none_left_eq_some] at hstep
    obtain ⟨_, hs⟩ := hstep
    cases hs
    exact { h with lock_positive := by simp }
  | release rid =>
    cases hget : s.manager.pending.get? rid with
    | none =>
      have hsame : s.step (.release rid) = some s := by
        simp [LedgerState.step, VramReservationManager.release,
          VramReservationManager.popReservation, hget]
      rw [hsame] at hstep
      cases hstep
      exact h
    | some res =>
      cases hstep
      have hone : ∀ r, ((s.manager.release rid).1).pending.get? r =
          if r ∈ [rid] then none else s.manager.pending.get? r := by
        simp [VramReservationManager.release, VramReservationManager.popReservation_get?,
          eq_comm]
      refine h.subtract (h.balanced.popReservation rid) hone ?_ (List.nodup_singleton rid) ?_
        rfl rfl rfl
      · simp [VramReservationManager.release, hget]
      · simp [hget]
  | sweepStale now | availableVram now probe =>
    cases hstep
    exact h.sweep now

/-- The ledger invariant, over every interleaving of its callers. -/
theorem run_ledgerSafe (ttlSeconds : Clock) (events : List LedgerEvent) (s : LedgerState)
    (hrun : run step (init ttlSeconds) events = some s) : Safe s :=
  (invariant_of_run (fun _ _ _ h hstep => Invariant.step h hstep)
    (Invariant.init ttlSeconds) hrun).safe

/-- A release while another probe is in flight, a second release of the same id, a sweep. -/
theorem run_ledgerSafe_race :
    ∃ s, run step (init 3600)
      [.reserveAcquire 4 "a" 0, .reserveProbed (some (10, 16)) "r1" 1,
        .reserveAcquire 5 "b" 2, .release "r1", .reserveProbed (some (5, 16)) "r2" 3,
        .release "r1", .sweepStale 10000] = some s ∧ Safe s := by
  obtain ⟨s, hrun⟩ := Option.isSome_iff_exists.mp
    (by decide : (run step (init 3600)
      [.reserveAcquire 4 "a" 0, .reserveProbed (some (10, 16)) "r1" 1,
        .reserveAcquire 5 "b" 2, .release "r1", .reserveProbed (some (5, 16)) "r2" 3,
        .release "r1", .sweepStale 10000]).isSome)
  exact ⟨s, hrun, run_ledgerSafe _ _ _ hrun⟩

end LedgerState

end TinyAgentOS.Vram
