import TinyAgentOS.Gpu.Lifecycle
import TinyAgentOS.Library.Custody

/-!
# Reservations in custody

A submission is granted a reservation when a check of it succeeds, and the
reservation goes back to the ledger when its run is over.  Until then it lies in
`_pending_reservations` under the task's id.

Main results:

- `Reserved.grant`, `Reserved.resume` and `Reserved.settle`: a reservation from its grant to its
  release.
- `Reserved.sweep`: sweeps that leave the arbiter's reservations alone.
-/

namespace TinyAgentOS.Gpu

open Cluster Collections Custody Vram

/-- A submission holds its reservation from the grant to the end of its run; one that was
just granted a reservation has not started yet. -/
def Job.Holds (j : Job) (granted : Option SubId) (k : SubId) : Prop :=
  j.run.active = true ∨ granted = some k

namespace ArbiterState

def reservationOf (jobs : Dict SubId Job) (k : SubId) : Option ReservationId :=
  (jobs.get? k).bind Job.reservation

variable {rid : ReservationId} {granted' : Option SubId}

theorem reservationOf_eq_some {jobs : Dict SubId Job} {k : SubId} :
    reservationOf jobs k = some rid ↔ ∃ j, jobs.get? k = some j ∧ j.reservation = some rid :=
  Option.bind_eq_some_iff

/-- The reservation of a submission that goes on. -/
theorem reservationOf_set (jobs : Dict SubId Job) (k : SubId) (j : Job) (k' : SubId) :
    reservationOf (jobs.set k j) k' = if k = k' then j.reservation else reservationOf jobs k' := by
  unfold reservationOf
  rw [Dict.get?_set]
  split <;> rfl

theorem reservationOf_congr {jobs jobs' : Dict SubId Job} {k : SubId}
    (h : jobs'.get? k = jobs.get? k) : reservationOf jobs' k = reservationOf jobs k := by
  rw [reservationOf, reservationOf, h]

/-! ## The ledger -/

/-- The ledger's books balance, and what it holds was issued. -/
structure LedgerOk (manager : VramReservationManager) (lock : Option LockHolder)
    (issued outside : List ReservationId) : Prop where
  balanced : manager.Balanced
  lock : ∀ vramMb caller, lock = some (.outside vramMb caller) → 0 < vramMb
  pending : ∀ rid, (manager.pending.get? rid).isSome = true → rid ∈ issued
  outside : ∀ rid ∈ outside, rid ∈ issued

section Ledger

variable {manager : VramReservationManager} {lock : Option LockHolder}
  {issued outside : List ReservationId}

section

variable (h : LedgerOk manager lock issued outside)
include h

/-- The lock changes hands. -/
theorem LedgerOk.setLock {lock' : Option LockHolder}
    (hlock : ∀ vramMb caller, lock' = some (.outside vramMb caller) → 0 < vramMb) :
    LedgerOk manager lock' issued outside :=
  ⟨h.balanced, hlock, h.pending, h.outside⟩

/-- An id is drawn. -/
theorem LedgerOk.issue (rid : ReservationId) : LedgerOk manager none (rid :: issued) outside where
  balanced := h.balanced
  lock := by
    intro vramMb caller heq
    contradiction
  pending := fun rid' hrid => List.mem_cons_of_mem _ (h.pending rid' hrid)
  outside := fun rid' hrid => List.mem_cons_of_mem _ (h.outside rid' hrid)

/-- A sweep keeps the ledger in order. -/
theorem LedgerOk.sweep (now : Vram.Clock) :
    LedgerOk (manager.sweepStaleUnlocked now).1 lock issued outside where
  balanced := h.balanced.sweep now
  lock := h.lock
  pending := by
    intro rid hrid
    rw [h.balanced.sweep_get?] at hrid
    split at hrid
    · contradiction
    · exact h.pending rid hrid
  outside := h.outside

/-- A release keeps the ledger in order. -/
theorem LedgerOk.release (rid : ReservationId) :
    LedgerOk (manager.release rid).1 lock issued outside where
  balanced := h.balanced.popReservation rid
  lock := h.lock
  pending := by
    intro rid' hrid
    rw [VramReservationManager.release, VramReservationManager.popReservation_get?] at hrid
    split at hrid
    · contradiction
    · exact h.pending rid' hrid
  outside := h.outside

/-- Nothing is reserved under an id that was not drawn. -/
theorem LedgerOk.unused {rid : ReservationId}
    (hrid : rid ∉ issued) : manager.pending.get? rid = none := by
  cases hget : manager.pending.get? rid with
  | none => rfl
  | some res => exact absurd (h.pending rid (by rw [hget]; rfl)) hrid

/-- A reservation under a new id is recorded. -/
theorem LedgerOk.grant {res : VramReservation}
    (hrid : res.reservationId ∉ issued) (hpos : 0 < res.vramMb) {outside' : List ReservationId}
    (houtside : ∀ rid ∈ outside', rid = res.reservationId ∨ rid ∈ outside) :
    LedgerOk (manager.grant res) none (res.reservationId :: issued) outside' where
  balanced := h.balanced.grant (h.unused hrid) hpos
  lock := by
    intro vramMb caller heq
    contradiction
  pending := by
    intro rid hget
    simp only [VramReservationManager.grant, Dict.get?_set] at hget
    split at hget
    · rename_i heq
      rw [heq]
      exact List.mem_cons_self
    · exact List.mem_cons_of_mem _ (h.pending rid hget)
  outside := by
    intro rid hmem
    rcases houtside rid hmem with heq | hold
    · rw [heq]
      exact List.mem_cons_self
    · exact List.mem_cons_of_mem _ (h.outside rid hold)

end

end Ledger

theorem LedgerOk.releaseReservation {s : ArbiterState}
    (h : LedgerOk s.manager s.lock s.issued s.outside) (taskId : TaskId) :
    LedgerOk (s.releaseReservation taskId).manager s.lock s.issued s.outside := by
  unfold ArbiterState.releaseReservation
  cases s.pendingReservations.get? taskId with
  | none => exact h
  | some rid => exact h.release rid

/-! ## Reservations -/

/-- A reservation lies in the table, and in the ledger, exactly while its submission holds
it. -/
structure Reserved (granted : Option SubId) (s : ArbiterState) : Prop where
  custody : Kept (reservationOf s.jobs) s.pendingReservations.get? s.reservationReleases
  held : ∀ k j rid, s.jobs.get? k = some j → j.reservation = some rid → j.Holds granted k →
    s.pendingReservations.get? j.request.taskId = some rid
  holder : ∀ taskId rid, s.pendingReservations.get? taskId = some rid → ∃ k j,
    s.jobs.get? k = some j ∧ j.request.taskId = taskId ∧ j.reservation = some rid ∧
      j.Holds granted k
  live : ∀ k j rid, s.jobs.get? k = some j → j.reservation = some rid →
    ((s.manager.pending.get? rid).isSome = true ↔ j.Holds granted k)
  issued : ∀ k rid, reservationOf s.jobs k = some rid → rid ∈ s.issued ∧ rid ∉ s.outside

variable {granted : Option SubId} {s s' : ArbiterState} {k : SubId} {j j' : Job}

/-- Neither the table nor the ledger nor the submissions move. -/
theorem Reserved.same (h : Reserved granted s) (hjobs : s'.jobs = s.jobs)
    (htable : ∀ taskId, s'.pendingReservations.get? taskId = s.pendingReservations.get? taskId)
    (hreleases : s'.reservationReleases = s.reservationReleases)
    (hpending : ∀ k rid, reservationOf s.jobs k = some rid →
      s'.manager.pending.get? rid = s.manager.pending.get? rid)
    (hissued : ∀ rid ∈ s.issued, rid ∈ s'.issued)
    (houtside : ∀ k rid, reservationOf s.jobs k = some rid → rid ∈ s'.outside → rid ∈ s.outside) :
    Reserved granted s' where
  custody := by
    rw [hjobs, hreleases]
    exact h.custody.congr (fun _ => rfl) htable
  held := by
    intro k j rid hget hrid hholds
    rw [hjobs] at hget
    rw [htable]
    exact h.held k j rid hget hrid hholds
  holder := by
    intro taskId rid hrid
    rw [htable] at hrid
    rw [hjobs]
    exact h.holder taskId rid hrid
  live := by
    intro k j rid hget hrid
    rw [hjobs] at hget
    rw [hpending k rid (reservationOf_eq_some.mpr ⟨j, hget, hrid⟩)]
    exact h.live k j rid hget hrid
  issued := by
    intro k rid hrid
    rw [hjobs] at hrid
    obtain ⟨hissue, hout⟩ := h.issued k rid hrid
    exact ⟨hissued rid hissue, fun hmem => hout (houtside k rid hrid hmem)⟩

/-- A submission goes on with what it held, or did not hold. -/
theorem Reserved.put (h : Reserved granted s)
    (hjobs : ∀ k', s'.jobs.get? k' = (s.jobs.set k j').get? k')
    (hkeep : reservationOf s.jobs k = j'.reservation)
    (hholds : ∀ i rid, s.jobs.get? k = some i → i.reservation = some rid →
      i.request.taskId = j'.request.taskId ∧ (j'.Holds granted' k ↔ i.Holds granted k))
    (hothers : ∀ k', k' ≠ k → (granted' = some k' ↔ granted = some k'))
    (htable : ∀ taskId, s'.pendingReservations.get? taskId = s.pendingReservations.get? taskId)
    (hreleases : s'.reservationReleases = s.reservationReleases)
    (hmanager : s'.manager = s.manager) (hissued : s'.issued = s.issued)
    (houtside : s'.outside = s.outside) : Reserved granted' s' := by
  have hsame : ∀ k', reservationOf s'.jobs k' = reservationOf s.jobs k' := by
    intro k'
    rw [reservationOf_congr (hjobs k'), reservationOf_set]
    split
    · rename_i heq
      rw [← heq, hkeep]
    · rfl
  -- What is stored now was stored before, in the same hands.
  have hbefore : ∀ k' i' rid, s'.jobs.get? k' = some i' → i'.reservation = some rid →
      ∃ i, s.jobs.get? k' = some i ∧ i.reservation = some rid ∧
        i.request.taskId = i'.request.taskId ∧ (i'.Holds granted' k' ↔ i.Holds granted k') := by
    intro k' i' rid hget hrid
    rw [hjobs, Dict.get?_set] at hget
    split at hget
    · rename_i heq
      subst heq
      cases hget
      obtain ⟨i, hi, hsome⟩ := reservationOf_eq_some.mp (hkeep.trans hrid)
      exact ⟨i, hi, hsome, hholds i rid hi hsome⟩
    · rename_i hne
      refine ⟨i', hget, hrid, rfl, ?_⟩
      rw [Job.Holds, Job.Holds, hothers k' (Ne.symm hne)]
  refine ⟨?_, ?_, ?_, ?_, ?_⟩
  · rw [hreleases]
    exact h.custody.congr hsame htable
  · intro k' i' rid hget hrid hholds'
    obtain ⟨i, hi, hsome, htask, hiff⟩ := hbefore k' i' rid hget hrid
    rw [htable, ← htask]
    exact h.held k' i rid hi hsome (hiff.mp hholds')
  · intro taskId rid hrid
    rw [htable] at hrid
    obtain ⟨k', i, hi, htask, hsome, hheld⟩ := h.holder taskId rid hrid
    have hnow : reservationOf s'.jobs k' = some rid :=
      (hsame k').trans (reservationOf_eq_some.mpr ⟨i, hi, hsome⟩)
    obtain ⟨i', hi', hsome'⟩ := reservationOf_eq_some.mp hnow
    obtain ⟨i₀, hi₀, _, htask', hiff⟩ := hbefore k' i' rid hi' hsome'
    cases hi.symm.trans hi₀
    exact ⟨k', i', hi', htask'.symm.trans htask, hsome', hiff.mpr hheld⟩
  · intro k' i' rid hget hrid
    obtain ⟨i, hi, hsome, _, hiff⟩ := hbefore k' i' rid hget hrid
    rw [hmanager, hiff]
    exact h.live k' i rid hi hsome
  · intro k' rid hrid
    rw [hissued, houtside]
    exact h.issued k' rid ((hsame k').symm.trans hrid)

/-- Releasing under an id without a reservation changes nothing. -/
theorem releaseReservation_none {taskId : TaskId}
    (hnone : s.pendingReservations.get? taskId = none) :
    (s.releaseReservation taskId).manager = s.manager ∧
      (s.releaseReservation taskId).reservationReleases = s.reservationReleases ∧
      ∀ taskId', (s.releaseReservation taskId).pendingReservations.get? taskId' =
        s.pendingReservations.get? taskId' := by
  refine ⟨?_, ?_, ?_⟩
  · simp only [releaseReservation, hnone]
  · simp only [releaseReservation, hnone, Option.filter_none, Option.toList_none,
      List.append_nil]
  · intro taskId'
    simp only [releaseReservation, Dict.get?_pop]
    split
    · rename_i heq
      rw [← heq, hnone]
    · rfl

/-- The step's own submission is what lies under its id, and what it holds lies there. -/
structure Resumes (granted : Option SubId) (s : ArbiterState) (k : SubId) (j : Job) : Prop where
  reservation : reservationOf s.jobs k = j.reservation
  held : ∀ i rid, s.jobs.get? k = some i → i.reservation = some rid →
    i.request.taskId = j.request.taskId ∧ i.Holds granted k
  only : ∀ k', granted = some k' → k' = k

/-- A submission runs on, or starts. -/
theorem Reserved.resume (h : Reserved granted s) (hresume : Resumes granted s k j) (j' : Job)
    (hjobs : ∀ k', s'.jobs.get? k' = (s.jobs.set k j').get? k') (hrequest : j'.request = j.request)
    (hreservation : j'.reservation = j.reservation) (hactive : j'.run.active = true)
    (htable : s'.pendingReservations = s.pendingReservations)
    (hreleases : s'.reservationReleases = s.reservationReleases)
    (hmanager : s'.manager = s.manager) (hissued : s'.issued = s.issued)
    (houtside : s'.outside = s.outside) : Reserved none s' := by
  refine h.put hjobs (hresume.reservation.trans hreservation.symm) ?_ ?_
    (fun taskId => by rw [htable]) hreleases hmanager hissued houtside
  · intro i rid hi hrid
    obtain ⟨htask, hheld⟩ := hresume.held i rid hi hrid
    exact ⟨by rw [htask, hrequest], iff_of_true (Or.inl hactive) hheld⟩
  · intro k' hne
    constructor
    · intro hnone
      contradiction
    · intro hgranted
      exact absurd (hresume.only k' hgranted) hne

/-- A submission is over, and its reservation goes back. -/
theorem Reserved.settle (h : Reserved granted s) (hresume : Resumes granted s k j)
    (howns : ∀ rid, s.pendingReservations.get? j.request.taskId = some rid →
      reservationOf s.jobs k = some rid)
    (j' : Job) (hjobs : ∀ k', s'.jobs.get? k' = (s.jobs.set k j').get? k')
    (hreservation : j'.reservation = j.reservation) (hover : j'.run.active = false)
    (htable : s'.pendingReservations =
      (s.releaseReservation j.request.taskId).pendingReservations)
    (hreleases : s'.reservationReleases =
      (s.releaseReservation j.request.taskId).reservationReleases)
    (hmanager : s'.manager = (s.releaseReservation j.request.taskId).manager)
    (hissued : s'.issued = s.issued) (houtside : s'.outside = s.outside) : Reserved none s' := by
  have hothers : ∀ k', k' ≠ k → ((none : Option SubId) = some k' ↔ granted = some k') := by
    intro k' hne
    constructor
    · intro hnone
      contradiction
    · intro hgranted
      exact absurd (hresume.only k' hgranted) hne
  cases hlies : s.pendingReservations.get? j.request.taskId with
  | none =>
    obtain ⟨hmanager', hreleases', htable'⟩ := releaseReservation_none hlies
    refine h.put hjobs (hresume.reservation.trans hreservation.symm) ?_ hothers
      (fun taskId => by rw [htable]; exact htable' taskId) (hreleases.trans hreleases')
      (hmanager.trans hmanager') hissued houtside
    intro i rid hi hrid
    obtain ⟨htask, hheld⟩ := hresume.held i rid hi hrid
    have hlay := h.held k i rid hi hrid hheld
    rw [htask, hlies] at hlay
    contradiction
  | some rid =>
    obtain ⟨i, hi, hrid⟩ := reservationOf_eq_some.mp (howns rid hlies)
    obtain ⟨htask, hheld⟩ := hresume.held i rid hi hrid
    have hlive : (s.manager.pending.get? rid).isSome = true := (h.live k i rid hi hrid).mpr hheld
    have hj' : j'.reservation = some rid := by
      rw [hreservation, ← hresume.reservation]
      exact howns rid hlies
    have hsame : ∀ k', reservationOf s'.jobs k' = reservationOf s.jobs k' := by
      intro k'
      rw [reservationOf_congr (hjobs k'), reservationOf_set]
      split
      · rename_i heq
        rw [← heq, hj', howns rid hlies]
      · rfl
    have hback : s'.reservationReleases =
        s.reservationReleases ++ (s.pendingReservations.get? j.request.taskId).toList := by
      rw [hreleases]
      simp only [releaseReservation, hlies, VramReservationManager.release, Option.filter_some,
        hlive, if_true]
    have hleft : ∀ taskId, s'.pendingReservations.get? taskId =
        if j.request.taskId = taskId then none else s.pendingReservations.get? taskId := by
      intro taskId
      rw [htable, releaseReservation, Dict.get?_pop]
    have hpending : ∀ rid', s'.manager.pending.get? rid' =
        if rid = rid' then none else s.manager.pending.get? rid' := by
      intro rid'
      rw [hmanager]
      simp only [releaseReservation, hlies, VramReservationManager.release,
        VramReservationManager.popReservation_get?]
    -- The reservations of the others are other ones, in their hands as before.
    have hbefore : ∀ k' i' rid', s'.jobs.get? k' = some i' → i'.reservation = some rid' →
        k' = k ∧ rid' = rid ∧ ¬i'.Holds none k' ∨
          k' ≠ k ∧ rid' ≠ rid ∧ s.jobs.get? k' = some i' ∧
            (i'.Holds none k' ↔ i'.Holds granted k') := by
      intro k' i' rid' hget hsome
      have hstored := hget
      rw [hjobs, Dict.get?_set] at hget
      split at hget
      · rename_i heq
        subst heq
        cases hget
        left
        refine ⟨rfl, Option.some.inj (hsome.symm.trans hj'), ?_⟩
        rw [Job.Holds, hover]
        simp
      · rename_i hne
        right
        refine ⟨Ne.symm hne, ?_, hget, ?_⟩
        · rintro rfl
          exact hne (h.custody.unique k k' rid' (howns rid' hlies)
            (reservationOf_eq_some.mpr ⟨i', hget, hsome⟩))
        · rw [Job.Holds, Job.Holds, hothers k' (Ne.symm hne)]
    refine ⟨?_, ?_, ?_, ?_, ?_⟩
    · rw [hback]
      have hreturned : Kept (reservationOf s.jobs) s'.pendingReservations.get?
          (s.reservationReleases ++ (s.pendingReservations.get? j.request.taskId).toList) :=
        h.custody.giveBack (by rw [hleft, if_pos rfl])
          (fun taskId hne => by rw [hleft, if_neg (Ne.symm hne)])
      exact hreturned.congr hsame fun _ => rfl
    · intro k' i' rid' hget hsome hholds
      rcases hbefore k' i' rid' hget hsome with ⟨_, _, hover'⟩ | ⟨_, hne, hget', hiff⟩
      · exact absurd hholds hover'
      · have hlay := h.held k' i' rid' hget' hsome (hiff.mp hholds)
        rw [hleft]
        split
        · rename_i heq
          rw [heq, hlay] at hlies
          cases hlies
          exact absurd rfl hne
        · exact hlay
    · intro taskId rid' hlay
      rw [hleft] at hlay
      split at hlay
      · contradiction
      rename_i hne
      obtain ⟨k', i', hi', htask', hsome, hheld'⟩ := h.holder taskId rid' hlay
      have hk : k' ≠ k := by
        rintro rfl
        cases hi.symm.trans hi'
        exact hne (htask.symm.trans htask')
      refine ⟨k', i', ?_, htask', hsome, ?_⟩
      · rw [hjobs, Dict.get?_set_of_ne _ _ (Ne.symm hk)]
        exact hi'
      · rwa [Job.Holds, hothers k' hk]
    · intro k' i' rid' hget hsome
      rw [hpending]
      rcases hbefore k' i' rid' hget hsome with ⟨_, rfl, hover'⟩ | ⟨_, hne, hget', hiff⟩
      · rw [if_pos rfl]
        simpa using hover'
      · rw [if_neg (Ne.symm hne), hiff]
        exact h.live k' i' rid' hget' hsome
    · intro k' rid' hrid'
      rw [hissued, houtside]
      exact h.issued k' rid' ((hsame k').symm.trans hrid')

/-- The ledger grants a reservation to a submission that has none. -/
theorem Reserved.grant (h : Reserved none s) (hget : s.jobs.get? k = some j)
    (hnone : j.reservation = none)
    (hempty : s.pendingReservations.get? j.request.taskId = none)
    (hrid : rid ∉ s.issued) (houtside : ∀ rid ∈ s.outside, rid ∈ s.issued)
    {res : VramReservation} (hres : res.reservationId = rid)
    (hjobs : s'.jobs = s.jobs.set k { j with reservation := some rid })
    (htable : s'.pendingReservations = s.pendingReservations.set j.request.taskId rid)
    (hreleases : s'.reservationReleases = s.reservationReleases)
    (hmanager : s'.manager = s.manager.grant res) (hissued : s'.issued = rid :: s.issued)
    (houtside' : s'.outside = s.outside) : Reserved (some k) s' := by
  have hunused : ∀ k', reservationOf s.jobs k' ≠ some rid := by
    intro k' heq
    exact hrid (h.issued k' rid heq).1
  have hself : reservationOf s.jobs k = none := by
    rw [reservationOf, hget, Option.bind_some, hnone]
  have hbefore : ∀ k' i' rid', s'.jobs.get? k' = some i' → i'.reservation = some rid' →
      k' = k ∧ rid' = rid ∧ i'.request.taskId = j.request.taskId ∨
        k' ≠ k ∧ rid' ≠ rid ∧ s.jobs.get? k' = some i' ∧
          (i'.Holds (some k) k' ↔ i'.Holds none k') := by
    intro k' i' rid' hget' hsome
    rw [hjobs, Dict.get?_set] at hget'
    split at hget'
    · rename_i heq
      subst heq
      cases hget'
      exact Or.inl ⟨rfl, (Option.some.inj hsome).symm, rfl⟩
    · rename_i hne
      right
      refine ⟨Ne.symm hne, ?_, hget', ?_⟩
      · rintro rfl
        exact hunused k' (reservationOf_eq_some.mpr ⟨i', hget', hsome⟩)
      · simp [Job.Holds, hne]
  have hlies : ∀ taskId, s'.pendingReservations.get? taskId =
      if j.request.taskId = taskId then some rid else s.pendingReservations.get? taskId := by
    intro taskId
    rw [htable, Dict.get?_set]
  refine ⟨?_, ?_, ?_, ?_, ?_⟩
  · rw [hreleases]
    refine h.custody.give k j.request.taskId (some rid) ?_ hself hempty ?_
      (by rw [hlies, if_pos rfl]) ?_ ?_
    · intro t ht k'
      cases ht
      exact hunused k'
    · rw [hjobs, reservationOf_set, if_pos rfl]
    · intro k' hne
      rw [hjobs, reservationOf_set, if_neg (Ne.symm hne)]
    · intro taskId hne
      rw [hlies, if_neg (Ne.symm hne)]
  · intro k' i' rid' hget' hsome hholds
    rw [hlies]
    rcases hbefore k' i' rid' hget' hsome with ⟨_, rfl, htask⟩ | ⟨_, hne, hstored, hiff⟩
    · rw [if_pos htask.symm]
    · have hlay := h.held k' i' rid' hstored hsome (hiff.mp hholds)
      split
      · rename_i heq
        rw [← heq, hempty] at hlay
        contradiction
      · exact hlay
  · intro taskId rid' hlay
    rw [hlies] at hlay
    split at hlay
    · rename_i heq
      cases hlay
      refine ⟨k, { j with reservation := some rid }, ?_, heq, rfl, Or.inr rfl⟩
      rw [hjobs, Dict.get?_set_self]
    · obtain ⟨k', i', hi', htask', hsome, hheld⟩ := h.holder taskId rid' hlay
      have hk : k' ≠ k := by
        rintro rfl
        cases hget.symm.trans hi'
        rw [hnone] at hsome
        contradiction
      refine ⟨k', i', ?_, htask', hsome, ?_⟩
      · rw [hjobs, Dict.get?_set_of_ne _ _ (Ne.symm hk)]
        exact hi'
      · simpa [Job.Holds, Ne.symm hk] using hheld
  · intro k' i' rid' hget' hsome
    rw [hmanager]
    simp only [VramReservationManager.grant, Dict.get?_set, hres]
    rcases hbefore k' i' rid' hget' hsome with ⟨rfl, rfl, _⟩ | ⟨_, hne, hstored, hiff⟩
    · simp [Job.Holds]
    · rw [if_neg (Ne.symm hne), hiff]
      exact h.live k' i' rid' hstored hsome
  · intro k' rid' hrid'
    rw [hissued, houtside']
    rw [hjobs, reservationOf_set] at hrid'
    split at hrid'
    · cases hrid'
      exact ⟨List.mem_cons_self, fun hmem => hrid (houtside rid hmem)⟩
    · obtain ⟨hissue, hout⟩ := h.issued k' rid' hrid'
      exact ⟨List.mem_cons_of_mem _ hissue, hout⟩

/-- The sweep reclaims no reservation that the table names. -/
def SweepKeeps (s : ArbiterState) (now : Vram.Clock) : Prop :=
  ∀ rid ∈ s.manager.reclaimedIds now, rid ∉ s.pendingReservations.values

/-- A sweep that keeps what is held. -/
theorem Reserved.sweep (h : Reserved granted s) (hbalanced : s.manager.Balanced)
    {now : Vram.Clock} (hkeeps : SweepKeeps s now) : Reserved granted (s.sweep now) := by
  refine h.same rfl (fun _ => rfl) rfl ?_ (fun _ hrid => hrid) (fun _ _ _ hmem => hmem)
  intro k rid hrid
  rw [ArbiterState.sweep, hbalanced.sweep_get?]
  split
  · rename_i hreclaimed
    obtain ⟨i, hi, hsome⟩ := reservationOf_eq_some.mp hrid
    obtain ⟨res, hres⟩ := VramReservationManager.mem_reclaimedIds_pending hreclaimed
    have hholds := (h.live k i rid hi hsome).mp (by rw [hres]; rfl)
    have hlies := h.held k i rid hi hsome hholds
    exact absurd (Dict.mem_values_iff.mpr ⟨_, hlies⟩) (hkeeps rid hreclaimed)
  · rfl

/-! ## Submissions that can still be granted one -/

/-- A submission that is checked, queued or with a drain pass has no reservation. -/
def Fresh (granted : Option SubId) (s : ArbiterState) : Prop :=
  ∀ k j, s.jobs.get? k = some j → granted ≠ some k →
    (∃ phase, j.submitter = .checking phase) ∨ (∃ e ∈ present s, e.job = k) →
    j.reservation = none

theorem Fresh.same (h : Fresh granted s) (hjobs : s'.jobs = s.jobs)
    (hpresent : ∀ e ∈ present s', e ∈ present s) : Fresh granted s' := by
  intro k j hget hgranted hwhere
  rw [hjobs] at hget
  apply h k j hget hgranted
  rcases hwhere with hchecking | ⟨e, he, heq⟩
  · exact Or.inl hchecking
  · exact Or.inr ⟨e, hpresent e he, heq⟩

/-- One submission changes. -/
theorem Fresh.put (h : Fresh granted s) (j' : Job)
    (hjobs : ∀ k', s'.jobs.get? k' = (s.jobs.set k j').get? k')
    (hpresent : ∀ e ∈ present s', e.job = k ∨ e ∈ present s)
    (hothers : ∀ k', k' ≠ k → granted = some k' → granted' = some k')
    (hself : (∃ phase, j'.submitter = .checking phase) ∨ (∃ e ∈ present s', e.job = k) →
      j'.reservation = none) : Fresh granted' s' := by
  intro k' i hget hgranted hwhere
  rw [hjobs, Dict.get?_set] at hget
  split at hget
  · rename_i heq
    subst heq
    cases hget
    exact hself hwhere
  · rename_i hne
    apply h k' i hget (fun heq => hgranted (hothers k' (Ne.symm hne) heq))
    rcases hwhere with hchecking | ⟨e, he, heq⟩
    · exact Or.inl hchecking
    · rcases hpresent e he with hk | hold
      · exact absurd (hk.symm.trans heq) hne
      · exact Or.inr ⟨e, hold, heq⟩

end ArbiterState

end TinyAgentOS.Gpu
