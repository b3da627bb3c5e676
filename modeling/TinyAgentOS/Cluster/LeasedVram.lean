import TinyAgentOS.Cluster.LeaseExclusion
import TinyAgentOS.Gpu.Arbiter

/-!
# The VRAM that is leased on a worker

A claim is compared with the free VRAM the worker last reported, not with what
the leases on its other resources leave of it.  The arbiter's admission check
subtracts the leases first.

Main results:

- `run_vramFits`: the leases of a worker fit what it reported, and the arbiter admits what is
  claimed, if every granted claim fits what the other leases leave.
- `admitted_iff_of_run`: the arbiter's admission check goes by the same leases.
- `vram_overLeased`: two claims that each fit alone are both granted.
-/

namespace TinyAgentOS.Cluster
namespace Fleet

open Collections Transition

variable {p : Wiring} {s s' : Fleet} {name : String}

/-! ## Leased VRAM -/

/-- The VRAM an unexpired lease on a worker asked for. -/
def liveVram (name : String) (now : Instant) (lease : GpuLease) : Int :=
  if leaseOn name lease ∧ 0 < lease.requiredVramMb ∧ lease.active now then
    lease.requiredVramMb
  else 0

/-- The VRAM the unexpired leases on a worker asked for. -/
def leasedVram (s : Fleet) (name : String) : Int :=
  s.leases.sumBy (liveVram name s.clock)

/-- The unexpired leases on a worker fit the free VRAM it last reported. -/
def VramFits (s : Fleet) (name : String) : Prop :=
  ∀ w ∈ s.worker? name, ∀ freeMb ∈ w.freeVramMb, s.leasedVram name ≤ freeMb

/-- The worker reports anew. -/
def reports (name : String) : FleetEvent → Bool
  | .registerWorker info _ => info.name = name
  | .heartbeat key _ => key = name
  | _ => false

/-- The worker's free VRAM has room for more beside the leases on it. -/
def hasRoom (s : Fleet) (name : String) (requiredVramMb : Int) : Bool :=
  (s.worker? name).all fun w =>
    w.freeVramMb.all fun freeMb => s.leasedVram name + requiredVramMb ≤ freeMb

/-- A granted claim on the worker fits what the other leases leave, and so does a renewal that
makes a lease active whose expiry is a NaN. -/
def fits (name : String) (s : Fleet) : FleetEvent → Bool
  | .claimLease resourceId _ _ requiredVramMb _ =>
    match s.cluster.workerForResource resourceId with
    | none => true
    | some w =>
      w.name ≠ name || (s.cluster.findExistingLease resourceId s.clock).isSome ||
        ClusterManager.exceedsFree w requiredVramMb || requiredVramMb ≤ 0 ||
        s.hasRoom name requiredVramMb
  | .renewLease leaseId ttl =>
    (s.leases.get? leaseId).all fun lease =>
      !leaseOn name lease || lease.expiresAt ≠ .nan || !ttl.positive ||
        lease.requiredVramMb ≤ 0 || s.hasRoom name lease.requiredVramMb
  | _ => true

theorem liveVram_nonneg (name : String) (now : Instant) (lease : GpuLease) :
    0 ≤ liveVram name now lease := by
  unfold liveVram
  split
  · omega
  · omega

/-! ## One step -/

variable {e : FleetEvent} {lease : GpuLease} {leaseId : LeaseId} {w : Worker} {requiredVramMb : Int}
  {ttl : Seconds}

/-- A step that grants and revives no lease does not raise what is leased. -/
theorem leasedVram_le (hrevives : revivesNone s e = true) (hstep : step p s e = some s')
    (hclaim : ∀ resourceId caller ttl requiredVramMb leaseId,
      e ≠ .claimLease resourceId caller ttl requiredVramMb leaseId) :
    s'.leasedVram name ≤ s.leasedVram name := by
  apply Dict.sumBy_le
  · intro lease _
    exact liveVram_nonneg name s.clock lease
  · intro id lease hget
    by_cases hactive : lease.active s'.clock = true
    · rcases active_before hrevives hstep hget hactive with
        ⟨old, hold, hresource, hvram, hbefore⟩ | ⟨caller, ttl, vram, rfl, _⟩
      · refine Or.inr ⟨old, hold, le_of_eq ?_⟩
        simp only [liveVram, leaseOn, hresource, hvram, hactive, hbefore]
      · exact absurd rfl (hclaim _ _ _ _ _)
    · left
      rw [liveVram, if_neg]
      exact fun hlive => hactive hlive.2.2

/-- A step in which the worker does not report leaves its free VRAM as it was. -/
theorem freeVramMb_step (hwf : Wellformed s) (hstep : step p s e = some s')
    (hreports : reports name e = false) :
    ∀ w' ∈ s'.worker? name, ∃ w ∈ s.worker? name, w.freeVramMb = w'.freeVramMb := by
  intro w' hw'
  have hfate := workerStep hwf hstep name
  rw [Option.mem_def.mp hw'] at hfate
  generalize hbefore : s.worker? name = before at hfate
  cases hfate with
  | same => exact ⟨w', rfl, rfl⟩
  | registered info generation _ hname => simp [reports, hname] at hreports
  | heard beat w => simp [reports] at hreports
  | drained graceful w | undrained w | offline _ w => exact ⟨w, rfl, rfl⟩

/-- A lease that there is room for keeps the leases within what was reported. -/
theorem VramFits.put (h : VramFits s name)
    (hroom : leaseOn name lease = true → 0 < lease.requiredVramMb →
      lease.active s.clock = true → s.hasRoom name lease.requiredVramMb = true)
    (hworker : s'.worker? name = s.worker? name) (hclock : s'.clock = s.clock)
    (hleases : s'.leases = s.leases.set leaseId lease) : VramFits s' name := by
  intro w hw freeMb hfree
  rw [hworker] at hw
  have hbefore : s.leasedVram name ≤ freeMb := h w hw freeMb hfree
  have hset : s'.leasedVram name ≤ s.leasedVram name + liveVram name s.clock lease := by
    rw [leasedVram, hclock, hleases]
    exact Dict.sumBy_set_le fun old _ => liveVram_nonneg name s.clock old
  unfold liveVram at hset
  split at hset
  · rename_i hlive
    have hfits := hroom hlive.1 hlive.2.1 hlive.2.2
    simp only [hasRoom, Option.mem_def.mp hw, Option.mem_def.mp hfree, Option.all_some,
      decide_eq_true_eq] at hfits
    exact le_trans hset hfits
  · omega

/-- A claim on the worker that is granted went through its checks, and has room if it fits. -/
theorem hasRoom_of_granted (hwf : Wellformed s) {resourceId rest caller : String} {w : WorkerInfo}
    (hparse : parseResourceId resourceId = some (name, rest))
    (hworker : s.cluster.workerForResource resourceId = some w)
    (hexisting : s.cluster.findExistingLease resourceId s.clock = none)
    (hfree : ClusterManager.exceedsFree w requiredVramMb = false)
    (hfits : fits name s (.claimLease resourceId caller ttl requiredVramMb leaseId) = true) :
    requiredVramMb ≤ 0 ∨ s.hasRoom name requiredVramMb = true := by
  obtain ⟨name', rest', ref, hparse', href, rfl, _⟩ := workerForResource_registered hworker
  rw [hparse] at hparse'
  cases hparse'
  simpa [fits, hworker, hwf.named name ref href, hexisting, hfree] using hfits

/-- A claim that fits keeps the leases within what was reported. -/
theorem VramFits.claim (h : VramFits s name) (hwf : Wellformed s)
    {resourceId caller : String}
    (hfits : fits name s (.claimLease resourceId caller ttl requiredVramMb leaseId) = true) :
    VramFits (s.claimLease resourceId caller ttl requiredVramMb leaseId) name := by
  rcases claimLease_cases s resourceId caller ttl requiredVramMb leaseId with
    hrefused | ⟨w, hworker, hexisting, hfree, hgranted⟩
  · rw [hrefused]
    exact h
  · rw [hgranted]
    refine h.put ?_ rfl rfl rfl
    intro hon hpositive _
    obtain ⟨rest, hparse⟩ := leaseOn_iff.mp hon
    rcases hasRoom_of_granted hwf hparse hworker hexisting hfree hfits with hzero | hroom
    · exact absurd hpositive (not_lt_of_ge hzero)
    · exact hroom

/-- A renewal that revives a lease keeps the leases within what was reported, if it fits. -/
theorem VramFits.revive (h : VramFits s name) (hfits : fits name s (.renewLease leaseId ttl) = true)
    (hrevives : revivesNone s (.renewLease leaseId ttl) = false) :
    VramFits (s.renewLease leaseId ttl) name := by
  simp only [revivesNone, Bool.or_eq_false_iff, Bool.not_eq_false'] at hrevives
  obtain ⟨hpositive, hnan⟩ := hrevives
  cases hget : s.leases.get? leaseId with
  | none => simp [hget] at hnan
  | some lease =>
    replace hnan : lease.expiresAt = .nan := by simpa [hget] using hnan
    have hexpired : lease.expired s.clock = false := by simp [GpuLease.expired, hnan]
    have hleases : (s.renewLease leaseId ttl).leases =
        s.leases.set leaseId { lease with expiresAt := ttl.after s.clock } := by
      simp [renewLease, ClusterManager.renewLease, cluster, hget, hexpired]
    refine h.put ?_ rfl rfl hleases
    intro hon hvram _
    change leaseOn name lease = true at hon
    simpa [fits, hget, hon, hnan, hpositive, not_le_of_gt hvram] using hfits

/-- One step keeps the leases within what was reported. -/
theorem VramFits.step (h : VramFits s name) (hwf : Wellformed s)
    (hreports : reports name e = false) (hfits : fits name s e = true)
    (hstep : step p s e = some s') : VramFits s' name := by
  by_cases hclaim : ∀ resourceId caller ttl requiredVramMb leaseId,
      e ≠ .claimLease resourceId caller ttl requiredVramMb leaseId
  · cases hrevives : revivesNone s e with
    | true =>
      intro w' hw' freeMb hfreeMb
      obtain ⟨w, hw, hsame⟩ := freeVramMb_step hwf hstep hreports w' hw'
      rw [← hsame] at hfreeMb
      exact le_trans (leasedVram_le hrevives hstep hclaim) (h w hw freeMb hfreeMb)
    | false =>
      cases e with
      | renewLease leaseId ttl =>
        cases hstep
        exact h.revive hfits hrevives
      | _ => cases hrevives
  · simp only [not_forall, not_not] at hclaim
    obtain ⟨resourceId, caller, ttl, requiredVramMb, leaseId, rfl⟩ := hclaim
    simp only [Fleet.step] at hstep
    split at hstep
    · contradiction
    cases hstep
    exact h.claim hwf hfits

/-! ## The arbiter's admission check -/

/-- The arbiter and the manager agree on which leases are on a worker. -/
theorem Wellformed.resourceOnWorker_eq (h : Wellformed s) {id : LeaseId}
    (hget : s.leases.get? id = some lease) (name : String) :
    Gpu.resourceOnWorker lease.resourceId name = leaseOn name lease := by
  obtain ⟨name', rest, ref, hparse, _⟩ := h.housed id lease hget
  simp only [Gpu.resourceOnWorker, leaseOn, hparse, Option.any_some]

/-- What the arbiter subtracts is what the unexpired leases asked for. -/
theorem Wellformed.leasedVram_eq (h : Wellformed s) (name : String) :
    (((s.cluster.getLeases s.clock).filter fun lease =>
        Gpu.resourceOnWorker lease.resourceId name && 0 < lease.requiredVramMb).map
      GpuLease.requiredVramMb).sum = s.leasedVram name := by
  have hlist : ∀ leases : List GpuLease, (∀ lease ∈ leases,
      Gpu.resourceOnWorker lease.resourceId name = leaseOn name lease) →
      (((leases.filter fun lease => lease.active s.clock).filter fun lease =>
          Gpu.resourceOnWorker lease.resourceId name && 0 < lease.requiredVramMb).map
        GpuLease.requiredVramMb).sum = (leases.map (liveVram name s.clock)).sum := by
    intro leases hon
    induction leases with
    | nil => rfl
    | cons lease leases ih =>
      have hhead := hon lease List.mem_cons_self
      have htail := ih fun other hother => hon other (List.mem_cons_of_mem _ hother)
      rw [List.map_cons, List.sum_cons, ← htail]
      by_cases hlive : lease.active s.clock = true
      · by_cases hcounted : leaseOn name lease = true ∧ 0 < lease.requiredVramMb
        · simp [hlive, hhead, hcounted, liveVram]
        · have hskipped : (leaseOn name lease && decide (0 < lease.requiredVramMb)) = false := by
            simpa using hcounted
          have hzero : liveVram name s.clock lease = 0 := by
            rw [liveVram, if_neg]
            intro hcount
            exact hcounted ⟨hcount.1, hcount.2.1⟩
          simp [hlive, hhead, hskipped, hzero]
      · have hzero : liveVram name s.clock lease = 0 := by
          rw [liveVram, if_neg]
          intro hcount
          exact hlive hcount.2.2
        simp [hlive, hzero]
  apply hlist
  intro lease hlease
  obtain ⟨id, hget⟩ := Dict.mem_values_iff.mp hlease
  exact h.resourceOnWorker_eq hget name

/-- What the arbiter takes to be available on a worker is what its leases leave. -/
theorem Wellformed.workerAvailable_eq (h : Wellformed s)
    (hw : s.worker? name = some w) (reservedVramMb : Int) :
    Gpu.workerAvailable (s.cluster.getLeases s.clock) reservedVramMb w.toWorkerInfo =
      if w.status = .online then
        w.freeVramMb.map fun freeMb => freeMb - s.leasedVram name - reservedVramMb
      else none := by
  obtain ⟨ref, href, rfl⟩ := worker?_eq_some.mp hw
  simp only [Gpu.workerAvailable, h.named name ref href, h.leasedVram_eq name]

/-- The workers that the arbiter looks at are the registered ones. -/
theorem mem_getWorkers {info : WorkerInfo} :
    info ∈ s.cluster.getWorkers ↔ ∃ name, ∃ w ∈ s.worker? name, w.toWorkerInfo = info := by
  simp [ClusterManager.getWorkers, Dict.mem_values_iff, cluster, worker?, Dict.get?_mapValues]

/-- The arbiter admits exactly what an online worker has room for beside the leases on it and
the reservations of the ledger. -/
theorem Wellformed.admitted_iff (hwf : Wellformed s) {reservedVramMb : Int} :
    (Gpu.checkClusterAdmission s.cluster reservedVramMb requiredVramMb s.clock).admitted = true ↔
      ∃ name w freeMb, s.worker? name = some w ∧ w.status = .online ∧
        w.freeVramMb = some freeMb ∧
          s.leasedVram name + reservedVramMb + requiredVramMb ≤ freeMb := by
  have hhost : (Gpu.checkClusterAdmission s.cluster reservedVramMb requiredVramMb
      s.clock).admitted = (Gpu.hostingWorker s.cluster reservedVramMb requiredVramMb
        s.clock).isSome := by
    unfold Gpu.checkClusterAdmission
    split
    · rename_i hsome
      rw [hsome]
      rfl
    · rename_i hnone
      rw [hnone]
      rfl
  rw [hhost, Gpu.hostingWorker, List.findSome?_isSome_iff]
  constructor
  · rintro ⟨info, hinfo, hroom⟩
    obtain ⟨name, w, hw, rfl⟩ := mem_getWorkers.mp hinfo
    rw [hwf.workerAvailable_eq hw] at hroom
    split at hroom
    · rename_i honline
      cases hfree : w.freeVramMb with
      | none => simp [hfree] at hroom
      | some freeMb =>
        refine ⟨name, w, freeMb, hw, honline, hfree, ?_⟩
        by_contra hfull
        rw [hfree, Option.map_some, Option.filter_some, if_neg] at hroom
        · simp at hroom
        · simp only [decide_eq_true_eq]
          omega
    · simp at hroom
  · rintro ⟨name, w, freeMb, hw, honline, hfree, hroom⟩
    refine ⟨w.toWorkerInfo, mem_getWorkers.mpr ⟨name, w, hw, rfl⟩, ?_⟩
    rw [hwf.workerAvailable_eq hw, if_pos honline, hfree, Option.map_some, Option.filter_some,
      if_pos]
    · rfl
    · simp only [decide_eq_true_eq]
      omega

/-- In every state the arbiter admits exactly what an online worker has room for beside the
leases on it and the reservations of the ledger. -/
theorem admitted_iff_of_run (p : Wiring) (persisted : List Worker) (generation : Int)
    (clock : Instant) {es : List FleetEvent} {s : Fleet}
    (hrun : run (step p) (start persisted generation clock) es = some s)
    (reservedVramMb requiredVramMb : Int) :
    (Gpu.checkClusterAdmission s.cluster reservedVramMb requiredVramMb s.clock).admitted = true ↔
      ∃ name w freeMb, s.worker? name = some w ∧ w.status = .online ∧
        w.freeVramMb = some freeMb ∧
          s.leasedVram name + reservedVramMb + requiredVramMb ≤ freeMb := by
  exact ((wellformed_start persisted generation clock).run hrun).admitted_iff

/-- A worker hosts what one lease on it and a reservation leave. -/
theorem admitted_iff_of_run_leased :
    ∃ s, run (step wired) (start [] 1 0)
        [.registerWorker (sampleWorker "w1" 8000) none,
          .claimLease "w1:gpu-0" "a" 30 5000 "l_1"] = some s ∧
      ∃ name w freeMb, s.worker? name = some w ∧ w.status = .online ∧
        w.freeVramMb = some freeMb ∧ s.leasedVram name + 1000 + 2000 ≤ freeMb := by
  have hall : (run (step wired) (start [] 1 0)
      [.registerWorker (sampleWorker "w1" 8000) none,
        .claimLease "w1:gpu-0" "a" 30 5000 "l_1"]).map (fun s =>
      (Gpu.checkClusterAdmission s.cluster 1000 2000 s.clock).admitted) = some true := by
    decide
  obtain ⟨s, hrun, hadmitted⟩ := Option.map_eq_some_iff.mp hall
  exact ⟨s, hrun, (admitted_iff_of_run wired [] 1 0 hrun 1000 2000).mp hadmitted⟩

/-! ## Runs without a report -/

/-- The arbiter's check, without reservations, admits a claim on the worker that is granted. -/
def ClaimAdmitted (name : String) (s : Fleet) : FleetEvent → Prop
  | .claimLease resourceId caller ttl requiredVramMb leaseId =>
    ∀ rest, parseResourceId resourceId = some (name, rest) →
      (s.cluster.claimLease resourceId caller ttl requiredVramMb leaseId s.clock).2.isSome →
        (Gpu.checkClusterAdmission s.cluster 0 requiredVramMb s.clock).admitted = true
  | _ => True

/-- A claim finds the worker online, with its free VRAM reported. -/
def findsOnline (name : String) (s : Fleet) : FleetEvent → Bool
  | .claimLease _ _ _ _ _ =>
    (s.worker? name).all fun w => w.status = .online && w.freeVramMb.isSome
  | _ => true

/-- What fits beside the other leases is admitted by the arbiter too. -/
theorem VramFits.claimAdmitted (h : VramFits s name) (hwf : Wellformed s)
    (hfits : fits name s e = true) (honline : findsOnline name s e = true) :
    ClaimAdmitted name s e := by
  cases e with
  | claimLease resourceId caller ttl requiredVramMb leaseId =>
    intro rest hparse hgranted
    obtain ⟨lease, hgranted⟩ := Option.isSome_iff_exists.mp hgranted
    obtain ⟨_, hexisting, info, hworker, hfree⟩ := ClusterManager.claimLease_eq_some hgranted
    have hroom := hasRoom_of_granted hwf hparse hworker hexisting hfree hfits
    obtain ⟨name', rest', ref, hparse', href, _⟩ := workerForResource_registered hworker
    rw [hparse] at hparse'
    cases hparse'
    have hw := worker?_of_get? href
    simp only [findsOnline, hw, Option.all_some, Bool.and_eq_true, decide_eq_true_eq] at honline
    obtain ⟨freeMb, hfreeMb⟩ := Option.isSome_iff_exists.mp honline.2
    have hleased : s.leasedVram name ≤ freeMb := h _ hw freeMb hfreeMb
    refine hwf.admitted_iff.mpr ⟨name, s.objects ref, freeMb, hw, honline.1, hfreeMb, ?_⟩
    rcases hroom with hzero | hroom
    · omega
    · simp only [hasRoom, hw, hfreeMb, Option.all_some, decide_eq_true_eq] at hroom
      omega
  | _ => trivial

/-- In every run in which a worker does not report anew, and in which every claim on it that is
granted and every renewal that revives a lease fits what the other leases leave, its unexpired
leases fit what it last reported, if they did at the beginning; and where the claims find it
online, with its free VRAM reported, the arbiter's check admits what is granted. -/
theorem run_vramFits (p : Wiring) (persisted : List Worker) (generation : Int)
    (clock : Instant) {es fs : List FleetEvent} {reported s : Fleet} {name : String}
    (hrun : run (step p) (start persisted generation clock) es = some reported)
    (hstart : VramFits reported name)
    (hfits : Guarded (step p)
      (fun t e => reports name e = false ∧ fits name t e = true) reported fs)
    (hrest : run (step p) reported fs = some s) :
    VramFits s name ∧
      (Guarded (step p) (fun t e => findsOnline name t e = true) reported fs →
        EveryStep (step p) (fun t e _ => ClaimAdmitted name t e) reported fs) := by
  have hwf := (wellformed_start persisted generation clock).run hrun
  have hkept : ∀ {gs t}, Guarded (step p)
      (fun t e => reports name e = false ∧ fits name t e = true) reported gs →
        run (step p) reported gs = some t → VramFits t name ∧ Wellformed t := by
    intro gs t hguard hgs
    apply invariant_of_guarded_run _ ⟨hstart, hwf⟩ hguard hgs
    intro t e t' h hg hstep
    exact ⟨h.1.step h.2 hg.1 hg.2 hstep, h.2.step hstep⟩
  refine ⟨(hkept hfits hrest).1, ?_⟩
  intro honline pre e post t t' heq hpre _
  rw [heq, ← List.singleton_append, ← List.append_assoc] at hfits honline
  replace hfits := guarded_of_append hfits
  replace honline := guarded_of_append honline
  obtain ⟨hvram, hwf'⟩ := hkept (guarded_of_append hfits) hpre
  have hlast := guard_of_guarded_append hfits hpre
  have hfound := guard_of_guarded_append honline hpre
  exact hvram.claimAdmitted hwf' hlast.2 hfound

/-- A worker that has just registered, without leases. -/
theorem vramFits_of_leaseless (hw : s.worker? name = some w)
    (hleases : s.leases = Dict.empty) (hfree : ∀ freeMb ∈ w.freeVramMb, 0 ≤ freeMb) :
    VramFits s name := by
  intro v hv freeMb hfreeMb
  rw [hw] at hv
  cases hv
  rw [leasedVram, hleases]
  exact hfree freeMb hfreeMb

/-- Two claims that fit one after the other. -/
theorem run_vramFits_two :
    ∃ reported s,
      run (step wired) (start [] 1 0)
        [.registerWorker (sampleWorker "w1" 8000) none] = some reported ∧
      run (step wired) reported
        [.claimLease "w1:gpu-0" "a" 30 5000 "l_1", .claimLease "w1:gpu-1" "b" 30 3000 "l_2"] =
          some s ∧
      VramFits s "w1" ∧
        EveryStep (step wired) (fun t e _ => ClaimAdmitted "w1" t e) reported
          [.claimLease "w1:gpu-0" "a" 30 5000 "l_1",
            .claimLease "w1:gpu-1" "b" 30 3000 "l_2"] := by
  have hall : ((run (step wired) (start [] 1 0)
        [.registerWorker (sampleWorker "w1" 8000) none]).bind fun reported =>
      if (reported.worker? "w1").map Worker.toWorkerInfo =
            some (sampleWorker "w1" 8000).toWorkerInfo ∧ reported.leases = Dict.empty ∧
          Guarded (step wired) (fun t e => reports "w1" e = false ∧ fits "w1" t e = true)
            reported [.claimLease "w1:gpu-0" "a" 30 5000 "l_1",
              .claimLease "w1:gpu-1" "b" 30 3000 "l_2"] ∧
          Guarded (step wired) (fun t e => findsOnline "w1" t e = true)
            reported [.claimLease "w1:gpu-0" "a" 30 5000 "l_1",
              .claimLease "w1:gpu-1" "b" 30 3000 "l_2"] then
        run (step wired) reported
          [.claimLease "w1:gpu-0" "a" 30 5000 "l_1", .claimLease "w1:gpu-1" "b" 30 3000 "l_2"]
      else none).isSome := by
    decide
  obtain ⟨s, hall⟩ := Option.isSome_iff_exists.mp hall
  obtain ⟨reported, hrun, hall⟩ := Option.bind_eq_some_iff.mp hall
  split at hall
  · rename_i hconditions
    obtain ⟨hworker, hleases, hfits, honline⟩ := hconditions
    obtain ⟨w, hw, hinfo⟩ := Option.map_eq_some_iff.mp hworker
    have hfree : ∀ freeMb ∈ w.freeVramMb, 0 ≤ freeMb := by
      intro freeMb hfreeMb
      rw [hinfo] at hfreeMb
      cases hfreeMb
      decide
    obtain ⟨hvram, hadmitted⟩ := run_vramFits wired [] 1 0 hrun
      (vramFits_of_leaseless hw hleases hfree) hfits hall
    exact ⟨reported, s, hrun, hall, hvram, hadmitted honline⟩
  · cases hall

/-- Two claims of all the VRAM that a worker reported are both granted. -/
theorem vram_overLeased :
    ¬ ∀ (es fs : List FleetEvent) (reported s : Fleet) (name : String),
      run (step wired) (start [] 1 0) es = some reported → VramFits reported name →
      Guarded (step wired) (fun _ e => reports name e = false) reported fs →
      run (step wired) reported fs = some s → VramFits s name := by
  intro hclaim
  have hall : ((run (step wired) (start [] 1 0)
        [.registerWorker (sampleWorker "w1" 8000) none]).bind fun reported =>
      if (reported.worker? "w1").map Worker.toWorkerInfo =
            some (sampleWorker "w1" 8000).toWorkerInfo ∧ reported.leases = Dict.empty ∧
          Guarded (step wired) (fun _ e => reports "w1" e = false) reported
            [.claimLease "w1:gpu-0" "a" 30 8000 "l_1",
              .claimLease "w1:gpu-1" "b" 30 8000 "l_2"] then
        (run (step wired) reported
          [.claimLease "w1:gpu-0" "a" 30 8000 "l_1",
            .claimLease "w1:gpu-1" "b" 30 8000 "l_2"]).filter fun s =>
          (s.worker? "w1").map Worker.toWorkerInfo =
              some (sampleWorker "w1" 8000).toWorkerInfo ∧ s.leasedVram "w1" = 16000
      else none).isSome := by
    decide
  obtain ⟨s, hall⟩ := Option.isSome_iff_exists.mp hall
  obtain ⟨reported, hrun, hall⟩ := Option.bind_eq_some_iff.mp hall
  split at hall
  · rename_i hconditions
    obtain ⟨hworker, hleases, hquiet⟩ := hconditions
    obtain ⟨hrest, hend⟩ := Option.filter_eq_some_iff.mp hall
    obtain ⟨hworker', hleased⟩ := of_decide_eq_true hend
    obtain ⟨w, hw, hinfo⟩ := Option.map_eq_some_iff.mp hworker
    obtain ⟨w', hw', hinfo'⟩ := Option.map_eq_some_iff.mp hworker'
    have hfree : ∀ freeMb ∈ w.freeVramMb, 0 ≤ freeMb := by
      intro freeMb hfreeMb
      rw [hinfo] at hfreeMb
      cases hfreeMb
      decide
    have hfits := hclaim _ _ reported s "w1" hrun (vramFits_of_leaseless hw hleases hfree) hquiet
      hrest
    have hroom : s.leasedVram "w1" ≤ 8000 := hfits w' hw' 8000 (by rw [hinfo']; rfl)
    rw [hleased] at hroom
    exact absurd hroom (by decide)
  · cases hall

end Fleet
end TinyAgentOS.Cluster
