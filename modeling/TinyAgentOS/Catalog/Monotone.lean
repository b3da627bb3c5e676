import TinyAgentOS.Catalog.Resolver

/-!
# A stronger device resolves at least as much

Each gate of the resolver compares one resource of the device with a bound, so a device that
offers more passes every gate that a weaker one passes.  The variants are walked from the
largest to the smallest, and hence a stronger device stops no later in the walk.

Main results:

- `checkVariant_isOk_mono`: a variant that resolves still resolves.
- `resolve_auto_mono`: `auto` resolves to a variant that is not smaller.
-/

namespace TinyAgentOS.Catalog

/-! ## First matches in an ordered list -/

/-- A weaker test stops no later. -/
theorem find?_rel_of_imp {α : Type} {R : α → α → Prop} {p q : α → Bool} {l : List α} {a : α}
    (hrefl : ∀ x, R x x) (hl : l.Pairwise R) (hpq : ∀ x ∈ l, p x = true → q x = true)
    (ha : l.find? p = some a) : ∃ b, l.find? q = some b ∧ R b a := by
  induction l with
  | nil => contradiction
  | cons x xs ih =>
    by_cases hq : q x = true
    · have hmem : a ∈ x :: xs := List.mem_of_find?_eq_some ha
      refine ⟨x, List.find?_cons_of_pos hq, ?_⟩
      cases hmem with
      | head => exact hrefl a
      | tail _ hxs => exact (List.pairwise_cons.mp hl).1 a hxs
    · have hp : ¬ p x = true := fun hp => hq (hpq x List.mem_cons_self hp)
      rw [List.find?_cons_of_neg hp] at ha
      rw [List.find?_cons_of_neg hq]
      exact ih (List.pairwise_cons.mp hl).2
        (fun y hy => hpq y (List.mem_cons_of_mem x hy)) ha

/-! ## Stronger devices -/

/-- The first device offers every target of the second, and at least its memory and disk. -/
structure DeviceCapability.Covers (d' d : DeviceCapability) : Prop where
  targets : ∀ t ∈ d.targets, t ∈ d'.targets
  ram : d.totalRamMb ≤ d'.totalRamMb
  vram : d.totalVramMb ≤ d'.totalVramMb
  disk : d.freeDiskMb ≤ d'.freeDiskMb

variable {d d' : DeviceCapability}

variable {dep : BackendDep} {force : Bool} {v : Variant}

theorem BackendDep.sharesTarget_mono (hcovers : d'.Covers d)
    (hshares : dep.sharesTarget d = true) : dep.sharesTarget d' = true := by
  simp only [BackendDep.sharesTarget, List.any_eq_true, decide_eq_true_eq] at hshares ⊢
  obtain ⟨t, ht, hd⟩ := hshares
  exact ⟨t, ht, hcovers.targets t hd⟩

theorem BackendDep.fits_mono (hcovers : d'.Covers d)
    (hfits : dep.fits d force = true) : dep.fits d' force = true := by
  have hram := hcovers.ram
  have hvram := hcovers.vram
  simp only [BackendDep.fits, Bool.or_eq_true, Bool.and_eq_true, decide_eq_true_eq] at hfits ⊢
  cases hfits with
  | inl hforce => exact Or.inl hforce
  | inr hgates =>
    refine Or.inr ⟨⟨BackendDep.sharesTarget_mono hcovers hgates.1.1, ?_⟩, ?_⟩
    · exact hgates.1.2.trans hram
    · exact hgates.2.imp (fun h => h) fun h => h.trans hvram

theorem Variant.hasRoom_mono (hcovers : d'.Covers d)
    (hroom : v.hasRoom d = true) : v.hasRoom d' = true := by
  have hdisk := hcovers.disk
  simp only [Variant.hasRoom, Bool.and_eq_true, Bool.not_eq_true', Bool.and_eq_false_iff,
    decide_eq_true_eq, decide_eq_false_iff_not] at hroom ⊢
  exact ⟨hroom.1, by omega⟩

/-- A variant that resolves still resolves. -/
theorem checkVariant_isOk_mono (hcovers : d'.Covers d)
    (hok : (checkVariant v d force).isOk = true) : (checkVariant v d' force).isOk = true := by
  obtain ⟨dep, hdep⟩ := (isOk_checkVariant_iff v d force).mp hok
  refine (isOk_checkVariant_iff v d' force).mpr ?_
  unfold Variant.winner at hdep ⊢
  by_cases hroom : v.hasRoom d = true
  · rw [if_pos hroom] at hdep
    rw [if_pos (Variant.hasRoom_mono hcovers hroom)]
    have hfits : dep.fits d force = true :=
      List.find?_some (p := fun dep : BackendDep => dep.fits d force) hdep
    have hmem : dep ∈ v.deps := List.mem_of_find?_eq_some hdep
    have hfound : (v.deps.find? fun dep => dep.fits d' force).isSome = true :=
      List.find?_isSome.mpr ⟨dep, hmem, BackendDep.fits_mono hcovers hfits⟩
    exact Option.isSome_iff_exists.mp hfound
  · rw [if_neg hroom] at hdep
    contradiction

/-! ## The choice -/

/-- The walk goes from the largest variant to the smallest. -/
theorem Manifest.pairwise_sorted (m : Manifest) : m.sorted.Pairwise fun v w => w.size ≤ v.size := by
  have htotal : Std.Total fun v w : Variant => w.size ≤ v.size :=
    ⟨fun v w => le_total w.size v.size⟩
  have htrans : IsTrans Variant fun v w => w.size ≤ v.size :=
    ⟨fun v w x hvw hwx => hwx.trans hvw⟩
  exact List.pairwise_insertionSort _ _

/-- On a stronger device `auto` resolves too, to a variant that is not smaller. -/
theorem resolve_auto_mono (m : Manifest) (d d' : DeviceCapability) (force : Bool) (r : ResolveOk)
    (hcovers : d'.Covers d) (hr : resolve m "auto" d force = .ok (.ok r)) :
    ∃ v v' r',
      m.autoVariant d force = some v ∧ checkVariant v d force = .ok r ∧
      resolve m "auto" d' force = .ok (.ok r') ∧
      m.autoVariant d' force = some v' ∧ checkVariant v' d' force = .ok r' ∧
      v.size ≤ v'.size := by
  obtain ⟨v, hv, hcheck⟩ := (resolve_auto_eq_ok_iff m d force r).mp hr
  have hfound : ∃ v', m.autoVariant d' force = some v' ∧ v.size ≤ v'.size :=
    find?_rel_of_imp (fun w => le_refl w.size) m.pairwise_sorted
      (fun w _ => checkVariant_isOk_mono hcovers) hv
  obtain ⟨v', hv', hsize⟩ := hfound
  have hok : (checkVariant v' d' force).isOk = true :=
    List.find?_some (p := fun w => (checkVariant w d' force).isOk) hv'
  obtain ⟨dep, hdep⟩ := (isOk_checkVariant_iff v' d' force).mp hok
  have hcheck' := (checkVariant_eq_ok_iff v' d' force _).mpr ⟨dep, hdep, rfl⟩
  exact ⟨v, v', v'.won d' dep, hv, hcheck,
    (resolve_auto_eq_ok_iff m d' force _).mpr ⟨v', hv', hcheck'⟩, hv', hcheck', hsize⟩

/-- Two variants, of which the larger one is for a GPU. -/
def llama : Manifest where
  variants := some
    [some ⟨.named "3b", some 2000, some (some [.entry (some "llama-cpp") (.value ["cpu"])
        (.value 4000) .missing])⟩,
      some ⟨.named "8b", some 5000, some (some [.entry (some "vllm") (.value ["cuda"])
        (.value 8000) (.value 6000)])⟩]

def laptop : DeviceCapability :=
  ⟨"laptop", ["cpu"], 16000, 0, 9000, ["llama-cpp"]⟩

def workstation : DeviceCapability :=
  ⟨"workstation", ["cuda", "cpu"], 64000, 24000, 90000, []⟩

theorem resolve_auto_mono_llama : ∃ v v' r',
    llama.autoVariant laptop false = some v ∧
    checkVariant v laptop false = .ok ⟨"llama-cpp", "3b", .use⟩ ∧
    resolve llama "auto" workstation false = .ok (.ok r') ∧
    llama.autoVariant workstation false = some v' ∧
    checkVariant v' workstation false = .ok r' ∧ v.size ≤ v'.size :=
  resolve_auto_mono llama laptop workstation false ⟨"llama-cpp", "3b", .use⟩
    ⟨by decide, by decide, by decide, by decide⟩ (by decide)

end TinyAgentOS.Catalog
