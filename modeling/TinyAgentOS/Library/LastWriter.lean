import Mathlib.Data.List.Basic
import Mathlib.Tactic

/-!
# Tables in which the last writer wins

A table has one row a key at most, and writing a row replaces the row with its
key.  The last writer wins by arrival; whether the newest row wins depends on
the order in which the rows arrive.

Main results:

- `Keyed.settled_prefixes_iff`: the newest row wins after every write exactly when the rows of
  each key arrive in order.
- `Settled.mem_iff`: settled tables that were offered the same rows agree.
-/

namespace LastWriter

variable {ρ κ τ : Type}

/-- Rows with one row a key at most. -/
structure Keyed (key : ρ → κ) where
  rows : List ρ
  unique : (rows.map key).Nodup

/-- The row was offered, and every other row of its key is older. -/
def StrictlyNewest [Preorder τ] (key : ρ → κ) (time : ρ → τ) (offered : List ρ) (r : ρ) : Prop :=
  r ∈ offered ∧ ∀ x ∈ offered, key x = key r → x = r ∨ time x < time r

/-- The rows of each key are offered from the oldest to the newest; a row may be repeated until
a newer one comes. -/
def InOrder [Preorder τ] (key : ρ → κ) (time : ρ → τ) (offered : List ρ) : Prop :=
  offered.Pairwise fun x y => key x = key y → x = y ∨ time x < time y

section Offers

variable [Preorder τ] {key : ρ → κ} {time : ρ → τ} {offered offered' : List ρ}

theorem strictlyNewest_congr (h : ∀ x, x ∈ offered ↔ x ∈ offered') (r : ρ) :
    StrictlyNewest key time offered r ↔ StrictlyNewest key time offered' r := by
  simp only [StrictlyNewest, h]

theorem inOrder_append_singleton {r : ρ} :
    InOrder key time (offered ++ [r]) ↔
      InOrder key time offered ∧ ∀ x ∈ offered, key x = key r → x = r ∨ time x < time r := by
  unfold InOrder
  rw [List.pairwise_append]
  simp

end Offers

/-- The table holds the newest row of each key, and nothing else. -/
def Settled [Preorder τ] {key : ρ → κ} (time : ρ → τ) (offered : List ρ) (t : Keyed key) : Prop :=
  ∀ r, r ∈ t.rows ↔ StrictlyNewest key time offered r

/-- Settled tables that were offered the same rows, in whatever order and however often, hold
the same rows. -/
theorem Settled.mem_iff [Preorder τ] {key : ρ → κ} {time : ρ → τ} {offered offered' : List ρ}
    {t t' : Keyed key} (h : Settled time offered t) (h' : Settled time offered' t')
    (hoffered : ∀ x, x ∈ offered ↔ x ∈ offered') (r : ρ) : r ∈ t.rows ↔ r ∈ t'.rows := by
  rw [h r, h' r, strictlyNewest_congr hoffered]

namespace Keyed

variable {key : ρ → κ}

variable {t : Keyed key}

theorem eq_of_key {x y : ρ} (hx : x ∈ t.rows) (hy : y ∈ t.rows) (h : key x = key y) : x = y :=
  List.inj_on_of_nodup_map t.unique hx hy h

section Order

variable [Preorder τ] {time : ρ → τ}

/-- A table is settled with respect to its own rows. -/
theorem settled_rows (t : Keyed key) : Settled time t.rows t := by
  intro r
  constructor
  · intro hr
    exact ⟨hr, fun x hx hkey => Or.inl (t.eq_of_key hx hr hkey)⟩
  · rintro ⟨hr, _⟩
    exact hr

theorem inOrder_rows (t : Keyed key) : InOrder key time t.rows := by
  have hne : t.rows.Pairwise fun x y => key x ≠ key y := List.pairwise_map.mp t.unique
  exact hne.imp fun h hkey => absurd hkey h

end Order

/-! ## Writes -/

variable [DecidableEq κ]

/-- Write a row over the row with its key. -/
def replace (t : Keyed key) (r : ρ) : Keyed key where
  rows := t.rows.filter (fun x => key x ≠ key r) ++ [r]
  unique := by
    rw [List.map_append, List.nodup_append]
    refine ⟨t.unique.sublist ((List.filter_sublist).map _), List.nodup_singleton _, ?_⟩
    intro k hk k' hk'
    obtain ⟨x, hx, rfl⟩ := List.mem_map.mp hk
    obtain rfl : k' = key r := by simpa using hk'
    simpa using (List.mem_filter.mp hx).2

/-- Write rows one after another. -/
def replaceAll (t : Keyed key) (rs : List ρ) : Keyed key :=
  rs.foldl replace t

theorem mem_replace {r x : ρ} : x ∈ (t.replace r).rows ↔ x ∈ t.rows ∧ key x ≠ key r ∨ x = r := by
  simp [replace]

variable [Preorder τ] {time : ρ → τ}

/-- A write keeps a table settled exactly when nothing of the key was newer. -/
theorem settled_replace_iff {offered : List ρ} (h : Settled time offered t) (r : ρ) :
    Settled time (offered ++ [r]) (t.replace r) ↔
      ∀ x ∈ offered, key x = key r → x = r ∨ time x < time r := by
  constructor
  · intro hsettled x hx hkey
    have hr : r ∈ (t.replace r).rows := mem_replace.mpr (Or.inr rfl)
    exact ((hsettled r).mp hr).2 x (List.mem_append_left _ hx) hkey
  · intro holder y
    rw [mem_replace, h y]
    constructor
    · rintro (⟨⟨hy, hnewest⟩, hkey⟩ | rfl)
      · refine ⟨List.mem_append_left _ hy, ?_⟩
        intro x hx hxy
        rcases List.mem_append.mp hx with hx | hx
        · exact hnewest x hx hxy
        · obtain rfl := List.mem_singleton.mp hx
          exact absurd hxy.symm hkey
      · refine ⟨List.mem_append_right _ (List.mem_singleton_self y), ?_⟩
        intro x hx hxy
        rcases List.mem_append.mp hx with hx | hx
        · exact holder x hx hxy
        · exact Or.inl (List.mem_singleton.mp hx)
    · rintro ⟨hy, hnewest⟩
      by_cases hyr : y = r
      · exact Or.inr hyr
      · have hmem : y ∈ offered := by simpa [hyr] using hy
        refine Or.inl ⟨⟨hmem, fun x hx => hnewest x (List.mem_append_left _ hx)⟩, ?_⟩
        -- were they of one key, each of the two would be older than the other
        intro hkey
        have hlt := (hnewest r (List.mem_append_right _ (List.mem_singleton_self r)) hkey.symm)
        have hgt := holder y hmem hkey
        exact lt_asymm (hlt.resolve_left (Ne.symm hyr)) (hgt.resolve_left hyr)

/-- The newest row of each key wins after every write exactly when the rows of each key arrive
in order. -/
theorem settled_prefixes_iff (t : Keyed key) (rs : List ρ) :
    (∀ written, written <+: rs → Settled time (t.rows ++ written) (t.replaceAll written)) ↔
      InOrder key time (t.rows ++ rs) := by
  induction rs using List.reverseRecOn with
  | nil =>
    simp only [List.prefix_nil, forall_eq, List.append_nil]
    exact iff_of_true t.settled_rows t.inOrder_rows
  | append_singleton rs r ih =>
    have hlast : (t.replaceAll (rs ++ [r])) = (t.replaceAll rs).replace r := by
      simp [replaceAll]
    rw [← List.append_assoc, inOrder_append_singleton, ← ih]
    constructor
    · intro hall
      have hbefore : ∀ written, written <+: rs →
          Settled time (t.rows ++ written) (t.replaceAll written) :=
        fun written hw => hall written (hw.trans (List.prefix_append rs [r]))
      refine ⟨hbefore, ?_⟩
      have hafter := hall (rs ++ [r]) List.prefix_rfl
      rw [hlast, ← List.append_assoc] at hafter
      exact (settled_replace_iff (hbefore rs List.prefix_rfl) r).mp hafter
    · rintro ⟨hbefore, holder⟩ written hw
      rcases List.prefix_concat_iff.mp hw with rfl | hw
      · rw [hlast, ← List.append_assoc]
        exact (settled_replace_iff (hbefore rs List.prefix_rfl) r).mpr holder
      · exact hbefore written hw

end Keyed

end LastWriter
