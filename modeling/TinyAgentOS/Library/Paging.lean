import Mathlib.Data.List.Sort
import Mathlib.Tactic

/-!
# Paging by key

Rows are read in pages, those with the largest keys first, and each page is asked for below the
smallest key of the one before.  Rows of one key may come in any order.

Main results:

- `length_walk_le`: a walk never reads more rows than there are.
- `walk_perm_iff`: a walk reads every row once in exactly the tables where no page ends between
  two rows of one key.
-/

namespace Paging

variable {α κ : Type} [LinearOrder κ] (key : α → κ)

/-- The rows below a cursor. -/
def older (rows : List α) (before : Option κ) : List α :=
  rows.filter fun a => before.all fun t => key a < t

/-- `LIMIT`; a negative one is none. -/
def cut (limit : Int) (l : List α) : List α :=
  if limit < 0 then l else l.take limit.toNat

/-- What a limit leaves out. -/
def leftOver (limit : Int) (l : List α) : List α :=
  if limit < 0 then [] else l.drop limit.toNat

/-- The rows of a page, in any order: the first ones below the cursor. -/
def IsPage (limit : Int) (rows : List α) (before : Option κ) (page : List α) : Prop :=
  ∃ l, l.Perm (older key rows before) ∧ l.Pairwise (fun a b => key b ≤ key a) ∧
    page.Perm (cut limit l)

/-- The pages one after the other, up to an empty one, each below the smallest key of the page
before. -/
def walk (page : Option κ → List α) : Nat → Option κ → List α
  | 0, _ => []
  | fuel + 1, before =>
    match ((page before).map key).min? with
    | none => []
    | some oldest => page before ++ walk page fuel (some oldest)

/-- The keys, largest first. -/
def sortedKeys (rows : List α) : List κ :=
  (rows.map key).insertionSort fun a b => b ≤ a

/-- No page is the last of its size with rows of its smallest key left; pages without rows are
of an empty table. -/
def TiesWhole (limit : Int) (keys : List κ) : Prop :=
  (limit = 0 → keys = []) ∧
    (0 < limit → ∀ k a b, keys[k * limit.toNat + (limit.toNat - 1)]? = some a →
      keys[k * limit.toNat + limit.toNat]? = some b → a ≠ b)

variable {key} {limit : Int} {rows : List α} {before : Option κ} {oldest : κ}

theorem cut_append_leftOver (limit : Int) (l : List α) : cut limit l ++ leftOver limit l = l := by
  unfold cut leftOver
  split
  · exact List.append_nil l
  · exact List.take_append_drop _ l

/-- Keys in order are determined. -/
theorem sortedKeys_eq {l : List α} (hperm : l.Perm rows)
    (hsorted : l.Pairwise fun a b => key b ≤ key a) : sortedKeys key rows = l.map key := by
  have hmap : (l.map key).Pairwise fun a b => b ≤ a := List.pairwise_map.mpr hsorted
  have hinsertion : (sortedKeys key rows).Pairwise fun a b => b ≤ a :=
    List.pairwise_insertionSort _ _
  refine List.Perm.eq_of_pairwise (fun a b _ _ hab hba => le_antisymm hba hab) hinsertion hmap ?_
  exact (List.perm_insertionSort _ _).trans (hperm.map key).symm

/-- A page and the rows that the next one is taken from. -/
theorem IsPage.next {page : List α} (h : IsPage key limit rows before page)
    (hmin : (page.map key).min? = some oldest) :
    ∃ l, l.Perm (older key rows before) ∧ l.Pairwise (fun a b => key b ≤ key a) ∧
      page.Perm (cut limit l) ∧ (∀ a ∈ cut limit l, oldest ≤ key a) ∧
      (∃ a ∈ cut limit l, key a = oldest) ∧ (∀ a ∈ leftOver limit l, key a ≤ oldest) ∧
      (older key rows (some oldest)).Perm
        ((leftOver limit l).filter fun a => key a < oldest) := by
  obtain ⟨l, hperm, hsorted, hpage⟩ := h
  obtain ⟨hmem, hleast⟩ := List.min?_eq_some_iff.mp hmin
  obtain ⟨m, hm, rfl⟩ := List.mem_map.mp hmem
  have hfirst : ∀ a ∈ cut limit l, key m ≤ key a := fun a ha =>
    hleast _ (List.mem_map_of_mem (hpage.mem_iff.mpr ha))
  have hsplit := hsorted
  rw [← cut_append_leftOver limit l, List.pairwise_append] at hsplit
  have hmcut := hpage.mem_iff.mp hm
  refine ⟨l, hperm, hsorted, hpage, hfirst, ⟨m, hmcut, rfl⟩,
    fun a ha => hsplit.2.2 m hmcut a ha, ?_⟩
  have hbelow : before.all fun t => key m < t := by
    have hin : m ∈ older key rows before := by
      rw [← hperm.mem_iff, ← cut_append_leftOver limit l]
      exact List.mem_append_left _ hmcut
    exact (List.mem_filter.mp hin).2
  have holder : older key rows (some (key m)) =
      (older key rows before).filter fun a => key a < key m := by
    rw [older, older, List.filter_filter]
    apply List.filter_congr
    intro a _
    cases before with
    | none => simp
    | some t =>
      have hlt : key m < t := by simpa using hbelow
      simp only [Option.all_some]
      by_cases ha : key a < key m
      · simp [ha, ha.trans hlt]
      · simp [ha]
  have hnone : (cut limit l).filter (fun a => key a < key m) = [] := by
    apply List.filter_eq_nil_iff.mpr
    intro a ha
    simpa using hfirst a ha
  have hrest := hperm.symm.filter fun a => key a < key m
  rw [← cut_append_leftOver limit l, List.filter_append, hnone, List.nil_append] at hrest
  rw [holder]
  exact hrest

omit [LinearOrder κ] in
/-- The first page ends between two keys, and so do those after it. -/
theorem tiesWhole_iff (hlimit : 0 < limit) (keys : List κ) :
    TiesWhole limit keys ↔
      (∀ a b, keys[limit.toNat - 1]? = some a → keys[limit.toNat]? = some b → a ≠ b) ∧
        TiesWhole limit (keys.drop limit.toNat) := by
  have hindex : ∀ k i, (k + 1) * limit.toNat + i = limit.toNat + (k * limit.toNat + i) := by
    intro k i
    ring
  constructor
  · rintro ⟨_, hwhole⟩
    refine ⟨fun a b ha hb => hwhole hlimit 0 a b ?_ ?_, fun hzero => absurd hzero hlimit.ne', ?_⟩
    · rwa [Nat.zero_mul, Nat.zero_add]
    · rwa [Nat.zero_mul, Nat.zero_add]
    · intro _ k a b ha hb
      rw [List.getElem?_drop, ← hindex] at ha hb
      exact hwhole hlimit (k + 1) a b ha hb
  · rintro ⟨hfirst, _, hrest⟩
    refine ⟨fun hzero => absurd hzero hlimit.ne', ?_⟩
    intro _ k a b ha hb
    cases k with
    | zero =>
      rw [Nat.zero_mul, Nat.zero_add] at ha hb
      exact hfirst a b ha hb
    | succ k =>
      rw [hindex] at ha hb
      refine hrest hlimit k a b ?_ ?_
      · rwa [List.getElem?_drop]
      · rwa [List.getElem?_drop]

theorem cut_eq_nil (hlimit : limit ≠ 0) {l : List α} (h : cut limit l = []) : l = [] := by
  unfold cut at h
  split at h
  · exact h
  · exact (List.take_eq_nil_iff.mp h).resolve_left (by omega)

/-- The last row of a full page has the smallest key of the page, and the next row the largest
of those left. -/
theorem ties_of_mem {l : List α} {n : Nat} {m x : α} (hn : 0 < n)
    (hsorted : l.Pairwise fun a b => key b ≤ key a) (hm : m ∈ l.take n) (hx : x ∈ l.drop n)
    (hfirst : ∀ a ∈ l.take n, key m ≤ key a) (hlast : ∀ a ∈ l.drop n, key a ≤ key x) :
    (l.map key)[n - 1]? = some (key m) ∧ (l.map key)[n]? = some (key x) := by
  obtain ⟨j, hj, rfl⟩ := List.mem_iff_getElem.mp hx
  obtain ⟨i, hi, rfl⟩ := List.mem_iff_getElem.mp hm
  rw [List.length_drop] at hj
  rw [List.length_take] at hi
  have hle : ∀ p q (hp : p < l.length) (hq : q < l.length), p ≤ q → key l[q] ≤ key l[p] := by
    intro p q hp hq hpq
    rcases Nat.lt_or_eq_of_le hpq with hlt | rfl
    · exact List.pairwise_iff_getElem.mp hsorted p q hp hq hlt
    · exact le_rfl
  have hpage : l[n - 1] ∈ l.take n := List.mem_take_iff_getElem.mpr ⟨n - 1, by omega, rfl⟩
  have hnext : l[n] ∈ l.drop n := List.mem_drop_iff_getElem.mpr ⟨0, by omega, rfl⟩
  have hleast := hfirst _ hpage
  have hmost := hlast _ hnext
  rw [List.getElem_take] at hleast ⊢
  rw [List.getElem_drop] at hmost ⊢
  constructor
  · rw [List.getElem?_map, List.getElem?_eq_getElem (by omega), Option.map_some, Option.some.injEq]
    exact le_antisymm (hle i (n - 1) (by omega) (by omega) (by omega)) hleast
  · rw [List.getElem?_map, List.getElem?_eq_getElem (by omega), Option.map_some, Option.some.injEq]
    exact le_antisymm hmost (hle n (n + j) (by omega) (by omega) (by omega))

section Walks

variable {page : Option κ → List α} (hpage : ∀ before, IsPage key limit rows before (page before))
include hpage

/-- A walk never reads more rows than there are. -/
theorem length_walk_le (fuel : Nat) (before : Option κ) :
    (walk key page fuel before).length ≤ (older key rows before).length := by
  induction fuel generalizing before with
  | zero => exact Nat.zero_le _
  | succ fuel ih =>
    rw [walk]
    split
    · exact Nat.zero_le _
    · rename_i oldest hmin
      obtain ⟨l, hperm, _, hcut, _, _, _, hrest⟩ := (hpage before).next hmin
      have hnext := ih (some oldest)
      rw [hrest.length_eq] at hnext
      have hfilter := List.length_filter_le (fun a => decide (key a < oldest)) (leftOver limit l)
      have hwhole := congrArg List.length (cut_append_leftOver limit l)
      rw [List.length_append] at hwhole
      rw [List.length_append, hcut.length_eq, ← hperm.length_eq]
      omega

/-- A walk reads what is below its cursor if and only if no page ends within a tie. -/
theorem walk_perm_older_iff {fuel : Nat} (before : Option κ)
    (hfuel : (older key rows before).length < fuel) :
    (walk key page fuel before).Perm (older key rows before) ↔
      TiesWhole limit (sortedKeys key (older key rows before)) := by
  induction fuel generalizing before with
  | zero => exact absurd hfuel (Nat.not_lt_zero _)
  | succ fuel ih =>
    rw [walk]
    split
    · rename_i hmin
      obtain ⟨l, hperm, hsorted, hcut⟩ := hpage before
      rw [sortedKeys_eq hperm hsorted]
      have hempty := List.map_eq_nil_iff.mp (List.min?_eq_none_iff.mp hmin)
      rw [hempty] at hcut
      by_cases hzero : limit = 0
      · have hnone : [].Perm (older key rows before) ↔ l.map key = [] := by
          rw [List.nil_perm, List.map_eq_nil_iff]
          exact ⟨fun h => (h ▸ hperm).eq_nil, fun h => (h ▸ hperm).symm.eq_nil⟩
        rw [hnone]
        refine ⟨fun h => ⟨fun _ => h, fun hpos => absurd hzero hpos.ne'⟩, fun h => h.1 hzero⟩
      · obtain rfl := cut_eq_nil hzero hcut.symm.eq_nil
        refine iff_of_true hperm ⟨fun _ => rfl, ?_⟩
        intro _ k a b ha
        simp at ha
    · rename_i oldest hmin
      obtain ⟨l, hperm, hsorted, hcut, hfirst, ⟨m, hm, rfl⟩, hlast, hrest⟩ :=
        (hpage before).next hmin
      rw [sortedKeys_eq hperm hsorted]
      have hwhole := cut_append_leftOver limit l
      have hread : (page before ++ walk key page fuel (some (key m))).Perm
          (older key rows before) ↔
            (walk key page fuel (some (key m))).Perm (leftOver limit l) := by
        have hleft := hcut.append_right (walk key page fuel (some (key m)))
        constructor
        · intro h
          rw [← List.perm_append_left_iff (cut limit l), hwhole]
          exact hleft.symm.trans (h.trans hperm.symm)
        · intro h
          have hrows := h.append_left (cut limit l)
          rw [hwhole] at hrows
          exact hleft.trans (hrows.trans hperm)
      have hshort := length_walk_le hpage fuel (some (key m))
      rw [hread]
      rcases lt_trichotomy limit 0 with hneg | rfl | hpos
      · -- one page has all rows
        have hnone : leftOver limit l = [] := if_pos hneg
        rw [hnone] at hrest ⊢
        rw [hrest.length_eq] at hshort
        refine iff_of_true ?_ ⟨fun hzero => by omega, fun hpos => by omega⟩
        rw [List.length_eq_zero_iff.mp (Nat.le_zero.mp hshort)]
      · simp [cut] at hm
      · have htake : cut limit l = l.take limit.toNat := if_neg (by omega)
        have hdrop : leftOver limit l = l.drop limit.toNat := if_neg (by omega)
        rw [htake] at hm hfirst
        rw [hdrop] at hlast hrest ⊢
        rw [tiesWhole_iff hpos, ← List.map_drop]
        by_cases htie : ∃ x ∈ l.drop limit.toNat, ¬key x < key m
        · -- the tie at the end of the page is lost
          obtain ⟨x, hx, hkey⟩ := htie
          have hsame : key x = key m := le_antisymm (hlast x hx) (not_lt.mp hkey)
          refine iff_of_false ?_ ?_
          · intro hall
            have hlost : ((l.drop limit.toNat).filter fun a => key a < key m).length <
                (l.drop limit.toNat).length :=
              List.length_filter_lt_length_iff_exists.mpr ⟨x, hx, by simpa using not_lt.mp hkey⟩
            rw [hrest.length_eq, hall.length_eq] at hshort
            omega
          · rintro ⟨hends, _⟩
            obtain ⟨ha, hb⟩ := ties_of_mem (n := limit.toNat) (by omega) hsorted hm hx hfirst
              (hsame ▸ hlast)
            exact hends _ _ ha hb hsame.symm
        · -- the next walk starts where the page ended
          push Not at htie
          have hall : ((l.drop limit.toNat).filter fun a => key a < key m) =
              l.drop limit.toNat :=
            List.filter_eq_self.mpr fun a ha => by simpa using htie a ha
          rw [hall] at hrest
          have hkeys := sortedKeys_eq hrest.symm (hsorted.sublist (List.drop_sublist _ _))
          have hless : (older key rows (some (key m))).length < fuel := by
            have hin : 0 < (l.take limit.toNat).length := List.length_pos_of_mem hm
            have hlength := hperm.length_eq
            rw [hrest.length_eq, List.length_drop]
            rw [List.length_take] at hin
            omega
          have hnext := ih (some (key m)) hless
          rw [hkeys] at hnext
          rw [← hnext]
          constructor
          · intro hperm'
            refine ⟨?_, hperm'.trans hrest.symm⟩
            intro a b ha hb heq
            rw [List.getElem?_map, Option.map_eq_some_iff] at ha hb
            obtain ⟨u, hu, rfl⟩ := ha
            obtain ⟨v, hv, rfl⟩ := hb
            have hu' : (l.take limit.toNat)[limit.toNat - 1]? = some u := by
              rw [List.getElem?_take_of_lt (by omega)]
              exact hu
            have hv' : (l.drop limit.toNat)[0]? = some v := by
              rw [List.getElem?_drop, Nat.add_zero]
              exact hv
            have hlt := (htie v (List.mem_of_getElem? hv')).trans_le
              (hfirst u (List.mem_of_getElem? hu'))
            exact hlt.ne' heq
          · exact fun h => h.2.trans hrest

end Walks

/-- A walk from the top reads every row once if and only if no page ends within a tie. -/
theorem walk_perm_iff {page : Option κ → List α}
    (hpage : ∀ before, IsPage key limit rows before (page before)) {fuel : Nat}
    (hfuel : rows.length < fuel) :
    (walk key page fuel none).Perm rows ↔ TiesWhole limit (sortedKeys key rows) := by
  have hall : older key rows none = rows := List.filter_eq_self.mpr fun _ _ => rfl
  have hiff := walk_perm_older_iff hpage none (hall.symm ▸ hfuel)
  rwa [hall] at hiff

end Paging
