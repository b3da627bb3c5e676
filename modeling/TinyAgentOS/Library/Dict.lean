import Mathlib.Algebra.Order.BigOperators.Group.List
import Mathlib.Data.List.Nodup
import Mathlib.Tactic

/-!
# Insertion-ordered dictionaries

A dictionary is a list of key/value pairs whose keys are pairwise distinct.
Writing an existing key keeps its place, writing a new key appends, and
removing a key closes the gap, so iteration order is insertion order.

Main results:

- `Dict.get?_set` and `Dict.get?_pop`: the read-over-write laws.
- `Dict.get?_foldl_pop`: removing a list of keys removes exactly those.
- `Dict.mem_entries_iff`: an entry is listed exactly when it is read back.
- `Dict.sumBy_set_new`, `Dict.sumBy_pop` and `Dict.sumBy_le`: how a weighted total over the values
  moves with a write, a removal and a loss of weight.
-/

namespace Collections

/-- A finite map with pairwise distinct keys in insertion order. -/
structure Dict (κ ν : Type) where
  entries : List (κ × ν)
  nodup : (entries.map Prod.fst).Nodup

namespace Dict

variable {κ ν : Type}

/-- The dictionary without entries. -/
def empty : Dict κ ν := ⟨[], List.nodup_nil⟩

/-- Keys in insertion order. -/
def keys (d : Dict κ ν) : List κ := d.entries.map Prod.fst

/-- Values in insertion order. -/
def values (d : Dict κ ν) : List ν := d.entries.map Prod.snd

/-- Total weight of the stored values. -/
def sumBy (f : ν → Int) (d : Dict κ ν) : Int := (d.values.map f).sum

/-- How many stored values pass a test. -/
def count (p : ν → Bool) (d : Dict κ ν) : Nat := d.values.countP p

@[simp]
theorem keys_empty : (empty : Dict κ ν).keys = [] :=
  rfl

@[simp]
theorem values_empty : (empty : Dict κ ν).values = [] :=
  rfl

@[simp]
theorem sumBy_empty (f : ν → Int) : sumBy f (empty : Dict κ ν) = 0 :=
  rfl

theorem sumBy_eq (f : ν → Int) (d : Dict κ ν) : sumBy f d = (d.entries.map fun e => f e.2).sum := by
  simp [sumBy, values, Function.comp_def]

/-- A weaker test passes more values. -/
theorem count_mono {p q : ν → Bool} (hpq : ∀ v, p v = true → q v = true) (d : Dict κ ν) :
    d.count p ≤ d.count q :=
  List.countP_mono_left fun v _ => hpq v

variable {d : Dict κ ν} {k k' : κ} {es : List (κ × ν)} {v w : ν}

variable {f : ν → Int} {d' : Dict κ ν}

/-- Nonnegative weights have a nonnegative total. -/
theorem sumBy_nonneg (h : ∀ v ∈ d.values, 0 ≤ f v) : 0 ≤ sumBy f d := by
  apply List.sum_nonneg
  intro x hx
  obtain ⟨v, hv, rfl⟩ := List.mem_map.mp hx
  exact h v hv

variable [DecidableEq κ]

/-- Dictionaries are equal when their entries are. -/
instance instDecidableEq [DecidableEq ν] : DecidableEq (Dict κ ν) := fun d d' =>
  decidable_of_iff (d.entries = d'.entries)
    ⟨fun h => by cases d; cases d'; cases h; rfl, fun h => h ▸ rfl⟩

/-! ## Reads and writes on raw entry lists -/

/-- First value stored under a key. -/
def lookupIn (k : κ) : List (κ × ν) → Option ν
  | [] => none
  | e :: es => if e.1 = k then some e.2 else lookupIn k es

/-- Overwrite a key in place, or append it. -/
def setIn (k : κ) (v : ν) : List (κ × ν) → List (κ × ν)
  | [] => [(k, v)]
  | e :: es => if e.1 = k then (k, v) :: es else e :: setIn k v es

/-- Drop the entry of a key. -/
def popIn (k : κ) : List (κ × ν) → List (κ × ν)
  | [] => []
  | e :: es => if e.1 = k then es else e :: popIn k es

attribute [local simp] lookupIn setIn popIn

theorem lookupIn_eq_none (h : k ∉ es.map Prod.fst) : lookupIn k es = none := by
  induction es with
  | nil => rfl
  | cons e es ih =>
    simp only [List.map_cons, List.mem_cons, not_or] at h
    simp [lookupIn, Ne.symm h.1, ih h.2]

theorem mem_of_lookupIn (h : lookupIn k es = some v) : (k, v) ∈ es := by
  induction es with
  | nil => simp [lookupIn] at h
  | cons e es ih =>
    simp only [lookupIn] at h
    split at h
    · rename_i hk
      cases h
      simp [← hk]
    · exact List.mem_cons_of_mem _ (ih h)

theorem lookupIn_of_mem (hnodup : (es.map Prod.fst).Nodup) (h : (k, v) ∈ es) :
    lookupIn k es = some v := by
  induction es with
  | nil => simp at h
  | cons e es ih =>
    simp only [List.map_cons, List.nodup_cons] at hnodup
    rcases List.mem_cons.mp h with rfl | h
    · simp [lookupIn]
    · have hne : e.1 ≠ k := by
        intro he
        exact hnodup.1 (he ▸ List.mem_map_of_mem (f := Prod.fst) h)
      simp [lookupIn, hne, ih hnodup.2 h]

theorem lookupIn_setIn (k k' : κ) (v : ν) (es : List (κ × ν)) :
    lookupIn k' (setIn k v es) = if k = k' then some v else lookupIn k' es := by
  induction es with
  | nil => simp [setIn, lookupIn]
  | cons e es ih =>
    by_cases he : e.1 = k
    · by_cases hk : k = k' <;> simp [setIn, lookupIn, he, hk]
    · by_cases hk : k = k'
      · subst hk
        simp [setIn, lookupIn, he, ih]
      · rw [setIn, if_neg he]
        simp [lookupIn, hk, ih]

theorem mem_keys_setIn : k' ∈ (setIn k v es).map Prod.fst ↔ k' = k ∨ k' ∈ es.map Prod.fst := by
  induction es with
  | nil => simp [setIn]
  | cons e es ih =>
    by_cases he : e.1 = k
    · simp [setIn, he]
    · rw [setIn, if_neg he, List.map_cons, List.mem_cons, ih, List.map_cons, List.mem_cons]
      exact or_left_comm

theorem setIn_of_notMem (hk : k ∉ es.map Prod.fst) : setIn k v es = es ++ [(k, v)] := by
  induction es with
  | nil => rfl
  | cons e es ih =>
    rw [List.map_cons, List.mem_cons, not_or] at hk
    rw [setIn, if_neg (Ne.symm hk.1), ih hk.2, List.cons_append]

/-- An entry after a write was there before, or was written. -/
theorem mem_setIn {e : κ × ν} (h : e ∈ setIn k v es) : e ∈ es ∨ e = (k, v) := by
  induction es with
  | nil => exact Or.inr (List.mem_singleton.mp h)
  | cons d es ih =>
    by_cases hd : d.1 = k
    · rw [setIn, if_pos hd] at h
      rcases List.mem_cons.mp h with heq | hmem
      · exact Or.inr heq
      · exact Or.inl (List.mem_cons_of_mem d hmem)
    · rw [setIn, if_neg hd] at h
      rcases List.mem_cons.mp h with rfl | hmem
      · exact Or.inl List.mem_cons_self
      · exact (ih hmem).imp_left (List.mem_cons_of_mem d)

theorem nodup_setIn (h : (es.map Prod.fst).Nodup) : ((setIn k v es).map Prod.fst).Nodup := by
  induction es with
  | nil => simp [setIn]
  | cons e es ih =>
    simp only [List.map_cons, List.nodup_cons] at h
    by_cases he : e.1 = k
    · rw [setIn, if_pos he, List.map_cons, List.nodup_cons]
      exact ⟨he ▸ h.1, h.2⟩
    · rw [setIn, if_neg he, List.map_cons, List.nodup_cons]
      refine ⟨?_, ih h.2⟩
      rw [mem_keys_setIn]
      rintro (hk | hk)
      · exact he hk
      · exact h.1 hk

theorem popIn_sublist (k : κ) (es : List (κ × ν)) : (popIn k es).Sublist es := by
  induction es with
  | nil => exact List.Sublist.slnil
  | cons e es ih =>
    by_cases he : e.1 = k
    · simp [popIn, he]
    · simp [popIn, he, ih]

theorem nodup_popIn (h : (es.map Prod.fst).Nodup) : ((popIn k es).map Prod.fst).Nodup :=
  h.sublist ((popIn_sublist k es).map Prod.fst)

theorem lookupIn_popIn (k k' : κ) (h : (es.map Prod.fst).Nodup) :
    lookupIn k' (popIn k es) = if k = k' then none else lookupIn k' es := by
  induction es with
  | nil => simp [popIn, lookupIn]
  | cons e es ih =>
    simp only [List.map_cons, List.nodup_cons] at h
    by_cases he : e.1 = k
    · by_cases hk : k = k'
      · subst hk
        simp [popIn, he, lookupIn_eq_none (he ▸ h.1)]
      · simp [popIn, lookupIn, he, hk]
    · by_cases hk : k = k'
      · subst hk
        simp [popIn, lookupIn, he, ih h.2]
      · rw [popIn, if_neg he]
        simp [lookupIn, hk, ih h.2]

/-! ## Dictionary operations -/

/-- Read a key. -/
def get? (d : Dict κ ν) (k : κ) : Option ν := lookupIn k d.entries

/-- Write a key. -/
def set (d : Dict κ ν) (k : κ) (v : ν) : Dict κ ν :=
  ⟨setIn k v d.entries, nodup_setIn d.nodup⟩

/-- Remove a key. -/
def pop (d : Dict κ ν) (k : κ) : Dict κ ν :=
  ⟨popIn k d.entries, nodup_popIn d.nodup⟩

@[simp]
theorem get?_empty (k : κ) : (empty : Dict κ ν).get? k = none :=
  rfl

/-- Reading after a write. -/
@[grind =]
theorem get?_set (d : Dict κ ν) (k k' : κ) (v : ν) :
    (d.set k v).get? k' = if k = k' then some v else d.get? k' :=
  lookupIn_setIn k k' v d.entries

/-- Reading after a removal. -/
@[grind =]
theorem get?_pop (d : Dict κ ν) (k k' : κ) :
    (d.pop k).get? k' = if k = k' then none else d.get? k' :=
  lookupIn_popIn k k' d.nodup

@[simp]
theorem get?_set_self (d : Dict κ ν) (k : κ) (v : ν) : (d.set k v).get? k = some v := by
  simp [get?_set]

theorem get?_set_of_ne (d : Dict κ ν) (v : ν) (h : k ≠ k') : (d.set k v).get? k' = d.get? k' := by
  simp [get?_set, h]

@[simp]
theorem get?_pop_self (d : Dict κ ν) (k : κ) : (d.pop k).get? k = none := by
  simp [get?_pop]

theorem get?_pop_of_ne (d : Dict κ ν) (h : k ≠ k') : (d.pop k).get? k' = d.get? k' := by
  simp [get?_pop, h]

/-- What is read stays when a key is written that had something else. -/
theorem get?_set_of_get?_ne (v : ν) (hne : d.get? k ≠ some w)
    (h : d.get? k' = some w) : (d.set k v).get? k' = some w := by
  refine (get?_set_of_ne d v ?_).trans h
  rintro rfl
  exact hne h

/-- What is read after a write was written, or was there before. -/
theorem get?_set_cases (h : (d.set k v).get? k' = some w) :
    k = k' ∧ v = w ∨ k ≠ k' ∧ d.get? k' = some w := by
  by_cases hk : k = k'
  · rw [hk, get?_set_self] at h
    exact Or.inl ⟨hk, Option.some.inj h⟩
  · rw [get?_set_of_ne d v hk] at h
    exact Or.inr ⟨hk, h⟩

/-- What is read after a removal was there before, under another key. -/
theorem get?_pop_cases (h : (d.pop k).get? k' = some w) : k ≠ k' ∧ d.get? k' = some w := by
  by_cases hk : k = k'
  · rw [hk, get?_pop_self] at h
    contradiction
  · rw [get?_pop_of_ne d hk] at h
    exact ⟨hk, h⟩

/-- Change the value of a key, if it has one. -/
def modify (d : Dict κ ν) (k : κ) (f : ν → ν) : Dict κ ν :=
  match d.get? k with
  | none => d
  | some v => d.set k (f v)

/-- Reading after a change. -/
theorem get?_modify (d : Dict κ ν) (k k' : κ) (f : ν → ν) :
    (d.modify k f).get? k' = if k = k' then (d.get? k').map f else d.get? k' := by
  unfold modify
  cases hget : d.get? k with
  | none =>
    by_cases hk : k = k'
    · simp [← hk, hget]
    · simp [hk]
  | some v =>
    by_cases hk : k = k'
    · simp [← hk, hget]
    · simp [get?_set, hk]

/-- What is read after a change was changed, or was there before. -/
theorem get?_modify_cases {f : ν → ν} (h : (d.modify k f).get? k' = some w) :
    k = k' ∧ (∃ v, d.get? k' = some v ∧ f v = w) ∨ k ≠ k' ∧ d.get? k' = some w := by
  rw [get?_modify] at h
  by_cases hk : k = k'
  · rw [if_pos hk] at h
    exact Or.inl ⟨hk, Option.map_eq_some_iff.mp h⟩
  · rw [if_neg hk] at h
    exact Or.inr ⟨hk, h⟩

theorem modify_of_get? (h : d.get? k = some v) (f : ν → ν) : d.modify k f = d.set k (f v) := by
  simp [modify, h]

/-- An entry is listed exactly when it is read back. -/
theorem mem_entries_iff : (k, v) ∈ d.entries ↔ d.get? k = some v :=
  ⟨lookupIn_of_mem d.nodup, mem_of_lookupIn⟩

theorem mem_keys_iff : k ∈ d.keys ↔ ∃ v, d.get? k = some v := by
  simp only [keys, List.mem_map, ← mem_entries_iff, Prod.exists, exists_and_right, exists_eq_right]

theorem mem_keys_of_get? (h : d.get? k = some v) : k ∈ d.keys :=
  mem_keys_iff.2 ⟨v, h⟩

theorem get?_eq_none_iff : d.get? k = none ↔ k ∉ d.keys := by
  rw [mem_keys_iff, Option.eq_none_iff_forall_not_mem]
  simp [Option.mem_def]

theorem mem_values_iff : v ∈ d.values ↔ ∃ k, d.get? k = some v := by
  simp only [values, List.mem_map, ← mem_entries_iff, Prod.exists, exists_eq_right]

/-- Removing a list of keys removes exactly those. -/
theorem get?_foldl_pop (ks : List κ) (d : Dict κ ν) (k : κ) :
    (ks.foldl pop d).get? k = if k ∈ ks then none else d.get? k := by
  induction ks generalizing d with
  | nil => simp
  | cons k' ks ih =>
    simp only [List.foldl_cons, ih, get?_pop, List.mem_cons]
    by_cases hmem : k ∈ ks
    · simp [hmem]
    · by_cases heq : k' = k
      · simp [heq]
      · simp [hmem, heq, Ne.symm heq]

/-- Keep the entries whose value passes a test. -/
def filterValues (d : Dict κ ν) (keep : ν → Bool) : Dict κ ν :=
  ⟨d.entries.filter fun e => keep e.2, d.nodup.sublist (List.filter_sublist.map Prod.fst)⟩

omit [DecidableEq κ] in
/-- The values that pass a test stand under that many keys. -/
theorem count_eq_length_keys (p : ν → Bool) (d : Dict κ ν) :
    d.count p = (d.filterValues p).keys.length := by
  rw [keys, List.length_map, filterValues, ← List.countP_eq_length_filter, count, values,
    List.countP_map]
  rfl

/-- Reading after a filter. -/
theorem get?_filterValues_iff {keep : ν → Bool} :
    (d.filterValues keep).get? k = some v ↔ d.get? k = some v ∧ keep v = true := by
  rw [← mem_entries_iff, ← mem_entries_iff]
  simp [filterValues, List.mem_filter]

/-- Apply a function to every value. -/
def mapValues {μ : Type} (d : Dict κ ν) (f : ν → μ) : Dict κ μ :=
  ⟨d.entries.map fun e => (e.1, f e.2), by simpa [Function.comp_def] using d.nodup⟩

/-- Reading after a function was applied to every value. -/
theorem get?_mapValues (d : Dict κ ν) {μ : Type} (f : ν → μ) (k : κ) :
    (d.mapValues f).get? k = (d.get? k).map f := by
  obtain ⟨es, hes⟩ := d
  simp only [get?, mapValues]
  clear hes
  induction es with
  | nil => rfl
  | cons e es ih =>
    simp only [List.map_cons, lookupIn]
    split
    · rfl
    · exact ih

/-- Apply a function to every key and its value. -/
def mapEntries {μ : Type} (d : Dict κ ν) (f : κ → ν → μ) : Dict κ μ :=
  ⟨d.entries.map fun e => (e.1, f e.1 e.2), by simpa [Function.comp_def] using d.nodup⟩

theorem get?_mapEntries (d : Dict κ ν) {μ : Type} (f : κ → ν → μ) (k : κ) :
    (d.mapEntries f).get? k = (d.get? k).map (f k) := by
  obtain ⟨es, hes⟩ := d
  simp only [get?, mapEntries]
  clear hes
  induction es with
  | nil => rfl
  | cons e es ih =>
    simp only [List.map_cons, lookupIn]
    split
    · rename_i hk
      rw [hk]
      rfl
    · exact ih

/-! ## Weighted totals -/

theorem sum_setIn_new (f : ν → Int) (h : lookupIn k es = none) :
    ((setIn k v es).map fun e => f e.2).sum = (es.map fun e => f e.2).sum + f v := by
  induction es with
  | nil => simp [setIn]
  | cons e es ih =>
    simp only [lookupIn] at h
    split at h
    · contradiction
    rename_i hne
    simp only [setIn, if_neg hne, List.map_cons, List.sum_cons, ih h]
    ring

theorem sum_popIn (f : ν → Int) (h : lookupIn k es = some v) :
    ((popIn k es).map fun e => f e.2).sum = (es.map fun e => f e.2).sum - f v := by
  induction es with
  | nil => simp [lookupIn] at h
  | cons e es ih =>
    simp only [lookupIn] at h
    split at h
    · rename_i hk
      cases h
      simp [popIn, hk]
    · rename_i hne
      simp only [popIn, if_neg hne, List.map_cons, List.sum_cons, ih h]
      ring

/-- A new key adds its weight. -/
theorem sumBy_set_new (f : ν → Int) (v : ν) (h : d.get? k = none) :
    sumBy f (d.set k v) = sumBy f d + f v := by
  rw [sumBy_eq, sumBy_eq]
  exact sum_setIn_new f h

/-- A removed key takes its weight away. -/
theorem sumBy_pop (f : ν → Int) (h : d.get? k = some v) : sumBy f (d.pop k) = sumBy f d - f v := by
  rw [sumBy_eq, sumBy_eq]
  exact sum_popIn f h

omit [DecidableEq κ] in
/-- Values that weigh nothing, or no more than what lies at a key of their own in another
dictionary. -/
theorem sum_le_sumBy {κ' μ : Type} [DecidableEq κ'] (f : ν → Int) (g : μ → Int)
    (place : κ → κ' → Prop) (hplace : ∀ k k' c, place k c → place k' c → k = k') {d : Dict κ' μ}
    (hnodup : (es.map Prod.fst).Nodup) (hnonneg : ∀ w ∈ d.values, 0 ≤ g w)
    (hle : ∀ k v, (k, v) ∈ es →
      f v ≤ 0 ∨ ∃ c w, place k c ∧ d.get? c = some w ∧ f v ≤ g w) :
    (es.map fun e => f e.2).sum ≤ sumBy g d := by
  induction es generalizing d with
  | nil => exact sumBy_nonneg hnonneg
  | cons e es ih =>
    obtain ⟨k, v⟩ := e
    simp only [List.map_cons, List.nodup_cons] at hnodup
    simp only [List.map_cons, List.sum_cons]
    have hrest : ∀ k' v', (k', v') ∈ es →
        f v' ≤ 0 ∨ ∃ c w, place k' c ∧ d.get? c = some w ∧ f v' ≤ g w := by
      intro k' v' hmem
      exact hle k' v' (List.mem_cons_of_mem _ hmem)
    rcases hle k v List.mem_cons_self with hzero | ⟨c, w, hc, hget, hw⟩
    · have htail := ih hnodup.2 hnonneg hrest
      omega
    · have htail : (es.map fun e => f e.2).sum ≤ sumBy g (d.pop c) := by
        apply ih hnodup.2
        · intro u hu
          obtain ⟨c', hc'⟩ := mem_values_iff.mp hu
          rw [get?_pop] at hc'
          split at hc'
          · contradiction
          · exact hnonneg u (mem_values_iff.mpr ⟨c', hc'⟩)
        · intro k' v' hmem
          rcases hrest k' v' hmem with hzero | ⟨c', w', hc', hget', hw'⟩
          · exact Or.inl hzero
          · have hne : c ≠ c' := by
              rintro rfl
              have heq := hplace k k' c hc hc'
              exact hnodup.1 (heq ▸ List.mem_map_of_mem (f := Prod.fst) hmem)
            refine Or.inr ⟨c', w', hc', ?_, hw'⟩
            rw [get?_pop_of_ne d hne]
            exact hget'
      rw [sumBy_pop g hget] at htail
      omega

/-- The total when each value has a key of its own in another dictionary. -/
theorem sumBy_le_of_place {κ' μ : Type} [DecidableEq κ'] (f : ν → Int) (g : μ → Int)
    (place : κ → κ' → Prop) (hplace : ∀ k k' c, place k c → place k' c → k = k')
    {d : Dict κ' μ} (hnonneg : ∀ w ∈ d.values, 0 ≤ g w)
    (hle : ∀ k v, d'.get? k = some v →
      f v ≤ 0 ∨ ∃ c w, place k c ∧ d.get? c = some w ∧ f v ≤ g w) : sumBy f d' ≤ sumBy g d := by
  rw [sumBy_eq f d']
  apply sum_le_sumBy f g place hplace d'.nodup hnonneg
  intro k v hmem
  exact hle k v (mem_entries_iff.mp hmem)

/-- The total falls when values are dropped or lose weight. -/
theorem sumBy_le (f g : ν → Int) (hnonneg : ∀ v ∈ d.values, 0 ≤ g v)
    (hle : ∀ k v, d'.get? k = some v → f v ≤ 0 ∨ ∃ w, d.get? k = some w ∧ f v ≤ g w) :
    sumBy f d' ≤ sumBy g d := by
  apply sumBy_le_of_place f g Eq
  · rintro k k' c rfl rfl
    rfl
  · exact hnonneg
  · intro k v hget
    rcases hle k v hget with hzero | ⟨w, hw, hlew⟩
    · exact Or.inl hzero
    · exact Or.inr ⟨k, w, rfl, hw, hlew⟩

/-- A write adds no more than its own weight. -/
theorem sumBy_set_le (hnonneg : ∀ v ∈ d.values, 0 ≤ f v) :
    sumBy f (d.set k v) ≤ sumBy f d + f v := by
  have hrest : sumBy f ((d.set k v).pop k) ≤ sumBy f d := by
    apply sumBy_le f f hnonneg
    intro k' w hget
    obtain ⟨hne, hold⟩ := get?_pop_cases hget
    rw [get?_set_of_ne _ _ hne] at hold
    exact Or.inr ⟨w, hold, le_refl _⟩
  rw [sumBy_pop f (get?_set_self d k v)] at hrest
  omega

/-! ## Counts -/

/-- A new key is counted beside the others. -/
theorem count_set_new (p : ν → Bool) (v : ν) (h : d.get? k = none) :
    (d.set k v).count p = d.count p + if p v then 1 else 0 := by
  obtain ⟨es, hes⟩ := d
  simp only [get?] at h
  simp only [count, values, set]
  clear hes
  induction es with
  | nil => simp [setIn, List.countP_cons]
  | cons e es ih =>
    simp only [lookupIn] at h
    split at h
    · contradiction
    rename_i hk
    have hrest := ih h
    simp only [setIn, if_neg hk, List.map_cons, List.countP_cons]
    omega

/-- Overwriting a key counts its new value instead of the old one. -/
theorem count_set_of_get? (p : ν → Bool) (w : ν) (h : d.get? k = some v) :
    (d.set k w).count p + (if p v then 1 else 0) = d.count p + (if p w then 1 else 0) := by
  obtain ⟨es, hes⟩ := d
  simp only [get?] at h
  simp only [count, values, set]
  clear hes
  induction es with
  | nil => contradiction
  | cons e es ih =>
    simp only [lookupIn] at h
    split at h
    · rename_i hk
      cases h
      simp only [setIn, if_pos hk, List.map_cons, List.countP_cons]
      omega
    · rename_i hk
      have hrest := ih h
      simp only [setIn, if_neg hk, List.map_cons, List.countP_cons]
      omega

/-- One for a value that passes. -/
def tally (p : ν → Bool) : Option ν → Nat
  | none => 0
  | some v => if p v then 1 else 0

/-- A write counts the new value instead of the old one, if there is one. -/
theorem count_set (p : ν → Bool) (d : Dict κ ν) (k : κ) (v : ν) :
    (d.set k v).count p + tally p (d.get? k) = d.count p + tally p (some v) := by
  cases hget : d.get? k with
  | none => exact count_set_new p v hget
  | some w => exact count_set_of_get? p v hget

/-- A change that makes no value pass adds nothing to the count. -/
theorem count_modify_le {p : ν → Bool} {f : ν → ν} (hf : ∀ v, p (f v) = true → p v = true)
    (d : Dict κ ν) (k : κ) : (d.modify k f).count p ≤ d.count p := by
  cases hget : d.get? k with
  | none => simp [modify, hget]
  | some v =>
    rw [modify_of_get? hget]
    have hcount := count_set_of_get? p (f v) hget
    by_cases hpass : p (f v) = true
    · simp only [hpass, hf v hpass, if_true] at hcount
      omega
    · simp only [hpass, if_false, Bool.false_eq_true] at hcount
      omega

end Dict

end Collections
