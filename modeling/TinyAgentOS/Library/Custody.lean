import Mathlib.Data.List.Basic
import Mathlib.Tactic

/-!
# Custody of tokens

Holders are given tokens, and a token stays at one place until it is handed
back.  Who is given a token and where it lies are arbitrary functions; a place
may be empty, and a token may move from one place to another.

Main results:

- `Kept.give`, `Kept.move` and `Kept.giveBack`: what tokens are given, moved and handed back under
  custody.
- `Exclusive.put` and `Exclusive.move`: a new token is put somewhere, or one is moved, and every
  token still lies at one place at most.
-/

namespace Custody

variable {κ ν τ : Type}

/-! ## Tokens at one place -/

section Exclusive

variable {place place' : ν → Option τ}

/-- No token lies at two places. -/
def Exclusive (place : ν → Option τ) : Prop :=
  ∀ n n' t, place n = some t → place n' = some t → n = n'

theorem Exclusive.mono (h : Exclusive place) (hless : ∀ n t, place' n = some t → place n = some t) :
    Exclusive place' :=
  fun n n' t hn hn' => h n n' t (hless n t hn) (hless n' t hn')

/-- A token that lay nowhere is put at a place, whatever lay there. -/
theorem Exclusive.put (h : Exclusive place) {m : ν} {u : τ} (hnew : ∀ n, place n ≠ some u)
    (hput : ∀ n t, place' n = some t → n = m ∧ t = u ∨ place n = some t) : Exclusive place' := by
  intro n n' t hn hn'
  rcases hput n t hn with ⟨rfl, rfl⟩ | hold
  · rcases hput n' t hn' with ⟨rfl, _⟩ | hold'
    · rfl
    · exact absurd hold' (hnew n')
  · rcases hput n' t hn' with ⟨_, rfl⟩ | hold'
    · exact absurd hold (hnew n)
    · exact h n n' t hold hold'

/-- What lies at one place is moved to another, whatever lay there. -/
theorem Exclusive.move (h : Exclusive place) {m m' : ν} (hm : place' m = none)
    (hmove : ∀ n t, place' n = some t → n = m' ∧ place m = some t ∨ place n = some t) :
    Exclusive place' := by
  have hleft : ∀ n t, place' n = some t → n ≠ m := by
    rintro n t hn rfl
    rw [hm] at hn
    contradiction
  intro n n' t hn hn'
  rcases hmove n t hn with ⟨rfl, hsource⟩ | hold
  · rcases hmove n' t hn' with ⟨rfl, _⟩ | hold'
    · rfl
    · exact absurd (h n' m t hold' hsource) (hleft n' t hn')
  · rcases hmove n' t hn' with ⟨_, hsource⟩ | hold'
    · exact absurd (h n m t hold hsource) (hleft n t hn)
    · exact h n n' t hold hold'

end Exclusive

/-! ## Tokens with holders -/

variable [DecidableEq τ]

/-- A token has one holder and lies at one place at most; it lies nowhere from the moment it
is handed back, which happens once. -/
structure Kept (token : κ → Option τ) (place : ν → Option τ) (returned : List τ) : Prop where
  owner : ∀ n t, place n = some t → ∃ k, token k = some t
  unique : ∀ k k' t, token k = some t → token k' = some t → k = k'
  once : ∀ n n' t, place n = some t → place n' = some t → n = n'
  kept : ∀ n t, place n = some t → t ∉ returned
  gone : ∀ k t, token k = some t → (∀ n, place n ≠ some t) → returned.count t = 1
  known : ∀ t ∈ returned, ∃ k, token k = some t

variable {token token' : κ → Option τ} {place place' : ν → Option τ} {returned : List τ}

theorem Kept.congr (h : Kept token place returned) (htoken : ∀ k, token' k = token k)
    (hplace : ∀ n, place' n = place n) : Kept token' place' returned := by
  have htoken : token' = token := funext htoken
  have hplace : place' = place := funext hplace
  rw [htoken, hplace]
  exact h

/-- A holder without a token is given a new one, which is put at an empty place; or none. -/
theorem Kept.give (h : Kept token place returned) (k : κ) (n : ν) (given : Option τ)
    (hnew : ∀ t, given = some t → ∀ k', token k' ≠ some t) (htoken : token k = none)
    (hempty : place n = none) (hk : token' k = given) (hn : place' n = given)
    (hholders : ∀ k', k' ≠ k → token' k' = token k')
    (hplaces : ∀ n', n' ≠ n → place' n' = place n') : Kept token' place' returned := by
  have hgrow : ∀ k' t, token k' = some t → token' k' = some t := by
    intro k' t ht
    have hne : k' ≠ k := by
      rintro rfl
      rw [htoken] at ht
      contradiction
    rw [hholders k' hne, ht]
  have hold : ∀ k' t, token' k' = some t → k' = k ∧ given = some t ∨ token k' = some t := by
    intro k' t ht
    by_cases heq : k' = k
    · subst heq
      exact Or.inl ⟨rfl, hk.symm.trans ht⟩
    · rw [hholders k' heq] at ht
      exact Or.inr ht
  have hlies : ∀ n' t, place' n' = some t → n' = n ∧ given = some t ∨ place n' = some t := by
    intro n' t ht
    by_cases heq : n' = n
    · subst heq
      exact Or.inl ⟨rfl, hn.symm.trans ht⟩
    · rw [hplaces n' heq] at ht
      exact Or.inr ht
  refine ⟨?_, ?_, ?_, ?_, ?_, ?_⟩
  · intro n' t ht
    rcases hlies n' t ht with ⟨_, hgiven⟩ | hbefore
    · exact ⟨k, hk.trans hgiven⟩
    · obtain ⟨k', hk'⟩ := h.owner n' t hbefore
      exact ⟨k', hgrow k' t hk'⟩
  · intro k₁ k₂ t h₁ h₂
    rcases hold k₁ t h₁ with ⟨rfl, hgiven⟩ | hbefore₁
    · rcases hold k₂ t h₂ with ⟨rfl, _⟩ | hbefore₂
      · rfl
      · exact absurd hbefore₂ (hnew t hgiven k₂)
    · rcases hold k₂ t h₂ with ⟨rfl, hgiven⟩ | hbefore₂
      · exact absurd hbefore₁ (hnew t hgiven k₁)
      · exact h.unique k₁ k₂ t hbefore₁ hbefore₂
  · intro n₁ n₂ t h₁ h₂
    rcases hlies n₁ t h₁ with ⟨rfl, hgiven⟩ | hbefore₁
    · rcases hlies n₂ t h₂ with ⟨rfl, _⟩ | hbefore₂
      · rfl
      · obtain ⟨k', hk'⟩ := h.owner n₂ t hbefore₂
        exact absurd hk' (hnew t hgiven k')
    · rcases hlies n₂ t h₂ with ⟨rfl, hgiven⟩ | hbefore₂
      · obtain ⟨k', hk'⟩ := h.owner n₁ t hbefore₁
        exact absurd hk' (hnew t hgiven k')
      · exact h.once n₁ n₂ t hbefore₁ hbefore₂
  · intro n' t ht hreturned
    rcases hlies n' t ht with ⟨_, hgiven⟩ | hbefore
    · obtain ⟨k', hk'⟩ := h.known t hreturned
      exact hnew t hgiven k' hk'
    · exact h.kept n' t hbefore hreturned
  · intro k' t ht hnowhere
    rcases hold k' t ht with ⟨_, hgiven⟩ | hbefore
    · exact absurd (hn.trans hgiven) (hnowhere n)
    · apply h.gone k' t hbefore
      intro n' hn'
      have hne : n' ≠ n := by
        rintro rfl
        rw [hempty] at hn'
        contradiction
      exact hnowhere n' ((hplaces n' hne).trans hn')
  · intro t ht
    obtain ⟨k', hk'⟩ := h.known t ht
    exact ⟨k', hgrow k' t hk'⟩

/-- What lies at one place moves to another, empty one. -/
theorem Kept.move (h : Kept token place returned) (n n' : ν) (hempty : place n' = none)
    (hn : place' n = none) (hn' : place' n' = place n)
    (hplaces : ∀ m, m ≠ n → m ≠ n' → place' m = place m) : Kept token place' returned := by
  have hlies : ∀ m t, place' m = some t →
      m = n' ∧ place n = some t ∨ m ≠ n ∧ m ≠ n' ∧ place m = some t := by
    intro m t ht
    by_cases heq' : m = n'
    · subst heq'
      exact Or.inl ⟨rfl, hn'.symm.trans ht⟩
    · have hne : m ≠ n := by
        rintro rfl
        rw [hn] at ht
        contradiction
      exact Or.inr ⟨hne, heq', (hplaces m hne heq').symm.trans ht⟩
  refine ⟨?_, h.unique, ?_, ?_, ?_, h.known⟩
  · intro m t ht
    rcases hlies m t ht with ⟨_, hbefore⟩ | ⟨_, _, hbefore⟩
    · exact h.owner n t hbefore
    · exact h.owner m t hbefore
  · intro m₁ m₂ t h₁ h₂
    rcases hlies m₁ t h₁ with ⟨rfl, hbefore₁⟩ | ⟨hne₁, _, hbefore₁⟩
    · rcases hlies m₂ t h₂ with ⟨rfl, _⟩ | ⟨hne₂, _, hbefore₂⟩
      · rfl
      · exact absurd (h.once m₂ n t hbefore₂ hbefore₁) hne₂
    · rcases hlies m₂ t h₂ with ⟨rfl, hbefore₂⟩ | ⟨_, _, hbefore₂⟩
      · exact absurd (h.once m₁ n t hbefore₁ hbefore₂) hne₁
      · exact h.once m₁ m₂ t hbefore₁ hbefore₂
  · intro m t ht
    rcases hlies m t ht with ⟨_, hbefore⟩ | ⟨_, _, hbefore⟩
    · exact h.kept n t hbefore
    · exact h.kept m t hbefore
  · intro k t ht hnowhere
    apply h.gone k t ht
    intro m hm
    by_cases heq : m = n
    · subst heq
      exact hnowhere n' (hn'.trans hm)
    · have hne : m ≠ n' := by
        rintro rfl
        rw [hempty] at hm
        contradiction
      exact hnowhere m ((hplaces m heq hne).trans hm)

/-- What lies at a place is handed back. -/
theorem Kept.giveBack (h : Kept token place returned) {n : ν} (hn : place' n = none)
    (hplaces : ∀ n', n' ≠ n → place' n' = place n') :
    Kept token place' (returned ++ (place n).toList) := by
  have hlies : ∀ m t, place' m = some t → m ≠ n ∧ place m = some t := by
    intro m t ht
    have hne : m ≠ n := by
      rintro rfl
      rw [hn] at ht
      contradiction
    exact ⟨hne, (hplaces m hne).symm.trans ht⟩
  refine ⟨?_, h.unique, ?_, ?_, ?_, ?_⟩
  · intro m t ht
    exact h.owner m t (hlies m t ht).2
  · intro m₁ m₂ t h₁ h₂
    exact h.once m₁ m₂ t (hlies m₁ t h₁).2 (hlies m₂ t h₂).2
  · intro m t ht hmem
    obtain ⟨hne, hbefore⟩ := hlies m t ht
    rcases List.mem_append.mp hmem with hreturned | hnow
    · exact h.kept m t hbefore hreturned
    · exact hne (h.once m n t hbefore (Option.mem_toList.mp hnow))
  · intro k t ht hnowhere
    rw [List.count_append]
    by_cases hlay : place n = some t
    · have hzero : returned.count t = 0 := List.count_eq_zero.mpr (h.kept n t hlay)
      rw [hzero, hlay]
      simp
    · have hone : returned.count t = 1 := by
        apply h.gone k t ht
        intro m hm
        by_cases heq : m = n
        · exact hlay (heq ▸ hm)
        · exact hnowhere m ((hplaces m heq).trans hm)
      have hother : t ∉ (place n).toList := fun hmem => hlay (Option.mem_toList.mp hmem)
      rw [hone, List.count_eq_zero.mpr hother]
  · intro t ht
    rcases List.mem_append.mp ht with hreturned | hnow
    · exact h.known t hreturned
    · exact h.owner n t (Option.mem_toList.mp hnow)

end Custody
