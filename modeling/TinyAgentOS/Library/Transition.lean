import Mathlib.Data.List.Basic
import Mathlib.Tactic

/-!
# Runs of an executable transition function

A machine is a partial step function on states and events; a run feeds it a
list of events.  A guard is a condition on a state and the event about to be
taken in it.  The induction over runs is packaged here once.

Main results:

- `invariant_of_run` and `invariant_of_guarded_run`: a fact preserved by every (guarded) step
  holds in the state a (guarded) run reaches.
- `guard_of_guarded_append`: the guard holds where a guarded run takes a step.
- `everyStep_iff_guarded`: a guard that says exactly which steps are good says exactly which runs
  are.
- `flawless_iff_guarded`: the runs that end without a flaw that stays.
- `related_of_filtered_run`: a run and the run of some of its events.
-/

namespace Transition

variable {σ ε : Type}

/-- Feed a list of events to a step function. -/
def run (step : σ → ε → Option σ) : σ → List ε → Option σ
  | s, [] => some s
  | s, e :: es =>
    match step s e with
    | none => none
    | some s' => run step s' es

/-- Every event is taken in a state that meets the guard. -/
def Guarded (step : σ → ε → Option σ) (guard : σ → ε → Prop) : σ → List ε → Prop
  | _, [] => True
  | s, e :: es =>
    guard s e ∧
      match step s e with
      | none => True
      | some s' => Guarded step guard s' es

/-- Every step that a run takes is related to the event it is taken on. -/
def EveryStep (step : σ → ε → Option σ) (P : σ → ε → σ → Prop) (s : σ) (es : List ε) : Prop :=
  ∀ pre e post t t', es = pre ++ e :: post → run step s pre = some t → step t e = some t' →
    P t e t'

/-- A run with decidable guards can be tested. -/
instance decidableGuarded (step : σ → ε → Option σ) (guard : σ → ε → Prop)
    [∀ s e, Decidable (guard s e)] :
    ∀ (s : σ) (es : List ε), Decidable (Guarded step guard s es)
  | _, [] => isTrue trivial
  | s, e :: es =>
    have : Decidable (match step s e with
      | none => True
      | some s' => Guarded step guard s' es) :=
      match step s e with
      | none => isTrue trivial
      | some s' => decidableGuarded step guard s' es
    inferInstanceAs (Decidable (_ ∧ _))

section Runs

variable {step : σ → ε → Option σ} {guard : σ → ε → Prop}

@[simp]
theorem run_nil (s : σ) : run step s [] = some s :=
  rfl

theorem run_cons (s : σ) (e : ε) (es : List ε) :
    run step s (e :: es) = (step s e).bind fun s' => run step s' es := by
  simp only [run]
  cases step s e <;> rfl

variable {e : ε} {es : List ε} {s s' : σ} {I : σ → Prop} {P : σ → ε → σ → Prop}

theorem run_cons_eq_some {s'' : σ} :
    run step s (e :: es) = some s'' ↔ ∃ s', step s e = some s' ∧ run step s' es = some s'' := by
  rw [run_cons, Option.bind_eq_some_iff]

/-- A run can be stopped anywhere and taken up from the state it has reached. -/
theorem run_append (s : σ) (es es' : List ε) :
    run step s (es ++ es') = (run step s es).bind fun s' => run step s' es' := by
  induction es generalizing s with
  | nil => rfl
  | cons e es ih =>
    rw [List.cons_append, run_cons, run_cons]
    cases step s e with
    | none => rfl
    | some s' => exact ih s'

theorem run_append_singleton {s'' : σ} (hrun : run step s es = some s')
    (hstep : step s' e = some s'') : run step s (es ++ [e]) = some s'' := by
  rw [run_append, hrun]
  exact run_cons_eq_some.mpr ⟨s'', hstep, rfl⟩

/-- Events that leave the state alone, however many. -/
theorem run_of_still (hstill : ∀ e ∈ es, step s e = some s) : run step s es = some s := by
  induction es with
  | nil => rfl
  | cons e es ih =>
    refine run_cons_eq_some.mpr ⟨s, hstill e List.mem_cons_self, ih ?_⟩
    exact fun d hd => hstill d (List.mem_cons_of_mem e hd)

theorem guarded_cons_of_step (hstep : step s e = some s') :
    Guarded step guard s (e :: es) ↔ guard s e ∧ Guarded step guard s' es := by
  simp only [Guarded, hstep]

/-- The guard that always holds constrains nothing. -/
theorem guarded_true (s : σ) (es : List ε) : Guarded step (fun _ _ => True) s es := by
  induction es generalizing s with
  | nil => trivial
  | cons e es ih =>
    refine ⟨trivial, ?_⟩
    cases hstep : step s e with
    | none => trivial
    | some s' => simpa [hstep] using ih s'

/-- A fact kept by every guarded step holds where a guarded run ends. -/
theorem invariant_of_guarded_run (hkeep : ∀ s e s', I s → guard s e → step s e = some s' → I s')
    (hinit : I s) (hguard : Guarded step guard s es) (hrun : run step s es = some s') : I s' := by
  induction es generalizing s with
  | nil =>
    cases hrun
    exact hinit
  | cons e es ih =>
    obtain ⟨t, hstep, hrest⟩ := run_cons_eq_some.mp hrun
    obtain ⟨hg, hgs⟩ := (guarded_cons_of_step hstep).mp hguard
    exact ih (hkeep s e t hinit hg hstep) hgs hrest

/-- A run that meets a guard under which every step can be taken comes to its end. -/
theorem isSome_run_of_guarded (hkeep : ∀ s e s', I s → guard s e → step s e = some s' → I s')
    (hsome : ∀ s e, I s → guard s e → (step s e).isSome = true) (hinit : I s)
    (hguard : Guarded step guard s es) : (run step s es).isSome = true := by
  induction es generalizing s with
  | nil => rfl
  | cons e es ih =>
    obtain ⟨t, hstep⟩ := Option.isSome_iff_exists.mp (hsome s e hinit hguard.1)
    obtain ⟨hg, hgs⟩ := (guarded_cons_of_step hstep).mp hguard
    rw [run_cons, hstep, Option.bind_some]
    exact ih (hkeep s e t hinit hg hstep) hgs

/-- A fact kept by every step holds where a run ends. -/
theorem invariant_of_run (hkeep : ∀ s e s', I s → step s e = some s' → I s') (hinit : I s)
    (hrun : run step s es = some s') : I s' :=
  invariant_of_guarded_run (fun s e s' hI _ hstep => hkeep s e s' hI hstep) hinit
    (guarded_true s es) hrun

/-- A guard can be weakened. -/
theorem guarded_imp {guard' : σ → ε → Prop} (himp : ∀ s e, guard s e → guard' s e)
    (hguard : Guarded step guard s es) : Guarded step guard' s es := by
  induction es generalizing s with
  | nil => trivial
  | cons e es ih =>
    refine ⟨himp s e hguard.1, ?_⟩
    cases hstep : step s e with
    | none => trivial
    | some s' => exact ih ((guarded_cons_of_step hstep).mp hguard).2

/-- A guarded run is guarded as far as one follows it. -/
theorem guarded_of_append {es' : List ε} (hguard : Guarded step guard s (es ++ es')) :
    Guarded step guard s es := by
  induction es generalizing s with
  | nil => trivial
  | cons e es ih =>
    refine ⟨hguard.1, ?_⟩
    cases hstep : step s e with
    | none => trivial
    | some t => exact ih ((guarded_cons_of_step hstep).mp hguard).2

/-- The guard holds of the event that a guarded run takes last. -/
theorem guard_of_guarded_append (hguard : Guarded step guard s (es ++ [e]))
    (hrun : run step s es = some s') : guard s' e := by
  induction es generalizing s with
  | nil =>
    cases hrun
    exact hguard.1
  | cons d es ih =>
    obtain ⟨t, hstep, hrest⟩ := run_cons_eq_some.mp hrun
    exact ih ((guarded_cons_of_step hstep).mp hguard).2 hrest

theorem everyStep_nil (P : σ → ε → σ → Prop) (s : σ) : EveryStep step P s [] := by
  intro pre e post t t' heq _ _
  simp at heq

theorem everyStep_of_none (hstep : step s e = none) : EveryStep step P s (e :: es) := by
  intro pre d post t t' heq hrun hstep'
  cases pre with
  | nil =>
    cases hrun
    cases heq
    rw [hstep] at hstep'
    contradiction
  | cons c pre =>
    cases heq
    obtain ⟨u, hstep'', _⟩ := run_cons_eq_some.mp hrun
    rw [hstep] at hstep''
    contradiction

theorem everyStep_cons_of_step (hstep : step s e = some s') :
    EveryStep step P s (e :: es) ↔ P s e s' ∧ EveryStep step P s' es := by
  constructor
  · intro hevery
    refine ⟨hevery [] e es s s' rfl rfl hstep, ?_⟩
    intro pre d post t t' heq hrun hstep'
    exact hevery (e :: pre) d post t t' (by rw [heq, List.cons_append])
      (run_cons_eq_some.mpr ⟨s', hstep, hrun⟩) hstep'
  · rintro ⟨hfirst, hrest⟩ pre d post t t' heq hrun hstep'
    cases pre with
    | nil =>
      cases hrun
      cases heq
      obtain rfl : s' = t' := by simpa [hstep] using hstep'
      exact hfirst
    | cons c pre =>
      cases heq
      obtain ⟨u, hstep'', hrun'⟩ := run_cons_eq_some.mp hrun
      obtain rfl : s' = u := by simpa [hstep] using hstep''
      exact hrest pre d post t t' rfl hrun' hstep'

/-- What the guard promises of a step holds of every step of a guarded run. -/
theorem everyStep_of_guarded (hgood : ∀ s e s', guard s e → step s e = some s' → P s e s')
    (hguard : Guarded step guard s es) : EveryStep step P s es := by
  induction es generalizing s with
  | nil => exact everyStep_nil P s
  | cons e es ih =>
    cases hstep : step s e with
    | none => exact everyStep_of_none hstep
    | some t =>
      obtain ⟨hg, hgs⟩ := (guarded_cons_of_step hstep).mp hguard
      exact (everyStep_cons_of_step hstep).mpr ⟨hgood s e t hg hstep, ih hgs⟩

/-- Where the guard says exactly which steps are good, and asks nothing of events that cannot
be taken, a run takes good steps alone exactly when it meets the guard. -/
theorem everyStep_iff_guarded (hidle : ∀ s e, step s e = none → guard s e)
    (hkeep : ∀ s e s', I s → guard s e → step s e = some s' → I s')
    (hexact : ∀ s e s', I s → step s e = some s' → (P s e s' ↔ guard s e)) (hinit : I s)
    (es : List ε) : EveryStep step P s es ↔ Guarded step guard s es := by
  induction es generalizing s with
  | nil => exact iff_of_true (everyStep_nil P s) trivial
  | cons e es ih =>
    cases hstep : step s e with
    | none =>
      refine iff_of_true (everyStep_of_none hstep) ⟨hidle s e hstep, ?_⟩
      rw [hstep]
      trivial
    | some t =>
      rw [everyStep_cons_of_step hstep, guarded_cons_of_step hstep,
        hexact s e t hinit hstep]
      constructor
      · rintro ⟨hg, hevery⟩
        exact ⟨hg, (ih (hkeep s e t hinit hg hstep)).mp hevery⟩
      · rintro ⟨hg, hgs⟩
        exact ⟨hg, (ih (hkeep s e t hinit hg hstep)).mpr hgs⟩

/-- A flaw that stays and comes from the steps beside the guard alone: a run ends without it
exactly when it began without it and met the guard. -/
theorem flawless_iff_guarded {Flaw : σ → Prop} (hkeep : ∀ s e s', I s → step s e = some s' → I s')
    (hexact : ∀ s e s', I s → step s e = some s' → (Flaw s' ↔ Flaw s ∨ ¬ guard s e)) (hinit : I s)
    (hrun : run step s es = some s') : ¬ Flaw s' ↔ ¬ Flaw s ∧ Guarded step guard s es := by
  induction es generalizing s with
  | nil =>
    cases hrun
    exact (and_iff_left trivial).symm
  | cons e es ih =>
    obtain ⟨t, hstep, hrest⟩ := run_cons_eq_some.mp hrun
    rw [guarded_cons_of_step hstep, ih (hkeep s e t hinit hstep) hrest,
      hexact s e t hinit hstep, not_or, not_not, and_assoc]

/-- A fact of every step taken where an invariant holds is a fact of every step of a run. -/
theorem everyStep_of_invariant (hkeep : ∀ s e s', I s → step s e = some s' → I s')
    (hgood : ∀ s e s', I s → step s e = some s' → P s e s') (hinit : I s)
    (es : List ε) : EveryStep step P s es := by
  intro pre e post t t' _ hrun hstep
  exact hgood t e t' (invariant_of_run hkeep hinit hrun) hstep

/-- A fact true at the start holds of every state of a run exactly when it holds after every
step. -/
theorem states_iff_everyStep (hinit : I s) (es : List ε) :
    (∀ pre post t, es = pre ++ post → run step s pre = some t → I t) ↔
      EveryStep step (fun _ _ t' => I t') s es := by
  constructor
  · intro hstates pre e post t t' heq hrun hstep
    exact hstates (pre ++ [e]) post t' (by simpa using heq) (run_append_singleton hrun hstep)
  · intro hevery pre post t heq hrun
    induction pre using List.reverseRecOn with
    | nil =>
      cases hrun
      exact hinit
    | append_singleton pre e _ =>
      rw [run_append] at hrun
      obtain ⟨u, hpre, hlast⟩ := Option.bind_eq_some_iff.mp hrun
      obtain ⟨t', hstep, hend⟩ := run_cons_eq_some.mp hlast
      cases hend
      exact hevery pre e post u t (by simpa using heq) hpre hstep

/-- Two facts hold of every step exactly when each does. -/
theorem everyStep_and {Q : σ → ε → σ → Prop} :
    EveryStep step (fun t e t' => P t e t' ∧ Q t e t') s es ↔
      EveryStep step P s es ∧ EveryStep step Q s es := by
  constructor
  · intro hboth
    constructor
    · intro pre e post t t' heq hrun hstep
      exact (hboth pre e post t t' heq hrun hstep).1
    · intro pre e post t t' heq hrun hstep
      exact (hboth pre e post t t' heq hrun hstep).2
  · rintro ⟨hP, hQ⟩ pre e post t t' heq hrun hstep
    exact ⟨hP pre e post t t' heq hrun hstep, hQ pre e post t t' heq hrun hstep⟩

/-- A reflexive and transitive relation holds of every stretch of a run exactly when it holds
of every step. -/
theorem stretches_iff_everyStep {R : σ → σ → Prop} (hrefl : ∀ s, R s s)
    (htrans : ∀ s t u, R s t → R t u → R s u) (s : σ) (es : List ε) :
    (∀ pre mid post t u, es = pre ++ mid ++ post → run step s pre = some t →
      run step t mid = some u → R t u) ↔ EveryStep step (fun t _ u => R t u) s es := by
  constructor
  · intro hstretch pre e post t t' heq hrun hstep
    exact hstretch pre [e] post t t' (by simpa using heq) hrun
      (run_cons_eq_some.mpr ⟨t', hstep, rfl⟩)
  · intro hevery pre mid post t u heq hrun hmid
    induction mid generalizing pre t with
    | nil =>
      cases hmid
      exact hrefl _
    | cons e mid ih =>
      obtain ⟨v, hstep, hrest⟩ := run_cons_eq_some.mp hmid
      apply htrans t v u
      · exact hevery pre e (mid ++ post) t v (by simpa using heq) hrun hstep
      · exact ih (pre ++ [e]) v (by simpa using heq) (run_append_singleton hrun hstep) hrest

/-- Drop the events a second run does not take: a relation that the kept events move
on both sides and the dropped ones on the left relates the two ends. -/
theorem related_of_filtered_run (R : σ → σ → Prop) (keep : ε → Bool)
    (hkeep : ∀ s t e s' t', R s t → guard s e → keep e = true → step s e = some s' →
      step t e = some t' → R s' t')
    (hdrop : ∀ s t e s', R s t → guard s e → keep e = false → step s e = some s' → R s' t)
    {t t' : σ} (hR : R s t) (hguard : Guarded step guard s es)
    (hrun : run step s es = some s') (hrun' : run step t (es.filter keep) = some t') : R s' t' := by
  induction es generalizing s t with
  | nil =>
    cases hrun
    cases hrun'
    exact hR
  | cons e es ih =>
    obtain ⟨u, hstep, hrest⟩ := run_cons_eq_some.mp hrun
    obtain ⟨hg, hgs⟩ := (guarded_cons_of_step hstep).mp hguard
    cases hk : keep e with
    | true =>
      rw [List.filter_cons_of_pos hk] at hrun'
      obtain ⟨w, hstep', hrest'⟩ := run_cons_eq_some.mp hrun'
      exact ih (hkeep s t e u w hR hg hk hstep hstep') hgs hrest hrest'
    | false =>
      rw [List.filter_cons_of_neg (by simp [hk])] at hrun'
      exact ih (hdrop s t e u hR hg hk hstep) hgs hrest hrun'

end Runs

end Transition
