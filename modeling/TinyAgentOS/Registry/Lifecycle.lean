import TinyAgentOS.Registry.AgentRegistry

/-!
# The life cycle of agents

Registrations, transitions, revocations and updates interleave statement by statement.  A
transition is written only where the status is the one that was checked, and a revocation
only where none is recorded.

Main results:

- `RegistryState.lifeCycle`: in every run an agent is revoked exactly when the instant of its
  revocation is recorded, both are final, and every change of a status is in the table of
  transitions.
-/

namespace TinyAgentOS.Registry

open Collections Transition

/-- The agent is revoked exactly when the instant of its revocation is recorded. -/
def Agent.Consistent (row : Agent) : Prop := row.status = .revoked ↔ row.revokedAt.isSome = true

/-- The life of an agent goes on: its status stays, with what is recorded, or makes a transition
of the table. -/
def Agent.Follows (row row' : Agent) : Prop :=
  row'.status = row.status ∧ row'.revokedAt = row.revokedAt ∨
    (row.status, row'.status) ∈ validTransitions

/-- No transition leads out of `revoked`. -/
theorem revoked_terminal (after : Status) : (Status.revoked, after) ∉ validTransitions := by
  cases after <;> decide

/-- Every other status may be revoked. -/
theorem revocable {before : Status} (h : before ≠ .revoked) :
    (before, Status.revoked) ∈ validTransitions := by
  cases before with
  | revoked => exact absurd rfl h
  | _ => decide

/-- A transition that passes the check is in the table. -/
theorem mem_of_assertValidTransition {before after : Status} {text : String}
    (h : assertValidTransition before text = .ok after) : (before, after) ∈ validTransitions := by
  unfold assertValidTransition at h
  split at h
  · contradiction
  split at h
  · rename_i hmem
    cases h
    exact hmem
  · contradiction

namespace RegistryState

/-- Every agent is consistent, and every transition that awaits its write is in the table. -/
structure Lawful (s : RegistryState) : Prop where
  agents : ∀ canonicalId row, s.agents.get? canonicalId = some row → row.Consistent
  calls : ∀ id canonicalId before after now,
    s.calls.get? id = some (.settingStatus canonicalId before after now) →
      (before, after) ∈ validTransitions

/-- The empty store is lawful. -/
theorem lawful_init : init.Lawful := by
  constructor
  · intro canonicalId row hget
    contradiction
  · intro id canonicalId before after now hcall
    contradiction

/-! ## Statements -/

/-- A new agent is consistent. -/
theorem consistent_agent (args : RegisterArgs) (now : Datetime) : (args.agent now).Consistent := by
  unfold Agent.Consistent RegisterArgs.agent
  split <;> simp

variable {row : Agent} {after before : Status} {e : RegistryEvent} {canonicalId : String}
  {s s' : RegistryState} {now : Datetime} {x : Nat}

/-- A transition of the table keeps an agent consistent. -/
theorem consistent_movedTo (h : row.Consistent)
    (hmove : (row.status, after) ∈ validTransitions) (now : Datetime) :
    (row.movedTo after now).Consistent := by
  have hbefore : row.status ≠ .revoked := by
    intro heq
    rw [heq] at hmove
    exact revoked_terminal after hmove
  have hnull : row.revokedAt = none := by
    have hnot : ¬row.revokedAt.isSome = true := fun hsome => hbefore (h.mpr hsome)
    simpa using hnot
  unfold Agent.Consistent Agent.movedTo
  by_cases hafter : after = .revoked
  · simp [hafter, hnull]
  · simp [hafter, hnull]

/-- A revoked agent is consistent. -/
theorem consistent_revokedBy (row : Agent) (now : Datetime) : (row.revokedBy now).Consistent := by
  simp [Agent.Consistent, Agent.revokedBy]

/-- A row that is written over another carries its life on. -/
theorem Lawful.rewrite (h : s.Lawful) {row' : Agent} (hget : s.agents.get? canonicalId = some row)
    (hrow : Rewrite s canonicalId row e row') : row'.Consistent ∧ row.Follows row' := by
  have hbefore := h.agents canonicalId row hget
  cases hrow with
  | status hcall =>
    have hmove := h.calls _ canonicalId _ _ _ hcall
    exact ⟨consistent_movedTo hbefore hmove _, Or.inr hmove⟩
  | revoke hnull =>
    refine ⟨consistent_revokedBy row _, Or.inr (revocable ?_)⟩
    intro hrevoked
    have hsome := hbefore.mp hrevoked
    rw [hnull] at hsome
    contradiction
  | update | reporting => exact ⟨hbefore, Or.inl ⟨rfl, rfl⟩⟩

/-- A call that writes a status is the one that goes on, or was there. -/
theorem settingStatus_of_goOn {id : Nat} {call : RegistryCall}
    (hget : (s.goOn id call).calls.get? x = some (.settingStatus canonicalId before after now)) :
    call = .settingStatus canonicalId before after now ∨
      s.calls.get? x = some (.settingStatus canonicalId before after now) := by
  rcases Dict.get?_set_cases hget with ⟨_, hnew⟩ | ⟨_, hold⟩
  · exact Or.inl hnew
  · exact Or.inr hold

/-- A write leaves no new call that writes a status. -/
theorem settingStatus_of_write {id : Nat} {written : String}
    (hget : (s.write id written row).calls.get? x =
      some (.settingStatus canonicalId before after now)) :
    s.calls.get? x = some (.settingStatus canonicalId before after now) := by
  unfold write at hget
  split at hget
  · rcases settingStatus_of_goOn hget with hnew | hold
    · contradiction
    · exact hold
  · rcases settingStatus_of_goOn hget with hnew | hold
    · contradiction
    · exact hold

/-- A transition that awaits its write has been found valid. -/
theorem Lawful.call (h : s.Lawful) (hstep : s.step e = some s')
    (hget : s'.calls.get? x = some (.settingStatus canonicalId before after now)) :
    (before, after) ∈ validTransitions := by
  have hold : ∀ {id call}, s' = s.goOn id call →
      (∀ name b a t, call ≠ .settingStatus name b a t) → (before, after) ∈ validTransitions := by
    rintro id call rfl hcall
    rcases settingStatus_of_goOn hget with hnew | hbefore
    · exact absurd hnew (hcall _ _ _ _)
    · exact h.calls x canonicalId before after now hbefore
  cases e with
  | registerCalled id args now' =>
    simp only [step] at hstep
    split at hstep
    · contradiction
    cases hstep
    refine hold rfl fun _ _ _ _ => ?_
    unfold registerCall
    dsimp only
    split <;> simp
  | probed id =>
    simp only [step] at hstep
    split at hstep
    · split at hstep <;> (cases hstep; exact hold rfl fun _ _ _ _ => by simp)
    · contradiction
  | inserted id =>
    simp only [step] at hstep
    split at hstep
    · split at hstep
      · cases hstep
        exact hold rfl fun _ _ _ _ => by simp
      · cases hstep
        rcases settingStatus_of_goOn (s := s) hget with hnew | hbefore
        · contradiction
        · exact h.calls x canonicalId before after now hbefore
    · contradiction
  | statusRead id canonicalId' newStatus now' =>
    simp only [step] at hstep
    split at hstep
    · contradiction
    cases hstep
    rcases settingStatus_of_goOn hget with hnew | hbefore
    · unfold statusCall at hnew
      split at hnew
      · contradiction
      split at hnew
      · contradiction
      rename_i hvalid
      cases hnew
      exact mem_of_assertValidTransition hvalid
    · exact h.calls x canonicalId before after now hbefore
  | statusWritten id | revokeWritten id | updateWritten id =>
    simp only [step] at hstep
    split at hstep
    · split at hstep
      · cases hstep
        exact hold rfl fun _ _ _ _ => by simp
      · cases hstep
        exact h.calls x canonicalId before after now (settingStatus_of_write hget)
    · contradiction
  | revokeRead id canonicalId' now' =>
    simp only [step] at hstep
    split at hstep
    · contradiction
    cases hstep
    refine hold rfl fun _ _ _ _ => ?_
    unfold revokeCall
    split
    · simp
    · split <;> simp
  | updateRead id canonicalId' patch =>
    simp only [step] at hstep
    split at hstep
    · contradiction
    cases hstep
    refine hold rfl fun _ _ _ _ => ?_
    unfold updateCall
    split
    · simp
    · split <;> simp
  | reportingSet canonicalId' reportsTo =>
    cases hstep
    apply h.calls x canonicalId before after now
    unfold setReporting at hget
    split at hget
    · exact hget
    · split at hget <;> exact hget

/-- Every statement keeps the store lawful. -/
theorem Lawful.step (h : s.Lawful) (hstep : s.step e = some s') : s'.Lawful := by
  refine ⟨?_, fun _ _ _ _ _ hget => h.call hstep hget⟩
  intro x row hget
  cases effect_of_step hstep with
  | none hagents _ =>
    rw [hagents] at hget
    exact h.agents x row hget
  | rewrite hbefore hrow hagents _ =>
    rw [hagents] at hget
    rcases Dict.get?_set_cases hget with ⟨_, rfl⟩ | ⟨_, hold⟩
    · exact (h.rewrite hbefore hrow).1
    · exact h.agents x row hold
  | insert _ _ hagents _ =>
    rw [hagents] at hget
    rcases Dict.get?_set_cases hget with ⟨_, rfl⟩ | ⟨_, hold⟩
    · exact consistent_agent _ _
    · exact h.agents x row hold

/-- No statement takes an agent away, and each carries its life on. -/
theorem Lawful.follows (h : s.Lawful) (hstep : s.step e = some s')
    (hget : s.agents.get? canonicalId = some row) :
    ∃ row', s'.agents.get? canonicalId = some row' ∧ row.Follows row' := by
  cases effect_of_step hstep with
  | none hagents _ => exact ⟨row, by rw [hagents, hget], Or.inl ⟨rfl, rfl⟩⟩
  | @rewrite _ _ written before row' hbefore hrow hagents _ =>
    rw [hagents, Dict.get?_set]
    by_cases hx : written = canonicalId
    · subst hx
      rw [hget] at hbefore
      cases hbefore
      exact ⟨row', if_pos rfl, (h.rewrite hget hrow).2⟩
    · exact ⟨row, by rw [if_neg hx, hget], Or.inl ⟨rfl, rfl⟩⟩
  | @insert _ _ _ slug now tries _ hfree hagents _ =>
    rw [hagents, Dict.get?_set]
    by_cases hx : candidate slug now tries = canonicalId
    · subst hx
      rw [hget] at hfree
      contradiction
    · exact ⟨row, by rw [if_neg hx, hget], Or.inl ⟨rfl, rfl⟩⟩

/-! ## Runs -/

/-- The agents revoked in one state are so in the other, since the same instant. -/
def StayRevoked (s s' : RegistryState) : Prop :=
  ∀ canonicalId row, s.agents.get? canonicalId = some row → row.status = .revoked →
    ∃ row', s'.agents.get? canonicalId = some row' ∧ row'.status = .revoked ∧
      row'.revokedAt = row.revokedAt

theorem StayRevoked.refl (s : RegistryState) : s.StayRevoked s :=
  fun _ row hget hrevoked => ⟨row, hget, hrevoked, rfl⟩

theorem StayRevoked.trans {t u : RegistryState} (hst : s.StayRevoked t) (htu : t.StayRevoked u) :
    s.StayRevoked u := by
  intro canonicalId row hget hrevoked
  obtain ⟨row', hget', hrevoked', hsince'⟩ := hst canonicalId row hget hrevoked
  obtain ⟨row'', hget'', hrevoked'', hsince''⟩ := htu canonicalId row' hget' hrevoked'
  exact ⟨row'', hget'', hrevoked'', hsince''.trans hsince'⟩

/-- In a lawful store the revoked stay so. -/
theorem Lawful.stayRevoked (h : s.Lawful) (hstep : s.step e = some s') : s.StayRevoked s' := by
  intro canonicalId row hget hrevoked
  obtain ⟨row', hget', ⟨hstatus, hsince⟩ | hmove⟩ := h.follows hstep hget
  · exact ⟨row', hget', hstatus.trans hrevoked, hsince⟩
  · rw [hrevoked] at hmove
    exact absurd hmove (revoked_terminal _)

/-- An agent is revoked exactly when an instant is recorded, both are final, and every change of
a status is a valid transition. -/
structure LifeCycle (es : List RegistryEvent) : Prop where
  consistent : ∀ pre post s, es = pre ++ post → run step init pre = some s →
    ∀ canonicalId row, s.agents.get? canonicalId = some row →
      (row.status = .revoked ↔ row.revokedAt.isSome = true)
  final : ∀ pre mid post t u, es = pre ++ mid ++ post → run step init pre = some t →
    run step t mid = some u → t.StayRevoked u
  transitions : EveryStep step
    (fun t _ u => ∀ canonicalId row row', t.agents.get? canonicalId = some row →
      u.agents.get? canonicalId = some row' → row'.status ≠ row.status →
        (row.status, row'.status) ∈ validTransitions) init es

/-- Every run keeps the life cycle. -/
theorem lifeCycle (es : List RegistryEvent) : LifeCycle es := by
  have hkeep : ∀ s e s', Lawful s → step s e = some s' → Lawful s' :=
    fun _ _ _ h hstep => h.step hstep
  refine ⟨?_, ?_, ?_⟩
  · intro pre post s _ hrun
    exact (invariant_of_run hkeep lawful_init hrun).agents
  · apply (stretches_iff_everyStep StayRevoked.refl (fun _ _ _ => StayRevoked.trans) init es).mpr
    exact everyStep_of_invariant hkeep (fun _ _ _ h hstep => h.stayRevoked hstep) lawful_init es
  · refine everyStep_of_invariant hkeep ?_ lawful_init es
    intro t e u h hstep canonicalId row row' hget hget' hne
    obtain ⟨row'', hget'', ⟨hstatus, _⟩ | hmove⟩ := h.follows hstep hget
    · rw [hget''] at hget'
      cases hget'
      exact absurd hstatus hne
    · rw [hget''] at hget'
      cases hget'
      exact hmove

end RegistryState

end TinyAgentOS.Registry
