import TinyAgentOS.Library.Transition
import TinyAgentOS.Userspace.Broker

/-!
# The store of userspace apps

An install over an installed app replaces what the app declares and keeps what it is granted,
so that a grant can outlast the manifest that declared it.  Installs, grants and uninstalls
overlap: a grant is checked against the row that was read and written over the row of then.

Main results:

- `AppTables.step_cases`: what a statement does to the rows.
- `AppTables.grantLaw_of_run`: every grant was declared since the app's row was created, and a
  gated capability is used by grant alone.
-/

namespace TinyAgentOS.Userspace

open Collections Transition

/-! ## Installs -/

/-- The arguments of `UserspaceAppStore.install`. -/
structure AppInstall where
  appId : String
  name : String
  version : String
  appType : String
  entry : String
  icon : String
  permissionsRequested : List String
  trust : String
  provenance : String

/-- The row that the insert leaves, over the row that was there. -/
def AppInstall.row (a : AppInstall) (now : Int) : Option AppRow → AppRow
  | none =>
    { name := a.name
      version := a.version
      appType := a.appType
      entry := a.entry
      icon := a.icon
      permissionsRequested := a.permissionsRequested
      permissionsGranted := []
      enabled := true
      installedAt := now
      trust := a.trust
      provenance := a.provenance }
  | some row =>
    { row with
      name := a.name
      version := a.version
      appType := a.appType
      entry := a.entry
      icon := a.icon
      permissionsRequested := a.permissionsRequested
      trust := a.trust
      provenance := a.provenance }

theorem AppInstall.permissionsGranted_row (a : AppInstall) (now : Int) (old : Option AppRow) :
    (a.row now old).permissionsGranted = (old.map AppRow.permissionsGranted).getD [] := by
  cases old <;> rfl

/-- `_PUBLIC_PROVENANCES`. -/
def publicProvenances : List String :=
  ["ai-generated", "user-uploaded"]

/-- The install of the public endpoint, whatever provenance it is called with. -/
def AppInstall.community (a : AppInstall) (provenance : String) : AppInstall :=
  { a with
    trust := "community"
    provenance := if provenance ∈ publicProvenances then provenance else "user-uploaded" }

/-- The install of a bundled app. -/
def AppInstall.firstParty (a : AppInstall) : AppInstall :=
  { a with
    trust := "first-party"
    provenance := "first-party" }

/-! ## Statements -/

/-- Where a call stands. -/
inductive AppCall where
  /-- The install may write its row. -/
  | installing (a : AppInstall)
  /-- `set_permissions` has kept what the row it read declares. -/
  | granting (appId : String) (safe : List String)
  | done

/-- The statements of the calls. -/
inductive AppStatement where
  | installCalled (id : Nat) (a : AppInstall) (provenance : String)
  | seedCalled (id : Nat) (a : AppInstall)
  | installed (id : Nat) (now : Int)
  | permissionsCalled (id : Nat) (appId : String) (granted : List String)
  | permissionsSet (id : Nat)
  | uninstalled (appId : String)

/-- The rows and the calls. -/
structure AppTables where
  rows : Dict String AppRow
  calls : Dict Nat AppCall

namespace AppTables

/-- Empty tables. -/
def init : AppTables := ⟨Dict.empty, Dict.empty⟩

def goOn (s : AppTables) (id : Nat) (call : AppCall) : AppTables :=
  { s with calls := s.calls.set id call }

/-- One statement. -/
def step (s : AppTables) : AppStatement → Option AppTables
  | .installCalled id a provenance =>
    if (s.calls.get? id).isSome then none
    else
      match s.rows.get? a.appId with
      | none => some (s.goOn id (.installing (a.community provenance)))
      | some row =>
        if row.trust = "first-party" then some (s.goOn id .done)
        else some (s.goOn id (.installing (a.community provenance)))
  | .seedCalled id a =>
    if (s.calls.get? id).isSome then none
    else
      match s.rows.get? a.appId with
      | none => some (s.goOn id (.installing a.firstParty))
      | some row =>
        if row.version = a.version ∧ row.trust = "first-party" then some (s.goOn id .done)
        else some (s.goOn id (.installing a.firstParty))
  | .installed id now =>
    match s.calls.get? id with
    | some (.installing a) =>
      some
        { s.goOn id .done with
          rows := s.rows.set a.appId (a.row now (s.rows.get? a.appId)) }
    | _ => none
  | .permissionsCalled id appId granted =>
    if (s.calls.get? id).isSome then none
    else
      match s.rows.get? appId with
      | none => some (s.goOn id .done)
      | some row =>
        some (s.goOn id
          (.granting appId (granted.filter fun p => p ∈ row.permissionsRequested)))
  | .permissionsSet id =>
    match s.calls.get? id with
    | some (.granting appId safe) =>
      some
        { s.goOn id .done with
          rows := s.rows.modify appId fun row => { row with permissionsGranted := safe } }
    | _ => none
  | .uninstalled appId => some { s with rows := s.rows.pop appId }

/-- A call goes on without a write; grants are kept to what a row declares. -/
def Reads (s s' : AppTables) : Prop :=
  ∃ id call, s' = s.goOn id call ∧ ∀ appId safe, call = .granting appId safe →
    ∃ row, s.rows.get? appId = some row ∧ ∀ p ∈ safe, p ∈ row.permissionsRequested

variable {s : AppTables} {es : List AppStatement}

variable {e : AppStatement} {s' : AppTables}

/-- What a statement does to the rows. -/
theorem step_cases (hstep : s.step e = some s') : s.Reads s' ∨
    (∃ id now, ∃ a : AppInstall, s' = { s.goOn id .done with
      rows := s.rows.set a.appId (a.row now (s.rows.get? a.appId)) }) ∨
    (∃ id appId safe, s.calls.get? id = some (.granting appId safe) ∧
      s' = { s.goOn id .done with
        rows := s.rows.modify appId fun row => { row with permissionsGranted := safe } }) ∨
    ∃ appId, s' = { s with rows := s.rows.pop appId } := by
  have hreads : ∀ id call, (∀ appId safe, call ≠ .granting appId safe) →
      s.Reads (s.goOn id call) := by
    intro id call hcall
    exact ⟨id, call, rfl, fun appId safe heq => absurd heq (hcall appId safe)⟩
  cases e with
  | installCalled id a provenance | seedCalled id a =>
    left
    simp only [step] at hstep
    split at hstep
    · contradiction
    split at hstep
    · cases hstep
      exact hreads id _ nofun
    · split at hstep <;> (cases hstep; exact hreads id _ nofun)
  | installed id now =>
    right
    left
    simp only [step] at hstep
    split at hstep
    · rename_i a _
      cases hstep
      exact ⟨id, now, a, rfl⟩
    · contradiction
  | permissionsCalled id appId granted =>
    left
    simp only [step] at hstep
    split at hstep
    · contradiction
    split at hstep
    · cases hstep
      exact hreads id _ nofun
    · rename_i row hget
      cases hstep
      refine ⟨id, _, rfl, ?_⟩
      intro appId' safe heq
      cases heq
      exact ⟨row, hget, fun p hp => by simpa using (List.mem_filter.mp hp).2⟩
  | permissionsSet id =>
    right
    right
    left
    simp only [step] at hstep
    split at hstep
    · rename_i appId safe hcall
      cases hstep
      exact ⟨id, appId, safe, hcall, rfl⟩
    · contradiction
  | uninstalled appId =>
    cases hstep
    exact Or.inr (Or.inr (Or.inr ⟨appId, rfl⟩))

/-! ## Grants -/

/-- No app is uninstalled between the read and the write of a `set_permissions` call on it. -/
def unhurried (s : AppTables) : AppStatement → Bool
  | .uninstalled appId =>
    s.calls.values.all fun call =>
      match call with
      | .granting other _ => other ≠ appId
      | _ => true
  | _ => true

/-- A manifest that was installed under the id since the row there was created declares the
permission. -/
def Declared (es : List AppStatement) (appId p : String) : Prop :=
  ∃ pre post t row, es = pre ++ post ∧ .uninstalled appId ∉ post ∧
    run step init pre = some t ∧ t.rows.get? appId = some row ∧ p ∈ row.permissionsRequested

theorem Declared.append {appId p : String} (h : Declared es appId p)
    (hstays : e ≠ .uninstalled appId) : Declared (es ++ [e]) appId p := by
  obtain ⟨pre, post, t, row, rfl, hkept, hrun, hget, hp⟩ := h
  refine ⟨pre, post ++ [e], t, row, List.append_assoc pre post [e], ?_, hrun, hget, hp⟩
  simp [hkept, hstays.symm]

/-- What is granted, or is to be granted, was declared. -/
structure GrantsDeclared (es : List AppStatement) (s : AppTables) : Prop where
  rows : ∀ appId row, s.rows.get? appId = some row →
    ∀ p ∈ row.permissionsGranted, Declared es appId p
  calls : ∀ id appId safe, s.calls.get? id = some (.granting appId safe) →
    ∀ p ∈ safe, Declared es appId p

theorem grantsDeclared_init : GrantsDeclared [] init := by
  constructor
  · intro appId row hget
    contradiction
  · intro id appId safe hget
    contradiction

/-- A call that goes on leaves the other calls as they are. -/
theorem GrantsDeclared.goOn (h : s.GrantsDeclared es) {id : Nat} {call : AppCall}
    (hcall : ∀ appId safe, call = .granting appId safe → ∀ p ∈ safe, Declared es appId p) :
    (s.goOn id call).GrantsDeclared es := by
  refine ⟨h.rows, ?_⟩
  intro id' appId safe hget
  rcases Dict.get?_set_cases hget with ⟨_, heq⟩ | ⟨_, hold⟩
  · exact hcall appId safe heq
  · exact h.calls id' appId safe hold

theorem GrantsDeclared.done (h : s.GrantsDeclared es)
    (id : Nat) : (s.goOn id .done).GrantsDeclared es :=
  h.goOn nofun

/-- A statement that leaves a row of an app, or a grant for it under way, did not uninstall it. -/
theorem stays_of_unhurried (hguard : s.unhurried e = true)
    (hstep : s.step e = some s') {appId : String} (hrow : (s'.rows.get? appId).isSome = true ∨
      ∃ id safe, s'.calls.get? id = some (.granting appId safe)) :
    e ≠ .uninstalled appId := by
  rintro rfl
  cases hstep
  rcases hrow with hrow | ⟨id, safe, hcall⟩
  · simp at hrow
  · have hother := List.all_eq_true.mp hguard _ (Dict.mem_values_iff.mpr ⟨id, hcall⟩)
    simp at hother

/-- Every statement keeps the grants declared. -/
theorem grantsDeclared_step
    (hrun : run step init es = some s) (h : s.GrantsDeclared es) (hguard : s.unhurried e = true)
    (hstep : s.step e = some s') : s'.GrantsDeclared (es ++ [e]) := by
  suffices hbefore : s'.GrantsDeclared es by
    constructor
    · intro appId row hget p hp
      have hstays := stays_of_unhurried hguard hstep (Or.inl (Option.isSome_of_eq_some hget))
      exact (hbefore.rows appId row hget p hp).append hstays
    · intro id appId safe hget p hp
      have hstays := stays_of_unhurried hguard hstep (Or.inr ⟨id, safe, hget⟩)
      exact (hbefore.calls id appId safe hget p hp).append hstays
  rcases step_cases hstep with ⟨id, call, rfl, hcall⟩ | ⟨id, now, a, rfl⟩ |
    ⟨id, appId, safe, hget, rfl⟩ | ⟨appId, rfl⟩
  · apply h.goOn
    intro appId safe heq p hp
    obtain ⟨row, hrow, hsafe⟩ := hcall appId safe heq
    exact ⟨es, [], s, row, (List.append_nil es).symm, List.not_mem_nil, hrun, hrow, hsafe p hp⟩
  · refine ⟨?_, (h.done id).calls⟩
    intro appId row hrow p hp
    rcases Dict.get?_set_cases hrow with ⟨rfl, rfl⟩ | ⟨_, hold⟩
    · rw [AppInstall.permissionsGranted_row] at hp
      cases hold : s.rows.get? a.appId with
      | none =>
        rw [hold] at hp
        contradiction
      | some old =>
        rw [hold] at hp
        exact h.rows a.appId old hold p hp
    · exact h.rows appId row hold p hp
  · refine ⟨?_, (h.done id).calls⟩
    intro appId' row hrow p hp
    rcases Dict.get?_modify_cases hrow with ⟨rfl, old, _, rfl⟩ | ⟨_, hold⟩
    · exact h.calls id appId safe hget p hp
    · exact h.rows appId' row hold p hp
  · refine ⟨?_, h.calls⟩
    intro appId' row hrow
    exact h.rows appId' row (Dict.get?_pop_cases hrow).2

/-- In a run without an uninstall inside a `set_permissions` call the grants are declared. -/
theorem grantsDeclared_of_run (es : List AppStatement) (s : AppTables)
    (hguard : Guarded step (fun t e => t.unhurried e = true) init es)
    (hrun : run step init es = some s) : s.GrantsDeclared es := by
  induction es using List.reverseRecOn generalizing s with
  | nil =>
    cases hrun
    exact grantsDeclared_init
  | append_singleton es e ih =>
    rw [run_append] at hrun
    obtain ⟨t, hbefore, hlast⟩ := Option.bind_eq_some_iff.mp hrun
    obtain ⟨t', hstep, hend⟩ := run_cons_eq_some.mp hlast
    cases hend
    have hunhurried := guard_of_guarded_append hguard hbefore
    exact grantsDeclared_step hbefore (ih t (guarded_of_append hguard) hbefore) hunhurried hstep

/-- What the grants of an app are worth. -/
structure GrantLaw (es : List AppStatement) (s : AppTables) : Prop where
  declared : ∀ appId row, s.rows.get? appId = some row →
    ∀ p ∈ row.permissionsGranted, Declared es appId p
  used : ∀ {ρ : Type} (perform : Operation → Dict String Json.Value → ρ) appId row,
    s.rows.get? appId = some row → ∀ ledger capability args,
      namespaceOf capability ∈ gatedCaps →
      namespaceOf capability ∉ capabilityCeiling row.tier →
      Dispatches perform row ledger capability args →
      (namespaceOf capability ∈ row.permissionsGranted ∧
        Declared es appId (namespaceOf capability)) ∨
      namespaceOf capability ∈ ledger.getD []

/-- A disabled app has no calls. -/
theorem enabled_of_dispatches {ρ : Type} {perform : Operation → Dict String Json.Value → ρ}
    {row : AppRow} {ledger : Option (List String)} {capability : String}
    {args : Dict String Json.Value} (h : Dispatches perform row ledger capability args) :
    row.enabled = true := by
  obtain ⟨answer, hanswer, _⟩ := h
  by_contra hdisabled
  simp [broker, hdisabled] at hanswer

/-- In a run that uninstalls no app between the read and the write of a `set_permissions` call on
it, every grant was declared by a manifest installed under the id since the row was created, and
a gated capability beyond the ceiling is used by grant alone. -/
theorem grantLaw_of_run (es : List AppStatement) (s : AppTables)
    (hguard : Guarded step (fun t e => t.unhurried e = true) init es)
    (hrun : run step init es = some s) : s.GrantLaw es := by
  have hgrants := grantsDeclared_of_run es s hguard hrun
  refine ⟨hgrants.rows, ?_⟩
  intro ρ perform appId row hget ledger capability args hgated hceiling hdispatched
  have henabled := enabled_of_dispatches hdispatched
  have hguard := ((dispatched_iff perform henabled ledger capability args).mp hdispatched).2 hgated
  rcases List.mem_append.mp (hguard.resolve_left hceiling) with hgranted | hledger
  · exact Or.inl ⟨hgranted, hgrants.rows appId row hget _ hgranted⟩
  · exact Or.inr hledger

/-- The install of a version of an app. -/
def version (id : Nat) (number : String) (permissions : List String) : List AppStatement :=
  [.installCalled id
      { appId := "todo"
        name := "Todo"
        version := number
        appType := "web"
        entry := "index.html"
        icon := ""
        permissionsRequested := permissions
        trust := ""
        provenance := "" } "user-uploaded",
    .installed id 0]

/-- An app declares a capability and is granted it; the next version does not declare it. -/
def narrowed : List AppStatement :=
  version 0 "1.0.0" ["app.net"] ++ [.permissionsCalled 1 "todo" ["app.net"], .permissionsSet 1] ++
    version 2 "2.0.0" []

/-- The grant law where an app is uninstalled before the run that narrows it. -/
theorem grantLaw_narrowed :
    ∃ s, run step init (version 3 "0.9.0" [] ++ .uninstalled "todo" :: narrowed) = some s ∧
      s.GrantLaw (version 3 "0.9.0" [] ++ .uninstalled "todo" :: narrowed) :=
  ⟨_, rfl, grantLaw_of_run _ _ (by decide) rfl⟩

/-- The grants are within what the current manifest declares, and what is used beyond the
ceiling is declared by it and granted. -/
def WithinDeclared (s : AppTables) : Prop :=
  ∀ appId row, s.rows.get? appId = some row →
    row.permissionsGranted ⊆ row.permissionsRequested ∧
      ∀ ledger capability args, namespaceOf capability ∉ capabilityCeiling row.tier →
        Dispatches (fun _ _ => ()) row ledger capability args →
        namespaceOf capability ∈ row.permissionsRequested ∧
          namespaceOf capability ∈ row.grants ledger

/-- The grant outlasts the manifest that declared it. -/
theorem not_withinDeclared :
    ∃ s, run step init narrowed = some s ∧ ¬ s.WithinDeclared := by
  refine ⟨_, rfl, ?_⟩
  intro h
  have hsub := (h "todo" _ rfl).1
  exact absurd (hsub (List.mem_singleton_self "app.net")) List.not_mem_nil

end AppTables

end TinyAgentOS.Userspace
