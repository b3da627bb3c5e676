import TinyAgentOS.Library.Dict
import TinyAgentOS.Library.Transition
import Mathlib.Data.List.Sort
import Mathlib.Data.Rat.Defs
import Mathlib.Order.Bounds.Basic

/-!
# The secrets broker

An agent requests a grant, and the user approves it for a window of time, denies it or
revokes it.  An approval reads the grant, and in a later statement writes it active whatever
it is by then.  Its window is a float, capped by a comparison that a NaN passes, and the
instant computed from a NaN is stored as `NULL`.

Main results:

- `BrokerState.change_of_step`: what one statement does to a grant.
- `BrokerState.Books.trustworthy_iff`: the answers of the broker against the instants of its
  grants.
- `BrokerState.consent_kept_iff`: the runs without a late approval and without a NaN.
- `BrokerState.not_consent_kept`: a denied grant becomes active, and one never expires.
-/

namespace TinyAgentOS.Broker

open Collections Transition

/-! ## Providers -/

/-- `kind` of a provider. -/
inductive ProviderKind where
  | mcp
  | httpProxy
deriving DecidableEq

structure Provider where
  id : String
  kind : ProviderKind
  defaultScopes : List String

/-- `_PROVIDER_LIST`. -/
def providerList : List Provider :=
  [⟨"exa", .mcp, ["search"]⟩,
    ⟨"tavily", .mcp, ["search"]⟩,
    ⟨"github", .mcp, ["repos:read", "prs:read", "issues:read"]⟩,
    ⟨"firecrawl", .mcp, ["scrape", "crawl"]⟩,
    ⟨"brave", .mcp, ["search"]⟩,
    ⟨"jina", .mcp, ["reader", "embeddings"]⟩,
    ⟨"openai", .httpProxy, ["chat", "embeddings"]⟩]

def getProvider (providerId : String) : Option Provider :=
  providerList.find? fun p => p.id = providerId

/-! ## Grants -/

inductive GrantStatus where
  | pending
  | active
  | denied
  | revoked
  | expired
deriving DecidableEq

/-- A row of `broker_grants`; instants are in seconds. -/
structure Grant where
  agentIdentity : String
  providerId : String
  scopes : List String
  status : GrantStatus
  grantedAt : Option Rat
  expiresAt : Option Rat
  createdRequestId : Option String
  note : Option String

/-- A row of `broker_virtual_creds`. -/
structure VirtualCred where
  grantId : String
  createdAt : Rat

/-- A float that is given for `window_seconds`. -/
inductive Window where
  | finite (seconds : Rat)
  | infinite
  | negInfinite
  | nan

/-- `MAX_WINDOW_SECONDS`. -/
def maxWindowSeconds : Rat := 7 * 24 * 3600

/-- The check of the window and `min` with the maximum, both of which a NaN passes. -/
def Window.capped : Window → Except String (Option Rat)
  | .finite seconds =>
    if seconds ≤ 0 then .error "window_seconds must be > 0"
    else .ok (some (min seconds maxWindowSeconds))
  | .infinite => .ok (some maxWindowSeconds)
  | .negInfinite => .error "window_seconds must be > 0"
  | .nan => .ok none

theorem Window.capped_le {w : Window} {seconds : Rat} (hcapped : w.capped = .ok (some seconds)) :
    seconds ≤ maxWindowSeconds := by
  cases w with
  | finite q =>
    simp only [Window.capped] at hcapped
    split at hcapped
    · contradiction
    cases hcapped
    exact min_le_right q maxWindowSeconds
  | infinite =>
    cases hcapped
    exact le_refl _
  | negInfinite => contradiction
  | nan => simp [Window.capped] at hcapped

/-- The `SET` clauses of `approve`; a NaN is stored as `NULL`. -/
def Grant.approve (g : Grant) (now : Rat) (window : Option Rat) : Grant :=
  { g with
    status := .active
    grantedAt := some now
    expiresAt := window.map fun seconds => now + seconds }

/-- A status alone is written. -/
def Grant.withStatus (g : Grant) (status : GrantStatus) : Grant :=
  { g with status := status }

/-- The grant is active and its `expires_at` has passed. -/
def Grant.isOver (g : Grant) (now : Rat) : Bool :=
  g.status = .active && g.expiresAt.any fun t => t ≤ now

/-- `sweep_expired` on one row. -/
def Grant.sweep (g : Grant) (now : Rat) : Grant :=
  if g.isOver now then g.withStatus .expired else g

/-- The `WHERE` clause of `find_active_grant`. -/
def Grant.serves (g : Grant) (agentIdentity providerId : String) (now : Rat) : Bool :=
  g.agentIdentity = agentIdentity && g.providerId = providerId && g.status = .active &&
    g.expiresAt.all fun t => now < t

/-- `ORDER BY granted_at DESC`; `NULL` is smaller than any instant. -/
def Grant.before (g h : Grant) : Bool :=
  match h.grantedAt, g.grantedAt with
  | none, _ => true
  | some _, none => false
  | some t, some u => t ≤ u

/-! ## Statements -/

/-- Where a call stands. -/
inductive BrokerCall where
  /-- `approve` has found the grant pending. -/
  | approving (grantId : String) (now : Rat) (window : Option Rat) (providerId : String)
  /-- `approve` is to mint a token. -/
  | minting (grantId : String)
  /-- `revoke` is to delete the tokens. -/
  | clearing (grantId : String)

/-- The statements of the calls. -/
inductive BrokerEvent where
  | requested (grantId agentIdentity providerId : String) (scopes : Option (List String))
      (requestId reason : Option String)
  | approveRead (id : Nat) (grantId : String) (windowSeconds : Window) (now : Rat)
  | approved (id : Nat)
  | minted (id : Nat) (token : String) (now : Rat)
  | denied (grantId : String)
  | revoked (id : Nat) (grantId : String)
  | credsDeleted (id : Nat)
  | swept (now : Rat)

structure BrokerState where
  grants : Dict String Grant
  creds : Dict String VirtualCred
  calls : Dict Nat BrokerCall

namespace BrokerState

def init : BrokerState := ⟨Dict.empty, Dict.empty, Dict.empty⟩

/-- The call awaits another statement. -/
def goOn (s : BrokerState) (id : Nat) (call : BrokerCall) : BrokerState :=
  { s with calls := s.calls.set id call }

/-- The call returns or raises. -/
def finish (s : BrokerState) (id : Nat) : BrokerState :=
  { s with calls := s.calls.pop id }

/-- `set_grant_status`. -/
def setGrantStatus (s : BrokerState) (grantId : String) (write : Grant → Grant) : BrokerState :=
  { s with grants := s.grants.modify grantId write }

/-- One statement; a call that raises before it writes leaves the state alone. -/
def step (s : BrokerState) : BrokerEvent → Option BrokerState
  | .requested grantId agentIdentity providerId scopes requestId reason =>
    match getProvider providerId with
    | none => some s
    | some provider =>
      if (s.grants.get? grantId).isSome then some s
      else
        some
          { s with
            grants := s.grants.set grantId
              { agentIdentity := agentIdentity
                providerId := providerId
                scopes := scopes.getD provider.defaultScopes
                status := .pending
                grantedAt := none
                expiresAt := none
                createdRequestId := requestId
                note := reason } }
  | .approveRead id grantId windowSeconds now =>
    if (s.calls.get? id).isSome then none
    else
      match windowSeconds.capped, s.grants.get? grantId with
      | .ok window, some g =>
        if g.status = .pending then
          some (s.goOn id (.approving grantId now window g.providerId))
        else some s
      | _, _ => some s
  | .approved id =>
    match s.calls.get? id with
    | some (.approving grantId now window providerId) =>
      let written := s.setGrantStatus grantId fun g => g.approve now window
      if (getProvider providerId).any fun p => p.kind = .httpProxy then
        some (written.goOn id (.minting grantId))
      else some (written.finish id)
    | _ => none
  | .minted id token now =>
    match s.calls.get? id with
    | some (.minting grantId) =>
      if (s.creds.get? token).isSome then some (s.finish id)
      else some ({ s with creds := s.creds.set token ⟨grantId, now⟩ }.finish id)
    | _ => none
  | .denied grantId => some (s.setGrantStatus grantId fun g => g.withStatus .denied)
  | .revoked id grantId =>
    if (s.calls.get? id).isSome then none
    else
      some ((s.setGrantStatus grantId fun g => g.withStatus .revoked).goOn id
        (.clearing grantId))
  | .credsDeleted id =>
    match s.calls.get? id with
    | some (.clearing grantId) =>
      some
        ({ s with creds := s.creds.filterValues fun c => c.grantId ≠ grantId }.finish id)
    | _ => none
  | .swept now => some { s with grants := s.grants.mapValues fun g => g.sweep now }

/-! ## Answers -/

/-- `find_active_grant`. -/
def findActiveGrant (s : BrokerState) (agentIdentity providerId : String) (now : Rat) :
    Option Grant :=
  ((s.grants.values.filter fun g => g.serves agentIdentity providerId now).insertionSort
    fun g h => g.before h).head?

/-- `is_authorized`. -/
def isAuthorized (s : BrokerState) (agentIdentity providerId : String) (now : Rat) : Bool :=
  (s.findActiveGrant agentIdentity providerId now).isSome

/-- What `authorize_token` returns. -/
structure GrantContext where
  agentIdentity : String
  providerId : String
  scopes : List String

/-- The second statement of `authorize_token`, on the grant that the token is for. -/
def authorizeGrant (s : BrokerState) (grantId : String) (now : Rat) : Option GrantContext :=
  match s.grants.get? grantId with
  | none => none
  | some g =>
    if g.status ≠ .active then none
    else if g.expiresAt.any fun t => t ≤ now then none
    else some ⟨g.agentIdentity, g.providerId, g.scopes⟩

/-- `authorize_token`. -/
def authorizeToken (s : BrokerState) (token : String) (now : Rat) : Option GrantContext :=
  (s.creds.get? token).bind fun cred => s.authorizeGrant cred.grantId now

/-- The grant is active and unexpired, for no longer than the maximum. -/
def Valid (g : Grant) (now : Rat) : Prop :=
  g.status = .active ∧ ∃ granted expires, g.grantedAt = some granted ∧
    g.expiresAt = some expires ∧ now < expires ∧ expires ≤ granted + maxWindowSeconds

/-- The broker answers yes for valid grants alone.  The second statement of
`authorize_token` may come to any grant, by a token of an earlier state. -/
structure Trustworthy (s : BrokerState) : Prop where
  authorized : ∀ agentIdentity providerId now,
    s.isAuthorized agentIdentity providerId now = true →
      ∃ g, s.findActiveGrant agentIdentity providerId now = some g ∧
        g.agentIdentity = agentIdentity ∧ g.providerId = providerId ∧ Valid g now
  token : ∀ grantId now context, s.authorizeGrant grantId now = some context →
    ∃ g, s.grants.get? grantId = some g ∧
      context = ⟨g.agentIdentity, g.providerId, g.scopes⟩ ∧ Valid g now

/-- The grant has been denied or revoked. -/
def Closed (s : BrokerState) (grantId : String) : Prop :=
  ∃ g, s.grants.get? grantId = some g ∧ (g.status = .denied ∨ g.status = .revoked)

def Active (s : BrokerState) (grantId : String) : Prop :=
  ∃ g, s.grants.get? grantId = some g ∧ g.status = .active

/-! ## What a statement does -/

variable {s s' : BrokerState} {e : BrokerEvent}

/-- What a statement makes of a grant. -/
inductive Change (s : BrokerState) (grantId : String) (g : Grant) : BrokerEvent → Grant → Prop
  | kept (e : BrokerEvent) : Change s grantId g e g
  | approved (id : Nat) (now : Rat) (window : Option Rat) (providerId : String)
      (hcall : s.calls.get? id = some (.approving grantId now window providerId)) :
      Change s grantId g (.approved id) (g.approve now window)
  | denied : Change s grantId g (.denied grantId) (g.withStatus .denied)
  | revoked (id : Nat) : Change s grantId g (.revoked id grantId) (g.withStatus .revoked)
  | swept (now : Rat) (hover : g.isOver now = true) :
      Change s grantId g (.swept now) (g.withStatus .expired)

variable {k providerId grantId agentIdentity : String} {g : Grant} {now : Rat}

/-- A grant that is written alone. -/
theorem get?_setGrantStatus (grantId : String) (write : Grant → Grant)
    (hg : s.grants.get? k = some g) :
    ∃ g', (s.setGrantStatus grantId write).grants.get? k = some g' ∧
      (k = grantId ∧ g' = write g ∨ k ≠ grantId ∧ g' = g) := by
  simp only [setGrantStatus, Dict.get?_modify]
  by_cases hk : grantId = k
  · rw [if_pos hk, hg]
    exact ⟨write g, rfl, Or.inl ⟨hk.symm, rfl⟩⟩
  · rw [if_neg hk, hg]
    exact ⟨g, rfl, Or.inr ⟨Ne.symm hk, rfl⟩⟩

/-- A grant stays, and changes as its statement says. -/
theorem change_of_step (hstep : s.step e = some s') (hg : s.grants.get? k = some g) :
    ∃ g', s'.grants.get? k = some g' ∧ Change s k g e g' := by
  have hkept : s'.grants = s.grants → ∃ g', s'.grants.get? k = some g' ∧ Change s k g e g' := by
    intro hsame
    exact ⟨g, by rw [hsame, hg], .kept e⟩
  cases e with
  | requested grantId agentIdentity providerId scopes requestId reason =>
    simp only [step] at hstep
    split at hstep
    · cases hstep
      exact hkept rfl
    · split at hstep
      · cases hstep
        exact hkept rfl
      · rename_i hfresh
        cases hstep
        have hne : grantId ≠ k := by
          rintro rfl
          simp [hg] at hfresh
        exact ⟨g, by rw [← hg]; exact Dict.get?_set_of_ne _ _ hne, .kept _⟩
  | approveRead id grantId windowSeconds now =>
    simp only [step] at hstep
    split at hstep
    · contradiction
    split at hstep
    · split at hstep
      all_goals
        cases hstep
        exact hkept rfl
    · cases hstep
      exact hkept rfl
  | approved id =>
    simp only [step] at hstep
    split at hstep
    · rename_i grantId now window providerId hcall
      obtain ⟨g', hg', hchange⟩ := get?_setGrantStatus grantId
        (fun g => g.approve now window) hg
      have hwritten : s'.grants.get? k = some g' := by
        split at hstep <;> cases hstep <;> exact hg'
      refine ⟨g', hwritten, ?_⟩
      rcases hchange with ⟨rfl, rfl⟩ | ⟨_, rfl⟩
      · exact .approved id now window providerId hcall
      · exact .kept _
    · contradiction
  | minted id token now =>
    simp only [step] at hstep
    split at hstep
    · split at hstep
      all_goals
        cases hstep
        exact hkept rfl
    · contradiction
  | denied grantId =>
    cases hstep
    obtain ⟨g', hg', ⟨rfl, rfl⟩ | ⟨_, rfl⟩⟩ := get?_setGrantStatus grantId
      (fun g => g.withStatus .denied) hg
    · exact ⟨_, hg', .denied⟩
    · exact ⟨_, hg', .kept _⟩
  | revoked id grantId =>
    simp only [step] at hstep
    split at hstep
    · contradiction
    cases hstep
    obtain ⟨g', hg', ⟨rfl, rfl⟩ | ⟨_, rfl⟩⟩ := get?_setGrantStatus grantId
      (fun g => g.withStatus .revoked) hg
    · exact ⟨_, hg', .revoked id⟩
    · exact ⟨_, hg', .kept _⟩
  | credsDeleted id =>
    simp only [step] at hstep
    split at hstep
    · cases hstep
      exact hkept rfl
    · contradiction
  | swept now =>
    cases hstep
    refine ⟨g.sweep now, by simp [Dict.get?_mapValues, hg], ?_⟩
    by_cases hover : g.isOver now = true
    · rw [Grant.sweep, if_pos hover]
      exact .swept now hover
    · rw [Grant.sweep, if_neg hover]
      exact .kept _

/-- A grant that was not there is pending. -/
theorem pending_of_step (hstep : s.step e = some s')
    (hnone : s.grants.get? k = none) (hg : s'.grants.get? k = some g) : g.status = .pending := by
  have hsame : ∀ {t : BrokerState}, t.grants = s.grants → t.grants.get? k ≠ some g := by
    intro t ht hget
    rw [ht, hnone] at hget
    contradiction
  have hwrite : ∀ (grantId : String) (write : Grant → Grant),
      (s.setGrantStatus grantId write).grants.get? k ≠ some g := by
    intro grantId write hget
    rcases Dict.get?_modify_cases hget with ⟨_, v, hv, _⟩ | ⟨_, hv⟩ <;> simp [hnone] at hv
  cases e with
  | requested grantId agentIdentity providerId scopes requestId reason =>
    simp only [step] at hstep
    split at hstep
    · cases hstep
      exact absurd hg (hsame rfl)
    · split at hstep
      · cases hstep
        exact absurd hg (hsame rfl)
      · cases hstep
        rcases Dict.get?_set_cases hg with ⟨_, hg⟩ | ⟨_, hg⟩
        · rw [← hg]
        · exact absurd hg (hsame rfl)
  | approveRead id grantId windowSeconds now =>
    simp only [step] at hstep
    split at hstep
    · contradiction
    split at hstep
    · split at hstep
      all_goals
        cases hstep
        exact absurd hg (hsame rfl)
    · cases hstep
      exact absurd hg (hsame rfl)
  | approved id =>
    simp only [step] at hstep
    split at hstep
    · split at hstep <;> cases hstep <;> exact absurd hg (hwrite _ _)
    · contradiction
  | minted id token now =>
    simp only [step] at hstep
    split at hstep
    · split at hstep <;> cases hstep <;> exact absurd hg (hsame rfl)
    · contradiction
  | denied grantId =>
    cases hstep
    exact absurd hg (hwrite _ _)
  | revoked id grantId =>
    simp only [step] at hstep
    split at hstep
    · contradiction
    cases hstep
    exact absurd hg (hwrite _ _)
  | credsDeleted id =>
    simp only [step] at hstep
    split at hstep
    · cases hstep
      exact absurd hg (hsame rfl)
    · contradiction
  | swept now =>
    cases hstep
    simp [Dict.get?_mapValues, hnone] at hg

/-- The calls that are to approve a grant have found it, and checked the window. -/
theorem approving_of_step (hstep : s.step e = some s') {id : Nat} {window : Option Rat}
    (hcall : s'.calls.get? id = some (.approving grantId now window providerId)) :
    s.calls.get? id = some (.approving grantId now window providerId) ∨
      (∃ windowSeconds : Window, windowSeconds.capped = .ok window) ∧
        ∃ g, s.grants.get? grantId = some g := by
  cases e with
  | requested id' agentIdentity providerId' scopes requestId reason =>
    simp only [step] at hstep
    split at hstep
    · cases hstep
      exact Or.inl hcall
    · split at hstep <;> cases hstep <;> exact Or.inl hcall
  | approveRead i grantId' windowSeconds now' =>
    simp only [step] at hstep
    split at hstep
    · contradiction
    split at hstep
    · rename_i window' g hwindow hg
      split at hstep
      · cases hstep
        rcases Dict.get?_set_cases hcall with ⟨_, hnew⟩ | ⟨_, hold⟩
        · cases hnew
          exact Or.inr ⟨⟨windowSeconds, hwindow⟩, g, hg⟩
        · exact Or.inl hold
      · cases hstep
        exact Or.inl hcall
    · cases hstep
      exact Or.inl hcall
  | approved i =>
    simp only [step] at hstep
    split at hstep
    · split at hstep
      · cases hstep
        rcases Dict.get?_set_cases hcall with ⟨_, hnew⟩ | ⟨_, hold⟩
        · contradiction
        · exact Or.inl hold
      · cases hstep
        exact Or.inl (Dict.get?_pop_cases hcall).2
    · contradiction
  | minted i token now' =>
    simp only [step] at hstep
    split at hstep
    · split at hstep <;> cases hstep <;> exact Or.inl (Dict.get?_pop_cases hcall).2
    · contradiction
  | denied | swept =>
    cases hstep
    exact Or.inl hcall
  | revoked i grantId' =>
    simp only [step] at hstep
    split at hstep
    · contradiction
    cases hstep
    rcases Dict.get?_set_cases hcall with ⟨_, hnew⟩ | ⟨_, hold⟩
    · contradiction
    · exact Or.inl hold
  | credsDeleted i =>
    simp only [step] at hstep
    split at hstep
    · cases hstep
      exact Or.inl (Dict.get?_pop_cases hcall).2
    · contradiction

/-! ## Books -/

/-- What holds in every state: an active grant was granted, for at most the maximum if its end
is known at all. -/
structure Books (s : BrokerState) : Prop where
  granted : ∀ grantId g, s.grants.get? grantId = some g → g.status = .active →
    ∃ granted, g.grantedAt = some granted ∧
      ∀ expires, g.expiresAt = some expires → expires ≤ granted + maxWindowSeconds
  calls : ∀ id grantId now window providerId,
    s.calls.get? id = some (.approving grantId now window providerId) →
      (∃ g, s.grants.get? grantId = some g) ∧
      ∀ seconds, window = some seconds → seconds ≤ maxWindowSeconds

theorem Books.init : init.Books := by
  constructor
  · intro grantId g hg
    contradiction
  · intro id grantId now window providerId hcall
    contradiction

theorem Books.step (h : s.Books) (hstep : s.step e = some s') : s'.Books := by
  constructor
  · intro grantId g' hg' hactive
    cases hg : s.grants.get? grantId with
    | none =>
      rw [pending_of_step hstep hg hg'] at hactive
      contradiction
    | some g =>
      obtain ⟨g'', hg'', hchange⟩ := change_of_step hstep hg
      rw [hg'] at hg''
      cases hg''
      cases hchange with
      | kept => exact h.granted grantId g' hg hactive
      | approved id now window providerId hcall =>
        refine ⟨now, rfl, ?_⟩
        intro expires hexpires
        obtain ⟨seconds, hwindow, rfl⟩ := Option.map_eq_some_iff.mp hexpires
        have hle := (h.calls id grantId now window providerId hcall).2 seconds hwindow
        exact (Rat.add_le_add_left).mpr hle
      | _ => contradiction
  · intro id grantId now window providerId hcall
    rcases approving_of_step hstep hcall with hold | ⟨⟨windowSeconds, hcapped⟩, g, hg⟩
    · obtain ⟨⟨g, hg⟩, hle⟩ := h.calls id grantId now window providerId hold
      obtain ⟨g', hg', _⟩ := change_of_step hstep hg
      exact ⟨⟨g', hg'⟩, hle⟩
    · obtain ⟨g', hg', _⟩ := change_of_step hstep hg
      refine ⟨⟨g', hg'⟩, ?_⟩
      rintro seconds rfl
      exact Window.capped_le hcapped

/-- Every active grant has an end. -/
def Expiring (s : BrokerState) : Prop :=
  ∀ grantId g, s.grants.get? grantId = some g → g.status = .active → g.expiresAt ≠ none

theorem Books.valid (h : s.Books) (hexpiring : s.Expiring) (hg : s.grants.get? grantId = some g)
    (hactive : g.status = .active)
    (hunexpired : ∀ expires, g.expiresAt = some expires → now < expires) : Valid g now := by
  obtain ⟨granted, hgranted, hle⟩ := h.granted grantId g hg hactive
  obtain ⟨expires, hexpires⟩ := Option.ne_none_iff_exists'.mp (hexpiring grantId g hg hactive)
  exact ⟨hactive, granted, expires, hgranted, hexpires, hunexpired expires hexpires,
    hle expires hexpires⟩

/-- The grant that is found serves the agent. -/
theorem findActiveGrant_eq_some (hfound : s.findActiveGrant agentIdentity providerId now = some g) :
    (∃ grantId, s.grants.get? grantId = some g) ∧
      g.serves agentIdentity providerId now = true := by
  have hmem := List.mem_of_head? hfound
  rw [List.mem_insertionSort, List.mem_filter] at hmem
  exact ⟨Dict.mem_values_iff.mp hmem.1, hmem.2⟩

/-- Where a grant serves the agent, one is found. -/
theorem exists_findActiveGrant (hg : s.grants.get? grantId = some g)
    (hserves : g.serves agentIdentity providerId now = true) :
    ∃ g', s.findActiveGrant agentIdentity providerId now = some g' := by
  have hmem : g ∈ (s.grants.values.filter fun g =>
      g.serves agentIdentity providerId now).insertionSort fun g h => g.before h := by
    rw [List.mem_insertionSort, List.mem_filter]
    exact ⟨Dict.mem_values_iff.mpr ⟨grantId, hg⟩, hserves⟩
  rw [findActiveGrant]
  cases hlist : (s.grants.values.filter fun g =>
      g.serves agentIdentity providerId now).insertionSort fun g h => g.before h with
  | nil =>
    rw [hlist] at hmem
    contradiction
  | cons g' rest => exact ⟨g', rfl⟩

theorem serves_iff : g.serves agentIdentity providerId now = true ↔
      g.agentIdentity = agentIdentity ∧ g.providerId = providerId ∧ g.status = .active ∧
        ∀ expires, g.expiresAt = some expires → now < expires := by
  simp only [Grant.serves, Bool.and_eq_true, decide_eq_true_eq, and_assoc, Option.all_eq_true]

/-- An instant by which every grant with an end is over. -/
theorem exists_late (s : BrokerState) : ∃ now, ∀ grantId g expires,
    s.grants.get? grantId = some g → g.expiresAt = some expires → expires ≤ now := by
  obtain ⟨now, hnow⟩ := (List.finite_toSet (s.grants.values.filterMap Grant.expiresAt)).bddAbove
  refine ⟨now, ?_⟩
  intro grantId g expires hg hexpires
  apply hnow
  exact List.mem_filterMap.mpr ⟨g, Dict.mem_values_iff.mpr ⟨grantId, hg⟩, hexpires⟩

/-- The answers are right where every active grant has an end. -/
theorem Books.trustworthy_iff (h : s.Books) : s.Trustworthy ↔ s.Expiring := by
  constructor
  · intro htrust grantId g hg hactive hnone
    obtain ⟨now, hlate⟩ := s.exists_late
    have hserves : g.serves g.agentIdentity g.providerId now = true :=
      serves_iff.mpr ⟨rfl, rfl, hactive, by simp [hnone]⟩
    obtain ⟨g', hfound⟩ := exists_findActiveGrant hg hserves
    obtain ⟨g'', hfound', _, _, hvalid⟩ := htrust.authorized g.agentIdentity g.providerId now
      (Option.isSome_iff_exists.mpr ⟨g', hfound⟩)
    obtain ⟨⟨grantId', hg'⟩, _⟩ := findActiveGrant_eq_some hfound'
    obtain ⟨_, _, expires, _, hexpires, hlt, _⟩ := hvalid
    exact absurd hlt (not_lt.mpr (hlate grantId' g'' expires hg' hexpires))
  · intro hexpiring
    constructor
    · intro agentIdentity providerId now hyes
      obtain ⟨g, hfound⟩ := Option.isSome_iff_exists.mp hyes
      obtain ⟨⟨grantId, hg⟩, hserves⟩ := findActiveGrant_eq_some hfound
      obtain ⟨hagent, hprovider, hactive, hunexpired⟩ := serves_iff.mp hserves
      exact ⟨g, hfound, hagent, hprovider, h.valid hexpiring hg hactive hunexpired⟩
    · intro grantId now context hyes
      unfold authorizeGrant at hyes
      cases hg : s.grants.get? grantId with
      | none =>
        rw [hg] at hyes
        contradiction
      | some g =>
        simp only [hg] at hyes
        split at hyes
        · contradiction
        rename_i hactive
        split at hyes
        · contradiction
        rename_i hunexpired
        refine ⟨g, rfl, (Option.some.inj hyes).symm, ?_⟩
        apply h.valid hexpiring hg (not_not.mp hactive)
        intro expires hexpires
        simpa [hexpires] using hunexpired

/-! ## Late approvals -/

/-- An approval that is to be written finds its grant neither denied nor revoked, and its window
is not a NaN. -/
def MayApprove (s : BrokerState) : BrokerEvent → Prop
  | .approved id =>
    match s.calls.get? id with
    | some (.approving grantId _ window _) => ¬ s.Closed grantId ∧ window ≠ none
    | _ => True
  | _ => True

theorem not_active_of_closed (hclosed : s.Closed grantId) : ¬ s.Active grantId := by
  rintro ⟨g, hg, hactive⟩
  obtain ⟨g', hg', hstatus⟩ := hclosed
  rw [hg] at hg'
  cases hg'
  rcases hstatus with hdenied | hrevoked
  · rw [hdenied] at hactive
    contradiction
  · rw [hrevoked] at hactive
    contradiction

/-- A denied or revoked grant stays closed, unless it is approved. -/
theorem closed_of_step (hstep : s.step e = some s')
    (hclosed : s.Closed grantId) (hnot : ¬ s'.Active grantId) : s'.Closed grantId := by
  obtain ⟨g, hg, hstatus⟩ := hclosed
  obtain ⟨g', hg', hchange⟩ := change_of_step hstep hg
  cases hchange with
  | kept => exact ⟨g, hg', hstatus⟩
  | approved id now window providerId hcall => exact absurd ⟨_, hg', rfl⟩ hnot
  | denied => exact ⟨_, hg', Or.inl rfl⟩
  | revoked id => exact ⟨_, hg', Or.inr rfl⟩
  | swept now hover =>
    simp only [Grant.isOver, Bool.and_eq_true, decide_eq_true_eq] at hover
    rw [hover.1] at hstatus
    rcases hstatus with hdenied | hrevoked <;> contradiction

/-- What an approval writes. -/
theorem approve_of_step {id : Nat} {window : Option Rat}
    (hcall : s.calls.get? id = some (.approving grantId now window providerId))
    (hg : s.grants.get? grantId = some g) (hstep : s.step (.approved id) = some s') :
    s'.grants.get? grantId = some (g.approve now window) := by
  have hwritten : (s.setGrantStatus grantId fun g => g.approve now window).grants.get? grantId =
      some (g.approve now window) := by
    simp [setGrantStatus, Dict.get?_modify, hg]
  simp only [step, hcall] at hstep
  split at hstep <;> cases hstep <;> exact hwritten

theorem active_of_guarded_step (hstep : s.step e = some s') (hguard : s.MayApprove e)
    (hactive : s'.Active grantId) : ¬ s.Closed grantId := by
  rintro ⟨g, hg, hstatus⟩
  obtain ⟨g', hg', hchange⟩ := change_of_step hstep hg
  obtain ⟨g'', hg'', hactive⟩ := hactive
  rw [hg'] at hg''
  cases hg''
  cases hchange with
  | kept => exact not_active_of_closed ⟨g, hg, hstatus⟩ ⟨g, hg, hactive⟩
  | approved id now window providerId hcall =>
    simp only [MayApprove, hcall] at hguard
    exact hguard.1 ⟨g, hg, hstatus⟩
  | _ => contradiction

theorem Expiring.step (hexpiring : s.Expiring) (hguard : s.MayApprove e)
    (hstep : s.step e = some s') : s'.Expiring := by
  intro grantId g' hg' hactive
  cases hg : s.grants.get? grantId with
  | none =>
    rw [pending_of_step hstep hg hg'] at hactive
    contradiction
  | some g =>
    obtain ⟨g'', hg'', hchange⟩ := change_of_step hstep hg
    rw [hg'] at hg''
    cases hg''
    cases hchange with
    | kept => exact hexpiring grantId g' hg hactive
    | approved id now window providerId hcall =>
      simp only [MayApprove, hcall] at hguard
      simpa [Grant.approve] using hguard.2
    | _ => contradiction

/-- A statement brings no closed grant back, and leaves the answers right, exactly when it is
no late approval and none without an end. -/
theorem faithful_step_iff (h : s.Books) (hexpiring : s.Expiring) (hstep : s.step e = some s') :
    ((∀ grantId, s.Closed grantId → s'.Closed grantId) ∧ s'.Trustworthy) ↔ s.MayApprove e := by
  constructor
  · rintro ⟨hclosed, htrust⟩
    cases e with
    | approved id =>
      simp only [MayApprove]
      split
      · rename_i grantId now window providerId hcall
        obtain ⟨⟨g, hg⟩, _⟩ := h.calls id grantId now window providerId hcall
        have hg' := approve_of_step hcall hg hstep
        constructor
        · intro hc
          exact not_active_of_closed (hclosed grantId hc) ⟨_, hg', rfl⟩
        · rintro rfl
          have hend := (h.step hstep).trustworthy_iff.mp htrust
          exact hend grantId _ hg' rfl rfl
      · trivial
    | requested | approveRead | minted | denied | revoked | credsDeleted | swept => trivial
  · intro hguard
    constructor
    · intro grantId hc
      apply closed_of_step hstep hc
      intro hactive
      exact active_of_guarded_step hstep hguard hactive hc
    · exact (h.step hstep).trustworthy_iff.mpr (hexpiring.step hguard hstep)

/-! ## Runs -/

/-- A grant that has been denied or revoked never becomes active again. -/
def NeverResurrected (es : List BrokerEvent) : Prop :=
  ∀ pre mid post s t, es = pre ++ mid ++ post → run step init pre = some s →
    run step s mid = some t → ∀ grantId, s.Closed grantId → ¬ t.Active grantId

/-- In every state the broker answers yes for valid grants alone. -/
def AlwaysTrustworthy (es : List BrokerEvent) : Prop :=
  ∀ pre post s, es = pre ++ post → run step init pre = some s → s.Trustworthy

/-- What is denied or revoked stays so, as long as it never becomes active. -/
theorem neverResurrected_iff (es : List BrokerEvent) :
    NeverResurrected es ↔
      EveryStep step (fun s _ t => ∀ grantId, s.Closed grantId → t.Closed grantId) init es := by
  constructor
  · intro hnever pre e post s t heq hrun hstep grantId hclosed
    apply closed_of_step hstep hclosed
    apply hnever pre [e] post s t (by simpa using heq) hrun
    · exact run_cons_eq_some.mpr ⟨t, hstep, rfl⟩
    · exact hclosed
  · intro hevery pre mid post s t heq hrun hmid grantId hclosed
    have hstays : ∀ grantId, s.Closed grantId → t.Closed grantId := by
      refine (stretches_iff_everyStep ?_ ?_ init es).mpr hevery pre mid post s t heq hrun hmid
      · intro s grantId hclosed
        exact hclosed
      · intro s t u hst htu grantId hclosed
        exact htu grantId (hst grantId hclosed)
    exact not_active_of_closed (hstays grantId hclosed)

/-- No grant comes back, and every answer is right, in exactly the runs without a late approval
and without a NaN. -/
theorem consent_kept_iff (es : List BrokerEvent) :
    (NeverResurrected es ∧ AlwaysTrustworthy es) ↔ Guarded step MayApprove init es := by
  have hexpiring : init.Expiring := by
    intro grantId g hg
    contradiction
  have htrust : AlwaysTrustworthy es ↔ EveryStep step (fun _ _ t => t.Trustworthy) init es :=
    states_iff_everyStep (Books.init.trustworthy_iff.mpr hexpiring) es
  rw [neverResurrected_iff, htrust, ← everyStep_and]
  apply everyStep_iff_guarded (I := fun s => s.Books ∧ s.Expiring)
  · intro s e hnone
    cases e with
    | approved id =>
      simp only [MayApprove]
      split
      · rename_i grantId now window providerId hcall
        simp only [step, hcall] at hnone
        split at hnone <;> contradiction
      · trivial
    | requested | approveRead | minted | denied | revoked | credsDeleted | swept => trivial
  · intro s e s' hinv hguard hstep
    exact ⟨hinv.1.step hstep, hinv.2.step hguard hstep⟩
  · intro s e s' hinv hstep
    exact faithful_step_iff hinv.1 hinv.2 hstep
  · exact ⟨Books.init, hexpiring⟩

/-- A grant is denied while its approval is under way. -/
def lateApproval : List BrokerEvent :=
  [.requested "g" "scout" "exa" none none none, .approveRead 1 "g" (.finite 3600) 100,
    .denied "g", .approved 1]

/-- A grant is approved for a window that is not a number. -/
def nanWindow : List BrokerEvent :=
  [.requested "g" "scout" "exa" none none none, .approveRead 1 "g" .nan 100, .approved 1]

/-- The denied grant is active, and the other one is active long after the maximum. -/
theorem not_consent_kept :
    (run step init lateApproval).map (fun s => s.isAuthorized "scout" "exa" 101) = some true ∧
    (run step init nanWindow).map (fun s => s.isAuthorized "scout" "exa" 1000000) = some true ∧
    ¬ NeverResurrected lateApproval ∧ ¬ AlwaysTrustworthy nanWindow := by
  have hlate : (run step init lateApproval).map (fun s => s.isAuthorized "scout" "exa" 101) =
      some true := by decide +kernel
  have hnan : (run step init nanWindow).map (fun s => s.isAuthorized "scout" "exa" 1000000) =
      some true := by decide
  refine ⟨hlate, hnan, ?_, ?_⟩
  · intro hnever
    have hdenied : (run step init (lateApproval.take 3)).map (fun s =>
        (s.grants.get? "g").map Grant.status) = some (some .denied) := by decide
    have hactive : (run step init lateApproval).map (fun s =>
        (s.grants.get? "g").map Grant.status) = some (some .active) := by decide
    obtain ⟨s, hs, hstatus⟩ := Option.map_eq_some_iff.mp hdenied
    obtain ⟨g, hg, hclosed⟩ := Option.map_eq_some_iff.mp hstatus
    obtain ⟨t, ht, hstatus'⟩ := Option.map_eq_some_iff.mp hactive
    obtain ⟨g', hg', hopen⟩ := Option.map_eq_some_iff.mp hstatus'
    have hrest : run step s [.approved 1] = some t := by
      have hall : run step init (lateApproval.take 3 ++ [.approved 1]) = some t := ht
      rw [run_append, hs] at hall
      exact hall
    exact hnever (lateApproval.take 3) [.approved 1] [] s t rfl hs hrest "g"
      ⟨g, hg, Or.inl hclosed⟩ ⟨g', hg', hopen⟩
  · intro htrust
    have hendless : (run step init nanWindow).map (fun s =>
        (s.grants.get? "g").map fun g => (g.status, g.expiresAt)) =
          some (some (.active, none)) := by
      decide
    obtain ⟨s, hs, hgrant⟩ := Option.map_eq_some_iff.mp hendless
    obtain ⟨g, hg, hpair⟩ := Option.map_eq_some_iff.mp hgrant
    obtain ⟨hactive, hnone⟩ := Prod.mk.inj hpair
    have hbooks : s.Books := invariant_of_run (fun s e s' => Books.step) Books.init hs
    have hexpiring := hbooks.trustworthy_iff.mp (htrust nanWindow [] s (List.append_nil _).symm hs)
    exact hexpiring "g" g hg hactive hnone

end BrokerState

end TinyAgentOS.Broker
