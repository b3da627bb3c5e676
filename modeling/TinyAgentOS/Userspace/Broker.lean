import TinyAgentOS.Library.Json
import TinyAgentOS.Userspace.Capabilities

/-!
# The capability broker

The broker has a split of its own into free and gated capabilities, and asks for a grant of
the namespace of a gated one alone.  The model of the tiers has no free capabilities: what is
outside the ceiling of a tier is to be granted, by its namespace or by its own name.

Main results:

- `dispatched_iff`: what the broker dispatches.
- `enforces_iff`: where the broker and the model of the tiers agree.
-/

namespace TinyAgentOS.Userspace

open Collections

/-! ## Installed apps -/

/-- A row of `userspace_apps`. -/
structure AppRow where
  name : String
  version : String
  appType : String
  entry : String
  icon : String
  permissionsRequested : List String
  permissionsGranted : List String
  enabled : Bool
  installedAt : Int
  trust : String
  provenance : String

/-- `app.get("provenance") or default_provenance_for_trust(app.get("trust"))`. -/
def AppRow.tier (app : AppRow) : String :=
  if app.provenance = "" then defaultProvenanceForTrust app.trust else app.provenance

/-- The explicit grants of an app: its own, and those of the consent ledger where there is a
user and the lookup succeeds. -/
def AppRow.grants (app : AppRow) (ledger : Option (List String)) : List String :=
  app.permissionsGranted ++ ledger.getD []

/-! ## Calls -/

/-- The capabilities that `handle_capability` has a branch for. -/
inductive Operation where
  | kvGet
  | kvSet
  | kvDelete
  | kvKeys
  | tableInsert
  | tableQuery
  | tableDelete
  | filesRead
  | filesWrite
  | notify
  | window
  | memorySearch
  | agent
  | llm
  | net
deriving DecidableEq

def operations : List (String × Operation) :=
  [("app.kv.get", .kvGet), ("app.kv.set", .kvSet), ("app.kv.delete", .kvDelete),
    ("app.kv.keys", .kvKeys), ("app.table.insert", .tableInsert),
    ("app.table.query", .tableQuery), ("app.table.delete", .tableDelete),
    ("app.files.read", .filesRead), ("app.files.write", .filesWrite), ("app.notify", .notify),
    ("app.window", .window), ("app.memory.search", .memorySearch), ("app.agent", .agent),
    ("app.llm", .llm), ("app.net", .net)]

def operation? (capability : String) : Option Operation :=
  operations.lookup capability

/-- The arguments that a branch indexes. -/
def Operation.required : Operation → List String
  | .kvGet => ["key"]
  | .kvSet => ["key"]
  | .kvDelete => ["key"]
  | .tableInsert => ["table"]
  | .tableQuery => ["table"]
  | .tableDelete => ["table", "id"]
  | _ => []

/-- The answer to a call; `ρ` is what the services make of a branch. -/
inductive Answer (ρ : Type) where
  | unknownCapability (capability : String)
  | permissionDenied (capability : String)
  | missingArg (arg : String)
  | performed (result : ρ)
deriving DecidableEq

/-- The call went to its branch. -/
def Answer.Dispatched {ρ : Type} : Answer ρ → Prop
  | .unknownCapability _ => False
  | .permissionDenied _ => False
  | _ => True

variable {ρ : Type}

/-- `perform` is what the branches do with the services of the app. -/
def handleCapability (perform : Operation → Dict String Json.Value → ρ) (capability : String)
    (args : Dict String Json.Value) (granted : List String) : Answer ρ :=
  let ns := namespaceOf capability
  if ns ∉ freeCaps ∧ ns ∉ gatedCaps then .unknownCapability capability
  else if ns ∈ gatedCaps ∧ ns ∉ granted then .permissionDenied capability
  else
    match operation? capability with
    | none => .unknownCapability capability
    | some op =>
      match op.required.find? fun arg => (args.get? arg).isNone with
      | some arg => .missingArg arg
      | none => .performed (perform op args)

/-- The broker route; `none` stands for status 404. -/
def broker (perform : Operation → Dict String Json.Value → ρ) (app : Option AppRow)
    (ledger : Option (List String)) (capability : String) (args : Dict String Json.Value) :
    Option (Answer ρ) :=
  match app with
  | none => none
  | some app =>
    if app.enabled then
      some (handleCapability perform capability args
        (capabilityCeiling app.tier ++ app.grants ledger))
    else none

/-- A branch belongs to a known namespace. -/
theorem mem_knownCaps_of_operation {capability : String} {op : Operation}
    (h : operation? capability = some op) : namespaceOf capability ∈ knownCaps := by
  have hall : ∀ e ∈ operations, namespaceOf e.1 ∈ knownCaps := by decide
  obtain ⟨before, after, heq, _⟩ := List.lookup_eq_some_iff.mp h
  have hmem : (capability, op) ∈ operations := by
    rw [heq]
    exact List.mem_append_right before List.mem_cons_self
  exact hall (capability, op) hmem

/-- What is dispatched. -/
theorem dispatched_handleCapability_iff (perform : Operation → Dict String Json.Value → ρ)
    (capability : String) (args : Dict String Json.Value) (granted : List String) :
    (handleCapability perform capability args granted).Dispatched ↔
      (operation? capability).isSome = true ∧
        (namespaceOf capability ∈ gatedCaps → namespaceOf capability ∈ granted) := by
  cases hop : operation? capability with
  | none =>
    simp only [Option.isSome_none, Bool.false_eq_true, false_and, iff_false]
    simp only [handleCapability, hop]
    split
    · exact not_false
    · split <;> exact not_false
  | some op =>
    have hknown := List.mem_append.mp (mem_knownCaps_of_operation hop)
    have hknown' : ¬ (namespaceOf capability ∉ freeCaps ∧
        namespaceOf capability ∉ gatedCaps) := by
      rintro ⟨hfree, hgated⟩
      exact hknown.elim hfree hgated
    simp only [handleCapability, hop, if_neg hknown', Option.isSome_some, true_and]
    split
    · rename_i hdenied
      exact iff_of_false not_false fun h => hdenied.2 (h hdenied.1)
    · rename_i hgranted
      have hguard : namespaceOf capability ∈ gatedCaps → namespaceOf capability ∈ granted :=
        fun hgated => by_contra fun hnot => hgranted ⟨hgated, hnot⟩
      refine iff_of_true ?_ hguard
      split <;> trivial

/-! ## The broker and the tiers -/

/-- The call of an app went to its branch. -/
def Dispatches (perform : Operation → Dict String Json.Value → ρ) (app : AppRow)
    (ledger : Option (List String)) (capability : String) (args : Dict String Json.Value) : Prop :=
  ∃ answer, broker perform (some app) ledger capability args = some answer ∧ answer.Dispatched

/-- What the broker dispatches. -/
theorem dispatched_iff (perform : Operation → Dict String Json.Value → ρ) {app : AppRow}
    (henabled : app.enabled = true) (ledger : Option (List String)) (capability : String)
    (args : Dict String Json.Value) :
    Dispatches perform app ledger capability args ↔
      (operation? capability).isSome = true ∧
        (namespaceOf capability ∈ gatedCaps →
          namespaceOf capability ∈ capabilityCeiling app.tier ∨
            namespaceOf capability ∈ app.grants ledger) := by
  have hbroker : broker perform (some app) ledger capability args =
      some (handleCapability perform capability args
        (capabilityCeiling app.tier ++ app.grants ledger)) := if_pos henabled
  unfold Dispatches
  rw [hbroker]
  simp only [Option.some.injEq, exists_eq_left', dispatched_handleCapability_iff,
    List.mem_append]

/-- The tiers ask no more of the capability than the broker does, and no less: what is free is
within the ceiling or granted, what is gated is not granted by its own name alone, and what has
no branch is not allowed. -/
def TiersAgree (tier capability : String) (grants : List String) : Prop :=
  let ns := namespaceOf capability
  if (operation? capability).isSome then
    if ns ∈ freeCaps then ns ∈ capabilityCeiling tier ∨ ns ∈ grants ∨ capability ∈ grants
    else capability ∈ grants → ns ∈ capabilityCeiling tier ∨ ns ∈ grants
  else
    isKnownCapability ns = true →
      ns ∉ capabilityCeiling tier ∧ ns ∉ grants ∧ capability ∉ grants

theorem isKnownCapability_of_mem {ns : String} (h : ns ∈ knownCaps) :
    isKnownCapability ns = true := by
  simp [isKnownCapability, h]

/-- A free capability is not gated. -/
theorem notMem_gatedCaps {ns : String} (h : ns ∈ freeCaps) : ns ∉ gatedCaps := by
  have hall : ∀ cap ∈ freeCaps, cap ∉ gatedCaps := by decide
  exact hall ns h

/-- The broker dispatches what the model of the tiers allows, exactly where the two agree. -/
theorem enforces_iff (perform : Operation → Dict String Json.Value → ρ) (app : AppRow)
    (henabled : app.enabled = true) (ledger : Option (List String)) (capability : String)
    (args : Dict String Json.Value) :
    (Dispatches perform app ledger capability args ↔
      isKnownCapability (namespaceOf capability) = true ∧
        capabilityAllowed app.tier capability (app.grants ledger) = true) ↔
      TiersAgree app.tier capability (app.grants ledger) := by
  rw [dispatched_iff perform henabled, capabilityAllowed_iff]
  unfold TiersAgree
  cases hop : operation? capability with
  | none =>
    simp only [Option.isSome_none, Bool.false_eq_true, false_and, if_false, false_iff, not_and,
      not_or]
  | some op =>
    have hmem := mem_knownCaps_of_operation hop
    simp only [Option.isSome_some, true_and, if_true, isKnownCapability_of_mem hmem]
    by_cases hfree : namespaceOf capability ∈ freeCaps
    · have hgated := notMem_gatedCaps hfree
      simp only [hfree, if_true]
      exact ⟨fun h => h.mp fun hg => absurd hg hgated, fun h => iff_of_true
        (fun hg => absurd hg hgated) h⟩
    · have hgated := (List.mem_append.mp hmem).resolve_left hfree
      simp only [hfree, if_false, hgated, forall_const]
      constructor
      · intro h hcap
        exact h.mpr (Or.inr (Or.inr hcap))
      · intro h
        constructor
        · exact fun hns => hns.imp_right Or.inl
        · rintro (hns | hns | hcap)
          · exact Or.inl hns
          · exact Or.inr hns
          · exact h hcap

/-- An app that was uploaded by the user and granted nothing. -/
def sideLoaded : AppRow where
  name := "Todo"
  version := "1.0.0"
  appType := "web"
  entry := "index.html"
  icon := ""
  permissionsRequested := []
  permissionsGranted := []
  enabled := true
  installedAt := 0
  trust := "community"
  provenance := "user-uploaded"

theorem enforces_notify :
    Dispatches (fun _ _ => ()) sideLoaded none "app.notify" Dict.empty ↔
      isKnownCapability (namespaceOf "app.notify") = true ∧
        capabilityAllowed sideLoaded.tier "app.notify" (sideLoaded.grants none) = true :=
  (enforces_iff (fun _ _ => ()) sideLoaded rfl none "app.notify" Dict.empty).mpr
    (by unfold TiersAgree; decide)

/-- Its keys are listed, although they are outside its ceiling. -/
theorem not_enforces :
    ¬ ∀ (app : AppRow) (ledger : Option (List String)) (capability : String)
      (args : Dict String Json.Value), app.enabled = true →
      (Dispatches (fun _ _ => ()) app ledger capability args ↔
        isKnownCapability (namespaceOf capability) = true ∧
          capabilityAllowed app.tier capability (app.grants ledger) = true) := by
  intro h
  have hkeys := h sideLoaded none "app.kv.keys" Dict.empty rfl
  have hdispatched : Dispatches (fun _ _ => ()) sideLoaded none "app.kv.keys" Dict.empty :=
    ⟨.performed (), by decide, trivial⟩
  exact absurd (hkeys.mp hdispatched).2 (by decide)

end TinyAgentOS.Userspace
