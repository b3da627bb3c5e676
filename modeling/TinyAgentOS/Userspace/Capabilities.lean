import Mathlib.Tactic

/-!
# Capabilities of userspace apps

The closed vocabulary of capabilities, the tiers an app is classified into, and what a tier
holds without a grant.

Main results:

- `capabilityAllowed_iff`: what is allowed.
-/

namespace TinyAgentOS.Userspace

/-! ## The vocabulary -/

/-- Granted to every app without consent. -/
def freeCaps : List String :=
  ["app.kv", "app.table", "app.files", "app.notify", "app.window"]

/-- Require an explicit granted permission. -/
def gatedCaps : List String :=
  ["app.net", "app.agent", "app.llm", "app.memory"]

def knownCaps : List String :=
  freeCaps ++ gatedCaps

/-- `NET_PREFIX`. -/
def netPrefix : String :=
  "network:"

/-- `[A-Za-z0-9.-]`. -/
def isHostChar (c : Char) : Bool :=
  c.isAlphanum || c = '.' || c = '-'

/-- `(?:\*\.)?[A-Za-z0-9.-]+(?::\d+)?`, where `isDigit` is what `\d` matches. -/
def isNetHost (isDigit : Char → Bool) (text : List Char) : Bool :=
  let text := if ['*', '.'].isPrefixOf text then text.drop 2 else text
  !(text.takeWhile isHostChar).isEmpty &&
    match text.dropWhile isHostChar with
    | [] => true
    | c :: port => c = ':' && !port.isEmpty && port.all isDigit

/-- `NET_ORIGIN_RE`. -/
def isNetOrigin (isDigit : Char → Bool) (origin : List Char) : Bool :=
  ["wss://", "https://"].any fun scheme =>
    scheme.toList.isPrefixOf origin && isNetHost isDigit (origin.drop scheme.length)

def isNetPrefixed (perm : String) : Bool :=
  netPrefix.toList.isPrefixOf perm.toList

def isKnownCapability (perm : String) : Bool :=
  perm ∈ knownCaps || isNetPrefixed perm

/-- The `a.b` namespace of a capability. -/
def namespaceOf (capability : String) : String :=
  let parts := capability.toList.splitOn '.'
  if 2 ≤ parts.length then String.ofList (['.'].intercalate (parts.take 2)) else capability

/-! ## Tiers -/

/-- `DEFAULT_PROVENANCE`. -/
def defaultProvenance : String :=
  "unknown"

/-- `PROVENANCE_CEILINGS`. -/
def provenanceCeilings : List (String × List String) :=
  [("first-party", knownCaps), ("ai-generated", ["app.notify", "app.window"]),
    ("user-uploaded", ["app.notify", "app.window"]), ("unknown", [])]

/-- What a tier holds without a grant. -/
def capabilityCeiling (provenance : String) : List String :=
  (provenanceCeilings.lookup provenance).getD
    ((provenanceCeilings.lookup defaultProvenance).getD [])

def defaultProvenanceForTrust (trust : String) : String :=
  if trust = "first-party" then "first-party" else "user-uploaded"

/-- The capability is available to an app of the tier with the grants. -/
def capabilityAllowed (provenance capability : String) (granted : List String) : Bool :=
  let ns := namespaceOf capability
  ns ∈ capabilityCeiling provenance || ns ∈ granted || capability ∈ granted

/-- The ceiling has the namespace, or the grants have it or the full name. -/
theorem capabilityAllowed_iff {provenance capability : String} {granted : List String} :
    capabilityAllowed provenance capability granted = true ↔
      namespaceOf capability ∈ capabilityCeiling provenance ∨
        namespaceOf capability ∈ granted ∨ capability ∈ granted := by
  simp [capabilityAllowed, or_assoc]

end TinyAgentOS.Userspace
