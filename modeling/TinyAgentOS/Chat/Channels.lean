import TinyAgentOS.Library.Json
import TinyAgentOS.Projects.TaskStore
import Mathlib.Data.List.Sort
import Mathlib.Data.String.Basic

/-!
# Chat channels

The members of a channel are a JSON list, and its settings a JSON object, in which
`muted` is a list of names where it is set.

Main results:

- `Settings.get?_update_cases`: an update of settings keeps the other keys.
-/

namespace TinyAgentOS.Chat

open Collections
open Projects (Clock)

/-! ## Settings -/

/-- `value or []`, where that is a list of names. -/
def names? : Json.Value → Option (List String)
  | .const .null => some []
  | .const .false => some []
  | .num (.int 0) => some []
  | .str "" => some []
  | .obj [] => some []
  | .arr items =>
    items.mapM fun
      | .str s => some s
      | _ => none
  | _ => none

theorem names?_arr (names : List String) : names? (.arr (names.map .str)) = some names := by
  have hmap : ∀ names : List String, ((names.map Json.Value.str).mapM fun
      | .str s => some s
      | _ => none) = some names := by
    intro names
    induction names with
    | nil => rfl
    | cons name names ih => simp [ih]
  exact hmap names

/-- A settings object; `muted` is a list of names, or empty. -/
structure Settings where
  entries : Dict String Json.Value
  muted : ∀ v, entries.get? "muted" = some v → (names? v).isSome = true

/-- `PHASE1_DEFAULT_SETTINGS`. -/
def phase1DefaultSettings : List (String × Json.Value) :=
  [("response_mode", .str "quiet"), ("max_hops", .num (.int 3)),
    ("cooldown_seconds", .num (.int 5)), ("rate_cap_per_minute", .num (.int 20)),
    ("muted", .arr [])]

/-- `settings.setdefault`. -/
def setdefault (d : Dict String Json.Value) (e : String × Json.Value) : Dict String Json.Value :=
  if (d.get? e.1).isSome then d else d.set e.1 e.2

/-- The settings of a channel that `_parse_channel` returns. -/
def withDefaults (entries : Dict String Json.Value) : Dict String Json.Value :=
  phase1DefaultSettings.foldl setdefault entries

/-- A default is read where nothing else is. -/
theorem get?_setdefault (d : Dict String Json.Value) (e : String × Json.Value) (k : String) :
    (setdefault d e).get? k = (d.get? k).or (if e.1 = k then some e.2 else none) := by
  unfold setdefault
  by_cases hk : e.1 = k
  · rw [← hk]
    cases hget : d.get? e.1 with
    | none => simp
    | some v => simp [hget]
  · split
    · simp
    · simp [Dict.get?_set_of_ne, hk]

/-- Defaults are read where nothing else is. -/
theorem get?_foldl_setdefault (es : List (String × Json.Value)) (d : Dict String Json.Value)
    (k : String) : (es.foldl setdefault d).get? k = (d.get? k).or (Dict.lookupIn k es) := by
  induction es generalizing d with
  | nil => simp [Dict.lookupIn]
  | cons e es ih =>
    rw [List.foldl_cons, ih, get?_setdefault, Option.or_assoc]
    congr 1
    by_cases hk : e.1 = k
    · simp [Dict.lookupIn, hk]
    · simp [Dict.lookupIn, hk]

/-- What is read is among the updates, or was there. -/
theorem get?_foldl_set_cases {d : Dict String Json.Value} {es : List (String × Json.Value)}
    {k : String} {v : Json.Value} (h : (es.foldl (fun d e => d.set e.1 e.2) d).get? k = some v) :
    (k, v) ∈ es ∨ d.get? k = some v := by
  induction es generalizing d with
  | nil => exact Or.inr h
  | cons e es ih =>
    rcases ih h with hmem | hget
    · exact Or.inl (List.mem_cons_of_mem e hmem)
    · rcases Dict.get?_set_cases hget with ⟨hk, hv⟩ | ⟨_, hget⟩
      · exact Or.inl (by rw [← hk, ← hv]; exact List.mem_cons_self)
      · exact Or.inr hget

namespace Settings

/-- `ch["settings"].get("muted") or []`. -/
def mutedNames (s : Settings) : List String :=
  (((withDefaults s.entries).get? "muted").bind names?).getD []

/-- What an update reads is of the one or of the other settings. -/
theorem get?_update_cases {s u : Settings} {k : String} {v : Json.Value}
    (h : (u.entries.entries.foldl (fun d e => d.set e.1 e.2) s.entries).get? k = some v) :
    u.entries.get? k = some v ∨ s.entries.get? k = some v := by
  rcases get?_foldl_set_cases h with hmem | hget
  · exact Or.inl (Dict.mem_entries_iff.mp hmem)
  · exact Or.inr hget

/-- An update leaves the muted names readable. -/
theorem muted_update (s u : Settings) (v : Json.Value)
    (h : (u.entries.entries.foldl (fun d e => d.set e.1 e.2) s.entries).get? "muted" = some v) :
    (names? v).isSome = true := by
  rcases get?_update_cases h with hu | hs
  · exact u.muted v hu
  · exact s.muted v hs

/-- `current.update(updates)`. -/
def update (s u : Settings) : Settings :=
  ⟨u.entries.entries.foldl (fun d e => d.set e.1 e.2) s.entries, muted_update s u⟩

/-- Names that are muted are readable. -/
theorem muted_set (names : List String) (v : Json.Value)
    (h : ((Dict.empty : Dict String Json.Value).set "muted" (.arr (names.map .str))).get? "muted" =
      some v) : (names? v).isSome = true := by
  rw [Dict.get?_set_self] at h
  rw [← Option.some.inj h, names?_arr]
  rfl

/-- The update of `muted` alone. -/
def mutedUpdate (names : List String) : Settings :=
  ⟨Dict.empty.set "muted" (.arr (names.map .str)), muted_set names⟩

/-- `sorted` of a set with one more name. -/
def muting (s : Settings) (slug : String) : List String :=
  (s.mutedNames ++ [slug]).dedup.insertionSort fun a b => a ≤ b

/-- `sorted` of a set without a name. -/
def unmuting (s : Settings) (slug : String) : List String :=
  (s.mutedNames.filter fun name => name ≠ slug).dedup.insertionSort fun a b => a ≤ b

end Settings

/-! ## Rows -/

/-- A row of `chat_channels`. -/
structure Channel where
  name : String
  type : String
  description : String
  topic : String
  members : List String
  settings : Settings
  createdBy : String
  createdAt : Clock
  lastMessageAt : Option Clock
  projectId : String

/-- The text of the `members` column. -/
def membersText (members : List String) : List Char :=
  Json.dumps (.arr (members.map .str))

/-- The text of the `settings` column. -/
def settingsText (settings : Settings) : List Char :=
  Json.dumps (.obj settings.entries.entries)

end TinyAgentOS.Chat
