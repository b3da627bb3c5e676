import TinyAgentOS.Library.Glob
import TinyAgentOS.Registry.AgentRegistry

/-!
# Agents by slug

An agent is looked up by its slug: the canonical id must begin with the slug, a date and
a time, and may go on in any way.  A longer slug can look like that itself.

Main results:

- `accepts_candidate_iff`: the ids that the pattern of a slug accepts.
- `RegistryState.lookupExact_iff`: the lookup is exact in exactly the states where an older agent
  of the slug stands before every active one whose id only looks like it.
- `RegistryState.not_lookupExact`: an agent is found under a slug it does not have.
-/

namespace TinyAgentOS.Registry

open Collections Transition
open Glob (Piece accepts literal accepts_literal_append accepts_replicate_append accepts_star
  cut_of_append_eq cut_of_notMem)

/-- The check `[a-z0-9][a-z0-9-]*`. -/
def isSlugText : List Char → Bool
  | [] => false
  | c :: cs => isSlugChar c && cs.all fun d => d == '-' || isSlugChar d

/-- The `GLOB` pattern of `get_by_slug`. -/
def slugPattern (slug : List Char) : List (Piece Char) :=
  literal (slug ++ ['-']) ++ (List.replicate 8 (.one Char.isDigit) ++
    (literal ['-'] ++ (List.replicate 6 (.one Char.isDigit) ++ [.star])))

/-- So many digits. -/
def Digits (n : Nat) (text : List Char) : Prop :=
  text.length = n ∧ ∀ c ∈ text, c.isDigit = true

/-- A slug that goes on from another with a date, or with a date and a time and more. -/
def Mimics (slug short : List Char) : Prop :=
  (∃ date, Digits 8 date ∧ slug = short ++ '-' :: date) ∨
    ∃ date time rest, Digits 8 date ∧ Digits 6 time ∧
      slug = short ++ '-' :: (date ++ '-' :: (time ++ rest))

/-! ## The ids a pattern accepts -/

variable {n : Nat} {short : List Char}

theorem Digits.dash_notMem {text : List Char} (h : Digits n text) : '-' ∉ text := by
  intro hmem
  exact absurd (h.2 _ hmem) (by decide)

theorem digits_datePart (ts : Datetime) : Digits 8 ts.datePart :=
  ⟨ts.length_datePart, fun _ hc => Datetime.isDigit_of_mem_datePart hc⟩

theorem digits_timePart (ts : Datetime) : Digits 6 ts.timePart :=
  ⟨ts.length_timePart, fun _ hc => Datetime.isDigit_of_mem_timePart hc⟩

theorem accepts_slugPattern_iff (slug text : List Char) :
    accepts (slugPattern slug) text = true ↔
      ∃ date time rest, Digits 8 date ∧ Digits 6 time ∧
        text = slug ++ '-' :: (date ++ '-' :: (time ++ rest)) := by
  simp only [slugPattern, accepts_literal_append, accepts_replicate_append]
  constructor
  · rintro ⟨_, rfl, date, _, rfl, hdate, hdate', _, rfl, time, rest, rfl, htime, htime', _⟩
    exact ⟨date, time, rest, ⟨hdate, hdate'⟩, ⟨htime, htime'⟩, by simp⟩
  · rintro ⟨date, time, rest, ⟨hdate, hdate'⟩, ⟨htime, htime'⟩, rfl⟩
    exact ⟨_, by simp, date, _, rfl, hdate, hdate', _, rfl, time, rest, rfl, htime, htime',
      accepts_star rest⟩

theorem toList_candidate (slug : Slug) (ts : Datetime) (n : Nat) : (candidate slug ts n).toList =
      slug.chars ++ '-' :: (ts.datePart ++ '-' :: (ts.timePart ++ suffix n)) := by
  simp [candidate, mintCanonicalId]

/-- No part of what follows the slug of an id looks like the end of a longer slug, a date and a
time. -/
theorem not_longer {ts : Datetime} {word date time rest : List Char} (hdate : Digits 8 date) :
    ts.datePart ++ '-' :: (ts.timePart ++ suffix n) ≠
      word ++ '-' :: (date ++ '-' :: (time ++ rest)) := by
  intro h
  -- after the time stands nothing, or a dash and no other
  have hend : ∀ {v r}, ts.timePart ++ suffix n = v ++ '-' :: r → v = ts.timePart ∧ '-' ∉ r := by
    intro v r heq
    obtain ⟨w, rfl, hw⟩ := cut_of_notMem (digits_timePart ts).dash_notMem heq
    rcases suffix_ne_dash n with hnil | ⟨digits, hdigits, hdash⟩
    · rw [hnil] at hw
      simp at hw
    · rw [hdigits] at hw
      cases w with
      | nil => exact ⟨List.append_nil _, fun hmem => hdash _ ((List.cons.inj hw).2 ▸ hmem) rfl⟩
      | cons c w =>
        have hmem : '-' ∈ digits := by
          rw [(List.cons.inj hw).2]
          simp
        exact absurd rfl (hdash _ hmem)
  rcases cut_of_append_eq (digits_datePart ts).dash_notMem h with ⟨_, htail⟩ | ⟨w, _, htail⟩
  · have hlength := congrArg List.length (hend htail).1
    rw [hdate.1, ts.length_timePart] at hlength
    contradiction
  · exact (hend htail).2 (by simp)

/-- The pattern of a slug accepts the ids minted from it, and those minted from a slug that goes on
like an id. -/
theorem accepts_candidate_iff (short : List Char) (slug : Slug) (ts : Datetime) (n : Nat) :
    accepts (slugPattern short) (candidate slug ts n).toList = true ↔
      slug.chars = short ∨ Mimics slug.chars short := by
  rw [accepts_slugPattern_iff, toList_candidate]
  constructor
  · rintro ⟨date, time, rest, hdate, htime, heq⟩
    rcases List.append_eq_append_iff.mp heq with ⟨word, hshort, htail⟩ | ⟨word, hslug, htail⟩
    · -- the slug is the shorter
      cases word with
      | nil => exact Or.inl (by rw [hshort, List.append_nil])
      | cons c word => exact absurd (List.cons.inj htail).2 (not_longer hdate)
    · cases word with
      | nil => exact Or.inl (by rw [hslug, List.append_nil])
      | cons c word =>
        obtain ⟨rfl, hcut⟩ := List.cons.inj htail
        refine Or.inr ?_
        rcases cut_of_append_eq hdate.dash_notMem hcut with ⟨rfl, _⟩ | ⟨w, rfl, hw⟩
        · exact Or.inl ⟨word, hdate, hslug⟩
        · obtain ⟨v, rfl, _⟩ := cut_of_notMem htime.dash_notMem hw
          exact Or.inr ⟨date, time, v, hdate, htime, hslug⟩
  · rintro (rfl | ⟨date, hdate, hslug⟩ | ⟨date, time, rest, hdate, htime, hslug⟩)
    · exact ⟨ts.datePart, ts.timePart, suffix n, digits_datePart ts, digits_timePart ts, rfl⟩
    · -- the date of the registration is taken for a time
      have hsix : Digits 6 (ts.datePart.take 6) := by
        refine ⟨by simp, fun c hc => ?_⟩
        exact Datetime.isDigit_of_mem_datePart (List.mem_of_mem_take hc)
      refine ⟨date, ts.datePart.take 6,
        ts.datePart.drop 6 ++ '-' :: (ts.timePart ++ suffix n), hdate, hsix, ?_⟩
      rw [hslug, ← List.append_assoc (ts.datePart.take 6), List.take_append_drop]
      simp
    · refine ⟨date, time, rest ++ '-' :: (ts.datePart ++ '-' :: (ts.timePart ++ suffix n)),
        hdate, htime, ?_⟩
      rw [hslug]
      simp

theorem isSlugText_chars (slug : Slug) : isSlugText slug.chars = true := by
  obtain ⟨c, rest, hchars, hc⟩ := slug.head_chars
  rw [hchars, isSlugText, hc, Bool.true_and, List.all_eq_true]
  intro d hd
  rw [Bool.or_eq_true, beq_iff_eq]
  exact slug.slugChar_of_mem d (by rw [hchars]; exact List.mem_cons_of_mem c hd)

/-- What a slug goes on from is itself the text of a slug. -/
theorem isSlugText_of_mimics {slug : Slug} (h : Mimics slug.chars short) :
    isSlugText short = true := by
  obtain ⟨rest, hslug⟩ : ∃ rest, slug.chars = short ++ '-' :: rest := by
    rcases h with ⟨date, _, hslug⟩ | ⟨date, time, rest, _, _, hslug⟩
    · exact ⟨date, hslug⟩
    · exact ⟨_, hslug⟩
  have htext := isSlugText_chars slug
  rw [hslug] at htext
  cases short with
  | nil => exact absurd htext Bool.false_ne_true
  | cons c short =>
    rw [List.cons_append, isSlugText, List.all_append, Bool.and_eq_true,
      Bool.and_eq_true] at htext
    rw [isSlugText, htext.1, htext.2.1, Bool.and_self]

theorem Mimics.ne {slug : List Char} (h : Mimics slug short) : slug ≠ short := by
  intro heq
  have hlength := congrArg List.length heq
  rcases h with ⟨date, _, rfl⟩ | ⟨date, time, rest, _, _, rfl⟩
  · simp at hlength
  · simp at hlength

namespace RegistryState

/-- `get_by_slug`: the oldest agent whose canonical id the pattern accepts. -/
def getBySlug (s : RegistryState) (slug : String) (status : Option Status := some .active) :
    Option (String × Agent) :=
  if isSlugText slug.toList then
    s.agents.entries.find? fun e =>
      accepts (slugPattern slug.toList) e.1.toList &&
        status.all fun status => decide (e.2.status = status)
  else none

/-- Every canonical id was minted from the slug that is recorded. -/
def Minted (s : RegistryState) : Prop :=
  ∀ canonicalId row, s.agents.get? canonicalId = some row →
    ∃ slug ts n, s.slugs.get? canonicalId = some slug ∧ canonicalId = candidate slug ts n

/-- The lookup returns agents of the slug alone, and one where there is an active one. -/
structure LookupExact (s : RegistryState) : Prop where
  returns : ∀ text canonicalId row, s.getBySlug text = some (canonicalId, row) →
    ∃ slug, s.slugs.get? canonicalId = some slug ∧ slug.chars = text.toList
  found : ∀ slug canonicalId row, s.agents.get? canonicalId = some row →
    row.status = .active → s.slugs.get? canonicalId = some slug →
      (s.getBySlug (String.ofList slug.chars)).isSome = true

/-- Before every active agent whose slug goes on like an id from a shorter text stands an active
agent of that text. -/
def NotShadowed (s : RegistryState) : Prop :=
  ∀ before canonicalId row after, s.agents.entries = before ++ (canonicalId, row) :: after →
    row.status = .active → ∀ slug, s.slugs.get? canonicalId = some slug →
      ∀ short, Mimics slug.chars short →
        ∃ e ∈ before, e.2.status = .active ∧
          ∃ slug', s.slugs.get? e.1 = some slug' ∧ slug'.chars = short

/-! ## Statements -/

theorem minted_init : init.Minted := by
  intro canonicalId row hget
  contradiction

variable {e : String × Agent} {s : RegistryState}

theorem Minted.step {s' : RegistryState} {e : RegistryEvent} (h : s.Minted)
    (hstep : s.step e = some s') : s'.Minted := by
  intro x row hget
  cases effect_of_step hstep with
  | none hagents hslugs =>
    rw [hagents] at hget
    rw [hslugs]
    exact h x row hget
  | rewrite hbefore _ hagents hslugs =>
    rw [hagents] at hget
    rw [hslugs]
    rcases Dict.get?_set_cases hget with ⟨rfl, _⟩ | ⟨_, hold⟩
    · exact h _ _ hbefore
    · exact h x row hold
  | @insert _ _ _ slug now tries _ _ hagents hslugs =>
    rw [hagents] at hget
    rw [hslugs]
    rcases Dict.get?_set_cases hget with ⟨rfl, _⟩ | ⟨hne, hold⟩
    · exact ⟨slug, now, tries, Dict.get?_set_self _ _ _, rfl⟩
    · rw [Dict.get?_set_of_ne _ _ hne]
      exact h x row hold

/-! ## The lookup -/

/-- The active agents that the pattern of a text accepts. -/
theorem Minted.matches_iff (h : s.Minted) (hmem : e ∈ s.agents.entries) (short : List Char) :
    accepts (slugPattern short) e.1.toList = true ↔
      ∃ slug, s.slugs.get? e.1 = some slug ∧ (slug.chars = short ∨ Mimics slug.chars short) := by
  obtain ⟨slug, ts, n, hslug, hid⟩ := h e.1 e.2 (Dict.mem_entries_iff.mp hmem)
  have haccepts := accepts_candidate_iff short slug ts n
  rw [← hid] at haccepts
  rw [haccepts]
  constructor
  · exact fun hmatch => ⟨slug, hslug, hmatch⟩
  · rintro ⟨slug', hslug', hmatch⟩
    rw [hslug] at hslug'
    cases hslug'
    exact hmatch

/-- The lookup returns the first active agent that the pattern accepts. -/
theorem getBySlug_eq_some_iff {text : String} (htext : isSlugText text.toList = true) :
    s.getBySlug text = some e ↔
      (accepts (slugPattern text.toList) e.1.toList = true ∧ e.2.status = .active) ∧
        ∃ before after, s.agents.entries = before ++ e :: after ∧
          ∀ d ∈ before, d.2.status = .active →
            accepts (slugPattern text.toList) d.1.toList = false := by
  rw [getBySlug, if_pos htext, List.find?_eq_some_iff_append]
  simp only [Option.all_some, Bool.and_eq_true, decide_eq_true_eq, Bool.not_eq_true',
    Bool.and_eq_false_iff, decide_eq_false_iff_not, or_comm, ← imp_iff_not_or]

/-- The lookup finds every active agent of a slug, or an older one. -/
theorem Minted.found (h : s.Minted) {slug : Slug} {canonicalId : String}
    {row : Agent} (hget : s.agents.get? canonicalId = some row) (hactive : row.status = .active)
    (hslug : s.slugs.get? canonicalId = some slug) :
    (s.getBySlug (String.ofList slug.chars)).isSome = true := by
  have hmem : (canonicalId, row) ∈ s.agents.entries := Dict.mem_entries_iff.mpr hget
  have hmatch : accepts (slugPattern slug.chars) canonicalId.toList = true :=
    (h.matches_iff hmem slug.chars).mpr ⟨slug, hslug, Or.inl rfl⟩
  rw [getBySlug, String.toList_ofList, if_pos (isSlugText_chars slug), List.find?_isSome]
  exact ⟨_, hmem, by simp [hmatch, hactive]⟩

/-- Of two elements of a list one stands before the other, or they are the same. -/
theorem eq_or_mem_of_append_eq {α : Type} {x y : α} {before before' after after' : List α}
    (h : before ++ x :: after = before' ++ y :: after') : x = y ∨ x ∈ before' ∨ y ∈ before := by
  rcases List.append_eq_append_iff.mp h with ⟨word, rfl, hrest⟩ | ⟨word, rfl, hrest⟩
  · cases word with
    | nil => exact Or.inl (List.cons.inj hrest).1
    | cons d word =>
      rw [(List.cons.inj hrest).1]
      exact Or.inr (Or.inl (List.mem_append_right _ List.mem_cons_self))
  · cases word with
    | nil => exact Or.inl (List.cons.inj hrest).1.symm
    | cons d word =>
      rw [(List.cons.inj hrest).1]
      exact Or.inr (Or.inr (List.mem_append_right _ List.mem_cons_self))

/-- The lookup is exact where every agent that looks like another's is preceded by one. -/
theorem Minted.exact_iff_notShadowed (h : s.Minted) : s.LookupExact ↔ s.NotShadowed := by
  constructor
  · intro hexact before canonicalId row after hentries hactive slug hslug short hmimics
    have hmem : (canonicalId, row) ∈ s.agents.entries := by
      rw [hentries]
      exact List.mem_append_right _ List.mem_cons_self
    have hmatch : accepts (slugPattern short) canonicalId.toList = true :=
      (h.matches_iff hmem short).mpr ⟨slug, hslug, Or.inr hmimics⟩
    have htext : isSlugText (String.ofList short).toList = true := by
      rw [String.toList_ofList]
      exact isSlugText_of_mimics hmimics
    have hsome : (s.getBySlug (String.ofList short)).isSome = true := by
      rw [getBySlug, if_pos htext, List.find?_isSome, String.toList_ofList]
      exact ⟨_, hmem, by simp [hmatch, hactive]⟩
    obtain ⟨e, he⟩ := Option.isSome_iff_exists.mp hsome
    obtain ⟨slug', hslug', hchars⟩ := hexact.returns _ e.1 e.2 he
    rw [String.toList_ofList] at hchars
    obtain ⟨⟨_, hstatus⟩, before', after', hentries', hfirst⟩ :=
      (getBySlug_eq_some_iff htext).mp he
    rw [String.toList_ofList] at hfirst
    -- the agent found stands before the one that only looks like it
    rcases eq_or_mem_of_append_eq (hentries.symm.trans hentries') with rfl | hd | hbefore
    · rw [hslug] at hslug'
      cases hslug'
      exact absurd hchars hmimics.ne
    · rw [hfirst _ hd hactive] at hmatch
      contradiction
    · exact ⟨e, hbefore, hstatus, slug', hslug', hchars⟩
  · intro hshadow
    refine ⟨?_, fun slug canonicalId row hget hactive hslug => h.found hget hactive hslug⟩
    intro text canonicalId row hfound
    by_cases htext : isSlugText text.toList = true
    · obtain ⟨⟨hmatch, hactive⟩, before, after, hentries, hfirst⟩ :=
        (getBySlug_eq_some_iff htext).mp hfound
      have hmem : (canonicalId, row) ∈ s.agents.entries := by
        rw [hentries]
        exact List.mem_append_right _ List.mem_cons_self
      obtain ⟨slug, hslug, hchars | hmimics⟩ := (h.matches_iff hmem _).mp hmatch
      · exact ⟨slug, hslug, hchars⟩
      · obtain ⟨e, he, hstatus, slug', hslug', hchars⟩ :=
          hshadow before canonicalId row after hentries hactive slug hslug _ hmimics
        have hearlier : e ∈ s.agents.entries := by
          rw [hentries]
          exact List.mem_append_left _ he
        have haccepted := (h.matches_iff hearlier text.toList).mpr ⟨slug', hslug', Or.inl hchars⟩
        rw [hfirst e he hstatus] at haccepted
        contradiction
    · rw [getBySlug, if_neg htext] at hfound
      contradiction

/-! ## Runs -/

/-- The lookup is exact in exactly the reachable states where no agent is shadowed. -/
theorem lookupExact_iff {es : List RegistryEvent} {s : RegistryState}
    (hrun : run step init es = some s) : s.LookupExact ↔ s.NotShadowed :=
  have hminted := invariant_of_run (fun _ _ _ h hstep => Minted.step h hstep) minted_init hrun
  hminted.exact_iff_notShadowed

/-- An agent of a name is registered at noon. -/
def registered (displayName : String) : List RegistryEvent :=
  [.registerCalled 0 { framework := "openclaw", displayName := displayName } (stamp 0),
    .probed 0, .inserted 0]

/-- After it, two more: one with its name, and one whose slug only looks like its own. -/
def namesakes : List RegistryEvent :=
  registered "alpha" ++
    [.registerCalled 1 { framework := "openclaw", displayName := "Alpha" } (stamp 1), .probed 1,
      .inserted 1,
      .registerCalled 2 { framework := "openclaw", displayName := "alpha 20250101 120000" }
        (stamp 2), .probed 2, .inserted 2]

theorem lookupExact_registered : ∃ s, run step init namesakes = some s ∧
    s.agents.keys.length = 3 ∧ (s.LookupExact ↔ s.NotShadowed) :=
  ⟨_, rfl, rfl, lookupExact_iff (rfl : run step init namesakes = some _)⟩

/-- An agent whose name ends like a canonical id is found under the name before the date. -/
theorem not_lookupExact :
    ∃ s, run step init (registered "alpha 20250101 120000") = some s ∧ ¬s.LookupExact := by
  refine ⟨_, rfl, ?_⟩
  intro hexact
  obtain ⟨slug, hslug, hchars⟩ :=
    hexact.returns "alpha" "alpha-20250101-120000-20260101-120000" _ rfl
  cases hslug
  exact absurd hchars (by decide)

end RegistryState

end TinyAgentOS.Registry
