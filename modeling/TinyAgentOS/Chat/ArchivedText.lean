import TinyAgentOS.Chat.Visibility
import TinyAgentOS.Library.JsonMarks

/-!
# Archived channels

A channel is archived where the marker is found in the text of its settings, in either case of its
letters.  It is found in one of the settings' entries or nowhere.

Main results:

- `isArchived_iff`: the marker is in an entry.
- `isArchived_update` and `isArchived_update_eq_false`: archived by an update, and not by one that
  leaves the marker out.
-/

namespace TinyAgentOS.Chat

open Collections Json Like

/-! ## The marker -/

/-- A letter of ASCII. -/
def IsLetter (c : Char) : Prop :=
  (65 ≤ c.toNat ∧ c.toNat ≤ 90) ∨ (97 ≤ c.toNat ∧ c.toNat ≤ 122)

theorem isLetter_of_toLower {c d : Char} (h : c.toLower = d) (hd : 97 ≤ d.toNat ∧ d.toNat ≤ 122) :
    IsLetter c := by
  have hnat := congrArg Char.toNat h
  rw [toNat_toLower] at hnat
  unfold IsLetter
  split at hnat <;> omega

variable {text : List Char}

/-- A text that is, in lower case, a word of letters has letters only. -/
theorem isLetter_of_fold {word : List Char} (h : fold text = word)
    (hword : word.all (fun d => 97 ≤ d.toNat && d.toNat ≤ 122) = true) :
    ∀ c ∈ text, IsLetter c := by
  intro c hc
  have hmem : c.toLower ∈ word := by
    rw [← h]
    exact List.mem_map_of_mem hc
  have hbounds := List.all_eq_true.mp hword _ hmem
  rw [Bool.and_eq_true, decide_eq_true_eq, decide_eq_true_eq] at hbounds
  exact isLetter_of_toLower rfl hbounds

theorem isPlain_of_isLetter {c : Char} (hc : IsLetter c) : isPlain c = true := by
  have hbounds : 32 ≤ c.val.toNat ∧ c.val.toNat ≤ 126 := by
    have hval : c.val.toNat = c.toNat := rfl
    unfold IsLetter at hc
    omega
  rw [isPlain_iff]
  refine ⟨?_, ?_, ?_⟩
  · simp only [isPrintable, Bool.and_eq_true, decide_eq_true_eq]
    exact ⟨UInt32.le_iff_toNat_le.mpr hbounds.1, UInt32.le_iff_toNat_le.mpr hbounds.2⟩
  · rintro rfl
    exact absurd hc (by unfold IsLetter; decide)
  · rintro rfl
    exact absurd hc (by unfold IsLetter; decide)

/-- The marker up to case: a key and a value. -/
structure IsMarker (key value : List Char) : Prop where
  key : fold key = ['a', 'r', 'c', 'h', 'i', 'v', 'e', 'd']
  value : fold value = ['t', 'r', 'u', 'e']

namespace IsMarker

variable {key value : List Char}

theorem letters_key (h : IsMarker key value) : ∀ c ∈ key, IsLetter c :=
  isLetter_of_fold h.key (by decide)

theorem letters_value (h : IsMarker key value) : ∀ c ∈ value, IsLetter c :=
  isLetter_of_fold h.value (by decide)

theorem value_ne_nil (h : IsMarker key value) : value ≠ [] := by
  rintro rfl
  have hvalue := h.value
  contradiction

/-- A separator is not in the marker. -/
theorem notMem_mark (h : IsMarker key value) {c : Char} (hc : ¬ IsLetter c)
    (hother : c ≠ '"' ∧ c ≠ ':' ∧ c ≠ ' ') : c ∉ mark key value :=
  Json.notMem_mark (fun hmem => hc (h.letters_key c hmem))
    (fun hmem => hc (h.letters_value c hmem)) hother

end IsMarker

/-- The text that the pattern names. -/
def markerText : List Char :=
  ['"', 'a', 'r', 'c', 'h', 'i', 'v', 'e', 'd', '"', ':', ' ', 't', 'r', 'u', 'e']

/-- The separators of the marker are not letters. -/
theorem uncased_separators : ∀ c ∈ ['"', ':', ' '],
    ¬ (65 ≤ c.toNat ∧ c.toNat ≤ 90) ∧ ¬ (97 ≤ c.toNat ∧ c.toNat ≤ 122) := by
  simp only [List.forall_mem_cons]
  refine ⟨?_, ?_, ?_, fun c hc => absurd hc List.not_mem_nil⟩
  · decide
  · decide
  · decide

theorem fold_eq_markerText_iff :
    fold text = fold markerText ↔ ∃ key value, IsMarker key value ∧ text = mark key value := by
  have hsplit : fold markerText =
      ['"'] ++ (['a', 'r', 'c', 'h', 'i', 'v', 'e', 'd'] ++ (['"', ':', ' '] ++
        ['t', 'r', 'u', 'e'])) := by decide
  rw [hsplit]
  constructor
  · intro h
    obtain ⟨q, rest, rfl, hq, hrest⟩ := List.map_eq_append_iff.mp h
    obtain ⟨key, rest, rfl, hkey, hrest⟩ := List.map_eq_append_iff.mp hrest
    obtain ⟨middle, value, rfl, hmiddle, hvalue⟩ := List.map_eq_append_iff.mp hrest
    have hquotation : fold q = fold ['"'] := hq
    have hcolon : fold middle = fold ['"', ':', ' '] := hmiddle
    refine ⟨key, value, ⟨hkey, hvalue⟩, ?_⟩
    have hquotation : q = ['"'] := eq_of_fold_eq hquotation fun c hc =>
      uncased_separators c (List.mem_cons.mpr (Or.inl (List.mem_singleton.mp hc)))
    have hcolon : middle = ['"', ':', ' '] := eq_of_fold_eq hcolon uncased_separators
    rw [hquotation, hcolon, mark_eq]
    simp
  · rintro ⟨key, value, h, rfl⟩
    have hkey := h.key
    have hvalue := h.value
    simp only [fold] at hkey hvalue ⊢
    rw [mark_eq, List.map_cons, List.map_append, hkey, List.map_cons, List.map_cons, List.map_cons,
      hvalue]
    decide

/-- The pattern finds the marker, up to case. -/
theorem like_archivedPattern_iff (htext : '\x00' ∉ text) : like archivedPattern text = true ↔
      ∃ key value, IsMarker key value ∧ mark key value <:+: text := by
  have hpattern : (cut archivedPattern).map piece =
      .star :: (markerText.map piece ++ [.star]) := rfl
  rw [like, cut_of_notMem htext, hpattern, Glob.accepts_star_cons]
  constructor
  · rintro ⟨u, v, rfl, hv⟩
    obtain ⟨x, w, rfl, hx, _⟩ := (Glob.accepts_append _ _ _).mp hv
    obtain ⟨key, value, h, rfl⟩ :=
      fold_eq_markerText_iff.mp ((accepts_pieces_iff (by decide) x).mp hx)
    exact ⟨key, value, h, u, w, by simp⟩
  · rintro ⟨key, value, h, u, w, rfl⟩
    refine ⟨u, mark key value ++ w, by simp, (Glob.accepts_append _ _ _).mpr
      ⟨mark key value, w, rfl, ?_, Glob.accepts_star w⟩⟩
    exact (accepts_pieces_iff (by decide) _).mpr (fold_eq_markerText_iff.mpr ⟨key, value, h, rfl⟩)

/-! ## Entries -/

theorem nul_notMem (h : ∀ d ∈ text, isPrintable d = true) : '\x00' ∉ text := by
  intro hmem
  exact absurd (h _ hmem) (by decide)

theorem nul_notMem_fieldText (e : String × Value) : '\x00' ∉ fieldText e :=
  nul_notMem (isPrintable_fieldText (isPrintable_of_mem_dumps e.2))

/-- The condition of a list of archived channels. -/
def isArchived (settings : Settings) : Bool :=
  like archivedPattern (settingsText settings)

/-- The marker is in the text of an entry. -/
def marksArchived (e : String × Value) : Bool :=
  like archivedPattern (fieldText e)

/-- A channel is archived by one of its settings. -/
theorem isArchived_iff (settings : Settings) :
    isArchived settings = true ↔
      ∃ k v, settings.entries.get? k = some v ∧ marksArchived (k, v) = true := by
  have hsettings : '\x00' ∉ settingsText settings := nul_notMem (isPrintable_of_mem_dumps _)
  have hcomma : ¬ IsLetter ',' := by unfold IsLetter; decide
  have hclose : ¬ IsLetter '}' := by unfold IsLetter; decide
  rw [isArchived, like_archivedPattern_iff hsettings]
  constructor
  · rintro ⟨key, value, h, hfound⟩
    obtain ⟨⟨k, v⟩, he, hfield⟩ := (mark_infix_dumps_obj_iff (h.notMem_mark hcomma (by decide))
      (h.notMem_mark hclose (by decide)) _).mp hfound
    exact ⟨k, v, Dict.mem_entries_iff.mp he,
      (like_archivedPattern_iff (nul_notMem_fieldText _)).mpr ⟨key, value, h, hfield⟩⟩
  · rintro ⟨k, v, hget, hmarked⟩
    obtain ⟨key, value, h, hfield⟩ :=
      (like_archivedPattern_iff (nul_notMem_fieldText _)).mp hmarked
    exact ⟨key, value, h, (mark_infix_dumps_obj_iff (h.notMem_mark hcomma (by decide))
      (h.notMem_mark hclose (by decide)) _).mpr ⟨(k, v), Dict.mem_entries_iff.mpr hget, hfield⟩⟩

/-- A list of names does not archive a channel. -/
theorem marksArchived_names (k : String) (names : List String) :
    marksArchived (k, .arr (names.map .str)) = false := by
  have hcomma : ¬ IsLetter ',' := by unfold IsLetter; decide
  have hopen : ¬ IsLetter '[' := by unfold IsLetter; decide
  have hclose : ¬ IsLetter ']' := by unfold IsLetter; decide
  by_contra hmarked
  rw [Bool.not_eq_false] at hmarked
  obtain ⟨key, value, h, hfield⟩ := (like_archivedPattern_iff (nul_notMem_fieldText _)).mp hmarked
  exact not_mark_infix_fieldText_names (fun c hc => isPlain_of_isLetter (h.letters_key c hc))
    (h.notMem_mark hcomma (by decide)) (h.notMem_mark hopen (by decide))
    (h.notMem_mark hclose (by decide)) h.value_ne_nil k names hfield

theorem marksArchived_archived : marksArchived ("archived", .const .true) = true := by
  decide

/-- The defaults do not archive a channel. -/
theorem marksArchived_phase1DefaultSettings :
    ∀ e ∈ phase1DefaultSettings, marksArchived e = false := by
  decide

/-! ## Updates -/

theorem get?_foldl_set {es : List (String × Value)} (hnodup : (es.map Prod.fst).Nodup)
    (d : Dict String Value) (k : String) :
    (es.foldl (fun d e => d.set e.1 e.2) d).get? k = (Dict.lookupIn k es).or (d.get? k) := by
  induction es generalizing d with
  | nil => rfl
  | cons e es ih =>
    rw [List.map_cons, List.nodup_cons] at hnodup
    rw [List.foldl_cons, ih hnodup.2]
    by_cases hk : e.1 = k
    · subst hk
      rw [Dict.lookupIn_eq_none hnodup.1, Dict.get?_set_self, Option.none_or]
      simp [Dict.lookupIn]
    · rw [Dict.get?_set_of_ne _ _ hk]
      simp [Dict.lookupIn, hk]

/-- An update has the entries that it is given, and the others as they were. -/
theorem Settings.get?_update (s u : Settings) (k : String) :
    (s.update u).entries.get? k = (u.entries.get? k).or (s.entries.get? k) :=
  get?_foldl_set u.entries.nodup s.entries k

theorem isArchived_update {s u : Settings}
    (hu : u.entries.get? "archived" = some (.const .true)) : isArchived (s.update u) = true := by
  rw [isArchived_iff]
  refine ⟨"archived", .const .true, ?_, marksArchived_archived⟩
  rw [Settings.get?_update, hu, Option.some_or]

/-- An update that does not mark leaves a channel as it is. -/
theorem isArchived_update_eq_false {s u : Settings} (hs : isArchived s = false)
    (hu : ∀ k v, u.entries.get? k = some v → s.entries.get? k = some v ∨
      marksArchived (k, v) = false) : isArchived (s.update u) = false := by
  by_contra harchived
  rw [Bool.not_eq_false, isArchived_iff] at harchived
  obtain ⟨k, v, hget, hmarked⟩ := harchived
  have hold : s.entries.get? k = some v := by
    rcases Settings.get?_update_cases hget with hnew | hold
    · rcases hu k v hnew with hold | hclear
      · exact hold
      · rw [hmarked] at hclear
        contradiction
    · exact hold
  have hstill : isArchived s = true := (isArchived_iff s).mpr ⟨k, v, hold, hmarked⟩
  rw [hs] at hstill
  contradiction

end TinyAgentOS.Chat
