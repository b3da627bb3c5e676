import TinyAgentOS.Chat.Channels
import TinyAgentOS.Chat.Messages
import TinyAgentOS.Library.JsonSearch
import TinyAgentOS.Library.Like

/-!
# Whose channels are listed

The channels of a member are searched for in the text of the `members` column, by a
pattern around the id.  The text has escapes where the id has other characters, and the
pattern has wildcards and knows no case.

Main results:

- `like_memberPattern_iff`: what the pattern finds is a stretch of the text behind a quotation
  mark.
- `like_members_iff`: which lists of members it is found in.
- `ChatTables.exact_iff`: when the channels of an id are those it is a member of.
- `ChatTables.not_exact`: a member that is not found, and ids that are found as others.
-/

namespace TinyAgentOS.Chat

open Collections Like
open Projects (Clock)

/-! ## Queries -/

/-- The pattern of an id in quotation marks, anywhere. -/
def memberPattern (memberId : String) : String :=
  String.ofList ('%' :: '"' :: (memberId.toList ++ ['"', '%']))

/-- The marker of an archived channel. -/
def archivedPattern : List Char :=
  ['%', '"', 'a', 'r', 'c', 'h', 'i', 'v', 'e', 'd', '"', ':', ' ', 't', 'r', 'u', 'e', '%']

/-- The muted names are readable among the defaults. -/
theorem isSome_withDefaults (s : Settings) (v : Json.Value)
    (h : (withDefaults s.entries).get? "muted" = some v) : (names? v).isSome = true := by
  rw [withDefaults, get?_foldl_setdefault, Option.or_eq_some_iff] at h
  rcases h with h | ⟨_, h⟩
  · exact s.muted v h
  · have hdefault : Dict.lookupIn "muted" phase1DefaultSettings = some (.arr []) := by
      simp [phase1DefaultSettings, Dict.lookupIn]
    rw [hdefault] at h
    rw [← Option.some.inj h]
    rfl

/-- `_parse_channel`. -/
def parseChannel (ch : Channel) : Channel :=
  { ch with settings := ⟨withDefaults ch.settings.entries, isSome_withDefaults ch.settings⟩ }

/-- The condition on `members`. -/
def memberLike (memberId : String) (ch : Channel) : Option Bool :=
  like? (memberPattern memberId) (membersText ch.members)

/-- The conditions on `project_id` and `settings`. -/
def otherConditions (projectId : Option String) (archived : Option Bool) (ch : Channel) : Bool :=
  projectId.all (fun projectId => ch.projectId = projectId) &&
    archived.all (fun archived => like archivedPattern (settingsText ch.settings) = archived)

/-- The `WHERE` of `list_channels`; an error of the first condition is one of all. -/
def listed (memberId : Option String) (projectId : Option String) (archived : Option Bool)
    (ch : Channel) : Option Bool := do
  let found ← match memberId with
    | none => some true
    | some memberId => memberLike memberId ch
  return found && otherConditions projectId archived ch

/-- The rows of which a condition holds, unless it is an error of one. -/
def selectRows (p : Channel → Option Bool) :
    List (String × Channel) → Option (List (String × Channel))
  | [] => some []
  | row :: rows => do
      let found ← p row.2
      let rest ← selectRows p rows
      return if found then row :: rest else rest

/-- The tables of channels, read positions and messages. -/
structure ChatTables where
  channels : Dict String Channel
  readPositions : Dict (String × String) Clock
  messages : Dict String Message

namespace ChatTables

def listChannels (t : ChatTables) (memberId : Option String := none)
    (archived : Option Bool := none) (projectId : Option String := none) :
    Option (List (String × Channel)) := do
  let rows ← selectRows (listed memberId projectId archived) t.channels.entries
  let sorted := rows.insertionSort fun a b => a.2.createdAt ≤ b.2.createdAt
  return sorted.map fun row => (row.1, parseChannel row.2)

/-- The messages of a channel since the user's read position. -/
def unreadCount (t : ChatTables) (userId chId : String) : Nat :=
  let lastReadAt := (t.readPositions.get? (userId, chId)).getD 0
  t.messages.count fun msg => msg.channelId = chId && lastReadAt < msg.createdAt

/-- `get_unread_counts`. -/
def getUnreadCounts (t : ChatTables) (userId : String) : Option (List (String × Nat)) := do
  let rows ← selectRows (memberLike userId) t.channels.entries
  return rows.map fun row => (row.1, t.unreadCount userId row.1)

/-- The id is a member of the channels that it is listed with, and of these only. -/
def Exact (t : ChatTables) (memberId : String) : Prop :=
  (∀ archived projectId, ∃ rows, t.listChannels (some memberId) archived projectId = some rows ∧
    ∀ id ch, (id, ch) ∈ rows ↔ ∃ row, t.channels.get? id = some row ∧ memberId ∈ row.members ∧
      otherConditions projectId archived row = true ∧ ch = parseChannel row) ∧
  ∃ counts, t.getUnreadCounts memberId = some counts ∧
    ∀ id, id ∈ counts.map Prod.fst ↔
      ∃ row, t.channels.get? id = some row ∧ memberId ∈ row.members

end ChatTables

/-! ## What the pattern finds -/

/-- The text is one behind a quotation mark, and up to another one, or, where the id has a NUL,
up to the end. -/
def IsStretch (memberId : String) (text x : List Char) : Prop :=
  if '\x00' ∈ memberId.toList then '"' :: x <:+ text else Json.quoted x <:+: text

theorem notMem_membersText (members : List String) : '\x00' ∉ membersText members := by
  intro h
  have hprintable := Json.isPrintable_of_mem_dumps_names h
  contradiction

/-- A quotation mark matches itself alone. -/
theorem piece_quotation (text : List Char) :
    Glob.accepts [piece '"'] text = true ↔ text = ['"'] := by
  rw [accepts_piece_iff (by decide)]
  constructor
  · rintro ⟨d, rest, rfl, hd, hrest⟩
    rw [eq_of_toLower_eq hd (by decide) (by decide), List.isEmpty_iff.mp hrest]
  · rintro rfl
    exact ⟨'"', [], rfl, rfl, rfl⟩

variable {text x : List Char} {c d : Char} {p : Channel → Option Bool}

/-- A pattern from a quotation mark on. -/
theorem accepts_quotation_append {ps : List (Glob.Piece Char)} :
    Glob.accepts (.star :: piece '"' :: ps) text = true ↔
      ∃ x, '"' :: x <:+ text ∧ Glob.accepts ps x = true := by
  rw [Glob.accepts_star_cons]
  constructor
  · rintro ⟨u, v, rfl, hv⟩
    rw [← List.singleton_append] at hv
    obtain ⟨q, x, rfl, hq, hx⟩ := (Glob.accepts_append _ _ _).mp hv
    obtain rfl := (piece_quotation q).mp hq
    exact ⟨x, List.suffix_append u _, hx⟩
  · rintro ⟨x, ⟨u, rfl⟩, hx⟩
    refine ⟨u, '"' :: x, rfl, ?_⟩
    rw [← List.singleton_append]
    exact (Glob.accepts_append _ _ _).mpr ⟨['"'], x, rfl, (piece_quotation _).mpr rfl, hx⟩

/-- What the pattern finds is a stretch of the text that matches the id. -/
theorem like_memberPattern_iff (memberId : String) (htext : '\x00' ∉ text) :
    like (memberPattern memberId).toList text = true ↔
      ∃ x, IsStretch memberId text x ∧
        Glob.accepts ((cut memberId.toList).map piece) x = true := by
  have hstar : piece '%' = .star := rfl
  rw [like, cut_of_notMem htext, memberPattern, String.toList_ofList]
  have hstart : cut ('%' :: '"' :: (memberId.toList ++ ['"', '%'])) =
      '%' :: '"' :: cut (memberId.toList ++ ['"', '%']) :=
    cut_append (u := ['%', '"']) (by decide) _
  rw [hstart, List.map_cons, List.map_cons, hstar, accepts_quotation_append]
  by_cases hnul : '\x00' ∈ memberId.toList
  · simp only [IsStretch, if_pos hnul, cut_append_of_mem hnul]
  · have hend : cut (memberId.toList ++ ['"', '%']) = cut memberId.toList ++ ['"', '%'] := by
      rw [cut_append hnul, cut_of_notMem hnul]
      rfl
    simp only [IsStretch, if_neg hnul, hend, List.map_append]
    constructor
    · rintro ⟨y, ⟨u, rfl⟩, hy⟩
      obtain ⟨x, v, rfl, hx, hv⟩ := (Glob.accepts_append _ _ _).mp hy
      obtain ⟨q, w, rfl, hq, _⟩ := (Glob.accepts_append [piece '"'] [.star] v).mp hv
      obtain rfl := (piece_quotation q).mp hq
      exact ⟨x, ⟨u, w, by simp [Json.quoted]⟩, hx⟩
    · rintro ⟨x, ⟨u, w, rfl⟩, hx⟩
      refine ⟨x ++ ['"'] ++ w, ⟨u, by simp [Json.quoted]⟩, ?_⟩
      rw [List.append_assoc]
      refine (Glob.accepts_append _ _ _).mpr ⟨x, ['"'] ++ w, rfl, hx, ?_⟩
      exact (Glob.accepts_append [piece '"'] [.star] _).mpr
        ⟨['"'], w, rfl, (piece_quotation _).mpr rfl, Glob.accepts_star w⟩

/-- A character of the id is not in any text of members. -/
def isForeign (memberId : String) : Bool :=
  (cut memberId.toList).any fun c => !Json.isPrintable c

/-- The characters of the id stand for themselves in the text and in the pattern. -/
def isLiteral (memberId : String) : Bool :=
  memberId.toList.all fun c => Json.isPlain c && !isWild c

/-- An id that stands for itself is found as a member, or as the rest of one behind a quotation
mark, up to case, or as the comma between two; another id in a stretch that it matches. -/
def FoundIn (memberId : String) (members : List String) : Prop :=
  if isForeign memberId then False
  else if isLiteral memberId then
    (∃ s ∈ members, fold ('"' :: memberId.toList) <:+ fold ('"' :: s.toList)) ∨
      memberId.toList = [',', ' '] ∧ 2 ≤ members.length
  else
    ∃ x, IsStretch memberId (membersText members) x ∧
      Glob.accepts ((cut memberId.toList).map piece) x = true

theorem isPrintable_iff : Json.isPrintable c = true ↔ 32 ≤ c.toNat ∧ c.toNat ≤ 126 := by
  simp only [Json.isPrintable, Bool.and_eq_true, decide_eq_true_eq, Char.le_def,
    UInt32.le_iff_toNat_le]
  exact Iff.rfl

/-- Characters that fold alike are printable alike. -/
theorem isPrintable_of_toLower_eq (h : c.toLower = d.toLower)
    (hd : Json.isPrintable d = true) : Json.isPrintable c = true := by
  have hnat := congrArg Char.toNat h
  rw [toNat_toLower, toNat_toLower] at hnat
  rw [isPrintable_iff] at hd ⊢
  split at hnat <;> split at hnat <;> omega

/-- Characters that fold alike are plain alike. -/
theorem isPlain_of_toLower_eq (h : c.toLower = d.toLower)
    (hd : Json.isPlain d = true) : Json.isPlain c = true := by
  obtain ⟨hprintable, hquotation, hslash⟩ := Json.isPlain_iff.mp hd
  refine Json.isPlain_iff.mpr ⟨isPrintable_of_toLower_eq h hprintable, ?_, ?_⟩
  · rintro rfl
    exact hquotation (eq_of_toLower_eq h.symm (by decide) (by decide))
  · rintro rfl
    exact hslash (eq_of_toLower_eq h.symm (by decide) (by decide))

/-- What a stretch is made of is in the text. -/
theorem mem_of_isStretch {memberId : String}
    (h : IsStretch memberId text x) (hd : d ∈ x) : d ∈ text := by
  unfold IsStretch at h
  split at h
  · exact h.subset (List.mem_cons_of_mem _ hd)
  · exact h.subset (List.mem_cons_of_mem _ (List.mem_append_left _ hd))

/-- A foreign id matches no member's text. -/
theorem not_stretch_of_isForeign {memberId : String} (h : isForeign memberId = true)
    {members : List String} (hx : IsStretch memberId (membersText members) x) :
    Glob.accepts ((cut memberId.toList).map piece) x = false := by
  rw [Bool.eq_false_iff]
  intro haccepts
  obtain ⟨c, hc, hforeign⟩ := List.any_eq_true.mp h
  rw [Bool.not_eq_true'] at hforeign
  have hwild : isWild c = false := by
    rw [Bool.eq_false_iff]
    intro hwild
    have hcases : c = '%' ∨ c = '_' := by
      simpa [isWild] using hwild
    rcases hcases with rfl | rfl
    · contradiction
    · contradiction
  obtain ⟨d, hd, hcase⟩ := exists_of_accepts_pieces haccepts hc hwild
  have hprintable := Json.isPrintable_of_mem_dumps_names (mem_of_isStretch hx hd)
  rw [isPrintable_of_toLower_eq hcase.symm hprintable] at hforeign
  contradiction

/-- A literal id matches where a member ends with it. -/
theorem stretch_iff_of_isLiteral {memberId : String} (h : isLiteral memberId = true)
    (members : List String) : (∃ x, IsStretch memberId (membersText members) x ∧
        Glob.accepts ((cut memberId.toList).map piece) x = true) ↔
      (∃ s ∈ members, fold ('"' :: memberId.toList) <:+ fold ('"' :: s.toList)) ∨
        memberId.toList = [',', ' '] ∧ 2 ≤ members.length := by
  have hplain : ∀ c ∈ memberId.toList, Json.isPlain c = true := by
    intro c hc
    have hboth := List.all_eq_true.mp h c hc
    rw [Bool.and_eq_true] at hboth
    exact hboth.1
  have hwild : memberId.toList.all (fun c => !isWild c) = true := by
    rw [List.all_eq_true]
    intro c hc
    have hboth := List.all_eq_true.mp h c hc
    rw [Bool.and_eq_true] at hboth
    exact hboth.2
  have hnul : '\x00' ∉ memberId.toList := by
    intro hmem
    have hcontra := hplain _ hmem
    contradiction
  have hfold : ∀ x, fold x = fold memberId.toList → ∀ c ∈ x, Json.isPlain c = true := by
    intro x hx c hc
    obtain ⟨d, hd, heq⟩ := exists_mem_of_fold_eq hx hc
    exact isPlain_of_toLower_eq heq (hplain d hd)
  have hmark : ∀ d : Char, d.toLower = '"'.toLower → d = '"' := fun d hd =>
    eq_of_toLower_eq hd (by decide) (by decide)
  simp only [IsStretch, if_neg hnul, cut_of_notMem hnul, accepts_pieces_iff hwild,
    fold_suffix_iff hmark]
  constructor
  · rintro ⟨x, hx, heq⟩
    rcases (Json.quoted_infix_dumps_iff (hfold x heq) members).mp hx with ⟨s, hs, hsuffix⟩ | hcomma
    · exact Or.inl ⟨s, hs, x, heq, hsuffix⟩
    · refine Or.inr ⟨?_, hcomma.2⟩
      rw [hcomma.1] at heq
      apply eq_of_fold_eq heq.symm
      intro c hc
      rcases List.mem_pair.mp hc with rfl | rfl
      · decide
      · decide
  · rintro (⟨s, hs, x, heq, hsuffix⟩ | ⟨hid, hlength⟩)
    · exact ⟨x, (Json.quoted_infix_dumps_iff (hfold x heq) members).mpr
        (Or.inl ⟨s, hs, hsuffix⟩), heq⟩
    · have hcomma := hfold memberId.toList rfl
      exact ⟨memberId.toList, (Json.quoted_infix_dumps_iff hcomma members).mpr
        (Or.inr ⟨hid, hlength⟩), rfl⟩

/-- Which lists of members the pattern is found in. -/
theorem like_members_iff (memberId : String) (members : List String) :
    like (memberPattern memberId).toList (membersText members) = true ↔
      FoundIn memberId members := by
  rw [like_memberPattern_iff memberId (notMem_membersText members), FoundIn]
  split
  · rename_i hforeign
    rw [iff_false]
    rintro ⟨x, hx, haccepts⟩
    rw [not_stretch_of_isForeign hforeign hx] at haccepts
    contradiction
  · split
    · rename_i hliteral
      exact stretch_iff_of_isLiteral hliteral members
    · rfl

/-! ## When it is exact -/

/-- A test that answers selects rows. -/
theorem selectRows_of_some {g : Channel → Bool}
    (h : ∀ ch, p ch = some (g ch)) (rows : List (String × Channel)) :
    selectRows p rows = some (rows.filter fun row => g row.2) := by
  induction rows with
  | nil => rfl
  | cons row rows ih =>
    rw [selectRows, h, ih, List.filter_cons]
    rfl

/-- A test that fails selects none. -/
theorem selectRows_of_none (h : ∀ ch, p ch = none)
    {rows : List (String × Channel)} (hrows : rows ≠ []) : selectRows p rows = none := by
  cases rows with
  | nil => contradiction
  | cons row rows =>
    rw [selectRows, h]
    rfl

namespace ChatTables

variable {t : ChatTables} {memberId : String}

section

variable (h : isTooComplex (memberPattern memberId) = false)
include h

/-- A pattern that is not too complex is matched. -/
theorem memberLike_of_fits (ch : Channel) : memberLike memberId ch =
      some (like (memberPattern memberId).toList (membersText ch.members)) := by
  rw [memberLike, like?, h]
  rfl

/-- The channels that are counted are those that match. -/
theorem getUnreadCounts_of_fits : ∃ counts, t.getUnreadCounts memberId = some counts ∧
      ∀ id, id ∈ counts.map Prod.fst ↔ ∃ row, t.channels.get? id = some row ∧
        like (memberPattern memberId).toList (membersText row.members) = true := by
  refine ⟨_, by rw [getUnreadCounts, selectRows_of_some (memberLike_of_fits h)]; rfl, ?_⟩
  intro id
  simp only [List.map_map, List.mem_map, List.mem_filter, Function.comp_apply]
  constructor
  · rintro ⟨⟨id', row⟩, ⟨hmem, hlike⟩, rfl⟩
    exact ⟨row, Dict.mem_entries_iff.mp hmem, hlike⟩
  · rintro ⟨row, hget, hlike⟩
    exact ⟨(id, row), ⟨Dict.mem_entries_iff.mpr hget, hlike⟩, rfl⟩

/-- The channels that are listed are those that match. -/
theorem listChannels_of_fits (archived : Option Bool) (projectId : Option String) :
    ∃ rows, t.listChannels (some memberId) archived projectId = some rows ∧
      ∀ id ch, (id, ch) ∈ rows ↔ ∃ row, t.channels.get? id = some row ∧
        like (memberPattern memberId).toList (membersText row.members) = true ∧
          otherConditions projectId archived row = true ∧ ch = parseChannel row := by
  have hlisted : ∀ ch, listed (some memberId) projectId archived ch =
      some (like (memberPattern memberId).toList (membersText ch.members) &&
        otherConditions projectId archived ch) := by
    intro ch
    simp only [listed, memberLike_of_fits h]
    rfl
  refine ⟨_, by rw [listChannels, selectRows_of_some hlisted]; rfl, ?_⟩
  intro id ch
  simp only [List.mem_map, List.mem_insertionSort, List.mem_filter, Bool.and_eq_true]
  constructor
  · rintro ⟨⟨id', row⟩, ⟨hmem, hlike, hother⟩, heq⟩
    obtain ⟨rfl, rfl⟩ := Prod.mk.inj heq
    exact ⟨row, Dict.mem_entries_iff.mp hmem, hlike, hother, rfl⟩
  · rintro ⟨row, hget, hlike, hother, rfl⟩
    exact ⟨(id, row), ⟨Dict.mem_entries_iff.mpr hget, hlike, hother⟩, rfl⟩

/-- A pattern that is compared with every text. -/
theorem exact_iff_like : t.Exact memberId ↔ ∀ id row, t.channels.get? id = some row →
      (like (memberPattern memberId).toList (membersText row.members) = true ↔
        memberId ∈ row.members) := by
  constructor
  · rintro ⟨_, counts, hcounts, hexact⟩ id row hget
    obtain ⟨counts', hcounts', hfound⟩ := getUnreadCounts_of_fits (t := t) h
    obtain rfl := Option.some.inj (hcounts.symm.trans hcounts')
    have hboth := (hfound id).symm.trans (hexact id)
    simpa [hget] using hboth
  · intro hall
    constructor
    · intro archived projectId
      obtain ⟨rows, hrows, hmem⟩ := listChannels_of_fits (t := t) h archived projectId
      refine ⟨rows, hrows, fun id ch => (hmem id ch).trans ?_⟩
      apply exists_congr
      intro row
      exact and_congr_right fun hget => and_congr_left fun _ => hall id row hget
    · obtain ⟨counts, hcounts, hmem⟩ := getUnreadCounts_of_fits (t := t) h
      refine ⟨counts, hcounts, fun id => (hmem id).trans ?_⟩
      apply exists_congr
      intro row
      exact and_congr_right fun hget => hall id row hget

end

/-- A pattern that is too long is an error of the first row. -/
theorem exact_iff_of_isTooComplex (h : isTooComplex (memberPattern memberId) = true) :
    t.Exact memberId ↔ t.channels.entries = [] := by
  have hnone : ∀ ch, memberLike memberId ch = none := by
    intro ch
    rw [memberLike, like?, h]
    rfl
  constructor
  · rintro ⟨_, counts, hcounts, _⟩
    by_contra hrows
    rw [getUnreadCounts, selectRows_of_none hnone hrows] at hcounts
    contradiction
  · intro hrows
    have hget : ∀ id, t.channels.get? id = none := by
      intro id
      rw [Dict.get?, hrows]
      rfl
    constructor
    · intro archived projectId
      refine ⟨[], by rw [listChannels, hrows]; rfl, fun id ch => ?_⟩
      simp [hget]
    · refine ⟨[], by rw [getUnreadCounts, hrows]; rfl, fun id => ?_⟩
      simp [hget]

/-- The channels of an id are those it is a member of if its pattern is not too long and found in
just the lists that it is in. -/
theorem exact_iff (t : ChatTables) (memberId : String) :
    t.Exact memberId ↔
      (isTooComplex (memberPattern memberId) = true → t.channels.entries = []) ∧
        ∀ id row, t.channels.get? id = some row →
          (FoundIn memberId row.members ↔ memberId ∈ row.members) := by
  cases h : isTooComplex (memberPattern memberId) with
  | true =>
    rw [exact_iff_of_isTooComplex h]
    constructor
    · intro hrows
      refine ⟨fun _ => hrows, fun id row hget => ?_⟩
      have hmem := Dict.mem_entries_iff.mpr hget
      rw [hrows] at hmem
      contradiction
    · exact fun hboth => hboth.1 rfl
  | false =>
    simp only [exact_iff_like h, like_members_iff, Bool.false_eq_true, false_implies, true_and]

/-- A channel of these members. -/
def room (members : List String) : Channel where
  name := "room"
  type := "group"
  description := ""
  topic := ""
  members := members
  settings := Settings.mutedUpdate []
  createdBy := "user"
  createdAt := 1
  lastMessageAt := none
  projectId := ""

def oneRoom (members : List String) : ChatTables :=
  ⟨Dict.empty.set "c1" (room members), Dict.empty, Dict.empty⟩

/-- A member that is not found, and ids that are found as others. -/
theorem not_exact :
    ¬ (oneRoom ["josé"]).Exact "josé" ∧ ¬ (oneRoom ["Ann"]).Exact "ann" ∧
      ¬ (oneRoom ["agent-1"]).Exact "agent_1" := by
  have hrow : ∀ members, (oneRoom members).channels.get? "c1" = some (room members) :=
    fun members => Dict.get?_set_self _ _ _
  refine ⟨fun h => ?_, fun h => ?_, fun h => ?_⟩
  · have hiff := (exact_iff_like (by decide)).mp h "c1" _ (hrow _)
    revert hiff
    decide
  · have hiff := (exact_iff_like (by decide)).mp h "c1" _ (hrow _)
    revert hiff
    decide
  · have hiff := (exact_iff_like (by decide)).mp h "c1" _ (hrow _)
    revert hiff
    decide

end ChatTables

end TinyAgentOS.Chat
