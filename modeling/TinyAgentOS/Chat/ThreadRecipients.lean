import TinyAgentOS.Chat.History
import TinyAgentOS.Projects.A2aPlan
import TinyAgentOS.Registry.CanonicalId

/-!
# The recipients of a thread message

A message in a thread goes to the agent that wrote the root, to the agents that replied before,
and to the agents that it mentions.  The replies are the oldest 200 messages of the thread, and the
names in a message are looked up in lower case.

Main results:

- `lowerName_of_mem_mentionTexts`: a name that a message has is in lower case.
- `recipientsExact_iff`: the messages that reach the agents of the thread, and no others.
-/

namespace TinyAgentOS.Chat

open Collections
open Paging (cut)
open Projects (sortedNames mem_sortedNames)

/-! ## Mentions -/

/-- `[A-Za-z0-9_]`. -/
def isWordChar (c : Char) : Bool := c.isAlphanum || c == '_'

/-- `[A-Za-z0-9_-]`. -/
def isMentionChar (c : Char) : Bool := isWordChar c || c == '-'

/-- `_MENTION_RE.finditer`, after a character or at the start.  A name is read to its end, so
nothing can follow it that the lookahead forbids, and it has no other name in it. -/
def mentionsFrom : Option Char → List Char → List (List Char)
  | _, [] => []
  | prev, c :: rest =>
    let slug := rest.takeWhile isMentionChar
    if c = '@' ∧ prev.any isWordChar = false ∧ slug ≠ [] then slug :: mentionsFrom (some c) rest
    else mentionsFrom (some c) rest

/-- `str.lower`. -/
def lowerName (name : String) : String := String.ofList (name.toList.flatMap Registry.lower)

/-- `raw`. -/
def mentionTexts (text : String) : List String :=
  (mentionsFrom none text.toList).map fun slug => lowerName (String.ofList slug)

structure MentionSet where
  explicit : List String
  all : Bool
  humans : Bool

/-- `parse_mentions`. -/
def parseMentions (text : String) (members : List String) : MentionSet :=
  let raw := mentionTexts text
  { explicit := sortedNames (raw.filter fun m =>
      m ≠ "all" && m ≠ "humans" && m ∈ members.map lowerName)
    all := "all" ∈ raw
    humans := "humans" ∈ raw }

variable {text name agent : String} {c : Char}

/-- A mention has only the characters of mentions. -/
theorem isMentionChar_of_mem {prev : Option Char} {text slug : List Char}
    (h : slug ∈ mentionsFrom prev text) (hc : c ∈ slug) : isMentionChar c = true := by
  induction text generalizing prev with
  | nil => simp [mentionsFrom] at h
  | cons d rest ih =>
    simp only [mentionsFrom] at h
    split at h
    · rcases List.mem_cons.mp h with rfl | h
      · exact List.mem_takeWhile_imp hc
      · exact ih h
    · exact ih h

/-- Lower-casing twice is lower-casing once. -/
theorem lower_lower (hc : isMentionChar c = true) :
    (Registry.lower c).flatMap Registry.lower = Registry.lower c := by
  have hall : ∀ n : Fin 128, isMentionChar (Char.ofNat n) = true →
      (Registry.lower (Char.ofNat n)).flatMap Registry.lower =
        Registry.lower (Char.ofNat n) := by
    decide +kernel
  have hlt : c.toNat < 128 := by
    unfold isMentionChar isWordChar Char.isAlphanum Char.isAlpha Char.isUpper Char.isLower
      Char.isDigit at hc
    simp only [Bool.or_eq_true, Bool.and_eq_true, decide_eq_true_eq, beq_iff_eq,
      UInt32.le_iff_toNat_le] at hc
    rcases hc with ((((hc | hc) | hc) | rfl) | rfl)
    · exact lt_of_le_of_lt hc.2 (by decide)
    · exact lt_of_le_of_lt hc.2 (by decide)
    · exact lt_of_le_of_lt hc.2 (by decide)
    · decide
    · decide
  have hself : Char.ofNat c.toNat = c := Char.ofNat_toNat c
  simpa [hself] using hall ⟨c.toNat, hlt⟩ (by simpa [hself] using hc)

/-- A name that a message has is in lower case. -/
theorem lowerName_of_mem_mentionTexts (h : name ∈ mentionTexts text) : lowerName name = name := by
  obtain ⟨slug, hslug, rfl⟩ := List.mem_map.mp h
  simp only [lowerName, String.toList_ofList, List.flatMap_assoc]
  congr 1
  exact List.flatMap_congr fun c hc => lower_lower (isMentionChar_of_mem hslug hc)

/-- The explicit mentions are the members that are named. -/
theorem mem_explicit_iff {members : List String} : name ∈ (parseMentions text members).explicit ↔
      name ∈ mentionTexts text ∧ name ≠ "all" ∧ name ≠ "humans" ∧
        name ∈ members.map lowerName := by
  simp [parseMentions, mem_sortedNames, and_assoc]

/-! ## The resolver -/

/-- The keys of a message that `resolve_thread_recipients` reads; empty and missing are the
same to it. -/
structure RoutedMessage where
  threadId : String
  authorId : String
  content : String

/-- `get_message`. -/
def getMessage (rows : List Insertion) (messageId : String) : Option Insertion :=
  rows.find? fun w => w.1 = messageId

/-- `get_thread_messages`. -/
def getThreadMessages (order : RowOrder) (rows : List Insertion) (channelId parentId : String)
    (limit : Int := 20) : List Insertion :=
  cut limit (order.oldestFirst (rows.filter fun w =>
    w.2.channelId = channelId && w.2.threadId = some parentId))

/-- `candidates_all`. -/
def candidatesAll (ch : Channel) (message : RoutedMessage) : List String :=
  ch.members.filter fun m =>
    m ≠ "" && m ≠ message.authorId && m ≠ "user" && m ∉ ch.settings.mutedNames

/-- The root, and the replies that are read. -/
def threadRows (order : RowOrder) (rows : List Insertion) (channelId threadId : String) :
    List Insertion :=
  (getMessage rows threadId).toList ++ getThreadMessages order rows channelId threadId 200

/-- The authors that the loop over the replies adds, and the branch on the root, which has the
same tests. -/
def threadAgents (ch : Channel) (message : RoutedMessage) (ws : List Insertion) : List String :=
  (ws.map Prod.snd).filterMap fun m =>
    if m.authorType = "agent" ∧ m.authorId ≠ "" ∧ m.authorId ≠ message.authorId ∧
      m.authorId ∉ ch.settings.mutedNames then some m.authorId else none

/-- A dictionary that is true for some names. -/
def forcing (names : List String) : Dict String Bool :=
  names.foldl (fun d name => d.set name true) Dict.empty

/-- `resolve_thread_recipients`. -/
def resolveThreadRecipients (order : RowOrder) (rows : List Insertion) (channelId : String)
    (ch : Channel) (message : RoutedMessage) : List String × Dict String Bool :=
  if message.threadId = "" then ([], Dict.empty)
  else
    let candidates := candidatesAll ch message
    let mentions := parseMentions message.content ch.members
    if mentions.all then (candidates, forcing candidates)
    else
      let mentioned := mentions.explicit.filter fun slug => slug ∈ candidates
      (sortedNames (threadAgents ch message (threadRows order rows channelId message.threadId) ++
        mentioned), forcing mentioned)

/-! ## Who is to be reached -/

/-- A row is an agent's. -/
def AgentRow (agent : String) (w : Insertion) : Prop :=
  w.2.authorType = "agent" ∧ w.2.authorId = agent

/-- The agent wrote the root, has replied, or is mentioned. -/
def TakesPart (rows : List Insertion) (channelId : String) (message : RoutedMessage)
    (agent : String) : Prop :=
  (∃ w ∈ getMessage rows message.threadId, AgentRow agent w) ∨
    (∃ w ∈ rows, w.2.channelId = channelId ∧ w.2.threadId = some message.threadId ∧
      AgentRow agent w) ∨
    lowerName agent ∈ mentionTexts message.content

/-- Other members than the author and the user that are not muted, each of them once; and all of
those that take part. -/
structure RecipientsExact (order : RowOrder) (rows : List Insertion) (channelId : String)
    (ch : Channel) (message : RoutedMessage) : Prop where
  nodup : (resolveThreadRecipients order rows channelId ch message).1.Nodup
  sound : ∀ agent ∈ (resolveThreadRecipients order rows channelId ch message).1,
    agent ∈ candidatesAll ch message
  complete : ∀ agent ∈ candidatesAll ch message, TakesPart rows channelId message agent →
    agent ∈ (resolveThreadRecipients order rows channelId ch message).1

/-- With `@all`, no candidate is a member twice.  Without, the agents that are heard are
members, and whoever takes part is heard or is mentioned under a lower-case name of its own. -/
structure InReach (order : RowOrder) (rows : List Insertion) (channelId : String)
    (ch : Channel) (message : RoutedMessage) : Prop where
  once : "all" ∈ mentionTexts message.content → (candidatesAll ch message).Nodup
  members : "all" ∉ mentionTexts message.content →
    ∀ w ∈ threadRows order rows channelId message.threadId, w.2.authorType = "agent" →
      w.2.authorId ≠ "" → w.2.authorId ≠ message.authorId →
      w.2.authorId ∉ ch.settings.mutedNames → w.2.authorId ∈ ch.members ∧ w.2.authorId ≠ "user"
  heard : "all" ∉ mentionTexts message.content →
    ∀ agent ∈ candidatesAll ch message, TakesPart rows channelId message agent →
      (∃ w ∈ threadRows order rows channelId message.threadId, AgentRow agent w) ∨
        agent ∈ mentionTexts message.content ∧ agent ≠ "humans"

variable {order : RowOrder} {rows : List Insertion} {channelId : String} {ch : Channel}
  {message : RoutedMessage}

/-- Whom `@all` stands for. -/
theorem mem_candidatesAll : agent ∈ candidatesAll ch message ↔ agent ∈ ch.members ∧ agent ≠ "" ∧
      agent ≠ message.authorId ∧ agent ≠ "user" ∧ agent ∉ ch.settings.mutedNames := by
  simp [candidatesAll, and_assoc]

/-- The agents of a thread are those who wrote in it. -/
theorem mem_threadAgents {ws : List Insertion} : agent ∈ threadAgents ch message ws ↔
      (∃ w ∈ ws, AgentRow agent w) ∧ agent ≠ "" ∧ agent ≠ message.authorId ∧
        agent ∉ ch.settings.mutedNames := by
  simp only [threadAgents, List.mem_filterMap, List.mem_map, AgentRow]
  constructor
  · rintro ⟨_, ⟨w, hw, rfl⟩, hif⟩
    split at hif
    · rename_i hkept
      cases hif
      exact ⟨⟨w, hw, hkept.1, rfl⟩, hkept.2⟩
    · cases hif
  · rintro ⟨⟨w, hw, htype, rfl⟩, hkept⟩
    exact ⟨w.2, ⟨w, hw, rfl⟩, if_pos ⟨htype, hkept⟩⟩

/-- Sorted names come once. -/
theorem nodup_sortedNames (names : List String) : (sortedNames names).Nodup := by
  rw [sortedNames]
  exact (List.perm_insertionSort _ _).nodup_iff.mpr (List.nodup_dedup names)

/-- A thread message to all goes to every candidate. -/
theorem resolve_of_all (hthread : message.threadId ≠ "")
    (hall : "all" ∈ mentionTexts message.content) :
    (resolveThreadRecipients order rows channelId ch message).1 = candidatesAll ch message := by
  simp [resolveThreadRecipients, hthread, parseMentions, hall]

section

variable (hthread : message.threadId ≠ "") (hall : "all" ∉ mentionTexts message.content)
include hthread hall

/-- Who gets a message without `@all`. -/
theorem mem_resolve_iff : agent ∈ (resolveThreadRecipients order rows channelId ch message).1 ↔
      agent ∈ threadAgents ch message (threadRows order rows channelId message.threadId) ∨
        agent ∈ candidatesAll ch message ∧ agent ∈ mentionTexts message.content ∧
          agent ≠ "humans" := by
  have hexplicit : agent ∈ candidatesAll ch message →
      (agent ∈ (parseMentions message.content ch.members).explicit ↔
        agent ∈ mentionTexts message.content ∧ agent ≠ "humans") := by
    intro hagent
    rw [mem_explicit_iff]
    constructor
    · rintro ⟨hmention, -, hhumans, -⟩
      exact ⟨hmention, hhumans⟩
    · rintro ⟨hmention, hhumans⟩
      have hname := lowerName_of_mem_mentionTexts hmention
      refine ⟨hmention, ne_of_mem_of_not_mem hmention hall, hhumans, ?_⟩
      exact List.mem_map.mpr ⟨agent, (mem_candidatesAll.mp hagent).1, hname⟩
  have hfalse : (parseMentions message.content ch.members).all = false := by
    simpa [parseMentions] using hall
  simp only [resolveThreadRecipients, if_neg hthread, hfalse, Bool.false_eq_true, if_false,
    mem_sortedNames, List.mem_append, List.mem_filter, decide_eq_true_eq]
  constructor
  · rintro (hheard | ⟨hmention, hagent⟩)
    · exact Or.inl hheard
    · exact Or.inr ⟨hagent, (hexplicit hagent).mp hmention⟩
  · rintro (hheard | ⟨hagent, hmention⟩)
    · exact Or.inl hheard
    · exact Or.inr ⟨(hexplicit hagent).mpr hmention, hagent⟩

/-- A recipient comes once. -/
theorem nodup_resolve : (resolveThreadRecipients order rows channelId ch message).1.Nodup := by
  have hfalse : (parseMentions message.content ch.members).all = false := by
    simpa [parseMentions] using hall
  simp only [resolveThreadRecipients, if_neg hthread, hfalse, Bool.false_eq_true, if_false]
  exact nodup_sortedNames _

/-- What a message without `@all` has to meet. -/
theorem recipientsExact_of_not_all : RecipientsExact order rows channelId ch message ↔
      InReach order rows channelId ch message := by
  constructor
  · intro h
    refine ⟨fun hmem => absurd hmem hall, ?_, ?_⟩
    · intro _ w hw htype hempty hauthor hmuted
      have hagent := h.sound _ ((mem_resolve_iff hthread hall).mpr
        (Or.inl (mem_threadAgents.mpr ⟨⟨w, hw, htype, rfl⟩, hempty, hauthor, hmuted⟩)))
      obtain ⟨hmember, -, -, huser, -⟩ := mem_candidatesAll.mp hagent
      exact ⟨hmember, huser⟩
    · intro _ agent hagent hpart
      rcases (mem_resolve_iff hthread hall).mp (h.complete agent hagent hpart) with hheard | h
      · exact Or.inl (mem_threadAgents.mp hheard).1
      · exact Or.inr h.2
  · intro h
    refine ⟨nodup_resolve hthread hall, ?_, ?_⟩
    · intro agent hmem
      rcases (mem_resolve_iff hthread hall).mp hmem with hheard | hmention
      · obtain ⟨⟨w, hw, htype, rfl⟩, hempty, hauthor, hmuted⟩ := mem_threadAgents.mp hheard
        obtain ⟨hmember, huser⟩ := h.members hall w hw htype hempty hauthor hmuted
        exact mem_candidatesAll.mpr ⟨hmember, hempty, hauthor, huser, hmuted⟩
      · exact hmention.1
    · intro agent hagent hpart
      rw [mem_resolve_iff hthread hall]
      rcases h.heard hall agent hagent hpart with hheard | hmention
      · obtain ⟨-, hempty, hauthor, -, hmuted⟩ := mem_candidatesAll.mp hagent
        exact Or.inl (mem_threadAgents.mpr ⟨hheard, hempty, hauthor, hmuted⟩)
      · exact Or.inr ⟨hagent, hmention⟩

end

/-- A message in a thread reaches whom it should if and only if everybody concerned is within
reach. -/
theorem recipientsExact_iff (order : RowOrder) (rows : List Insertion) (channelId : String)
    (ch : Channel) (message : RoutedMessage) (hthread : message.threadId ≠ "") :
    RecipientsExact order rows channelId ch message ↔
      InReach order rows channelId ch message := by
  by_cases hall : "all" ∈ mentionTexts message.content
  · have hresolve : (resolveThreadRecipients order rows channelId ch message).1 =
        candidatesAll ch message := resolve_of_all hthread hall
    constructor
    · intro h
      refine ⟨fun _ => hresolve ▸ h.nodup, ?_, ?_⟩
      · intro hnot
        exact absurd hall hnot
      · intro hnot
        exact absurd hall hnot
    · intro h
      refine ⟨hresolve ▸ h.once hall, ?_, ?_⟩
      · intro agent hagent
        exact hresolve ▸ hagent
      · intro agent hagent _
        exact hresolve ▸ hagent
  · exact recipientsExact_of_not_all hthread hall

/-- Tom has opened a thread, and has left the channel since. -/
def openedByTom : List Insertion :=
  [("root", {
      channelId := "general", threadId := none, authorId := "tom", authorType := "agent"
      content := "Hello", contentType := "text", contentBlocks := [], embeds := []
      components := [], attachments := [], state := "complete", metadata := Dict.empty
      createdAt := 5, expiresAt := none, remoteMsgId := none, deliveredAt := none })]

def withoutTom : Channel :=
  { name := "general", type := "group", description := "", topic := "", members := ["user", "ada"]
    settings := ⟨Dict.empty, by simp⟩
    createdBy := "user", createdAt := 1, lastMessageAt := none, projectId := "" }

/-- A message to the thread, from the user. -/
def toThread : RoutedMessage := ⟨"root", "user", "@Ada, any news?"⟩

theorem recipientsExact_toThread :
    RecipientsExact insertionOrder openedByTom "general" withoutTom toThread ↔
      InReach insertionOrder openedByTom "general" withoutTom toThread :=
  recipientsExact_iff _ _ _ _ _ (by decide)

/-- Tom still gets the message. -/
theorem not_recipientsExact :
    ¬ RecipientsExact insertionOrder openedByTom "general" withoutTom toThread := by
  intro h
  have hmem : "tom" ∈
      (resolveThreadRecipients insertionOrder openedByTom "general" withoutTom toThread).1 := by
    decide
  exact absurd (mem_candidatesAll.mp (h.sound "tom" hmem)).1 (by decide)

end TinyAgentOS.Chat
