import TinyAgentOS.Library.Dict
import TinyAgentOS.Library.Transition

/-!
# The replies of an agent

The reply to a turn comes as posts: any number of deltas, and one final or one error.  They are
handled side by side.  The first delta creates a placeholder, which the end of the turn completes;
a final that finds no placeholder creates the message itself, and only then the router is told.

Main results:

- `BridgeState.Sound.step`: what a turn has while its posts are handled, as long as no step goes
  wrong.
- `BridgeState.oneMessage_of_guarded`: the runs in which every turn ends with one message.
- `BridgeState.not_oneMessage`: a reply that was streamed, and is never handed on.
-/

namespace TinyAgentOS.Chat

open Collections Transition

/-! ## Posts -/

/-- The slug of the agent and the `trace_id`. -/
abbrev ReplyTurn := String × String

/-- The kinds of posts that have to do with the message of a turn. -/
inductive ReplyKind where
  | delta
  | final
  | error
deriving DecidableEq

/-- The body of a post.  An empty text and a missing one are the same to the bridge. -/
structure ReplyBody where
  kind : ReplyKind
  traceId : String := ""
  msgId : String := ""
  content : String := ""
  channelId : Option String := none

inductive ReplyState where
  | streaming
  | complete
  | error
deriving DecidableEq

/-- A message of an agent.  The last three are its metadata. -/
structure ReplyMessage where
  channelId : String
  authorId : String
  content : String
  state : ReplyState
  traceId : String
  openclawMsgId : String
  hopsSinceUser : Nat

def ReplyMessage.turn (m : ReplyMessage) : ReplyTurn := (m.authorId, m.traceId)

/-- Where the handling of a post stands: what it awaits. -/
inductive ReplyStage where
  /-- `get_message`, for the channel of the message that is answered. -/
  | lookingUp
  | locking
  /-- `_resolve_channel`, for the placeholder. -/
  | deltaChannel
  /-- `send_message`, before its row is there. -/
  | deltaSending (channelId : String) (hops : Nat)
  /-- `send_message`, after. -/
  | deltaSent (messageId : String)
  /-- The channel of the reply, and its trace. -/
  | finalTracing (text : String) (pending : Option String)
  /-- `edit_message`. -/
  | finalEditing (text messageId : String)
  /-- `update_state`. -/
  | finalCompleting (messageId : String)
  | finalSending (text channelId : String) (hops : Nat)
  | finalSent (messageId : String)
  /-- `get_channel`. -/
  | finalRouting (messageId : String)
  | errorTracing
  /-- `update_state`. -/
  | errorMarking (messageId : String)
  /-- Broadcasts. -/
  | announcing
  | done
deriving DecidableEq

structure ReplyPost where
  turn : ReplyTurn
  body : ReplyBody
  stage : ReplyStage

/-- What happens: posts arrive, and their handling goes on from what it awaits. -/
inductive BridgeEvent where
  /-- `enqueue_user_message`. -/
  | userMessageQueued (turn : ReplyTurn) (hopsSinceUser : Nat)
  | posted (slug : String) (body : ReplyBody) (newTraceId newMsgId : String)
  /-- The channel of the message that is answered, if there is one. -/
  | lookedUp (i : Nat) (channelId : Option String)
  | locked (i : Nat)
  | channelResolved (i : Nat) (channelId : Option String)
  | traced (i : Nat) (channelId : Option String)
  | inserted (i : Nat) (messageId : String)
  /-- `send_message` returns. -/
  | returned (i : Nat)
  | edited (i : Nat)
  | stateUpdated (i : Nat)
  | channelGot (i : Nat) (found : Bool)
  | announced (i : Nat)

/-- The sessions of all agents, the messages of agents, the posts in the order of arrival and what
was handed to the router. -/
structure BridgeState where
  deltaBuffers : Dict ReplyTurn String
  pendingMsgIds : Dict ReplyTurn String
  pendingHops : Dict ReplyTurn Nat
  messages : Dict String ReplyMessage
  posts : List ReplyPost
  handed : List String

/-- `text or other`. -/
def orText (text other : String) : String := if text = "" then other else text

namespace BridgeState

def init : BridgeState := ⟨Dict.empty, Dict.empty, Dict.empty, Dict.empty, [], []⟩

/-- The post goes on with another stage. -/
def goOn (s : BridgeState) (i : Nat) (post : ReplyPost) (stage : ReplyStage) : BridgeState :=
  { s with posts := s.posts.set i { post with stage := stage } }

/-- What `flush_delta` returns. -/
def buffered (s : BridgeState) (turn : ReplyTurn) : String :=
  (s.deltaBuffers.get? turn).getD ""

def hops (s : BridgeState) (turn : ReplyTurn) : Nat :=
  (s.pendingHops.get? turn).getD 0

/-- `_handle_reply` from the lock on. -/
def handle (s : BridgeState) (i : Nat) (post : ReplyPost) : BridgeState :=
  let turn := post.turn
  match post.body.kind with
  | .delta =>
    let s₁ := { s with
      deltaBuffers := s.deltaBuffers.set turn (s.buffered turn ++ post.body.content) }
    if (s.pendingMsgIds.get? turn).isSome then s₁.goOn i post .announcing
    else
      match post.body.channelId with
      | some channelId => s₁.goOn i post (.deltaSending channelId (s.hops turn))
      | none => s₁.goOn i post .deltaChannel
  | .final =>
    let text := orText post.body.content (s.buffered turn)
    { s.goOn i post (.finalTracing text (s.pendingMsgIds.get? turn)) with
      deltaBuffers := s.deltaBuffers.pop turn
      pendingMsgIds := s.pendingMsgIds.pop turn }
  | .error => s.goOn i post .errorTracing

/-- `send_message`. -/
def insert (s : BridgeState) (post : ReplyPost) (messageId channelId : String) (content : String)
    (state : ReplyState) (hops : Nat) : BridgeState :=
  { s with
    messages := s.messages.set messageId
      { channelId := channelId
        authorId := post.turn.1
        content := content
        state := state
        traceId := post.turn.2
        openclawMsgId := post.body.msgId
        hopsSinceUser := hops } }

/-- `update_state`. -/
def updateState (s : BridgeState) (messageId : String) (state : ReplyState) : BridgeState :=
  { s with messages := s.messages.modify messageId fun m => { m with state := state } }

/-- The handling of a post goes on. -/
def resume (s : BridgeState) (i : Nat) (post : ReplyPost) : BridgeEvent → Option BridgeState
  | .lookedUp _ channelId =>
    match post.stage with
    | .lookingUp =>
      some (s.goOn i { post with body := { post.body with channelId := channelId } } .locking)
    | _ => none
  | .locked _ =>
    match post.stage with
    | .locking => some (s.handle i post)
    | _ => none
  | .channelResolved _ channelId =>
    match post.stage with
    | .deltaChannel =>
      match channelId with
      | some c => some (s.goOn i post (.deltaSending c (s.hops post.turn)))
      | none => some (s.goOn i post .done)
    | _ => none
  | .traced _ channelId =>
    match post.stage with
    | .finalTracing text pending =>
      match post.body.channelId.or channelId, pending with
      | none, _ => some (s.goOn i post .done)
      | some _, some messageId => some (s.goOn i post (.finalEditing text messageId))
      | some c, none =>
        some { s.goOn i post (.finalSending text c (s.hops post.turn)) with
          pendingHops := s.pendingHops.pop post.turn }
    | .errorTracing =>
      match s.pendingMsgIds.get? post.turn with
      | some messageId =>
        some { s.goOn i post (.errorMarking messageId) with
          pendingMsgIds := s.pendingMsgIds.pop post.turn }
      | none => some (s.goOn i post .done)
    | _ => none
  | .inserted _ messageId =>
    if (s.messages.get? messageId).isSome then none
    else
      match post.stage with
      | .deltaSending channelId hops =>
        some ((s.insert post messageId channelId "" .streaming hops).goOn i post
          (.deltaSent messageId))
      | .finalSending text channelId hops =>
        some ((s.insert post messageId channelId text .complete hops).goOn i post
          (.finalSent messageId))
      | _ => none
  | .returned _ =>
    match post.stage with
    | .deltaSent messageId =>
      some { s.goOn i post .announcing with
        pendingMsgIds := s.pendingMsgIds.set post.turn messageId }
    | .finalSent messageId => some (s.goOn i post (.finalRouting messageId))
    | _ => none
  | .edited _ =>
    match post.stage with
    | .finalEditing text messageId =>
      some { s.goOn i post (.finalCompleting messageId) with
        messages := s.messages.modify messageId fun m => { m with content := text } }
    | _ => none
  | .stateUpdated _ =>
    match post.stage with
    | .finalCompleting messageId =>
      some { (s.updateState messageId .complete).goOn i post .announcing with
        pendingHops := s.pendingHops.pop post.turn }
    | .errorMarking messageId =>
      some ((s.updateState messageId .error).goOn i post .announcing)
    | _ => none
  | .channelGot _ found =>
    match post.stage with
    | .finalRouting messageId =>
      if found then some { s.goOn i post .done with handed := s.handed ++ [messageId] }
      else some (s.goOn i post .done)
    | _ => none
  | .announced _ =>
    match post.stage with
    | .announcing => some (s.goOn i post .done)
    | _ => none
  | .userMessageQueued _ _ => none
  | .posted _ _ _ _ => none

end BridgeState

/-- The post whose handling goes on. -/
def BridgeEvent.index : BridgeEvent → Option Nat
  | .userMessageQueued _ _ => none
  | .posted _ _ _ _ => none
  | .lookedUp i _ => some i
  | .locked i => some i
  | .channelResolved i _ => some i
  | .traced i _ => some i
  | .inserted i _ => some i
  | .returned i => some i
  | .edited i => some i
  | .stateUpdated i => some i
  | .channelGot i _ => some i
  | .announced i => some i

/-- A post as it arrives. -/
def arriving (slug : String) (body : ReplyBody) (newTraceId newMsgId : String) : ReplyPost where
  turn := (slug, orText body.traceId newTraceId)
  body := { body with msgId := orText body.msgId newMsgId }
  stage := if body.channelId = none then .lookingUp else .locking

namespace BridgeState

/-- One stretch between two awaits. -/
def step (s : BridgeState) (e : BridgeEvent) : Option BridgeState :=
  match e with
  | .userMessageQueued turn hopsSinceUser =>
    some { s with pendingHops := s.pendingHops.set turn hopsSinceUser }
  | .posted slug body newTraceId newMsgId =>
    some { s with posts := s.posts ++ [arriving slug body newTraceId newMsgId] }
  | e =>
    match e.index with
    | none => none
    | some i =>
      match s.posts[i]? with
      | none => none
      | some post => s.resume i post e

/-! ## One message for each turn -/

/-- The texts of the deltas of a turn, in the order of arrival. -/
def deltaText (s : BridgeState) (turn : ReplyTurn) : String :=
  String.join
    ((s.posts.filter fun p => p.turn = turn ∧ p.body.kind = .delta).map fun p => p.body.content)

/-- The text of a reply: that of the final, or of the deltas. -/
def replyText (s : BridgeState) (post : ReplyPost) : String :=
  if post.body.kind = .final then orText post.body.content (s.deltaText post.turn)
  else s.deltaText post.turn

/-- A turn has no message. -/
def NoMessage (s : BridgeState) (turn : ReplyTurn) : Prop :=
  ∀ id m, s.messages.get? id = some m → m.turn ≠ turn

/-- The one message of a turn, and how often it was handed on. -/
structure Sole (s : BridgeState) (turn : ReplyTurn) (id : String) (state : ReplyState)
    (text : String) (times : Nat) : Prop where
  found : ∃ m, s.messages.get? id = some m ∧ m.turn = turn ∧ m.state = state ∧ m.content = text
  only : ∀ id' m', s.messages.get? id' = some m' → m'.turn = turn → id' = id
  handed : s.handed.count id = times

/-- A turn that was ended by the post has one message, with the text of the reply; a reply that is
complete was handed to the router once. -/
def OneMessage (s : BridgeState) (post : ReplyPost) : Prop :=
  match post.body.kind with
  | .final => ∃ id, s.Sole post.turn id .complete (s.replyText post) 1
  | .error => ∃ id, s.Sole post.turn id .error (s.replyText post) 0
  | .delta => True

/-- Every post of a turn is handled. -/
def Handled (s : BridgeState) (turn : ReplyTurn) : Prop :=
  ∀ p ∈ s.posts, p.turn = turn → p.stage = .done

/-- No post of a turn follows its end. -/
def InOrder (s : BridgeState) : BridgeEvent → Prop
  | .posted slug body newTraceId newMsgId => ∀ p ∈ s.posts,
      p.turn = (arriving slug body newTraceId newMsgId).turn → p.body.kind = .delta
  | _ => True

instance (s : BridgeState) (e : BridgeEvent) : Decidable (s.InOrder e) :=
  match e with
  | .posted slug body newTraceId newMsgId => inferInstanceAs (Decidable (∀ p ∈ s.posts,
      p.turn = (arriving slug body newTraceId newMsgId).turn → p.body.kind = .delta))
  | .userMessageQueued _ _ => isTrue trivial
  | .lookedUp _ _ => isTrue trivial
  | .locked _ => isTrue trivial
  | .channelResolved _ _ => isTrue trivial
  | .traced _ _ => isTrue trivial
  | .inserted _ _ => isTrue trivial
  | .returned _ => isTrue trivial
  | .edited _ => isTrue trivial
  | .stateUpdated _ => isTrue trivial
  | .channelGot _ _ => isTrue trivial
  | .announced _ => isTrue trivial

end BridgeState

/-- The end of a turn has looked for the placeholder. -/
def ReplyPost.closes (p : ReplyPost) : Bool :=
  p.body.kind ≠ .delta &&
    match p.stage with
    | .lookingUp => false
    | .locking => false
    | .errorTracing => false
    | _ => true

namespace BridgeState

/-- The end of the turn is past the placeholder. -/
def Closed (s : BridgeState) (turn : ReplyTurn) : Prop :=
  ∃ p ∈ s.posts, p.turn = turn ∧ p.closes = true

/-- What a step must find so that the turn comes out with one message. -/
def Fitting (s : BridgeState) : BridgeEvent → Prop
  | .locked i => ∀ p, s.posts[i]? = some p → p.stage = .locking → p.body.kind = .final →
      s.NoMessage p.turn ∧ (p.body.content = "" → s.buffered p.turn = s.deltaText p.turn)
  | .inserted i _ => ∀ p channelId hops, s.posts[i]? = some p →
      p.stage = .deltaSending channelId hops → s.NoMessage p.turn ∧ ¬ s.Closed p.turn
  | .traced i channelId => ∀ p, s.posts[i]? = some p →
      (∀ text pending, p.stage = .finalTracing text pending →
        (p.body.channelId.or channelId).isSome) ∧
      (p.stage = .errorTracing →
        (s.pendingMsgIds.get? p.turn).isSome ∧ s.deltaText p.turn = "")
  | .channelGot i found => ∀ p messageId, s.posts[i]? = some p →
      p.stage = .finalRouting messageId → found = true
  | _ => True

/-! ## What a turn has -/

/-- The stage of a post is one of its kind. -/
def Fits (p : ReplyPost) : Prop :=
  match p.stage with
  | .deltaChannel => p.body.kind = .delta
  | .deltaSending _ _ => p.body.kind = .delta
  | .deltaSent _ => p.body.kind = .delta
  | .finalTracing _ _ => p.body.kind = .final
  | .finalEditing _ _ => p.body.kind = .final
  | .finalCompleting _ => p.body.kind = .final
  | .finalSending _ _ _ => p.body.kind = .final
  | .finalSent _ => p.body.kind = .final
  | .finalRouting _ => p.body.kind = .final
  | .errorTracing => p.body.kind = .error
  | .errorMarking _ => p.body.kind = .error
  | _ => True

/-- What the turn of a post has when that post, its end, is past the placeholder. -/
def Due (s : BridgeState) (p : ReplyPost) : Prop :=
  match p.stage with
  | .finalTracing text pending => pending = none ∧ s.NoMessage p.turn ∧ text = s.replyText p
  | .finalSending text _ _ => s.NoMessage p.turn ∧ text = s.replyText p
  | .finalSent id => s.Sole p.turn id .complete (s.replyText p) 0
  | .finalRouting id => s.Sole p.turn id .complete (s.replyText p) 0
  | .errorMarking id => s.Sole p.turn id .streaming (s.replyText p) 0 ∧ p.body.kind = .error
  | .announcing => p.body.kind = .error ∧ s.OneMessage p
  | .done => s.OneMessage p
  | _ => False

/-- A turn that goes on has a placeholder at most. -/
def Unfinished (s : BridgeState) (turn : ReplyTurn) : Prop :=
  s.NoMessage turn ∨ ∃ id, s.Sole turn id .streaming "" 0

/-- What a turn has at every stage. -/
structure Sound (s : BridgeState) : Prop where
  fits : ∀ p ∈ s.posts, Fits p
  single : ∀ (i j : Nat) (p q : ReplyPost), s.posts[i]? = some p → s.posts[j]? = some q →
    p.turn = q.turn → p.body.kind ≠ .delta → q.body.kind ≠ .delta → i = j
  handed : ∀ id ∈ s.handed, (s.messages.get? id).isSome
  pending : ∀ turn id, s.pendingMsgIds.get? turn = some id →
    ∃ m, s.messages.get? id = some m ∧ m.turn = turn
  sent : ∀ p ∈ s.posts, ∀ id, p.stage = .deltaSent id →
    ∃ m, s.messages.get? id = some m ∧ m.turn = p.turn
  unfinished : ∀ turn, ¬ s.Closed turn → s.Unfinished turn
  due : ∀ p ∈ s.posts, p.closes = true → s.Due p

theorem sound_init : Sound init := by
  refine ⟨?_, ?_, ?_, ?_, ?_, ?_, ?_⟩
  · intro p hp
    exact absurd hp List.not_mem_nil
  · intro i j p q hp
    contradiction
  · intro id hid
    exact absurd hid List.not_mem_nil
  · intro turn id hid
    contradiction
  · intro p hp
    exact absurd hp List.not_mem_nil
  · intro turn _
    left
    intro id m hm
    contradiction
  · intro p hp
    exact absurd hp List.not_mem_nil

/-! ## What a step leaves -/

/-- A turn has the messages that it had. -/
structure SameMessages (s s' : BridgeState) (turn : ReplyTurn) : Prop where
  messages : ∀ id m, m.turn = turn → (s'.messages.get? id = some m ↔ s.messages.get? id = some m)
  handed : ∀ id m, s.messages.get? id = some m → m.turn = turn →
    s'.handed.count id = s.handed.count id

/-- A turn has the messages and the text that it had. -/
structure SameTurn (s s' : BridgeState) (turn : ReplyTurn) : Prop
    extends SameMessages s s' turn where
  text : s'.deltaText turn = s.deltaText turn

section Frames

variable {s s' : BridgeState} {turn : ReplyTurn}

theorem NoMessage.frame (h : s.NoMessage turn) (hsame : SameMessages s s' turn) :
    s'.NoMessage turn := by
  intro id m hm hturn
  exact h id m ((hsame.messages id m hturn).mp hm) hturn

theorem Sole.frame {id : String} {state : ReplyState} {text : String} {times : Nat}
    (h : s.Sole turn id state text times) (hsame : SameMessages s s' turn) :
    s'.Sole turn id state text times := by
  obtain ⟨m, hm, hturn, hstate, htext⟩ := h.found
  refine ⟨⟨m, (hsame.messages id m hturn).mpr hm, hturn, hstate, htext⟩, ?_, ?_⟩
  · intro id' m' hm' hturn'
    exact h.only id' m' ((hsame.messages id' m' hturn').mp hm') hturn'
  · rw [hsame.handed id m hm hturn, h.handed]

theorem Unfinished.frame (h : s.Unfinished turn) (hsame : SameMessages s s' turn) :
    s'.Unfinished turn := by
  rcases h with hno | ⟨id, hsole⟩
  · exact Or.inl (hno.frame hsame)
  · exact Or.inr ⟨id, hsole.frame hsame⟩

variable {p : ReplyPost}

theorem replyText_frame (hsame : SameTurn s s' p.turn) : s'.replyText p = s.replyText p := by
  unfold replyText
  rw [hsame.text]

theorem OneMessage.frame (h : s.OneMessage p) (hsame : SameTurn s s' p.turn) : s'.OneMessage p := by
  unfold OneMessage at h ⊢
  rw [replyText_frame hsame]
  split
  · rename_i hkind
    rw [hkind] at h
    obtain ⟨id, hsole⟩ := h
    exact ⟨id, hsole.frame hsame.toSameMessages⟩
  · rename_i hkind
    rw [hkind] at h
    obtain ⟨id, hsole⟩ := h
    exact ⟨id, hsole.frame hsame.toSameMessages⟩
  · trivial

theorem Due.frame (h : s.Due p) (hsame : SameTurn s s' p.turn) : s'.Due p := by
  unfold Due at h ⊢
  rw [replyText_frame hsame]
  split at h
  · exact ⟨h.1, h.2.1.frame hsame.toSameMessages, h.2.2⟩
  · exact ⟨h.1.frame hsame.toSameMessages, h.2⟩
  · exact h.frame hsame.toSameMessages
  · exact h.frame hsame.toSameMessages
  · exact ⟨h.1.frame hsame.toSameMessages, h.2⟩
  · exact ⟨h.1, h.2.frame hsame⟩
  · exact h.frame hsame
  · contradiction

end Frames

/-- What the texts of a turn depend on. -/
def heading (p : ReplyPost) : ReplyTurn × ReplyKind × String :=
  (p.turn, p.body.kind, p.body.content)

theorem deltaText_eq (s : BridgeState) (turn : ReplyTurn) :
    s.deltaText turn =
      String.join (((s.posts.map heading).filter fun h => h.1 = turn ∧ h.2.1 = .delta).map
        fun h => h.2.2) := by
  unfold deltaText
  rw [List.filter_map, List.map_map]
  rfl

/-- A post goes on, and its heading stays. -/
theorem map_heading_set {posts : List ReplyPost} {i : Nat} {p q : ReplyPost}
    (hp : posts[i]? = some p) (hq : heading q = heading p) :
    (posts.set i q).map heading = posts.map heading := by
  rw [List.map_set, hq]
  apply List.ext_getElem?
  intro j
  rw [List.getElem?_set]
  by_cases hj : i = j
  · subst hj
    obtain ⟨hlt, hget⟩ := List.getElem?_eq_some_iff.mp hp
    rw [if_pos rfl, if_pos (by simpa using hlt), List.getElem?_map, hp]
    rfl
  · rw [if_neg hj]

theorem deltaText_of_heading {s s' : BridgeState}
    (hheading : s'.posts.map heading = s.posts.map heading) (turn : ReplyTurn) :
    s'.deltaText turn = s.deltaText turn := by
  rw [deltaText_eq, deltaText_eq, hheading]

/-- The text of a reply is settled when its end arrives. -/
theorem replyText_set {s s' : BridgeState} {i : Nat} {p p' : ReplyPost}
    (hp : s.posts[i]? = some p) (hposts : s'.posts = s.posts.set i p')
    (hheading : heading p' = heading p) : s'.replyText p' = s.replyText p := by
  have hmap : s'.posts.map heading = s.posts.map heading := by
    rw [hposts]
    exact map_heading_set hp hheading
  have hturn : p'.turn = p.turn := congrArg Prod.fst hheading
  have hkind : p'.body.kind = p.body.kind := congrArg (fun q => q.2.1) hheading
  have hcontent : p'.body.content = p.body.content := congrArg (fun q => q.2.2) hheading
  unfold replyText
  rw [hkind, hcontent, hturn, deltaText_of_heading hmap]

theorem replyText_goOn (t : BridgeState) {i : Nat} {p : ReplyPost} (hp : t.posts[i]? = some p)
    (stage : ReplyStage) : (t.goOn i p stage).replyText { p with stage := stage } = t.replyText p :=
  replyText_set hp rfl rfl

theorem sameMessages_of_eq {s s' : BridgeState} (hmessages : s'.messages = s.messages)
    (hhanded : s'.handed = s.handed) (turn : ReplyTurn) : SameMessages s s' turn := by
  constructor
  · intro id m _
    rw [hmessages]
  · intro id m _ _
    rw [hhanded]

section Steps

variable {s s' : BridgeState} {i : Nat} {p p' : ReplyPost}

/-- While the end of a turn has not looked for the placeholder, the turn is not closed. -/
theorem Sound.not_closed (h : s.Sound) (hp : s.posts[i]? = some p)
    (hend : p.body.kind ≠ .delta) (hopen : p.closes = false) : ¬ s.Closed p.turn := by
  rintro ⟨q, hq, hturn, hcloses⟩
  obtain ⟨j, hj⟩ := List.mem_iff_getElem?.mp hq
  have hkind : q.body.kind ≠ .delta := by
    intro hdelta
    rw [ReplyPost.closes, hdelta] at hcloses
    contradiction
  obtain rfl := h.single i j p q hp hj hturn.symm hend hkind
  rw [hp] at hj
  cases hj
  rw [hopen] at hcloses
  contradiction

/-- One post goes on.  What the step owes is what the turn of this post has then; other turns keep
what they have. -/
theorem Sound.next (h : s.Sound) (hp : s.posts[i]? = some p)
    (hposts : s'.posts = s.posts.set i p') (hheading : heading p' = heading p)
    (hlater : p.closes = true → p'.closes = true) (hgrow : ∀ id m, s.messages.get? id = some m →
      ∃ m', s'.messages.get? id = some m' ∧ m'.turn = m.turn)
    (hhanded : ∀ id ∈ s'.handed, id ∈ s.handed ∨ (s'.messages.get? id).isSome)
    (hpending : ∀ turn id, s'.pendingMsgIds.get? turn = some id →
      s.pendingMsgIds.get? turn = some id ∨ ∃ m, s'.messages.get? id = some m ∧ m.turn = turn)
    (hfits : Fits p') (hsent : ∀ id, p'.stage = .deltaSent id →
      ∃ m, s'.messages.get? id = some m ∧ m.turn = p.turn)
    (hothers : ∀ turn, turn ≠ p.turn → SameMessages s s' turn)
    (hdelta : p.body.kind = .delta → s.Closed p.turn → SameMessages s s' p.turn)
    (hunfinished : p'.closes = false → ¬ s.Closed p.turn → s'.Unfinished p.turn)
    (hdue : p'.closes = true → s'.Due p') : s'.Sound := by
  have hturn : p'.turn = p.turn := congrArg Prod.fst hheading
  have hkind : p'.body.kind = p.body.kind := congrArg (fun q => q.2.1) hheading
  have hmap : s'.posts.map heading = s.posts.map heading := by
    rw [hposts]
    exact map_heading_set hp hheading
  have hsame : ∀ turn, SameMessages s s' turn → SameTurn s s' turn :=
    fun turn hm => ⟨hm, deltaText_of_heading hmap turn⟩
  have hmem : ∀ q ∈ s'.posts, q = p' ∨ q ∈ s.posts := by
    intro q hq
    rw [hposts] at hq
    exact (List.mem_or_eq_of_mem_set hq).symm
  have hp' : p' ∈ s'.posts := by
    rw [hposts]
    exact List.mem_set (List.getElem?_eq_some_iff.mp hp).1 p'
  -- Every post but this one is there as before.
  have hkept : ∀ (j : Nat) (q : ReplyPost), s.posts[j]? = some q → i ≠ j → q ∈ s'.posts := by
    intro j q hq hj
    apply List.mem_of_getElem? (i := j)
    rw [hposts, List.getElem?_set_ne hj, hq]
  have hheadings : ∀ (j : Nat) (q : ReplyPost), s'.posts[j]? = some q →
      ∃ r, s.posts[j]? = some r ∧ heading r = heading q := by
    intro j q hq
    have hget : (s'.posts.map heading)[j]? = some (heading q) := by
      rw [List.getElem?_map, hq]
      rfl
    rw [hmap, List.getElem?_map] at hget
    exact Option.map_eq_some_iff.mp hget
  refine ⟨?_, ?_, ?_, ?_, ?_, ?_, ?_⟩
  · intro q hq
    rcases hmem q hq with rfl | hold
    · exact hfits
    · exact h.fits q hold
  · intro j k q r hq hr heq hqkind hrkind
    obtain ⟨q', hq', hqh⟩ := hheadings j q hq
    obtain ⟨r', hr', hrh⟩ := hheadings k r hr
    have hqt : q'.turn = q.turn := congrArg Prod.fst hqh
    have hrt : r'.turn = r.turn := congrArg Prod.fst hrh
    have hqk : q'.body.kind = q.body.kind := congrArg (fun x => x.2.1) hqh
    have hrk : r'.body.kind = r.body.kind := congrArg (fun x => x.2.1) hrh
    refine h.single j k q' r' hq' hr' ?_ ?_ ?_
    · rw [hqt, hrt, heq]
    · rwa [hqk]
    · rwa [hrk]
  · intro id hid
    rcases hhanded id hid with hold | hnew
    · obtain ⟨m, hm⟩ := Option.isSome_iff_exists.mp (h.handed id hold)
      obtain ⟨m', hm', _⟩ := hgrow id m hm
      rw [hm']
      rfl
    · exact hnew
  · intro turn id hid
    rcases hpending turn id hid with hold | hnew
    · obtain ⟨m, hm, hmturn⟩ := h.pending turn id hold
      obtain ⟨m', hm', hmturn'⟩ := hgrow id m hm
      exact ⟨m', hm', hmturn'.trans hmturn⟩
    · exact hnew
  · intro q hq id hstage
    rcases hmem q hq with rfl | hold
    · obtain ⟨m, hm, hmturn⟩ := hsent id hstage
      exact ⟨m, hm, hmturn.trans hturn.symm⟩
    · obtain ⟨m, hm, hmturn⟩ := h.sent q hold id hstage
      obtain ⟨m', hm', hmturn'⟩ := hgrow id m hm
      exact ⟨m', hm', hmturn'.trans hmturn⟩
  · intro turn hopen
    have hbefore : ¬ s.Closed turn := by
      rintro ⟨q, hq, hqturn, hcloses⟩
      obtain ⟨j, hj⟩ := List.mem_iff_getElem?.mp hq
      by_cases hij : i = j
      · subst hij
        rw [hp] at hj
        cases hj
        exact hopen ⟨p', hp', hturn.trans hqturn, hlater hcloses⟩
      · exact hopen ⟨q, hkept j q hj hij, hqturn, hcloses⟩
    by_cases heq : turn = p.turn
    · subst heq
      refine hunfinished ?_ hbefore
      by_contra hcloses
      exact hopen ⟨p', hp', hturn, Bool.eq_true_of_not_eq_false hcloses⟩
    · exact (h.unfinished turn hbefore).frame (hothers turn heq)
  · intro q hq hcloses
    rcases hmem q hq with rfl | hold
    · exact hdue hcloses
    · by_cases heq : q.turn = p.turn
      · by_cases hpkind : p.body.kind = .delta
        · have hclosed : s.Closed p.turn := ⟨q, hold, heq, hcloses⟩
          have hframe := hsame p.turn (hdelta hpkind hclosed)
          exact (h.due q hold hcloses).frame (heq ▸ hframe)
        · -- The end of the turn is this post itself.
          have hqkind : q.body.kind ≠ .delta := by
            intro hd
            rw [ReplyPost.closes, hd] at hcloses
            contradiction
          obtain ⟨j, hj⟩ := List.mem_iff_getElem?.mp hq
          have hj' : s'.posts[i]? = some p' := by
            rw [hposts, List.getElem?_set_self (List.getElem?_eq_some_iff.mp hp).1]
          obtain ⟨r, hr, hrh⟩ := hheadings j q hj
          have hrt : r.turn = q.turn := congrArg Prod.fst hrh
          have hrk : r.body.kind = q.body.kind := congrArg (fun x => x.2.1) hrh
          obtain rfl := h.single i j p r hp hr (by rw [hrt, heq]) hpkind (by rwa [hrk])
          rw [hj'] at hj
          cases hj
          exact hdue hcloses
      · exact (h.due q hold hcloses).frame (hsame q.turn (hothers q.turn heq))

/-- A post goes on, and the messages stay as they are. -/
theorem Sound.still (h : s.Sound) (hp : s.posts[i]? = some p)
    (hposts : s'.posts = s.posts.set i p') (hheading : heading p' = heading p)
    (hmessages : s'.messages = s.messages) (hhanded : s'.handed = s.handed)
    (hpending : ∀ turn id, s'.pendingMsgIds.get? turn = some id →
      s.pendingMsgIds.get? turn = some id ∨ ∃ m, s.messages.get? id = some m ∧ m.turn = turn)
    (hfits : Fits p') (hsent : ∀ id, p'.stage = .deltaSent id →
      ∃ m, s.messages.get? id = some m ∧ m.turn = p.turn)
    (hlater : p.closes = true → p'.closes = true) (hdue : p'.closes = true → s.Due p') :
    s'.Sound := by
  have hmap : s'.posts.map heading = s.posts.map heading := by
    rw [hposts]
    exact map_heading_set hp hheading
  have hsame : ∀ turn, SameTurn s s' turn := fun turn =>
    ⟨sameMessages_of_eq hmessages hhanded turn, deltaText_of_heading hmap turn⟩
  refine h.next hp hposts hheading hlater ?_ ?_ ?_ hfits ?_ ?_ ?_ ?_ ?_
  · intro id m hm
    exact ⟨m, by rw [hmessages, hm], rfl⟩
  · intro id hid
    rw [hhanded] at hid
    exact Or.inl hid
  · rwa [hmessages]
  · rwa [hmessages]
  · intro turn _
    exact (hsame turn).toSameMessages
  · intro _ _
    exact (hsame p.turn).toSameMessages
  · intro _ hopen
    exact (h.unfinished p.turn hopen).frame (hsame p.turn).toSameMessages
  · intro hcloses
    exact (hdue hcloses).frame (hsame p'.turn)

/-- A delta does not end its turn. -/
theorem closes_of_delta (hkind : p.body.kind = .delta) : p.closes = false := by
  rw [ReplyPost.closes, hkind]
  rfl

/-- A delta goes on, and the messages stay as they are. -/
theorem Sound.still_delta (h : s.Sound) (hp : s.posts[i]? = some p)
    (hposts : s'.posts = s.posts.set i p') (hheading : heading p' = heading p)
    (hmessages : s'.messages = s.messages) (hhanded : s'.handed = s.handed)
    (hpending : ∀ turn id, s'.pendingMsgIds.get? turn = some id →
      s.pendingMsgIds.get? turn = some id ∨ ∃ m, s.messages.get? id = some m ∧ m.turn = turn)
    (hfits : Fits p') (hkind : p.body.kind = .delta)
    (hsent : ∀ id, p'.stage ≠ .deltaSent id) : s'.Sound := by
  have hkind' : p'.body.kind = .delta :=
    (congrArg (fun q => q.2.1) hheading : p'.body.kind = p.body.kind).trans hkind
  refine h.still hp hposts hheading hmessages hhanded hpending hfits ?_ ?_ ?_
  · intro id hstage
    exact absurd hstage (hsent id)
  · intro hcloses
    rw [closes_of_delta hkind] at hcloses
    contradiction
  · intro hcloses
    rw [closes_of_delta hkind'] at hcloses
    contradiction

/-- The post past the lock. -/
theorem Sound.handle (h : s.Sound) (hp : s.posts[i]? = some p) (hstage : p.stage = .locking)
    (hfit : p.body.kind = .final →
      s.NoMessage p.turn ∧ (p.body.content = "" → s.buffered p.turn = s.deltaText p.turn)) :
    (s.handle i p).Sound := by
  unfold BridgeState.handle
  simp only
  split
  · rename_i hkind
    split
    · exact h.still_delta hp rfl rfl rfl rfl (fun _ _ hid => Or.inl hid) trivial hkind
        (fun _ hid => by cases hid)
    · split
      · exact h.still_delta hp rfl rfl rfl rfl (fun _ _ hid => Or.inl hid) hkind hkind
          (fun _ hid => by cases hid)
      · exact h.still_delta hp rfl rfl rfl rfl (fun _ _ hid => Or.inl hid) hkind hkind
          (fun _ hid => by cases hid)
  · rename_i hkind
    obtain ⟨hno, htext⟩ := hfit hkind
    have hnone : s.pendingMsgIds.get? p.turn = none := by
      by_contra hsome
      obtain ⟨id, hid⟩ := Option.ne_none_iff_exists'.mp hsome
      obtain ⟨m, hm, hturn⟩ := h.pending p.turn id hid
      exact hno id m hm hturn
    refine h.still hp rfl rfl rfl rfl ?_ hkind ?_ ?_ ?_
    · intro turn id hid
      rcases Dict.get?_pop_cases hid with ⟨_, hold⟩
      exact Or.inl hold
    · intro id hid
      cases hid
    · intro hcloses
      rw [ReplyPost.closes, hstage] at hcloses
      simp at hcloses
    · intro _
      refine ⟨hnone, hno, ?_⟩
      unfold replyText
      rw [if_pos hkind]
      unfold orText
      by_cases hempty : p.body.content = ""
      · rw [if_pos hempty, if_pos hempty, htext hempty]
      · rw [if_neg hempty, if_neg hempty]
  · rename_i hkind
    refine h.still hp rfl rfl rfl rfl (fun _ _ hid => Or.inl hid) hkind ?_ ?_ ?_
    · intro id hid
      cases hid
    · intro hcloses
      rw [ReplyPost.closes, hstage] at hcloses
      simp at hcloses
    · intro hcloses
      simp [ReplyPost.closes] at hcloses

/-! ## A new message, and one that changes -/

section Messages

variable {id : String} {m : ReplyMessage} {turn : ReplyTurn}

theorem sameMessages_set (hmessages : s'.messages = s.messages.set id m)
    (hhanded : s'.handed = s.handed) (hfree : s.messages.get? id = none) (hne : turn ≠ m.turn) :
    SameMessages s s' turn := by
  constructor
  · intro x n hn
    rw [hmessages]
    by_cases hx : id = x
    · subst hx
      rw [Dict.get?_set_self, hfree]
      refine iff_of_false ?_ (Option.some_ne_none n).symm
      intro heq
      cases heq
      exact hne hn.symm
    · rw [Dict.get?_set_of_ne _ _ hx]
  · intro x n _ _
    rw [hhanded]

theorem grow_set (hmessages : s'.messages = s.messages.set id m)
    (hfree : s.messages.get? id = none) (x : String) (n : ReplyMessage)
    (hn : s.messages.get? x = some n) : ∃ n', s'.messages.get? x = some n' ∧ n'.turn = n.turn := by
  refine ⟨n, ?_, rfl⟩
  have hx : id ≠ x := by
    rintro rfl
    rw [hfree] at hn
    contradiction
  rw [hmessages, Dict.get?_set_of_ne _ _ hx, hn]

/-- The first message of a turn is its only one. -/
theorem Sound.sole_set (h : s.Sound) (hmessages : s'.messages = s.messages.set id m)
    (hhanded : s'.handed = s.handed) (hfree : s.messages.get? id = none)
    (hno : s.NoMessage m.turn) : s'.Sole m.turn id m.state m.content 0 := by
  refine ⟨⟨m, ?_, rfl, rfl, rfl⟩, ?_, ?_⟩
  · rw [hmessages, Dict.get?_set_self]
  · intro x n hn hturn
    rw [hmessages] at hn
    rcases Dict.get?_set_cases hn with ⟨hx, _⟩ | ⟨_, hold⟩
    · exact hx.symm
    · exact absurd hturn (hno x n hold)
  · rw [hhanded, List.count_eq_zero]
    intro hid
    have hsome := h.handed id hid
    rw [hfree] at hsome
    contradiction

theorem Sound.sole_insert (h : s.Sound) {id : String} (hfree : s.messages.get? id = none)
    (hno : s.NoMessage p.turn) (channelId content : String) (state : ReplyState) (hops : Nat)
    (stage : ReplyStage) :
    ((s.insert p id channelId content state hops).goOn i p stage).Sole p.turn id state content 0 :=
  h.sole_set (m := ⟨channelId, p.turn.1, content, state, p.turn.2, p.body.msgId, hops⟩) rfl rfl
    hfree hno

variable {state : ReplyState} {times : Nat} {text : String}

/-- The only message of a turn gets another state. -/
theorem Sole.updateState (h : s.Sole turn id state text times) (target : ReplyState) :
    (s.updateState id target).Sole turn id target text times := by
  obtain ⟨n, hn, hturn, _, htext⟩ := h.found
  refine ⟨⟨{ n with state := target }, ?_, hturn, rfl, htext⟩, ?_, h.handed⟩
  · show (s.messages.modify id _).get? id = _
    rw [Dict.get?_modify, if_pos rfl, hn]
    rfl
  · intro x n' hn' hturn'
    rcases Dict.get?_modify_cases hn' with ⟨rfl, _⟩ | ⟨_, hold⟩
    · rfl
    · exact h.only x n' hold hturn'

theorem sameMessages_updateState (target : ReplyState) {own : ReplyTurn}
    (h : s.Sole own id state text times) (hne : turn ≠ own) :
    SameMessages s (s.updateState id target) turn := by
  obtain ⟨n, hn, hturn, _, _⟩ := h.found
  constructor
  · intro x n' hn'
    show (s.messages.modify id _).get? x = _ ↔ _
    rw [Dict.get?_modify]
    by_cases hx : id = x
    · subst hx
      rw [if_pos rfl, hn]
      refine iff_of_false ?_ ?_
      · intro heq
        cases heq
        exact hne (hn'.symm.trans hturn)
      · intro heq
        cases heq
        exact hne (hn'.symm.trans hturn)
    · rw [if_neg hx]
  · intro x n' _ _
    rfl

end Messages

/-! ## Every stretch -/

/-- A turn whose end is still to look for the placeholder can end with an error. -/
theorem Sound.sole_of_pending (h : s.Sound) {turn : ReplyTurn} {id : String}
    (hopen : ¬ s.Closed turn) (hid : s.pendingMsgIds.get? turn = some id) :
    s.Sole turn id .streaming "" 0 := by
  obtain ⟨m, hm, hturn⟩ := h.pending turn id hid
  rcases h.unfinished turn hopen with hno | ⟨x, hsole⟩
  · exact absurd hturn (hno id m hm)
  · obtain rfl := hsole.only id m hm hturn
    exact hsole

attribute [local simp] resume

/-- What a stage says of its post. -/
theorem Sound.fits_at (h : s.Sound) (hmem : p ∈ s.posts) {stage : ReplyStage}
    (hstage : p.stage = stage) : Fits { p with stage } := by
  subst hstage
  exact h.fits p hmem

/-- A final past the placeholder has ended its turn. -/
theorem Sound.final_at (h : s.Sound) (hmem : p ∈ s.posts)
    (hstage : (match p.stage with
      | .finalTracing _ _ | .finalEditing _ _ | .finalCompleting _ => true
      | .finalSending _ _ _ | .finalSent _ | .finalRouting _ => true
      | _ => false) = true) : p.body.kind = .final ∧ s.Due p := by
  have hfits := h.fits p hmem
  have hdue := h.due p hmem
  unfold Fits at hfits
  unfold ReplyPost.closes at hdue
  split at hstage <;> simp_all

section

variable (h : s.Sound) (hp : s.posts[i]? = some p)
include h hp

/-- `_resolve_channel` and the trace are through. -/
theorem Sound.traced {channelId : Option String} (hfit : s.Fitting (.traced i channelId))
    (hstep : s.resume i p (.traced i channelId) = some s') : s'.Sound := by
  have hmem := List.mem_of_getElem? hp
  simp only [resume] at hstep
  split at hstep
  · rename_i text pending hstage
    obtain ⟨hkind, hdue⟩ := h.final_at hmem (by rw [hstage])
    rw [Due, hstage] at hdue
    obtain ⟨rfl, hno, htext⟩ := hdue
    split at hstep
    · rename_i hnone
      have hsome := (hfit p hp).1 text none hstage
      rw [hnone] at hsome
      contradiction
    · contradiction
    · cases hstep
      refine h.still hp rfl rfl rfl rfl (fun _ _ hid => Or.inl hid) hkind ?_ ?_ ?_
      · intro id hid
        cases hid
      · intro _
        simp [ReplyPost.closes, hkind]
      · intro _
        exact ⟨hno, htext⟩
  · rename_i hstage
    have hkind : p.body.kind = .error := h.fits_at hmem hstage
    have hopen : p.closes = false := by
      rw [ReplyPost.closes, hkind, hstage]
      rfl
    obtain ⟨hpending, hempty⟩ := (hfit p hp).2 hstage
    split at hstep
    · rename_i id hid
      cases hstep
      refine h.still hp rfl rfl rfl rfl ?_ hkind ?_ ?_ ?_
      · intro turn x hx
        rcases Dict.get?_pop_cases hx with ⟨_, hold⟩
        exact Or.inl hold
      · intro x hx
        cases hx
      · intro hcloses
        rw [hopen] at hcloses
        contradiction
      · intro _
        have hnot := h.not_closed hp (by rw [hkind]; decide) hopen
        refine ⟨?_, hkind⟩
        have hreply : s.replyText { p with stage := .errorMarking id } = "" := by
          unfold replyText
          rw [if_neg (by rw [hkind]; decide)]
          exact hempty
        rw [hreply]
        exact h.sole_of_pending hnot hid
    · rename_i hnone
      rw [hnone] at hpending
      contradiction
  · contradiction

/-- `send_message` has inserted its row. -/
theorem Sound.inserted {id : String}
    (hfit : s.Fitting (.inserted i id)) (hstep : s.resume i p (.inserted i id) = some s') :
    s'.Sound := by
  have hmem := List.mem_of_getElem? hp
  simp only [resume] at hstep
  split at hstep
  · contradiction
  rename_i hfree
  replace hfree := Option.not_isSome_iff_eq_none.mp hfree
  split at hstep
  · rename_i channelId hops hstage
    have hkind : p.body.kind = .delta := h.fits_at hmem hstage
    obtain ⟨hno, hopen⟩ := hfit p channelId hops hp hstage
    cases hstep
    refine h.next hp rfl rfl ?_ (grow_set rfl hfree) (fun _ hx => Or.inl hx)
      (fun _ _ hx => Or.inl hx) hkind ?_ ?_ ?_ ?_ ?_
    · intro hcloses
      rw [closes_of_delta hkind] at hcloses
      contradiction
    · intro x hx
      cases hx
      exact ⟨_, Dict.get?_set_self _ _ _, rfl⟩
    · intro turn hne
      exact sameMessages_set rfl rfl hfree hne
    · intro _ hclosed
      exact absurd hclosed hopen
    · intro _ _
      exact Or.inr ⟨id, h.sole_insert hfree hno channelId "" .streaming hops _⟩
    · intro hcloses
      simp [ReplyPost.closes, hkind] at hcloses
  · rename_i text channelId hops hstage
    obtain ⟨hkind, hdue⟩ := h.final_at hmem (by rw [hstage])
    rw [Due, hstage] at hdue
    obtain ⟨hno, rfl⟩ := hdue
    cases hstep
    refine h.next hp rfl rfl ?_ (grow_set rfl hfree) (fun _ hx => Or.inl hx)
      (fun _ _ hx => Or.inl hx) hkind ?_ ?_ ?_ ?_ ?_
    · intro _
      simp [ReplyPost.closes, hkind]
    · intro x hx
      cases hx
    · intro turn hne
      exact sameMessages_set rfl rfl hfree hne
    · intro hdelta
      rw [hkind] at hdelta
      contradiction
    · intro hopen
      simp [ReplyPost.closes, hkind] at hopen
    · intro _
      show Sole _ p.turn id .complete (replyText _ _) 0
      rw [replyText_goOn (s.insert p id channelId (s.replyText p) .complete hops) hp]
      exact h.sole_insert hfree hno channelId (s.replyText p) .complete hops (.finalSent id)
  · contradiction

/-- The state of a message is updated. -/
theorem Sound.stateUpdated (hstep : s.resume i p (.stateUpdated i) = some s') : s'.Sound := by
  have hmem := List.mem_of_getElem? hp
  simp only [resume] at hstep
  split at hstep
  · -- A final past a placeholder has gone wrong before.
    rename_i id hstage
    obtain ⟨hkind, hdue⟩ := h.final_at hmem (by rw [hstage])
    rw [Due, hstage] at hdue
    exact hdue.elim
  · rename_i id hstage
    have hkind : p.body.kind = .error := h.fits_at hmem hstage
    have hcloses : p.closes = true := by
      rw [ReplyPost.closes, hkind, hstage]
      rfl
    have hdue := h.due p hmem hcloses
    rw [Due, hstage] at hdue
    obtain ⟨hsole, _⟩ := hdue
    have hgrow : ∀ x n, s.messages.get? x = some n →
        ∃ n', (s.updateState id .error).messages.get? x = some n' ∧ n'.turn = n.turn := by
      intro x n hn
      refine ⟨if id = x then { n with state := .error } else n, ?_, ?_⟩
      · show (s.messages.modify id _).get? x = _
        rw [Dict.get?_modify, hn]
        split <;> rfl
      · split <;> rfl
    cases hstep
    refine h.next hp rfl rfl ?_ hgrow (fun _ hx => Or.inl hx) (fun _ _ hx => Or.inl hx)
      trivial ?_ ?_ ?_ ?_ ?_
    · intro _
      simp [ReplyPost.closes, hkind]
    · intro x hx
      cases hx
    · intro turn hne
      have hkept := sameMessages_updateState .error hsole hne
      exact ⟨hkept.messages, hkept.handed⟩
    · intro hdelta
      rw [hkind] at hdelta
      contradiction
    · intro hopen
      simp [ReplyPost.closes, hkind] at hopen
    · intro _
      refine ⟨hkind, ?_⟩
      unfold OneMessage
      rw [show ({ p with stage := .announcing } : ReplyPost).body.kind = .error from hkind]
      have hmarked := hsole.updateState .error
      refine ⟨id, ?_⟩
      rw [replyText_goOn (s.updateState id .error) hp]
      exact ⟨hmarked.found, hmarked.only, hmarked.handed⟩
  · contradiction

/-- The channel of the reply is there, and the router gets the message. -/
theorem Sound.channelGot {found : Bool} (hfit : s.Fitting (.channelGot i found))
    (hstep : s.resume i p (.channelGot i found) = some s') : s'.Sound := by
  have hmem := List.mem_of_getElem? hp
  simp only [resume] at hstep
  split at hstep
  · rename_i id hstage
    obtain rfl := hfit p id hp hstage
    obtain ⟨hkind, hsole⟩ := h.final_at hmem (by rw [hstage])
    rw [Due, hstage] at hsole
    obtain ⟨m, hm, hturn, hstate, htext⟩ := hsole.found
    cases hstep
    refine h.next hp rfl rfl ?_ (fun x n hn => ⟨n, hn, rfl⟩) ?_ (fun _ _ hx => Or.inl hx)
      trivial ?_ ?_ ?_ ?_ ?_
    · intro _
      simp [ReplyPost.closes, hkind]
    · intro x hx
      rcases List.mem_append.mp hx with hold | hnew
      · exact Or.inl hold
      · right
        obtain rfl := List.mem_singleton.mp hnew
        show (s.messages.get? x).isSome
        rw [hm]
        rfl
    · intro x hx
      cases hx
    · intro turn hne
      constructor
      · intro x n _
        exact Iff.rfl
      · intro x n hn hnturn
        have hnot : [id].count x = 0 := by
          apply List.count_eq_zero.mpr
          intro hx
          obtain rfl := List.mem_singleton.mp hx
          rw [hm] at hn
          cases hn
          exact hne (hnturn.symm.trans hturn)
        show (s.handed ++ [id]).count x = _
        rw [List.count_append, hnot, Nat.add_zero]
    · intro hdelta
      rw [hkind] at hdelta
      contradiction
    · intro hopen
      simp [ReplyPost.closes, hkind] at hopen
    · intro _
      show OneMessage _ _
      unfold OneMessage
      rw [show ({ p with stage := .done } : ReplyPost).body.kind = .final from hkind]
      refine ⟨id, ?_⟩
      rw [replyText_set hp]
      · refine ⟨⟨m, hm, hturn, hstate, htext⟩, hsole.only, ?_⟩
        show (s.handed ++ [id]).count id = 1
        rw [List.count_append, hsole.handed, List.count_singleton_self]
      · rfl
      · rfl
  · contradiction

end

variable {e : BridgeEvent}

/-- A post goes on. -/
theorem Sound.resume (h : s.Sound) (hindex : e.index = some i)
    (hp : s.posts[i]? = some p) (hfit : s.Fitting e) (hstep : s.resume i p e = some s') :
    s'.Sound := by
  have hmem := List.mem_of_getElem? hp
  cases e with
  | userMessageQueued turn hopsSinceUser | posted slug body newTraceId newMsgId =>
    contradiction
  | lookedUp j channelId =>
    simp only [resume] at hstep
    split at hstep
    · rename_i hstage
      cases hstep
      refine h.still hp rfl rfl rfl rfl (fun _ _ hid => Or.inl hid) trivial ?_ ?_ ?_
      · intro id hid
        cases hid
      · intro hcloses
        simp [ReplyPost.closes, hstage] at hcloses
      · intro hcloses
        simp [ReplyPost.closes] at hcloses
    · contradiction
  | locked j =>
    cases hindex
    simp only [resume] at hstep
    split at hstep
    · rename_i hstage
      cases hstep
      exact h.handle hp hstage (hfit p hp hstage)
    · contradiction
  | channelResolved j channelId =>
    simp only [resume] at hstep
    split at hstep
    · rename_i hstage
      have hkind : p.body.kind = .delta := h.fits_at hmem hstage
      split at hstep
      · cases hstep
        exact h.still_delta hp rfl rfl rfl rfl (fun _ _ hid => Or.inl hid) hkind hkind
          (fun _ hid => by cases hid)
      · cases hstep
        exact h.still_delta hp rfl rfl rfl rfl (fun _ _ hid => Or.inl hid) trivial hkind
          (fun _ hid => by cases hid)
    · contradiction
  | traced j channelId =>
    cases hindex
    exact h.traced hp hfit hstep
  | inserted j messageId =>
    cases hindex
    exact h.inserted hp hfit hstep
  | returned j =>
    simp only [resume] at hstep
    split at hstep
    · rename_i id hstage
      have hkind : p.body.kind = .delta := h.fits_at hmem hstage
      cases hstep
      refine h.still_delta hp rfl rfl rfl rfl ?_ trivial hkind (fun _ hid => by cases hid)
      intro turn x hx
      rcases Dict.get?_set_cases hx with ⟨rfl, rfl⟩ | ⟨_, hold⟩
      · exact Or.inr (h.sent p hmem _ hstage)
      · exact Or.inl hold
    · rename_i id hstage
      obtain ⟨hkind, hsole⟩ := h.final_at hmem (by rw [hstage])
      rw [Due, hstage] at hsole
      cases hstep
      refine h.still hp rfl rfl rfl rfl (fun _ _ hid => Or.inl hid) hkind ?_ ?_ ?_
      · intro x hx
        cases hx
      · intro _
        simp [ReplyPost.closes, hkind]
      · intro _
        exact hsole
    · contradiction
  | edited j =>
    simp only [resume] at hstep
    split at hstep
    · rename_i text id hstage
      obtain ⟨hkind, hdue⟩ := h.final_at hmem (by rw [hstage])
      rw [Due, hstage] at hdue
      exact hdue.elim
    · contradiction
  | stateUpdated j =>
    cases hindex
    exact h.stateUpdated hp hstep
  | channelGot j found =>
    cases hindex
    exact h.channelGot hp hfit hstep
  | announced j =>
    simp only [resume] at hstep
    split at hstep
    · rename_i hstage
      cases hstep
      refine h.still hp rfl rfl rfl rfl (fun _ _ hid => Or.inl hid) trivial ?_ ?_ ?_
      · intro id hid
        cases hid
      · intro hcloses
        rw [ReplyPost.closes, hstage] at hcloses
        exact hcloses
      · intro hcloses
        have hbefore : p.closes = true := by
          rw [ReplyPost.closes, hstage]
          exact hcloses
        have hdue := h.due p hmem hbefore
        rw [Due, hstage] at hdue
        exact hdue.2
    · contradiction

/-- A post arrives, and its turn has not ended. -/
theorem Sound.arrive (h : s.Sound) (harriving : p.closes = false) (hfits : Fits p)
    (hsent : ∀ id, p.stage ≠ .deltaSent id)
    (horder : ∀ q ∈ s.posts, q.turn = p.turn → q.body.kind = .delta) :
    Sound { s with posts := s.posts ++ [p] } := by
  have hmem : ∀ q ∈ s.posts ++ [p], q ∈ s.posts ∨ q = p := by
    intro q hq
    rcases List.mem_append.mp hq with hold | hnew
    · exact Or.inl hold
    · exact Or.inr (List.mem_singleton.mp hnew)
  have hkept : ∀ turn, SameMessages s { s with posts := s.posts ++ [p] } turn := by
    intro turn
    apply sameMessages_of_eq <;> rfl
  -- The index of a post is that of an old one, or the last.
  have hindex : ∀ (j : Nat) (q : ReplyPost), (s.posts ++ [p])[j]? = some q →
      s.posts[j]? = some q ∨ j = s.posts.length ∧ q = p := by
    intro j q hq
    rcases Nat.lt_or_ge j s.posts.length with hlt | hge
    · rw [List.getElem?_append_left hlt] at hq
      exact Or.inl hq
    · rw [List.getElem?_append_right hge, List.getElem?_singleton] at hq
      split at hq
      · cases hq
        exact Or.inr ⟨by omega, rfl⟩
      · contradiction
  refine ⟨?_, ?_, h.handed, h.pending, ?_, ?_, ?_⟩
  · intro q hq
    rcases hmem q hq with hold | rfl
    · exact h.fits q hold
    · exact hfits
  · intro i j q r hq hr hturn hqkind hrkind
    rcases hindex i q hq with hq' | ⟨rfl, rfl⟩
    · rcases hindex j r hr with hr' | ⟨rfl, rfl⟩
      · exact h.single i j q r hq' hr' hturn hqkind hrkind
      · exact absurd (horder q (List.mem_of_getElem? hq') hturn) hqkind
    · rcases hindex j r hr with hr' | ⟨rfl, rfl⟩
      · exact absurd (horder r (List.mem_of_getElem? hr') hturn.symm) hrkind
      · rfl
  · intro q hq id hstage
    rcases hmem q hq with hold | rfl
    · exact h.sent q hold id hstage
    · exact absurd hstage (hsent id)
  · intro turn hopen
    have hbefore : ¬ s.Closed turn := by
      rintro ⟨q, hq, hturn, hcloses⟩
      exact hopen ⟨q, List.mem_append_left [p] hq, hturn, hcloses⟩
    exact (h.unfinished turn hbefore).frame (hkept turn)
  · intro q hq hcloses
    rcases hmem q hq with hold | rfl
    · refine (h.due q hold hcloses).frame ⟨hkept q.turn, ?_⟩
      have hne : q.turn ≠ p.turn := by
        intro hturn
        rw [closes_of_delta (horder q hold hturn)] at hcloses
        contradiction
      unfold deltaText
      rw [List.filter_append, List.filter_singleton]
      simp [Ne.symm hne]
    · rw [harriving] at hcloses
      contradiction

/-- A stretch between two awaits that fits leaves each turn with what it is to have. -/
theorem Sound.step (h : s.Sound) (horder : s.InOrder e) (hfit : s.Fitting e)
    (hstep : s.step e = some s') : s'.Sound := by
  cases hindex : e.index with
  | none =>
    cases e with
    | userMessageQueued turn hopsSinceUser =>
      cases hstep
      have hsame : ∀ t, SameTurn s
          { s with pendingHops := s.pendingHops.set turn hopsSinceUser } t := by
        intro t
        refine ⟨?_, rfl⟩
        apply sameMessages_of_eq <;> rfl
      refine ⟨h.fits, h.single, h.handed, h.pending, h.sent, ?_, ?_⟩
      · intro t hopen
        exact (h.unfinished t hopen).frame (hsame t).toSameMessages
      · intro q hq hcloses
        exact (h.due q hq hcloses).frame (hsame q.turn)
    | posted slug body newTraceId newMsgId =>
      cases hstep
      have hstage : (arriving slug body newTraceId newMsgId).stage = .lookingUp ∨
          (arriving slug body newTraceId newMsgId).stage = .locking := by
        unfold arriving
        simp only
        split
        · exact Or.inl rfl
        · exact Or.inr rfl
      refine h.arrive ?_ ?_ ?_ horder
      · rw [ReplyPost.closes]
        rcases hstage with hstage | hstage <;> simp [hstage]
      · rw [Fits]
        rcases hstage with hstage | hstage <;> simp [hstage]
      · intro id hsent
        rcases hstage with hstage | hstage <;> simp [hstage] at hsent
    | _ => contradiction
  | some i =>
    cases hp : s.posts[i]? with
    | none =>
      unfold BridgeState.step at hstep
      split at hstep
      · contradiction
      · contradiction
      · rw [hindex] at hstep
        simp only [hp] at hstep
        contradiction
    | some p =>
      refine h.resume hindex hp hfit ?_
      unfold BridgeState.step at hstep
      split at hstep
      · contradiction
      · contradiction
      · rw [hindex] at hstep
        simp only [hp] at hstep
        exact hstep

end Steps

/-- In every run of posts in order whose stretches all fit, a turn that has ended, and whose posts
are all handled, has one message. -/
theorem oneMessage_of_guarded {es : List BridgeEvent} {s : BridgeState}
    (hrun : run step init es = some s)
    (hguard : Guarded step (fun t e => t.InOrder e ∧ t.Fitting e) init es)
    {p : ReplyPost} (hp : p ∈ s.posts)
    (hend : p.body.kind ≠ .delta) (hhandled : s.Handled p.turn) : s.OneMessage p := by
  have hsound : s.Sound := invariant_of_guarded_run
    (fun _ _ _ h hfit hstep => Sound.step h hfit.1 hfit.2 hstep) sound_init hguard hrun
  have hdone := hhandled p hp rfl
  have hcloses : p.closes = true := by
    simp [ReplyPost.closes, hdone, hend]
  have hdue := hsound.due p hp hcloses
  rw [Due, hdone] at hdue
  exact hdue

/-- A turn whose delta finds no channel, and whose final brings one. -/
def unstreamed : List BridgeEvent :=
  [.posted "zeta" { kind := .delta, traceId := "m1", content := "hi" } "" "",
    .lookedUp 0 none, .locked 0, .channelResolved 0 none,
    .posted "zeta" { kind := .final, traceId := "m1", channelId := some "c1" } "" "",
    .locked 1, .traced 1 none, .inserted 1 "msg-1", .returned 1, .channelGot 1 true]

theorem oneMessage_unstreamed :
    ∃ s, run step init unstreamed = some s ∧
      ∃ p ∈ s.posts, p.body.kind = .final ∧ s.OneMessage p := by
  have hguard : Guarded step (fun t e => t.InOrder e ∧ t.Fitting e) init unstreamed := by
    refine ⟨⟨by decide, trivial⟩, ⟨trivial, trivial⟩, ⟨trivial, ?_⟩, ⟨trivial, trivial⟩,
      ⟨by decide, trivial⟩, ⟨trivial, ?_⟩, ⟨trivial, ?_⟩, ⟨trivial, ?_⟩, ⟨trivial, trivial⟩,
      ⟨trivial, ?_⟩, trivial⟩
    · intro p hp _ hfinal
      cases hp
      contradiction
    · intro p hp _ _
      cases hp
      refine ⟨fun id m hm => ?_, fun _ => by decide⟩
      contradiction
    · intro p hp
      cases hp
      refine ⟨fun _ _ _ => rfl, ?_⟩
      intro hstage
      contradiction
    · intro p channelId hops hp hstage
      cases hp
      contradiction
    · intro p messageId _ _
      rfl
  have hrun : (run step init unstreamed).any (fun s =>
      s.posts.any (fun p => decide (p.body.kind = .final)) &&
        s.posts.all (fun p => decide (p.stage = .done))) = true := by
    decide
  obtain ⟨s, hs, hall⟩ := (Option.any_eq_true _ _).mp hrun
  obtain ⟨hfinal, hdone⟩ := Bool.and_eq_true_iff.mp hall
  obtain ⟨p, hp, hkind⟩ := List.any_eq_true.mp hfinal
  have hkind := of_decide_eq_true hkind
  refine ⟨s, hs, p, hp, hkind, oneMessage_of_guarded hs hguard hp ?_ ?_⟩
  · rw [hkind]
    decide
  · intro q hq _
    exact of_decide_eq_true (List.all_eq_true.mp hdone q hq)

/-- A turn that is answered by one delta and the final. -/
def streamed : List BridgeEvent :=
  [.posted "zeta" { kind := .delta, traceId := "m1", content := "hi", channelId := some "c1" } ""
      "", .locked 0, .inserted 0 "msg-1", .returned 0, .announced 0,
    .posted "zeta" { kind := .final, traceId := "m1", channelId := some "c1" } "" "",
    .locked 1, .traced 1 none, .edited 1, .stateUpdated 1, .announced 1]

/-- The reply is complete, and the router does not get it. -/
theorem not_oneMessage :
    ∃ s, run step init streamed = some s ∧ Guarded step InOrder init streamed ∧
      ∃ p ∈ s.posts, p.body.kind = .final ∧ s.Handled p.turn ∧ ¬ s.OneMessage p := by
  have hrun : (run step init streamed).any (fun s =>
      s.posts.any (fun p => decide (p.body.kind = .final)) &&
        (s.posts.all (fun p => decide (p.stage = .done)) && s.handed.isEmpty)) = true := by
    decide
  obtain ⟨s, hs, hall⟩ := (Option.any_eq_true _ _).mp hrun
  rw [Bool.and_eq_true, Bool.and_eq_true] at hall
  obtain ⟨hfinal, hdone, hnone⟩ := hall
  obtain ⟨p, hp, hkind⟩ := List.any_eq_true.mp hfinal
  refine ⟨s, hs, by decide, p, hp, of_decide_eq_true hkind, ?_, ?_⟩
  · intro q hq _
    exact of_decide_eq_true (List.all_eq_true.mp hdone q hq)
  · intro hone
    rw [OneMessage, of_decide_eq_true hkind] at hone
    obtain ⟨id, hsole⟩ := hone
    have hcount := hsole.handed
    rw [List.isEmpty_iff.mp hnone] at hcount
    contradiction

end BridgeState

end TinyAgentOS.Chat
