import TinyAgentOS.Chat.Messages
import TinyAgentOS.Library.Paging

/-!
# The pages of a channel

The messages of a channel are read newest first, a page at a time, each page before the oldest
timestamp of the last one.  Messages of one timestamp that a page has cut off are before no such
timestamp.

Main results:

- `MessageState.pagesComplete_iff`: paging reads every message once in exactly the histories where
  no page ends between two messages of one timestamp.
- `MessageState.not_pagesComplete`: two messages of one timestamp, one at a time.
-/

namespace TinyAgentOS.Chat

open Collections Transition
open Paging (IsPage TiesWhole cut older sortedKeys walk walk_perm_iff)
open Projects (Clock)

/-- The orders that the database lists rows in; rows of one timestamp come in any order. -/
structure RowOrder where
  newestFirst : List Insertion → List Insertion
  oldestFirst : List Insertion → List Insertion
  newestFirst_perm : ∀ rows, (newestFirst rows).Perm rows
  newestFirst_sorted : ∀ rows,
    (newestFirst rows).Pairwise fun v w => w.2.createdAt ≤ v.2.createdAt
  oldestFirst_perm : ∀ rows, (oldestFirst rows).Perm rows
  oldestFirst_sorted : ∀ rows,
    (oldestFirst rows).Pairwise fun v w => v.2.createdAt ≤ w.2.createdAt

/-- Rows of one timestamp as they were inserted. -/
def insertionOrder : RowOrder where
  newestFirst rows := rows.insertionSort fun v w => w.2.createdAt ≤ v.2.createdAt
  oldestFirst rows := rows.insertionSort fun v w => v.2.createdAt ≤ w.2.createdAt
  newestFirst_perm _ := List.perm_insertionSort _ _
  newestFirst_sorted rows := by
    have : Std.Total fun v w : Insertion => w.2.createdAt ≤ v.2.createdAt :=
      ⟨fun v w => le_total _ _⟩
    have : IsTrans Insertion fun v w => w.2.createdAt ≤ v.2.createdAt :=
      ⟨fun u v w huv hvw => hvw.trans huv⟩
    exact List.pairwise_insertionSort _ rows
  oldestFirst_perm _ := List.perm_insertionSort _ _
  oldestFirst_sorted rows := by
    have : Std.Total fun v w : Insertion => v.2.createdAt ≤ w.2.createdAt :=
      ⟨fun v w => le_total _ _⟩
    have : IsTrans Insertion fun v w => v.2.createdAt ≤ w.2.createdAt :=
      ⟨fun u v w huv hvw => huv.trans hvw⟩
    exact List.pairwise_insertionSort _ rows

namespace MessageState

/-- The messages of a channel. -/
def history (s : MessageState) (channelId : String) : List Insertion :=
  s.rows.filter fun w => w.2.channelId = channelId

/-- `get_messages`. -/
def getMessages (order : RowOrder) (s : MessageState) (channelId : String) (limit : Int := 50)
    (before after : Option Clock := none) : List Insertion :=
  order.oldestFirst (cut limit (order.newestFirst (s.rows.filter fun w =>
    w.2.channelId = channelId && before.all (fun t => w.2.createdAt < t) &&
      after.all fun t => t < w.2.createdAt)))

/-- The pages of a channel, read one after the other until one is empty, have every message
once. -/
def PagesComplete (order : RowOrder) (s : MessageState) (channelId : String) (limit : Int) :
    Prop :=
  ∀ fuel, (s.history channelId).length < fuel →
    (walk (fun w : Insertion => w.2.createdAt)
      (fun before => s.getMessages order channelId limit before) fuel none).Perm
      (s.history channelId)

theorem isPage_getMessages (order : RowOrder) (s : MessageState) (channelId : String)
    (limit : Int) (before : Option Clock) :
    IsPage (fun w : Insertion => w.2.createdAt) limit (s.history channelId) before
      (s.getMessages order channelId limit before) := by
  have hrows : older (fun w : Insertion => w.2.createdAt) (s.history channelId) before =
      s.rows.filter fun w =>
        w.2.channelId = channelId && before.all (fun t => w.2.createdAt < t) &&
          (none : Option Clock).all fun t => t < w.2.createdAt := by
    rw [older, history, List.filter_filter]
    apply List.filter_congr
    intro w _
    rw [Option.all_none, Bool.and_true, Bool.and_comm]
  refine ⟨order.newestFirst _, ?_, order.newestFirst_sorted _, order.oldestFirst_perm _⟩
  rw [hrows]
  exact order.newestFirst_perm _

/-- Paging is complete if and only if, whenever a page is full, the message after its oldest one
is older. -/
theorem pagesComplete_iff (order : RowOrder) (s : MessageState) (channelId : String)
    (limit : Int) :
    s.PagesComplete order channelId limit ↔
      TiesWhole limit (sortedKeys (fun w : Insertion => w.2.createdAt) (s.history channelId)) := by
  have hpage := isPage_getMessages order s channelId limit
  constructor
  · intro hcomplete
    exact (walk_perm_iff hpage (Nat.lt_succ_self _)).mp (hcomplete _ (Nat.lt_succ_self _))
  · intro hties fuel hfuel
    exact (walk_perm_iff hpage hfuel).mpr hties

/-- Two messages are sent at one time. -/
def sentTogether : List MessageEvent :=
  [.sent 0 { channelId := "general", authorId := "ada", authorType := "user", content := "hi" }
      "a" 5, .committed 0,
    .sent 1 { channelId := "general", authorId := "bob", authorType := "agent", content := "yo" }
      "b" 5, .committed 1]

/-- Read one at a time, one of them is never read. -/
theorem not_pagesComplete :
    ∃ s, run step init sentTogether = some s ∧
      ¬s.PagesComplete insertionOrder "general" 1 := by
  have hrun : ((run step init sentTogether).any fun s =>
      decide ((s.history "general").map (fun w => w.2.createdAt) = [5, 5])) = true := by
    decide
  obtain ⟨s, hs, hkeys⟩ := (Option.any_eq_true _ _).mp hrun
  refine ⟨s, hs, ?_⟩
  intro hcomplete
  have hties := (walk_perm_iff (isPage_getMessages insertionOrder s "general" 1)
    (Nat.lt_succ_self _)).mp (hcomplete _ (Nat.lt_succ_self _))
  have hsame : sortedKeys (fun w : Insertion => w.2.createdAt) (s.history "general") =
      List.replicate 2 5 := by
    rw [sortedKeys, of_decide_eq_true hkeys]
    apply List.eq_replicate_iff.mpr
    refine ⟨List.length_insertionSort _ _, ?_⟩
    intro t ht
    simpa using (List.mem_insertionSort _).mp ht
  rw [hsame] at hties
  exact hties.2 (by decide) 0 5 5 rfl rfl rfl

end MessageState

end TinyAgentOS.Chat
