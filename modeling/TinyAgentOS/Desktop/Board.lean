import TinyAgentOS.Library.Buckets

/-!
# The lanes of the board

Tasks are grouped into lanes by one of their fields.  A task with several labels is in several
lanes; one that has tasks below it is the header of a lane, and a card of one only if it has a
parent.  A card that is dropped on a lane gets a patch for the field of the grouping.

Main results:

- `card_iff`: which lanes a task is a card of.
- `shown_of_mem`: every task appears on the board.
- `isCard_of_mem`: every lane has a card.
-/

namespace TinyAgentOS.Desktop
namespace Board

open Collections Buckets

/-! ## Tasks and lanes -/

inductive TaskStatus where
  | opened
  | claimed
  | closed
deriving DecidableEq

structure Task where
  id : String
  parentTaskId : Option String
  title : String
  status : TaskStatus
  priority : Int
  labels : List String
  assigneeId : Option String
deriving DecidableEq

inductive GroupBy where
  | assignee
  | parent
  | label
  | priority
deriving DecidableEq

structure LaneHeader where
  key : String
  kind : GroupBy
  title : String
  subtitle : String
  avatarSeed : Option String
deriving DecidableEq

structure Lane where
  header : LaneHeader
  cards : List Task
deriving DecidableEq

/-- A number, and a word for so many. -/
def counted (n : Nat) (word : String) : String :=
  toString n ++ " " ++ word ++ (if n = 1 then "" else "s")

def unassigned : String := "__unassigned__"
def unlabeled : String := "__unlabeled__"
def orphansKey : String := "__orphans__"

/-! ## Grouping -/

def assigneeKeys (t : Task) : List String :=
  [t.assigneeId.getD unassigned]

def groupByAssignee (tasks : List Task) : List Lane :=
  (fill assigneeKeys Dict.empty tasks).entries.map fun e =>
    ⟨⟨e.1, .assignee, if e.1 = unassigned then "Unassigned" else e.1, counted e.2.length "task",
      some e.1⟩, e.2⟩

def labelKeys (t : Task) : List String :=
  if t.labels = [] then [unlabeled] else t.labels

def groupByLabel (tasks : List Task) : List Lane :=
  (fill labelKeys Dict.empty tasks).entries.map fun e =>
    ⟨⟨e.1, .label, if e.1 = unlabeled then "Unlabeled" else e.1, toString e.2.length, none⟩, e.2⟩

def priorityKey (priority : Int) : String :=
  if priority = 0 then "p0" else if priority = 1 then "p1" else if priority = 2 then "p2"
  else "backlog"

def priorityTitle (key : String) : String :=
  if key = "p0" then "P0 — urgent" else if key = "p1" then "P1 — high"
  else if key = "p2" then "P2 — normal" else "Backlog"

def priorityKeys (t : Task) : List String :=
  [priorityKey t.priority]

def priorityBuckets : Dict String (List Task) :=
  ⟨[("p0", []), ("p1", []), ("p2", []), ("backlog", [])], by decide⟩

/-- The lanes of priorities that have cards. -/
def groupByPriority (tasks : List Task) : List Lane :=
  ((fill priorityKeys priorityBuckets tasks).entries.filter fun e => e.2 ≠ []).map fun e =>
    ⟨⟨e.1, .priority, priorityTitle e.1, toString e.2.length, none⟩, e.2⟩

/-- `new Map(tasks.map(t => [t.id, t]))`. -/
def byId (tasks : List Task) : Dict String Task :=
  tasks.foldl (fun d t => d.set t.id t) Dict.empty

/-- The parent of a task, if it is on the board. -/
def parentKeys (tasks : List Task) (t : Task) : List String :=
  match t.parentTaskId with
  | none => []
  | some parent => if parent ≠ "" && ((byId tasks).get? parent).isSome then [parent] else []

def parentBuckets (tasks : List Task) : Dict String (List Task) :=
  fill (parentKeys tasks) Dict.empty tasks

/-- Tasks that are neither below another one nor above. -/
def orphans (tasks : List Task) : List Task :=
  tasks.filter fun t => !((parentBuckets tasks).values.flatten.map Task.id).contains t.id &&
    !(parentBuckets tasks).keys.contains t.id

def groupByParent (tasks : List Task) : List Lane :=
  (parentBuckets tasks).entries.map (fun e =>
    ⟨⟨e.1, .parent, (((byId tasks).get? e.1).map Task.title).getD "",
      counted e.2.length "sub-task", none⟩, e.2⟩) ++
    if orphans tasks = [] then []
    else
      [⟨⟨orphansKey, .parent, "Standalone", toString (orphans tasks).length, none⟩,
        orphans tasks⟩]

def lanesOf (groupBy : GroupBy) (tasks : List Task) : List Lane :=
  match groupBy with
  | .assignee => groupByAssignee tasks
  | .parent => groupByParent tasks
  | .label => groupByLabel tasks
  | .priority => groupByPriority tasks

/-! ## Dropping -/

/-- The field that an update changes. -/
inductive TaskPatch where
  | assigneeId (value : Option String)
  | parentTaskId (value : Option String)
  | priority (value : Int)
  | labels (value : List String)
deriving DecidableEq

def TaskPatch.apply (t : Task) : TaskPatch → Task
  | assigneeId value => { t with assigneeId := value }
  | parentTaskId value => { t with parentTaskId := value }
  | priority value => { t with priority := value }
  | labels value => { t with labels := value }

inductive ColumnStatus where
  | ready
  | claimed
  | closed
deriving DecidableEq

inductive ApiCall where
  | claim (taskId claimerId : String)
  | release (taskId releaserId : String)
  | close (taskId closedBy : String)
  | update (taskId : String) (patch : TaskPatch)
deriving DecidableEq

inductive DndResult where
  | calls (calls : List ApiCall)
  | blocked (reason : String)
deriving DecidableEq

/-- `sameMembers`: as many members, and each of the second is one of the first. -/
def sameMembers (a b : List String) : Bool :=
  a.length = b.length && b.all fun x => a.contains x

def isCover (label : String) : Bool :=
  "cover:".toList.isPrefixOf label.toList

def covers (t : Task) : List String :=
  t.labels.filter isCover

/-- The labels of a category, which a drop replaces. -/
def categories (t : Task) : List String :=
  t.labels.filter fun label => !isCover label

/-- The labels after a drop. -/
def nextLabels (t : Task) (laneKey : String) : List String :=
  if laneKey = unlabeled || laneKey = "" then covers t else covers t ++ [laneKey]

def priorityOf (laneKey : String) : Int :=
  if laneKey = "p0" then 0 else if laneKey = "p1" then 1 else if laneKey = "p2" then 2 else 3

def lanePatch (t : Task) (laneKey : String) : GroupBy → Option TaskPatch
  | .assignee =>
    if laneKey = unassigned then some (.assigneeId none)
    else if t.assigneeId = some laneKey then none else some (.assigneeId (some laneKey))
  | .parent =>
    if laneKey = orphansKey then some (.parentTaskId none)
    else if t.parentTaskId = some laneKey then none else some (.parentTaskId (some laneKey))
  | .priority =>
    if t.priority = priorityOf laneKey then none else some (.priority (priorityOf laneKey))
  | .label =>
    if sameMembers t.labels (nextLabels t laneKey) then none
    else some (.labels (nextLabels t laneKey))

def mapStatus : TaskStatus → ColumnStatus
  | .opened => .ready
  | .claimed => .claimed
  | .closed => .closed

/-- The call for another column. -/
def columnCall (t : Task) (currentUserId : String) : ColumnStatus → ApiCall
  | .claimed => .claim t.id currentUserId
  | .ready => .release t.id currentUserId
  | .closed => .close t.id currentUserId

/-- The calls for another lane, in the view of lanes; an empty key is no lane. -/
def laneCalls (t : Task) (laneKey : String) (groupBy : GroupBy) : List ApiCall :=
  if laneKey = "" then []
  else ((lanePatch t laneKey groupBy).map (ApiCall.update t.id)).toList

/-- `dndAction`, in the view of lanes. -/
def dndAction (t : Task) (columnStatus : ColumnStatus) (laneKey : String) (groupBy : GroupBy)
    (currentUserId : String) : DndResult :=
  if mapStatus t.status = columnStatus then .calls (laneCalls t laneKey groupBy)
  else if mapStatus t.status = .closed then .blocked "Re-open by creating a follow-up task"
  else .calls (laneCalls t laneKey groupBy ++ [columnCall t currentUserId columnStatus])

/-- A task after the updates among some calls. -/
def updated (t : Task) (calls : List ApiCall) : Task :=
  calls.foldl
    (fun t call =>
      match call with
      | .update _ patch => patch.apply t
      | _ => t)
    t

/-- The tasks with one of them changed. -/
def replaced (tasks : List Task) (t t' : Task) : List Task :=
  tasks.map fun other => if other.id = t.id then t' else other

/-! ## What is on the board -/

/-- The lane is headed by the task, and has cards below it. -/
def Heads (lane : Lane) (t : Task) : Prop :=
  lane.header.key = t.id ∧ ∃ card ∈ lane.cards, card.parentTaskId = some t.id

/-- The task appears on the board. -/
def Shown (lanes : List Lane) (t : Task) : Prop :=
  ∃ lane ∈ lanes, t ∈ lane.cards ∨ Heads lane t

/-- The task is a card of a lane with the key. -/
def IsCard (lanes : List Lane) (key : String) (t : Task) : Prop :=
  ∃ lane ∈ lanes, lane.header.key = key ∧ t ∈ lane.cards

/-! ## Cards -/

section Cards

variable {tasks : List Task} {key : String} {t : Task}

/-- The cards of lanes that are made of buckets. -/
theorem isCard_map {d : Dict String (List Task)} {lane : String × List Task → Lane}
    (hkey : ∀ e, (lane e).header.key = e.1) (hcards : ∀ e, (lane e).cards = e.2) :
    IsCard (d.entries.map lane) key t ↔ InBucket d key t := by
  constructor
  · rintro ⟨l, hl, hlane, hcard⟩
    obtain ⟨e, he, rfl⟩ := List.mem_map.mp hl
    rw [hcards] at hcard
    rw [hkey] at hlane
    exact ⟨e.2, by rw [← hlane]; exact Dict.mem_entries_iff.mp he, hcard⟩
  · rintro ⟨bucket, hget, hcard⟩
    refine ⟨lane (key, bucket), List.mem_map_of_mem (Dict.mem_entries_iff.mpr hget), hkey _, ?_⟩
    rw [hcards]
    exact hcard

/-- A filled bucket has the tasks with its key. -/
theorem inBucket_fill_empty {keys : Task → List String} :
    InBucket (fill keys Dict.empty tasks) key t ↔ t ∈ tasks ∧ key ∈ keys t := by
  rw [inBucket_fill, or_iff_right not_inBucket_empty]

/-- The cards of an assignee. -/
theorem isCard_assignee :
    IsCard (groupByAssignee tasks) key t ↔ t ∈ tasks ∧ key ∈ assigneeKeys t := by
  rw [groupByAssignee, isCard_map (fun _ => rfl) (fun _ => rfl), inBucket_fill_empty]

theorem isCard_label : IsCard (groupByLabel tasks) key t ↔ t ∈ tasks ∧ key ∈ labelKeys t := by
  rw [groupByLabel, isCard_map (fun _ => rfl) (fun _ => rfl), inBucket_fill_empty]

theorem not_inBucket_priorityBuckets : ¬ InBucket priorityBuckets key t := by
  rintro ⟨bucket, hget, hcard⟩
  have hentry := Dict.mem_entries_iff.mpr hget
  simp only [priorityBuckets, List.mem_cons, Prod.mk.injEq, List.not_mem_nil, or_false] at hentry
  rcases hentry with ⟨_, rfl⟩ | ⟨_, rfl⟩ | ⟨_, rfl⟩ | ⟨_, rfl⟩ <;> contradiction

/-- The cards of a priority. -/
theorem isCard_priority :
    IsCard (groupByPriority tasks) key t ↔ t ∈ tasks ∧ key ∈ priorityKeys t := by
  have hbucket : InBucket (fill priorityKeys priorityBuckets tasks) key t ↔
      t ∈ tasks ∧ key ∈ priorityKeys t := by
    rw [inBucket_fill, or_iff_right not_inBucket_priorityBuckets]
  rw [← hbucket]
  constructor
  · rintro ⟨l, hl, rfl, hcard⟩
    obtain ⟨e, he, rfl⟩ := List.mem_map.mp hl
    exact ⟨e.2, Dict.mem_entries_iff.mp (List.mem_filter.mp he).1, hcard⟩
  · rintro ⟨bucket, hget, hcard⟩
    have hne : bucket ≠ [] := List.ne_nil_of_mem hcard
    exact ⟨_, List.mem_map_of_mem (List.mem_filter.mpr
      ⟨Dict.mem_entries_iff.mpr hget, decide_eq_true hne⟩), rfl, hcard⟩

/-- A task is found by its id. -/
theorem isSome_byId {parent : String} :
    ((byId tasks).get? parent).isSome = true ↔ ∃ other ∈ tasks, other.id = parent := by
  have hfold : ∀ d : Dict String Task,
      ((tasks.foldl (fun d t => d.set t.id t) d).get? parent).isSome = true ↔
        (d.get? parent).isSome = true ∨ ∃ other ∈ tasks, other.id = parent := by
    induction tasks with
    | nil => simp
    | cons other tasks ih =>
      intro d
      rw [List.foldl_cons, ih, Dict.get?_set, List.exists_mem_cons_iff]
      by_cases hid : other.id = parent
      · simp [hid]
      · simp [hid]
  rw [byId, hfold, Dict.get?_empty]
  simp

/-- The key of a task is its parent, where that is on the board. -/
theorem mem_parentKeys : key ∈ parentKeys tasks t ↔
    t.parentTaskId = some key ∧ key ≠ "" ∧ ∃ other ∈ tasks, other.id = key := by
  unfold parentKeys
  cases hparent : t.parentTaskId with
  | none => simp
  | some parent =>
    simp only [Bool.and_eq_true, decide_eq_true_eq, isSome_byId]
    by_cases h : parent ≠ "" ∧ ∃ other ∈ tasks, other.id = parent
    · rw [if_pos h, List.mem_singleton, Option.some.injEq]
      constructor
      · rintro rfl
        exact ⟨rfl, h⟩
      · exact fun hkey => hkey.1.symm
    · rw [if_neg h]
      simp only [List.not_mem_nil, Option.some.injEq, false_iff]
      rintro ⟨rfl, hkey⟩
      exact h hkey

theorem inBucket_parentBuckets :
    InBucket (parentBuckets tasks) key t ↔ t ∈ tasks ∧ key ∈ parentKeys tasks t :=
  inBucket_fill_empty

/-- The cards of a parent, and the orphans. -/
theorem isCard_parent : IsCard (groupByParent tasks) key t ↔
    (t ∈ tasks ∧ key ∈ parentKeys tasks t) ∨ key = orphansKey ∧ t ∈ orphans tasks := by
  rw [← inBucket_parentBuckets]
  constructor
  · rintro ⟨lane, hlane, rfl, hcard⟩
    rcases List.mem_append.mp hlane with hbucket | horphans
    · obtain ⟨e, he, rfl⟩ := List.mem_map.mp hbucket
      exact Or.inl ⟨e.2, Dict.mem_entries_iff.mp he, hcard⟩
    · split at horphans
      · contradiction
      · rw [List.mem_singleton.mp horphans] at hcard ⊢
        exact Or.inr ⟨rfl, hcard⟩
  · rintro (⟨bucket, hget, hcard⟩ | ⟨rfl, hcard⟩)
    · exact ⟨_, List.mem_append_left _
        (List.mem_map_of_mem (Dict.mem_entries_iff.mpr hget)), rfl, hcard⟩
    · refine ⟨⟨⟨orphansKey, .parent, "Standalone", toString (orphans tasks).length, none⟩,
        orphans tasks⟩, List.mem_append_right _ ?_, rfl, hcard⟩
      rw [if_neg (List.ne_nil_of_mem hcard)]
      exact List.mem_cons_self

/-- A task stands alone that has no parent on the board, and no child. -/
theorem mem_orphans : t ∈ orphans tasks ↔
    t ∈ tasks ∧ (∀ k child, InBucket (parentBuckets tasks) k child → child.id ≠ t.id) ∧
      ∀ child, ¬ InBucket (parentBuckets tasks) t.id child := by
  have hkey : t.id ∈ (parentBuckets tasks).keys ↔
      ∃ child, InBucket (parentBuckets tasks) t.id child := by
    rw [Dict.mem_keys_iff]
    constructor
    · rintro ⟨bucket, hget⟩
      obtain ⟨child, _, _, hchild⟩ := exists_of_fill hget
      exact ⟨child, bucket, hget, hchild⟩
    · rintro ⟨child, bucket, hget, _⟩
      exact ⟨bucket, hget⟩
  have hchild : t.id ∈ (parentBuckets tasks).values.flatten.map Task.id ↔
      ∃ k child, InBucket (parentBuckets tasks) k child ∧ child.id = t.id := by
    rw [List.mem_map]
    constructor
    · rintro ⟨child, hmem, hid⟩
      obtain ⟨bucket, hbucket, hmem⟩ := List.mem_flatten.mp hmem
      obtain ⟨k, hget⟩ := Dict.mem_values_iff.mp hbucket
      exact ⟨k, child, ⟨bucket, hget, hmem⟩, hid⟩
    · rintro ⟨k, child, ⟨bucket, hget, hmem⟩, hid⟩
      exact ⟨child, List.mem_flatten.mpr ⟨bucket, Dict.mem_values_iff.mpr ⟨k, hget⟩, hmem⟩, hid⟩
  rw [orphans, List.mem_filter, Bool.and_eq_true, Bool.not_eq_true', Bool.not_eq_true',
    ← Bool.not_eq_true, ← Bool.not_eq_true, List.contains_iff_mem, List.contains_iff_mem, hkey,
    hchild]
  constructor
  · rintro ⟨hmem, hnochild, hnokey⟩
    exact ⟨hmem, fun k child hin hid => hnochild ⟨k, child, hin, hid⟩,
      fun child hin => hnokey ⟨child, hin⟩⟩
  · rintro ⟨hmem, hnochild, hnokey⟩
    exact ⟨hmem, fun ⟨k, child, hin, hid⟩ => hnochild k child hin hid,
      fun ⟨child, hin⟩ => hnokey child hin⟩

/-- The keys of the lanes that a task is a card of, where lanes are no tasks. -/
def keysOf (t : Task) : GroupBy → List String
  | .assignee => assigneeKeys t
  | .label => labelKeys t
  | .priority => priorityKeys t
  | .parent => []

variable {groupBy : GroupBy}

/-- A task is in the lanes of its keys. -/
theorem card_iff (hgroup : groupBy ≠ .parent) :
    IsCard (lanesOf groupBy tasks) key t ↔ t ∈ tasks ∧ key ∈ keysOf t groupBy := by
  cases groupBy with
  | assignee => exact isCard_assignee
  | parent => contradiction
  | label => exact isCard_label
  | priority => exact isCard_priority

theorem keysOf_ne_nil (hgroup : groupBy ≠ .parent) (t : Task) : keysOf t groupBy ≠ [] := by
  cases groupBy with
  | assignee | priority => exact List.cons_ne_nil _ _
  | parent => contradiction
  | label =>
    change labelKeys t ≠ []
    unfold labelKeys
    split
    · exact List.cons_ne_nil _ _
    · assumption

/-- Tasks of one id are one. -/
theorem eq_of_id {other : Task} (hnodup : (tasks.map Task.id).Nodup) (ht : t ∈ tasks)
    (hother : other ∈ tasks) (hid : other.id = t.id) : other = t :=
  List.inj_on_of_nodup_map hnodup hother ht hid

/-- A lane that has a task's children is headed by it. -/
theorem heads_of_inBucket {child : Task} (hin : InBucket (parentBuckets tasks) t.id child) :
    ∃ lane ∈ groupByParent tasks, Heads lane t := by
  have hparent := (mem_parentKeys.mp (inBucket_parentBuckets.mp hin).2).1
  obtain ⟨bucket, hget, hchild⟩ := hin
  exact ⟨_, List.mem_append_left _ (List.mem_map_of_mem (Dict.mem_entries_iff.mpr hget)), rfl,
    child, hchild, hparent⟩

/-- Every task appears on the board. -/
theorem shown_of_mem (hnodup : (tasks.map Task.id).Nodup) (ht : t ∈ tasks) :
    Shown (lanesOf groupBy tasks) t := by
  by_cases hgroup : groupBy = .parent
  · subst hgroup
    by_cases hheads : ∃ child, InBucket (parentBuckets tasks) t.id child
    · obtain ⟨child, hin⟩ := hheads
      obtain ⟨lane, hlane, hhead⟩ := heads_of_inBucket hin
      exact ⟨lane, hlane, Or.inr hhead⟩
    · by_cases hchild : ∃ k, InBucket (parentBuckets tasks) k t
      · obtain ⟨k, hin⟩ := hchild
        obtain ⟨lane, hlane, _, hcard⟩ := isCard_parent.mpr
          (Or.inl (inBucket_parentBuckets.mp hin))
        exact ⟨lane, hlane, Or.inl hcard⟩
      · have horphan : t ∈ orphans tasks := by
          refine mem_orphans.mpr ⟨ht, ?_, fun child hin => hheads ⟨child, hin⟩⟩
          intro k child hin hid
          have hmem := (inBucket_parentBuckets.mp hin).1
          rw [eq_of_id hnodup ht hmem hid] at hin
          exact hchild ⟨k, hin⟩
        obtain ⟨lane, hlane, _, hcard⟩ := isCard_parent.mpr (Or.inr ⟨rfl, horphan⟩)
        exact ⟨lane, hlane, Or.inl hcard⟩
  · obtain ⟨key, hkey⟩ := List.exists_mem_of_ne_nil _ (keysOf_ne_nil hgroup t)
    obtain ⟨lane, hlane, _, hcard⟩ := (card_iff hgroup).mpr ⟨ht, hkey⟩
    exact ⟨lane, hlane, Or.inl hcard⟩

/-- Every lane has a card. -/
theorem isCard_of_mem {lane : Lane} (hlane : lane ∈ lanesOf groupBy tasks) :
    ∃ card, IsCard (lanesOf groupBy tasks) lane.header.key card := by
  have hfill : ∀ {keys : Task → List String} {e : String × List Task},
      e ∈ (fill keys Dict.empty tasks).entries → ∃ card, card ∈ e.2 := by
    intro keys e he
    obtain ⟨card, _, _, hcard⟩ := exists_of_fill (Dict.mem_entries_iff.mp he)
    exact ⟨card, hcard⟩
  have hcard : ∃ card, card ∈ lane.cards := by
    cases groupBy with
    | assignee | label =>
      obtain ⟨e, he, rfl⟩ := List.mem_map.mp hlane
      exact hfill he
    | priority =>
      obtain ⟨e, he, rfl⟩ := List.mem_map.mp hlane
      exact List.exists_mem_of_ne_nil _ (of_decide_eq_true (List.mem_filter.mp he).2)
    | parent =>
      rcases List.mem_append.mp hlane with hbucket | horphans
      · obtain ⟨e, he, rfl⟩ := List.mem_map.mp hbucket
        exact hfill he
      · split at horphans
        · contradiction
        · rename_i hne
          rw [List.mem_singleton.mp horphans]
          exact List.exists_mem_of_ne_nil _ hne
  obtain ⟨card, hmem⟩ := hcard
  exact ⟨card, lane, hlane, rfl, hmem⟩

end Cards

end Board
end TinyAgentOS.Desktop
