import TinyAgentOS.Desktop.Board

/-!
# What is dropped on a lane

The patch of a drop is made from the key of the lane, and the lanes from the patched tasks.  The two
agree but for labels: a lane without a name is taken for none, the lane without labels is closed to
a task with covers, and labels are compared one way, so a task with one category that is dropped on
the lane of its cover keeps the category.

Main results:

- `sameMembers_iff`: the drops that are taken to change no labels.
- `lands_iff_reachable`: where a patched task is in the lanes.
- `landsWhereDropped_iff`: the drops after which a task is in the lane it was dropped on.
-/

namespace TinyAgentOS.Desktop
namespace Board

open Collections Buckets

/-! ## Where a task lands -/

/-- The task is in the lane; a task with children stands alone as the header of its lane. -/
def Lands (groupBy : GroupBy) (lanes : List Lane) (key : String) (t : Task) : Prop :=
  IsCard lanes key t ∨
    groupBy = .parent ∧ key = orphansKey ∧ t.parentTaskId = none ∧ ∃ lane ∈ lanes, Heads lane t

/-- The task is in no other lane, but for those of the covers that it had. -/
def LeavesOthers (groupBy : GroupBy) (lanes : List Lane) (key : String) (old t : Task) : Prop :=
  ∀ other, IsCard lanes other t →
    other = key ∨ groupBy = .label ∧ isCover other = true ∧ other ∈ old.labels

/-- A drop that is not blocked puts the task into the lane and out of the others, and loses none. -/
def LandsWhereDropped (tasks : List Task) (groupBy : GroupBy) (t : Task) (key : String)
    (columnStatus : ColumnStatus) (currentUserId : String) : Prop :=
  ∀ calls, dndAction t columnStatus key groupBy currentUserId = .calls calls →
    Lands groupBy (lanesOf groupBy (replaced tasks t (updated t calls))) key (updated t calls) ∧
      LeavesOthers groupBy (lanesOf groupBy (replaced tasks t (updated t calls))) key t
        (updated t calls) ∧
      (∀ other ∈ tasks, Shown (lanesOf groupBy tasks) other) ∧
        ∀ other ∈ replaced tasks t (updated t calls),
          Shown (lanesOf groupBy (replaced tasks t (updated t calls))) other

/-- What the drop is decided by: a lane without a name is none, and labels are compared one way. -/
def Reachable (t : Task) (key : String) : GroupBy → Prop
  | .assignee => key = "" → t.assigneeId = some ""
  | .label =>
    if key = "" then "" ∈ t.labels ∧ ∀ label ∈ t.labels, label = "" ∨ isCover label = true
    else if key = unlabeled then covers t = []
    else ¬ (isCover key = true ∧ key ∈ t.labels ∧ (categories t).length = 1)
  | _ => True

/-! ## Drops -/

section Drops

variable {tasks : List Task} {groupBy : GroupBy} {t t' : Task} {key : String}

/-- The task after a drop. -/
def dropped (t : Task) (key : String) (groupBy : GroupBy) : Task :=
  updated t (laneCalls t key groupBy)

variable {currentUserId label : String} {lane : Lane}

/-- The column leaves the fields of the lanes alone. -/
theorem updated_columnCall (column : ColumnStatus) (calls : List ApiCall) :
    updated t (calls ++ [columnCall t currentUserId column]) = updated t calls := by
  unfold updated
  rw [List.foldl_append]
  cases column <;> rfl

/-- A change of column is no update. -/
theorem updated_of_calls {column : ColumnStatus} {calls : List ApiCall}
    (hcalls : dndAction t column key groupBy currentUserId = .calls calls) :
    updated t calls = dropped t key groupBy := by
  unfold dndAction at hcalls
  split at hcalls
  · injection hcalls with hcalls
    rw [← hcalls, dropped]
  · split at hcalls
    · contradiction
    · injection hcalls with hcalls
      rw [← hcalls, updated_columnCall, dropped]

theorem dropped_of_empty : dropped t "" groupBy = t := rfl

/-- What a drop on a lane with a key sends. -/
theorem dropped_of_ne_empty (hkey : key ≠ "") :
    dropped t key groupBy =
      match lanePatch t key groupBy with
      | none => t
      | some patch => patch.apply t := by
  unfold dropped laneCalls updated
  rw [if_neg hkey]
  cases lanePatch t key groupBy <;> rfl

theorem id_apply (patch : TaskPatch) : (patch.apply t).id = t.id := by
  cases patch <;> rfl

/-- A drop leaves the id alone. -/
theorem id_dropped : (dropped t key groupBy).id = t.id := by
  by_cases hkey : key = ""
  · rw [hkey, dropped_of_empty]
  · rw [dropped_of_ne_empty hkey]
    cases lanePatch t key groupBy with
    | none => rfl
    | some patch => exact id_apply patch

/-- The ids of the board stay. -/
theorem ids_replaced (hid : t'.id = t.id) :
    (replaced tasks t t').map Task.id = tasks.map Task.id := by
  unfold replaced
  rw [List.map_map]
  apply List.map_congr_left
  intro other _
  by_cases h : other.id = t.id
  · simp [h, hid]
  · simp [h]

/-- The new task takes the place of the old one. -/
theorem mem_replaced (ht : t ∈ tasks) : t' ∈ replaced tasks t t' := by
  unfold replaced
  rw [List.mem_map]
  exact ⟨t, ht, if_pos rfl⟩

/-- Where the task is in the lane and leaves the others, by its keys. -/
theorem lands_iff_keysOf (hgroup : groupBy ≠ .parent) (ht : t' ∈ tasks) :
    Lands groupBy (lanesOf groupBy tasks) key t' ∧
        LeavesOthers groupBy (lanesOf groupBy tasks) key t t' ↔
      key ∈ keysOf t' groupBy ∧ ∀ other ∈ keysOf t' groupBy,
        other = key ∨ groupBy = .label ∧ isCover other = true ∧ other ∈ t.labels := by
  unfold Lands LeavesOthers
  simp only [card_iff hgroup, ht, hgroup, true_and, false_and, or_false]

/-- A drop on the lane of an assignee assigns the task. -/
theorem assigneeId_dropped (hkey : key ≠ "") :
    (dropped t key .assignee).assigneeId.getD unassigned = key := by
  rw [dropped_of_ne_empty hkey]
  unfold lanePatch
  by_cases hun : key = unassigned
  · rw [if_pos hun, hun]
    rfl
  · rw [if_neg hun]
    by_cases hsame : t.assigneeId = some key
    · rw [if_pos hsame, hsame]
      rfl
    · rw [if_neg hsame]
      rfl

/-- A task lands in the lane of an assignee. -/
theorem lands_assignee : (key ∈ keysOf (dropped t key .assignee) .assignee ∧
      ∀ other ∈ keysOf (dropped t key .assignee) .assignee,
        other = key ∨ GroupBy.assignee = .label ∧ isCover other = true ∧ other ∈ t.labels) ↔
      Reachable t key .assignee := by
  have hkeys : (key ∈ keysOf (dropped t key .assignee) .assignee ∧
      ∀ other ∈ keysOf (dropped t key .assignee) .assignee,
        other = key ∨ GroupBy.assignee = .label ∧ isCover other = true ∧ other ∈ t.labels) ↔
      (dropped t key .assignee).assigneeId.getD unassigned = key := by
    simp only [keysOf, assigneeKeys, List.mem_singleton, forall_eq, reduceCtorEq, false_and,
      or_false]
    exact ⟨fun h => h.2, fun h => ⟨h.symm, h⟩⟩
  rw [hkeys, Reachable]
  by_cases hkey : key = ""
  · rw [hkey, dropped_of_empty]
    cases t.assigneeId with
    | none => simp [unassigned]
    | some assignee => simp
  · rw [iff_true_intro (assigneeId_dropped hkey), true_iff]
    exact fun h => absurd h hkey

/-- The key of a priority stands for it. -/
theorem priorityOf_priorityKey (n : Int) :
    priorityKey (priorityOf (priorityKey n)) = priorityKey n := by
  unfold priorityKey
  by_cases h0 : n = 0
  · simp [h0, priorityOf]
  · by_cases h1 : n = 1
    · simp [h1, priorityOf]
    · by_cases h2 : n = 2
      · simp [h2, priorityOf]
      · simp [h0, h1, h2, priorityOf]

theorem priorityKey_ne_empty (n : Int) : priorityKey n ≠ "" := by
  unfold priorityKey
  split_ifs <;> decide

/-- A drop on the lane of a priority sets it. -/
theorem priority_dropped (hkey : key ≠ "") :
    (dropped t key .priority).priority = priorityOf key := by
  rw [dropped_of_ne_empty hkey]
  unfold lanePatch
  by_cases hsame : t.priority = priorityOf key
  · rw [if_pos hsame]
    exact hsame
  · rw [if_neg hsame]
    rfl

/-- A task lands in the lane of a priority. -/
theorem lands_priority (n : Int) :
    priorityKey n ∈ keysOf (dropped t (priorityKey n) .priority) .priority ∧
      ∀ other ∈ keysOf (dropped t (priorityKey n) .priority) .priority,
        other = priorityKey n ∨
          GroupBy.priority = .label ∧ isCover other = true ∧ other ∈ t.labels := by
  have hkeys : keysOf (dropped t (priorityKey n) .priority) .priority = [priorityKey n] := by
    rw [keysOf, priorityKeys, priority_dropped (priorityKey_ne_empty n), priorityOf_priorityKey]
  rw [hkeys]
  exact ⟨List.mem_singleton_self _, fun other hother => Or.inl (List.mem_singleton.mp hother)⟩

/-- What a drop on the lane of a label leaves of the labels. -/
theorem labels_dropped (hkey : key ≠ "") : (dropped t key .label).labels =
      if sameMembers t.labels (nextLabels t key) then t.labels else nextLabels t key := by
  rw [dropped_of_ne_empty hkey]
  unfold lanePatch
  by_cases hsame : sameMembers t.labels (nextLabels t key) = true
  · rw [if_pos hsame, if_pos hsame]
  · rw [if_neg hsame, if_neg hsame]
    rfl

/-- A named label stays with the covers. -/
theorem nextLabels_of_named (hempty : key ≠ "") (hun : key ≠ unlabeled) :
    nextLabels t key = covers t ++ [key] := by
  unfold nextLabels
  rw [if_neg (by simp [hempty, hun])]

/-- What a drop that changes no labels says of them. -/
theorem sameMembers_iff (hempty : key ≠ "") (hun : key ≠ unlabeled) :
    sameMembers t.labels (nextLabels t key) = true ↔
      key ∈ t.labels ∧ (categories t).length = 1 := by
  have hlength := List.length_eq_length_filter_add (l := t.labels) isCover
  have hcovers : ∀ label ∈ covers t, label ∈ t.labels := fun label h => (List.mem_filter.mp h).1
  rw [sameMembers, nextLabels_of_named hempty hun, Bool.and_eq_true, decide_eq_true_eq,
    List.all_eq_true, List.length_append, List.length_singleton]
  simp only [List.contains_iff_mem, List.mem_append, List.mem_singleton]
  unfold covers at hcovers ⊢
  unfold categories
  constructor
  · rintro ⟨hlen, hall⟩
    exact ⟨hall key (Or.inr rfl), by omega⟩
  · rintro ⟨hmem, hlen⟩
    refine ⟨by omega, ?_⟩
    rintro label (hlabel | rfl)
    · exact hcovers label hlabel
    · exact hmem

/-- What is dropped on the lane without labels keeps its covers only. -/
theorem labels_dropped_unlabeled : (dropped t unlabeled .label).labels = covers t := by
  rw [labels_dropped (by decide)]
  have hnext : nextLabels t unlabeled = covers t := if_pos rfl
  rw [hnext]
  by_cases hsame : sameMembers t.labels (covers t) = true
  · rw [if_pos hsame]
    have hlen : t.labels.length = (covers t).length :=
      of_decide_eq_true (Bool.and_eq_true _ _ ▸ hsame).1
    exact (List.filter_eq_self.mpr (List.length_filter_eq_length_iff.mp hlen.symm)).symm
  · rw [if_neg hsame]

theorem labelKeys_of_mem (hlabel : label ∈ t.labels) : labelKeys t = t.labels :=
  if_neg (List.ne_nil_of_mem hlabel)

/-- The categories are the labels that are no covers. -/
theorem mem_categories : label ∈ categories t ↔ label ∈ t.labels ∧ isCover label = false := by
  unfold categories
  rw [List.mem_filter, Bool.not_eq_true']

/-- A drop that changes no labels leaves the task where it was. -/
theorem lands_label_same (hmem : key ∈ t.labels) (hone : (categories t).length = 1) :
    (∀ other ∈ t.labels, other = key ∨ isCover other = true) ↔ isCover key = false := by
  obtain ⟨category, hcategory⟩ := List.length_eq_one_iff.mp hone
  have hiff : ∀ label, label ∈ t.labels ∧ isCover label = false ↔ label = category := by
    intro label
    rw [← mem_categories, hcategory, List.mem_singleton]
  constructor
  · intro h
    obtain ⟨hin, hcover⟩ := (hiff category).mpr rfl
    rcases h category hin with rfl | hcover'
    · exact hcover
    · rw [hcover] at hcover'
      contradiction
  · intro hkey other hother
    by_cases hcover : isCover other = true
    · exact Or.inr hcover
    · have hcategory := (hiff other).mp ⟨hother, Bool.eq_false_iff.mpr hcover⟩
      exact Or.inl (hcategory.trans ((hiff key).mp ⟨hmem, hkey⟩).symm)

/-- The task is in the lane of the key and in no other, but for those of its covers. -/
def LandsAmong (t t' : Task) (key : String) : Prop :=
  key ∈ labelKeys t' ∧
    ∀ other ∈ labelKeys t', other = key ∨ isCover other = true ∧ other ∈ t.labels

/-- When a task lands in the lane of the empty label. -/
theorem landsAmong_empty :
    LandsAmong t (dropped t "" .label) "" ↔
      "" ∈ t.labels ∧ ∀ label ∈ t.labels, label = "" ∨ isCover label = true := by
  rw [dropped_of_empty]
  constructor
  · rintro ⟨hkey, h⟩
    have hmem : "" ∈ t.labels := by
      unfold labelKeys at hkey
      split at hkey
      · exact absurd (List.mem_singleton.mp hkey) (by decide)
      · exact hkey
    rw [labelKeys_of_mem hmem] at h
    exact ⟨hmem, fun label hlabel => (h label hlabel).imp_right And.left⟩
  · rintro ⟨hmem, h⟩
    unfold LandsAmong
    rw [labelKeys_of_mem hmem]
    exact ⟨hmem, fun label hlabel => (h label hlabel).imp_right fun hcover => ⟨hcover, hlabel⟩⟩

/-- When a task lands among those without a label. -/
theorem landsAmong_unlabeled :
    LandsAmong t (dropped t unlabeled .label) unlabeled ↔ covers t = [] := by
  unfold LandsAmong labelKeys
  rw [labels_dropped_unlabeled]
  by_cases hcovers : covers t = []
  · rw [if_pos hcovers]
    simp [hcovers]
  · rw [if_neg hcovers]
    refine iff_of_false ?_ hcovers
    rintro ⟨h, _⟩
    exact absurd (List.mem_filter.mp h).2 (by decide)

/-- When a task lands in the lane of a named label. -/
theorem landsAmong_named (hempty : key ≠ "") (hun : key ≠ unlabeled) :
    LandsAmong t (dropped t key .label) key ↔
      ¬ (isCover key = true ∧ key ∈ t.labels ∧ (categories t).length = 1) := by
  unfold LandsAmong labelKeys
  rw [labels_dropped hempty]
  by_cases hsame : sameMembers t.labels (nextLabels t key) = true
  · obtain ⟨hmem, hone⟩ := (sameMembers_iff hempty hun).mp hsame
    have hlands := lands_label_same hmem hone
    rw [if_pos hsame, if_neg (List.ne_nil_of_mem hmem)]
    constructor
    · rintro ⟨_, h⟩ ⟨hcover, _⟩
      have hkey := hlands.mp fun other hother => (h other hother).imp_right And.left
      rw [hkey] at hcover
      contradiction
    · intro h
      have hkey : isCover key = false :=
        Bool.eq_false_iff.mpr fun hcover => h ⟨hcover, hmem, hone⟩
      exact ⟨hmem, fun other hother =>
        (hlands.mpr hkey other hother).imp_right fun hcover => ⟨hcover, hother⟩⟩
  · rw [if_neg hsame, nextLabels_of_named hempty hun, if_neg (by simp)]
    refine iff_of_true ⟨by simp, ?_⟩ ?_
    · intro other hother
      rcases List.mem_append.mp hother with hcover | hkey
      · exact Or.inr (List.mem_filter.mp hcover).symm
      · exact Or.inl (List.mem_singleton.mp hkey)
    · rintro ⟨_, hmem, hone⟩
      exact hsame ((sameMembers_iff hempty hun).mpr ⟨hmem, hone⟩)

/-- When a task lands in the lane of a label. -/
theorem landsAmong_iff : LandsAmong t (dropped t key .label) key ↔ Reachable t key .label := by
  unfold Reachable
  by_cases hempty : key = ""
  · rw [if_pos hempty, hempty]
    exact landsAmong_empty
  · rw [if_neg hempty]
    by_cases hun : key = unlabeled
    · rw [if_pos hun, hun]
      exact landsAmong_unlabeled
    · rw [if_neg hun]
      exact landsAmong_named hempty hun

/-! ## Drops on the lane of a parent -/

/-- A drop on the lane of a parent sets it. -/
theorem parentTaskId_dropped (hkey : key ≠ "") :
    (dropped t key .parent).parentTaskId = if key = orphansKey then none else some key := by
  rw [dropped_of_ne_empty hkey]
  unfold lanePatch
  by_cases horphans : key = orphansKey
  · rw [if_pos horphans, if_pos horphans]
    rfl
  · rw [if_neg horphans, if_neg horphans]
    by_cases hsame : t.parentTaskId = some key
    · rw [if_pos hsame]
      exact hsame
    · rw [if_neg hsame]
      rfl

/-- A task below a parent is in its lane only. -/
theorem lands_of_child (ht : t' ∈ tasks) (hparent : t'.parentTaskId = some key)
    (hkey : key ∈ parentKeys tasks t') :
    Lands .parent (lanesOf .parent tasks) key t' ∧
      LeavesOthers .parent (lanesOf .parent tasks) key t t' := by
  refine ⟨Or.inl (isCard_parent.mpr (Or.inl ⟨ht, hkey⟩)), ?_⟩
  intro other hother
  rcases isCard_parent.mp hother with ⟨_, hmem⟩ | ⟨_, horphan⟩
  · rw [(mem_parentKeys.mp hmem).1] at hparent
    exact Or.inl (Option.some.inj hparent)
  · exact absurd rfl
      ((mem_orphans.mp horphan).2.1 key t' (inBucket_parentBuckets.mpr ⟨ht, hkey⟩))

/-- A task without a parent stands alone, or heads the lane of its children. -/
theorem lands_of_orphan (hnodup : (tasks.map Task.id).Nodup) (ht : t' ∈ tasks)
    (hparent : t'.parentTaskId = none) :
    Lands .parent (lanesOf .parent tasks) orphansKey t' ∧
      LeavesOthers .parent (lanesOf .parent tasks) orphansKey t t' := by
  have hkeys : ∀ k, k ∉ parentKeys tasks t' := by
    intro k hk
    rw [(mem_parentKeys.mp hk).1] at hparent
    contradiction
  constructor
  · by_cases hheads : ∃ child, InBucket (parentBuckets tasks) t'.id child
    · obtain ⟨child, hin⟩ := hheads
      exact Or.inr ⟨rfl, rfl, hparent, heads_of_inBucket hin⟩
    · refine Or.inl (isCard_parent.mpr (Or.inr ⟨rfl, mem_orphans.mpr ⟨ht, ?_, ?_⟩⟩))
      · intro k child hin hid
        obtain ⟨hmem, hk⟩ := inBucket_parentBuckets.mp hin
        rw [eq_of_id hnodup ht hmem hid] at hk
        exact hkeys k hk
      · exact fun child hin => hheads ⟨child, hin⟩
  · intro other hother
    rcases isCard_parent.mp hother with ⟨_, hmem⟩ | ⟨hkey, _⟩
    · exact absurd hmem (hkeys other)
    · exact Or.inl hkey

/-- A lane of the parents is that of a task of the board, or of those that stand alone. -/
theorem key_of_parent (hlane : lane ∈ lanesOf .parent tasks) : lane.header.key = orphansKey ∨
      lane.header.key ≠ "" ∧ lane.header.key ∈ tasks.map Task.id := by
  obtain ⟨card, hcard⟩ := isCard_of_mem hlane
  rcases isCard_parent.mp hcard with ⟨_, hkey⟩ | ⟨hkey, _⟩
  · obtain ⟨_, hne, other, hother, hid⟩ := mem_parentKeys.mp hkey
    exact Or.inr ⟨hne, List.mem_map.mpr ⟨other, hother, hid⟩⟩
  · exact Or.inl hkey

/-- A task lands in the lane of a parent, and in no other. -/
theorem lands_parent (hnodup : (tasks.map Task.id).Nodup) (ht : dropped t key .parent ∈ tasks)
    (hkey : key = orphansKey ∨ key ≠ "" ∧ key ∈ tasks.map Task.id) :
    Lands .parent (lanesOf .parent tasks) key (dropped t key .parent) ∧
      LeavesOthers .parent (lanesOf .parent tasks) key t (dropped t key .parent) := by
  by_cases horphans : key = orphansKey
  · subst horphans
    exact lands_of_orphan hnodup ht ((parentTaskId_dropped (by decide)).trans (if_pos rfl))
  · obtain ⟨hne, hid⟩ := hkey.resolve_left horphans
    have hparent : (dropped t key .parent).parentTaskId = some key :=
      (parentTaskId_dropped hne).trans (if_neg horphans)
    obtain ⟨other, hother, hid⟩ := List.mem_map.mp hid
    exact lands_of_child ht hparent (mem_parentKeys.mpr ⟨hparent, hne, other, hother, hid⟩)

/-! ## Every drop -/

/-- Where a drop lands, in whatever lanes. -/
theorem lands_iff_reachable {tasks' : List Task}
    (hids : tasks'.map Task.id = tasks.map Task.id) (hnodup : (tasks.map Task.id).Nodup)
    (hlane : lane ∈ lanesOf groupBy tasks) (ht : dropped t lane.header.key groupBy ∈ tasks') :
    Lands groupBy (lanesOf groupBy tasks') lane.header.key (dropped t lane.header.key groupBy) ∧
        LeavesOthers groupBy (lanesOf groupBy tasks') lane.header.key t
          (dropped t lane.header.key groupBy) ↔
      Reachable t lane.header.key groupBy := by
  cases groupBy with
  | assignee =>
    rw [lands_iff_keysOf (by decide) ht]
    exact lands_assignee
  | parent =>
    refine iff_of_true ?_ trivial
    rw [← hids] at hnodup
    have hkey := key_of_parent hlane
    rw [← hids] at hkey
    exact lands_parent hnodup ht hkey
  | label =>
    rw [lands_iff_keysOf (by decide) ht, ← landsAmong_iff]
    simp only [LandsAmong, keysOf, true_and]
  | priority =>
    refine iff_of_true ?_ trivial
    rw [lands_iff_keysOf (by decide) ht]
    obtain ⟨card, hcard⟩ := isCard_of_mem hlane
    have hkey : lane.header.key = priorityKey card.priority :=
      List.mem_singleton.mp (isCard_priority.mp hcard).2
    rw [hkey]
    exact lands_priority card.priority

/-- The drops that are blocked. -/
theorem dndAction_blocked_iff (t : Task) (column : ColumnStatus) (key : String)
    (groupBy : GroupBy) (currentUserId : String) :
    (∀ calls, dndAction t column key groupBy currentUserId ≠ .calls calls) ↔
      mapStatus t.status ≠ column ∧ mapStatus t.status = .closed := by
  unfold dndAction
  by_cases hsame : mapStatus t.status = column
  · rw [if_pos hsame]
    simp [hsame]
  · rw [if_neg hsame]
    by_cases hclosed : mapStatus t.status = .closed
    · rw [if_pos hclosed]
      exact iff_of_true (fun _ => DndResult.noConfusion) ⟨hsame, hclosed⟩
    · rw [if_neg hclosed]
      simp [hclosed]

/-- A drop that is not blocked lands where it was dropped if the lane has a name, and if labels
that are compared one way do not pass for the same. -/
theorem landsWhereDropped_iff {lane : Lane} {column : ColumnStatus} {currentUserId : String}
    (hnodup : (tasks.map Task.id).Nodup) (ht : t ∈ tasks) (hlane : lane ∈ lanesOf groupBy tasks) :
    LandsWhereDropped tasks groupBy t lane.header.key column currentUserId ↔
      (mapStatus t.status ≠ column ∧ mapStatus t.status = .closed) ∨
        Reachable t lane.header.key groupBy := by
  have hids : (replaced tasks t (dropped t lane.header.key groupBy)).map Task.id =
      tasks.map Task.id := ids_replaced id_dropped
  have hlands := lands_iff_reachable hids hnodup hlane (mem_replaced ht)
  rw [← dndAction_blocked_iff t column lane.header.key groupBy currentUserId]
  by_cases hblocked : ∀ calls, dndAction t column lane.header.key groupBy currentUserId ≠
      .calls calls
  · exact iff_of_true (fun calls hcalls => absurd hcalls (hblocked calls)) (Or.inl hblocked)
  · rw [or_iff_right hblocked, ← hlands]
    push Not at hblocked
    obtain ⟨calls, hcalls⟩ := hblocked
    have hupdated := updated_of_calls hcalls
    constructor
    · intro h
      obtain ⟨hin, hleaves, _⟩ := h calls hcalls
      rw [hupdated] at hin hleaves
      exact ⟨hin, hleaves⟩
    · rintro ⟨hin, hleaves⟩ calls' hcalls'
      rw [updated_of_calls hcalls']
      refine ⟨hin, hleaves, fun other hother => shown_of_mem hnodup hother, ?_⟩
      intro other hother
      rw [← hids] at hnodup
      exact shown_of_mem hnodup hother

end Drops

/-! ## A cover and a category -/

def bugWithCover : Task :=
  ⟨"t1", none, "Crash on start", .opened, 1, ["cover:c", "bug"], none⟩

def plainTask : Task :=
  ⟨"t2", none, "Release notes", .opened, 2, [], none⟩

/-- A task without labels lands on the lane of a cover. -/
theorem landsWhereDropped_plainTask :
    LandsWhereDropped [bugWithCover, plainTask] .label plainTask "cover:c" .ready "u1" := by
  have hlane : (⟨⟨"cover:c", .label, "cover:c", "1", none⟩, [bugWithCover]⟩ : Lane) ∈
      lanesOf .label [bugWithCover, plainTask] := by decide
  have hreachable : Reachable plainTask "cover:c" .label := by
    simp [Reachable, unlabeled, plainTask]
  exact (landsWhereDropped_iff (by decide) (List.mem_cons_of_mem _ List.mem_cons_self) hlane).mpr
    (Or.inr hreachable)

/-- Dropped on the lane of its cover, a task stays in the lane of its category. -/
theorem not_landsWhereDropped_bugWithCover :
    IsCard (lanesOf .label [bugWithCover, plainTask]) "bug" bugWithCover ∧
      (∃ lane ∈ lanesOf .label [bugWithCover, plainTask], lane.header.key = "cover:c") ∧
      ¬ LandsWhereDropped [bugWithCover, plainTask] .label bugWithCover "cover:c" .ready "u1" := by
  have hbug : IsCard (lanesOf .label [bugWithCover, plainTask]) "bug" bugWithCover :=
    isCard_label.mpr ⟨List.mem_cons_self, by decide⟩
  refine ⟨hbug, ⟨⟨⟨"cover:c", .label, "cover:c", "1", none⟩, [bugWithCover]⟩, by decide, rfl⟩, ?_⟩
  intro h
  obtain ⟨_, hleaves, _⟩ := h [] (by decide)
  rcases hleaves "bug" hbug with hkey | ⟨_, hcover, _⟩
  · exact absurd hkey (by decide)
  · exact absurd hcover (by decide)

end Board
end TinyAgentOS.Desktop
