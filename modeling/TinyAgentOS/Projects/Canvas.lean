import TinyAgentOS.Library.Dict
import TinyAgentOS.Library.Transition
import TinyAgentOS.Projects.TaskStore
import Mathlib.Data.List.Sort

/-!
# Canvas elements

Elements of all projects are rows of one table under one id, and a deleted element
keeps its row.  Updates and deletions name the project and want a live row.  The
insertion of an id that is taken does neither: it overwrites the row where it is, in
its project and deleted or not.

Main results:

- `CanvasState.live_upsert_iff`: where the row of an upsert ends up.
- `CanvasState.good_step_iff`: the operations that do what they report.
- `CanvasState.faithful_iff`: the runs whose operations all do.
- `CanvasState.not_faithful`: an id of another project, and a deleted one.
-/

namespace TinyAgentOS.Projects

open Collections Transition

/-! ## Rows -/

/-- `_VALID_KINDS`. -/
inductive CanvasKind where
  | note
  | link
  | image
  | userShape
  | text
  | mermaid
  | flowchart
  | mindmapEdge
deriving DecidableEq

/-- The kind of a name, if that is valid. -/
def CanvasKind.ofName? : String → Option CanvasKind
  | "note" => some .note
  | "link" => some .link
  | "image" => some .image
  | "user_shape" => some .userShape
  | "text" => some .text
  | "mermaid" => some .mermaid
  | "flowchart" => some .flowchart
  | "mindmap_edge" => some .mindmapEdge
  | _ => none

/-- `_AGENT_ALLOWED_KINDS`. -/
def CanvasKind.agentAllowed (kind : CanvasKind) : Bool :=
  kind ≠ .userShape

/-- A row of `project_canvas_elements`; the type `R` stands for SQLite's REAL. -/
structure CanvasElement (R : Type) where
  projectId : String
  kind : CanvasKind
  authorKind : String
  authorId : String
  x : R
  y : R
  w : R
  h : R
  rotation : R
  zIndex : Int
  payload : String
  createdAt : Clock
  updatedAt : Clock
  deletedAt : Option Clock
  elementId : Option String
deriving DecidableEq

/-- The exceptions of the store. -/
inductive CanvasError where
  | valueError (message : String)
  | permission (message : String)

/-- The `element` argument of `add_element`.  A missing or empty id is `none`, as
is a missing or empty payload. -/
structure CanvasDraft (R : Type) where
  id : Option String
  kind : String
  x : R
  y : R
  w : R
  h : R
  rotation : Option R
  zIndex : Option Int
  payload : Option String

/-- The row that an addition inserts. -/
def CanvasDraft.row {R : Type} [Zero R] (draft : CanvasDraft R) (projectId : String)
    (kind : CanvasKind) (authorKind authorId : String) (elementId : Option String)
    (now : Clock) : CanvasElement R :=
  { projectId := projectId
    kind := kind
    authorKind := authorKind
    authorId := authorId
    x := draft.x
    y := draft.y
    w := draft.w
    h := draft.h
    rotation := draft.rotation.getD 0
    zIndex := draft.zIndex.getD 0
    payload := draft.payload.getD "{}"
    createdAt := now
    updatedAt := now
    deletedAt := none
    elementId := elementId }

/-- The columns that `update_element` can change. -/
structure CanvasPatch (R : Type) where
  x : Option R := none
  y : Option R := none
  w : Option R := none
  h : Option R := none
  rotation : Option R := none
  zIndex : Option Int := none
  payload : Option String := none

/-- Does the patch name no column? -/
def CanvasPatch.isEmpty {R : Type} (patch : CanvasPatch R) : Bool :=
  patch.x.isNone && patch.y.isNone && patch.w.isNone && patch.h.isNone &&
    patch.rotation.isNone && patch.zIndex.isNone && patch.payload.isNone

/-- The `SET` clauses of `update_element`. -/
def CanvasPatch.setIn {R : Type} (patch : CanvasPatch R) (now : Clock) (e : CanvasElement R) :
    CanvasElement R :=
  { e with
    x := patch.x.getD e.x
    y := patch.y.getD e.y
    w := patch.w.getD e.w
    h := patch.h.getD e.h
    rotation := patch.rotation.getD e.rotation
    zIndex := patch.zIndex.getD e.zIndex
    payload := patch.payload.getD e.payload
    updatedAt := now }

/-- Does a row belong to a project and is it not deleted? -/
def CanvasElement.Live {R : Type} (e : CanvasElement R) (projectId : String) : Prop :=
  e.projectId = projectId ∧ e.deletedAt = none

/-- The project and the deletion of a row. -/
def CanvasElement.standing {R : Type} (e : CanvasElement R) : String × Option Clock :=
  (e.projectId, e.deletedAt)

instance {R : Type} (e : CanvasElement R) (projectId : String) : Decidable (e.Live projectId) := by
  unfold CanvasElement.Live
  infer_instance

/-- `ORDER BY z_index ASC, created_at ASC`. -/
def CanvasElement.Below {R : Type} (a b : String × CanvasElement R) : Prop :=
  a.2.zIndex < b.2.zIndex ∨ a.2.zIndex = b.2.zIndex ∧ a.2.createdAt ≤ b.2.createdAt

instance {R : Type} (a b : String × CanvasElement R) : Decidable (CanvasElement.Below a b) := by
  unfold CanvasElement.Below
  infer_instance

/-! ## Operations -/

/-- The table, and the `can_edit_canvas` flags of the members of the projects. -/
structure CanvasState (R : Type) where
  elements : Dict String (CanvasElement R)
  canEdit : Dict (String × String) Bool

/-- A call of the store, at its time.  An addition comes with the id that `new_id` would
draw. -/
inductive CanvasOp (R : Type) where
  | add (projectId : String) (draft : CanvasDraft R) (authorKind authorId : String)
      (elementId : Option String) (drawn : String) (now : Clock)
  | update (projectId id : String) (patch : CanvasPatch R) (authorKind authorId : String)
      (now : Clock)
  | delete (projectId id : String) (authorKind authorId : String) (now : Clock)
  | list (projectId : String) (elementId : Option String)
  /-- The project store sets the flag of a member. -/
  | grant (projectId memberId : String) (canEdit : Bool)

/-- The project an operation is addressed to. -/
def CanvasOp.addressed {R : Type} : CanvasOp R → Option String
  | .add projectId .. => some projectId
  | .update projectId .. => some projectId
  | .delete projectId .. => some projectId
  | .list projectId _ => some projectId
  | .grant .. => none

/-- The project an operation adds an element to. -/
def CanvasOp.addsTo {R : Type} : CanvasOp R → Option String
  | .add projectId .. => some projectId
  | _ => none

/-- The project an operation updates an element of. -/
def CanvasOp.updatesIn {R : Type} : CanvasOp R → Option String
  | .update projectId .. => some projectId
  | _ => none

/-- What a call returns. -/
inductive CanvasReply (R : Type) where
  | element (id : String) (e : CanvasElement R)
  | listed (rows : List (String × CanvasElement R))
  | nothing
  | raised (error : CanvasError)

namespace CanvasState

variable {R : Type}

/-- An empty table, and no members. -/
def init : CanvasState R := ⟨Dict.empty, Dict.empty⟩

/-- `_check_edit_permission`. -/
def checkEditPermission (s : CanvasState R) (projectId authorKind authorId : String) :
    Except CanvasError Unit :=
  if authorKind = "user" then .ok ()
  else if authorKind ≠ "agent" then .error (.valueError ("invalid author_kind: " ++ authorKind))
  else if (s.canEdit.get? (projectId, authorId)).getD false then .ok ()
  else
    .error (.permission
      ("agent " ++ authorId ++ " has no can_edit_canvas on project " ++ projectId))

/-- The checks of `add_element`. -/
def checkAdd (s : CanvasState R) (projectId kind authorKind authorId : String) :
    Except CanvasError CanvasKind :=
  match CanvasKind.ofName? kind with
  | none => .error (.valueError ("invalid kind: " ++ kind))
  | some k =>
    if authorKind = "agent" ∧ ¬k.agentAllowed then
      .error (.valueError ("agents may not emit kind=" ++ kind))
    else if authorKind ≠ "user" ∧ authorKind ≠ "agent" then
      .error (.valueError ("invalid author_kind: " ++ authorKind))
    else (s.checkEditPermission projectId authorKind authorId).map fun _ => k

/-- `get_element` with a project. -/
def getElement (s : CanvasState R) (id projectId : String) : Option (CanvasElement R) :=
  (s.elements.get? id).filter fun e => e.projectId = projectId

/-- `list_elements`; the tag `"none"` asks for untagged items. -/
def listElements (s : CanvasState R) (projectId : String) (elementId : Option String) :
    List (String × CanvasElement R) :=
  let live := s.elements.entries.filter fun p => p.2.Live projectId
  let tagged := live.filter fun p =>
    elementId.all fun tag => if tag = "none" then p.2.elementId.isNone
      else p.2.elementId = some tag
  tagged.insertionSort CanvasElement.Below

/-- `ON CONFLICT(id) DO UPDATE`: the columns that the clause does not name stay. -/
def upsert (s : CanvasState R) (id : String) (row : CanvasElement R) : CanvasState R :=
  { s with
    elements := s.elements.set id
      (match s.elements.get? id with
      | none => row
      | some old =>
        { row with
          projectId := old.projectId
          createdAt := old.createdAt
          deletedAt := old.deletedAt }) }

/-- `UPDATE … WHERE id = ? AND project_id = ? AND deleted_at IS NULL`. -/
def updateLive (s : CanvasState R) (id projectId : String)
    (f : CanvasElement R → CanvasElement R) : CanvasState R :=
  { s with elements := s.elements.modify id fun e => if e.Live projectId then f e else e }

/-- The element, or the error when the project has none of this id. -/
def found (s : CanvasState R) (id projectId : String) : CanvasReply R :=
  match s.getElement id projectId with
  | none => .raised (.valueError ("element not found: " ++ id))
  | some e => .element id e

/-- `add_element`. -/
def addElement [Zero R] (s : CanvasState R) (projectId : String) (draft : CanvasDraft R)
    (authorKind authorId : String) (elementId : Option String) (drawn : String) (now : Clock) :
    CanvasState R × CanvasReply R :=
  match s.checkAdd projectId draft.kind authorKind authorId with
  | .error e => (s, .raised e)
  | .ok kind =>
    let id := draft.id.getD drawn
    let s' := s.upsert id (draft.row projectId kind authorKind authorId elementId now)
    (s', ((s'.elements.get? id).map (CanvasReply.element id)).getD .nothing)

/-- `update_element`. -/
def updateElement (s : CanvasState R) (projectId id : String) (patch : CanvasPatch R)
    (authorKind authorId : String) (now : Clock) : CanvasState R × CanvasReply R :=
  match s.checkEditPermission projectId authorKind authorId with
  | .error e => (s, .raised e)
  | .ok () =>
    if patch.isEmpty then (s, s.found id projectId)
    else
      let s' := s.updateLive id projectId (patch.setIn now)
      (s', s'.found id projectId)

/-- `delete_element`. -/
def deleteElement (s : CanvasState R) (projectId id authorKind authorId : String) (now : Clock) :
    CanvasState R × CanvasReply R :=
  match s.checkEditPermission projectId authorKind authorId with
  | .error e => (s, .raised e)
  | .ok () =>
    (s.updateLive id projectId fun e => { e with deletedAt := some now, updatedAt := now },
      .nothing)

/-- One call. -/
def apply [Zero R] (s : CanvasState R) : CanvasOp R → CanvasState R × CanvasReply R
  | .add projectId draft authorKind authorId elementId drawn now =>
    s.addElement projectId draft authorKind authorId elementId drawn now
  | .update projectId id patch authorKind authorId now =>
    s.updateElement projectId id patch authorKind authorId now
  | .delete projectId id authorKind authorId now =>
    s.deleteElement projectId id authorKind authorId now
  | .list projectId elementId => (s, .listed (s.listElements projectId elementId))
  | .grant projectId memberId canEdit =>
    ({ s with canEdit := s.canEdit.set (projectId, memberId) canEdit }, .nothing)

/-- The calls one after the other. -/
def step [Zero R] (s : CanvasState R) (op : CanvasOp R) : Option (CanvasState R) :=
  some (s.apply op).1

/-! ## What an operation writes -/

@[simp]
theorem get?_upsert (s : CanvasState R) (id : String) (row : CanvasElement R) (x : String) :
    (s.upsert id row).elements.get? x =
      if id = x then
        some (match s.elements.get? x with
          | none => row
          | some old =>
            { row with
              projectId := old.projectId
              createdAt := old.createdAt
              deletedAt := old.deletedAt })
      else s.elements.get? x := by
  unfold upsert
  rw [Dict.get?_set]
  by_cases hx : id = x
  · subst hx
    simp
  · simp [hx]

@[simp]
theorem get?_updateLive (s : CanvasState R) (id projectId : String)
    (f : CanvasElement R → CanvasElement R) (x : String) :
    (s.updateLive id projectId f).elements.get? x =
      if id = x then (s.elements.get? x).map fun e => if e.Live projectId then f e else e
      else s.elements.get? x :=
  Dict.get?_modify _ _ _ _

variable {projectId id : String} {e : CanvasElement R} {s : CanvasState R}

/-- A listing has the rows of the project that are not deleted. -/
theorem mem_listElements_iff : (id, e) ∈ s.listElements projectId none ↔
      s.elements.get? id = some e ∧ e.Live projectId := by
  unfold listElements
  simp [List.mem_filter, Dict.mem_entries_iff]

theorem found_eq_element_iff {x : String} : s.found id projectId = .element x e ↔
      x = id ∧ s.elements.get? id = some e ∧ e.projectId = projectId := by
  have hget : ∀ e, s.getElement id projectId = some e ↔
      s.elements.get? id = some e ∧ e.projectId = projectId := by
    intro e
    simp [getElement, Option.filter_eq_some_iff]
  unfold found
  cases hfound : s.getElement id projectId with
  | none =>
    have hnone : ¬(s.elements.get? id = some e ∧ e.projectId = projectId) := by
      rw [← hget, hfound]
      simp
    simp [hnone]
  | some e' =>
    have hsome := (hget e').mp hfound
    constructor
    · rintro ⟨⟩
      exact ⟨rfl, hsome⟩
    · rintro ⟨rfl, he, _⟩
      rw [hsome.1] at he
      cases he
      rfl

/-! ## Isolation and visibility -/

/-- Is the element in the list of the project? -/
def Listed (s : CanvasState R) (projectId id : String) : Prop :=
  ∃ e, (id, e) ∈ s.listElements projectId none

theorem listed_iff :
    s.Listed projectId id ↔ ∃ e, s.elements.get? id = some e ∧ e.Live projectId := by
  unfold Listed
  simp only [mem_listElements_iff]

/-- The row of an upsert is live in a project when the row it overwrites was. -/
theorem live_upsert_iff (s : CanvasState R) (id : String)
    {row : CanvasElement R} (hrow : row.Live projectId) :
    (∃ e, (s.upsert id row).elements.get? id = some e ∧ e.Live projectId) ↔
      ∀ e ∈ s.elements.get? id, e.Live projectId := by
  rw [get?_upsert, if_pos rfl]
  cases hget : s.elements.get? id with
  | none => simpa using hrow
  | some old => simp [CanvasElement.Live]

/-- A guarded update or deletion writes a row of its project alone. -/
theorem updateLive_other {x : String}
    (f : CanvasElement R → CanvasElement R) (hget : s.elements.get? x = some e)
    (hne : e.projectId ≠ projectId) : (s.updateLive id projectId f).elements.get? x = some e := by
  rw [get?_updateLive, hget]
  split
  · simp [CanvasElement.Live, hne]
  · rfl

/-- An update that touches neither the project nor the deletion of a row. -/
theorem standing_updateLive {f : CanvasElement R → CanvasElement R}
    (hf : ∀ e, (f e).standing = e.standing) (x : String) :
    ((s.updateLive id projectId f).elements.get? x).map CanvasElement.standing =
      (s.elements.get? x).map CanvasElement.standing := by
  rw [get?_updateLive]
  split
  · rw [Option.map_map]
    congr 1
    funext e
    simp only [Function.comp]
    split
    · exact hf e
    · rfl
  · rfl

/-- What an update does once its check passes. -/
theorem updateElement_of_ok {authorKind authorId : String}
    (hok : s.checkEditPermission projectId authorKind authorId = .ok ()) (id : String)
    (patch : CanvasPatch R) (now : Clock) :
    ∃ s', s.updateElement projectId id patch authorKind authorId now =
        (s', s'.found id projectId) ∧
      (∀ x e, s.elements.get? x = some e → e.projectId ≠ projectId →
        s'.elements.get? x = some e) ∧
      ∀ x, (s'.elements.get? x).map CanvasElement.standing =
        (s.elements.get? x).map CanvasElement.standing := by
  simp only [updateElement, hok]
  by_cases hempty : patch.isEmpty = true
  · exact ⟨s, by rw [if_pos hempty], fun _ _ hget _ => hget, fun _ => rfl⟩
  · refine ⟨_, by rw [if_neg hempty], ?_, ?_⟩
    · exact fun x e hget hne => updateLive_other _ hget hne
    · exact standing_updateLive fun e => rfl

section Calls

variable [Zero R]

/-- An operation addressed to a project leaves the elements of the others alone. -/
def Isolated (s : CanvasState R) (op : CanvasOp R) : Prop :=
  ∀ projectId ∈ op.addressed, ∀ id e, s.elements.get? id = some e → e.projectId ≠ projectId →
    (s.apply op).1.elements.get? id = some e

/-- Does the operation delete the element? -/
def Deletes (s : CanvasState R) (op : CanvasOp R) (id : String) : Prop :=
  (∃ e, s.elements.get? id = some e ∧ e.deletedAt = none) ∧
    ∃ e, (s.apply op).1.elements.get? id = some e ∧ e.deletedAt ≠ none

/-- What an addition and an update return is in the list of their project. -/
def Shown (s : CanvasState R) (op : CanvasOp R) : Prop :=
  (∀ projectId ∈ op.addsTo, ∀ id e, (s.apply op).2 = .element id e →
    (s.apply op).1.Listed projectId id) ∧
  ∀ projectId ∈ op.updatesIn, ∀ id e, (s.apply op).2 = .element id e →
    (id, e) ∈ (s.apply op).1.listElements projectId none

/-- What a run is to do.  An element that an addition returned is in every list of its project
until it is deleted. -/
structure Faithful (ops : List (CanvasOp R)) : Prop where
  isolated : ∀ pre op post s, ops = pre ++ op :: post → run step init pre = some s →
    s.Isolated op
  added : ∀ pre op mid post s u id e, ops = pre ++ op :: (mid ++ post) →
    run step init pre = some s → (s.apply op).2 = .element id e →
    run step (s.apply op).1 mid = some u →
    Guarded step (fun t op => ¬t.Deletes op id) (s.apply op).1 mid →
    ∀ projectId ∈ op.addsTo, u.Listed projectId id
  updated : ∀ pre op post s id e, ops = pre ++ op :: post → run step init pre = some s →
    (s.apply op).2 = .element id e →
    ∀ projectId ∈ op.updatesIn, (id, e) ∈ (s.apply op).1.listElements projectId none

/-- An addition that is not refused takes an id that is new or names a live element of its
project; an update that is not refused names no deleted element of its project. -/
def Finds (s : CanvasState R) : CanvasOp R → Prop
  | .add projectId draft authorKind authorId _ drawn _ =>
    (s.checkAdd projectId draft.kind authorKind authorId).isOk →
      ∀ e ∈ s.elements.get? (draft.id.getD drawn), e.Live projectId
  | .update projectId id _ authorKind authorId _ =>
    s.checkEditPermission projectId authorKind authorId = .ok () →
      ∀ e ∈ s.elements.get? id, e.projectId = projectId → e.deletedAt = none
  | _ => True

variable {s : CanvasState R}

/-- What an addition does once its checks pass. -/
theorem addElement_of_ok {projectId : String} {draft : CanvasDraft R}
    {authorKind authorId : String} {kind : CanvasKind}
    (hok : s.checkAdd projectId draft.kind authorKind authorId = .ok kind)
    (elementId : Option String) (drawn : String) (now : Clock) :
    ∃ row : CanvasElement R, row.Live projectId ∧
      (s.addElement projectId draft authorKind authorId elementId drawn now).1 =
        s.upsert (draft.id.getD drawn) row ∧
      ∃ e, (s.upsert (draft.id.getD drawn) row).elements.get? (draft.id.getD drawn) = some e ∧
        (s.addElement projectId draft authorKind authorId elementId drawn now).2 =
          .element (draft.id.getD drawn) e := by
  refine ⟨draft.row projectId kind authorKind authorId elementId now, ⟨rfl, rfl⟩, ?_, ?_⟩
  · simp only [addElement, hok]
  · refine ⟨_, by rw [get?_upsert, if_pos rfl], ?_⟩
    simp only [addElement, hok, get?_upsert, if_true, Option.map_some, Option.getD_some]

theorem good_add_iff (s : CanvasState R) (projectId : String) (draft : CanvasDraft R)
    (authorKind authorId : String) (elementId : Option String) (drawn : String) (now : Clock) :
    let op := CanvasOp.add projectId draft authorKind authorId elementId drawn now
    s.Isolated op ∧ s.Shown op ↔ s.Finds op := by
  intro op
  cases hcheck : s.checkAdd projectId draft.kind authorKind authorId with
  | error error =>
    have happly : s.apply op = (s, .raised error) := by
      simp only [op, apply, addElement, hcheck]
    have hfinds : s.Finds op := by
      intro hok
      simp [hcheck, Except.isOk, Except.toBool] at hok
    refine iff_of_true ⟨?_, ?_⟩ hfinds
    · intro _ _ id e hget _
      rwa [happly]
    · rw [Shown, happly]
      exact ⟨fun _ _ _ _ h => by contradiction, fun _ _ _ _ h => by contradiction⟩
  | ok kind =>
    obtain ⟨row, hrow, hstate, e, hafter, hreply⟩ :=
      addElement_of_ok hcheck elementId drawn now
    have hlive := live_upsert_iff s (draft.id.getD drawn) hrow
    constructor
    · rintro ⟨_, hshown, _⟩ _
      apply hlive.mp
      have hlisted := hshown projectId rfl _ _ hreply
      rw [listed_iff] at hlisted
      simpa only [op, apply, hstate] using hlisted
    · intro hfinds
      have hold : ∀ e ∈ s.elements.get? (draft.id.getD drawn), e.Live projectId :=
        hfinds (by rw [hcheck]; rfl)
      refine ⟨?_, ?_, fun p hp => by contradiction⟩
      · intro p hp x old hget hne
        cases hp
        show (s.addElement _ _ _ _ _ _ _).1.elements.get? x = some old
        rw [hstate, get?_upsert, if_neg, hget]
        rintro rfl
        exact hne (hold old hget).1
      · intro p hp x e' hreply'
        cases hp
        obtain ⟨rfl, _⟩ : draft.id.getD drawn = x ∧ e = e' := by
          have heq := hreply.symm.trans hreply'
          cases heq
          exact ⟨rfl, rfl⟩
        rw [listed_iff]
        show ∃ e, (s.addElement _ _ _ _ _ _ _).1.elements.get? _ = some e ∧ _
        rw [hstate]
        exact hlive.mpr hold

theorem good_update_iff (s : CanvasState R) (projectId id : String) (patch : CanvasPatch R)
    (authorKind authorId : String) (now : Clock) :
    let op := CanvasOp.update projectId id patch authorKind authorId now
    s.Isolated op ∧ s.Shown op ↔ s.Finds op := by
  intro op
  cases hcheck : s.checkEditPermission projectId authorKind authorId with
  | error error =>
    have happly : s.apply op = (s, .raised error) := by
      simp only [op, apply, updateElement, hcheck]
    have hfinds : s.Finds op := by
      intro hok
      rw [hcheck] at hok
      contradiction
    refine iff_of_true ⟨?_, ?_⟩ hfinds
    · intro _ _ x e hget _
      rwa [happly]
    · rw [Shown, happly]
      exact ⟨fun _ _ _ _ h => by contradiction, fun _ _ _ _ h => by contradiction⟩
  | ok _ =>
    obtain ⟨s', happly, hothers, hstanding⟩ := updateElement_of_ok hcheck id patch now
    have happly' : s.apply op = (s', s'.found id projectId) := happly
    constructor
    · rintro ⟨_, _, hshown⟩ _ e hget hproject
      rw [happly'] at hshown
      have hafter := hstanding id
      rw [Option.mem_def.mp hget] at hafter
      obtain ⟨e', hget', hsame⟩ := Option.map_eq_some_iff.mp hafter
      have hsame' : e'.projectId = e.projectId ∧ e'.deletedAt = e.deletedAt := by
        simpa [CanvasElement.standing] using hsame
      have hlisted := hshown projectId rfl id e'
        (found_eq_element_iff.mpr ⟨rfl, hget', hsame'.1.trans hproject⟩)
      rw [← hsame'.2]
      exact (mem_listElements_iff.mp hlisted).2.2
    · intro hfinds
      refine ⟨?_, fun p hp => by contradiction, ?_⟩
      · intro p hp x e hget hne
        cases hp
        rw [happly']
        exact hothers x e hget hne
      · intro p hp x e' hreply
        cases hp
        rw [happly'] at hreply ⊢
        obtain ⟨rfl, hget', hproject⟩ := found_eq_element_iff.mp hreply
        have hbefore := hstanding x
        rw [hget'] at hbefore
        obtain ⟨e, hget, hsame⟩ := Option.map_eq_some_iff.mp hbefore.symm
        have hsame' : e.projectId = e'.projectId ∧ e.deletedAt = e'.deletedAt := by
          simpa [CanvasElement.standing] using hsame
        apply mem_listElements_iff.mpr
        refine ⟨hget', hproject, ?_⟩
        rw [← hsame'.2]
        exact hfinds hcheck e hget (hsame'.1.trans hproject)

/-- An operation does what it reports exactly when it finds its row. -/
theorem good_step_iff (s : CanvasState R) (op : CanvasOp R) :
    s.Isolated op ∧ s.Shown op ↔ s.Finds op := by
  cases op with
  | add projectId draft authorKind authorId elementId drawn now =>
    exact good_add_iff s projectId draft authorKind authorId elementId drawn now
  | update projectId id patch authorKind authorId now =>
    exact good_update_iff s projectId id patch authorKind authorId now
  | delete projectId id authorKind authorId now =>
    refine iff_of_true ⟨?_, fun p hp => by contradiction, fun p hp => by contradiction⟩ trivial
    intro p hp x e hget hne
    cases hp
    simp only [apply, deleteElement]
    split
    · exact hget
    · exact updateLive_other _ hget hne
  | list | grant =>
    refine iff_of_true ⟨?_, fun p hp => by contradiction, fun p hp => by contradiction⟩ trivial
    exact fun _ _ _ _ hget _ => hget

/-! ## Runs -/

/-- No operation moves an element to another project. -/
theorem project_kept (op : CanvasOp R) {id : String} {e : CanvasElement R}
    (hget : s.elements.get? id = some e) :
    ∃ e', (s.apply op).1.elements.get? id = some e' ∧ e'.projectId = e.projectId := by
  cases op with
  | add projectId draft authorKind authorId elementId drawn now =>
    simp only [apply, addElement]
    split
    · exact ⟨e, hget, rfl⟩
    · rw [get?_upsert, hget]
      split
      · exact ⟨_, rfl, rfl⟩
      · exact ⟨e, rfl, rfl⟩
  | update projectId id' patch authorKind authorId now =>
    simp only [apply]
    cases hcheck : s.checkEditPermission projectId authorKind authorId with
    | error error => exact ⟨e, by simpa only [updateElement, hcheck] using hget, rfl⟩
    | ok _ =>
      obtain ⟨s', happly, _, hstanding⟩ := updateElement_of_ok hcheck id' patch now
      have hafter := hstanding id
      rw [hget] at hafter
      obtain ⟨e', hget', hsame⟩ := Option.map_eq_some_iff.mp hafter
      exact ⟨e', by rw [happly]; exact hget', congrArg Prod.fst hsame⟩
  | delete projectId id' authorKind authorId now =>
    simp only [apply, deleteElement]
    split
    · exact ⟨e, hget, rfl⟩
    · rw [get?_updateLive, hget]
      split
      · refine ⟨_, rfl, ?_⟩
        by_cases hlive : e.Live projectId <;> simp [hlive]
      · exact ⟨e, rfl, rfl⟩
  | list | grant => exact ⟨e, hget, rfl⟩

/-- An element in the list of its project stays there until it is deleted. -/
theorem Listed.apply {op : CanvasOp R} {projectId id : String}
    (h : s.Listed projectId id) (hkept : ¬s.Deletes op id) :
    (s.apply op).1.Listed projectId id := by
  rw [listed_iff] at h ⊢
  obtain ⟨e, hget, hproject, hlive⟩ := h
  obtain ⟨e', hget', hproject'⟩ := project_kept op hget
  refine ⟨e', hget', hproject'.trans hproject, ?_⟩
  by_contra hdeleted
  exact hkept ⟨⟨e, hget, hlive⟩, e', hget', hdeleted⟩

/-- A run does what its operations report exactly when every addition takes a new id or one of
a live element of its project, and no update names a deleted element. -/
theorem faithful_iff (ops : List (CanvasOp R)) :
    Faithful ops ↔ Guarded step Finds init ops := by
  have hsteps : EveryStep step (fun s op _ => s.Isolated op ∧ s.Shown op) init ops ↔
      Guarded step Finds init ops := by
    apply everyStep_iff_guarded (I := fun _ => True)
    · exact fun _ _ hstep => by contradiction
    · exact fun _ _ _ h _ _ => h
    · exact fun s op _ _ _ => good_step_iff s op
    · trivial
  rw [← hsteps]
  constructor
  · intro hfaithful pre op post s s' heq hrun hstep
    refine ⟨hfaithful.isolated pre op post s heq hrun, ?_, ?_⟩
    · intro projectId hadds id e hreply
      exact hfaithful.added pre op [] post s _ id e heq hrun hreply rfl trivial projectId hadds
    · intro projectId hupdates id e hreply
      exact hfaithful.updated pre op post s id e heq hrun hreply projectId hupdates
  · intro hevery
    refine ⟨?_, ?_, ?_⟩
    · exact fun pre op post s heq hrun => (hevery pre op post s _ heq hrun rfl).1
    · intro pre op mid post s u id e heq hrun hreply hmid hkept projectId hadds
      have hlisted := (hevery pre op (mid ++ post) s _ heq hrun rfl).2.1 projectId hadds id e hreply
      apply invariant_of_guarded_run (I := fun t => t.Listed projectId id) _ hlisted hkept hmid
      rintro t op t' hlisted hdeletes ⟨⟩
      exact hlisted.apply hdeletes
    · intro pre op post s id e heq hrun hreply projectId hupdates
      exact (hevery pre op post s _ heq hrun rfl).2.2 projectId hupdates id e hreply

end Calls

/-- A note with an id of the caller's choice. -/
def note (projectId id : String) (now : Clock) : CanvasOp Int :=
  .add projectId ⟨some id, "note", 0, 0, 10, 10, none, none, none⟩ "user" "ada" none "cve-0" now

/-- A user adds an element with an id of another project's. -/
def borrowed : List (CanvasOp Int) :=
  [note "p" "e" 0, note "q" "e" 1]

/-- A user adds an element that was deleted again. -/
def revived : List (CanvasOp Int) :=
  [note "p" "e" 0, .delete "p" "e" "user" "ada" 1, note "p" "e" 2]

/-- A user moves an element that was deleted. -/
def movedLate : List (CanvasOp Int) :=
  [note "p" "e" 0, .delete "p" "e" "user" "ada" 1,
    .update "p" "e" { x := some 5 } "user" "ada" 2]

/-- The first overwrites the other project's element; the others report an element that no list
has. -/
theorem not_faithful : ¬Faithful borrowed ∧ ¬Faithful revived ∧ ¬Faithful movedLate := by
  refine ⟨?_, ?_, ?_⟩
  · intro hfaithful
    have hkept := hfaithful.isolated [note "p" "e" 0] (note "q" "e" 1) [] _ rfl rfl "q" rfl "e" _
      rfl (by decide)
    exact absurd hkept (by decide)
  · intro hfaithful
    have hlisted := hfaithful.added [note "p" "e" 0, .delete "p" "e" "user" "ada" 1]
      (note "p" "e" 2) [] [] _ _ "e" _ rfl rfl rfl rfl trivial "p" rfl
    obtain ⟨e, hget, _, hlive⟩ := listed_iff.mp hlisted
    cases hget
    contradiction
  · intro hfaithful
    have hlisted := hfaithful.updated [note "p" "e" 0, .delete "p" "e" "user" "ada" 1]
      (.update "p" "e" { x := some 5 } "user" "ada" 2) [] _ "e" _ rfl rfl rfl "p" rfl
    exact absurd (mem_listElements_iff.mp hlisted).2.2 (by decide)

end CanvasState

end TinyAgentOS.Projects
