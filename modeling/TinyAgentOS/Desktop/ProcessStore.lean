import TinyAgentOS.Library.JsString
import TinyAgentOS.Library.Ranking
import TinyAgentOS.Library.Transition

/-!
# The windows of the desktop

The store holds the windows in the order in which they were opened, each with its place in the
stack.  A window that is raised gets the number behind all others, and the stack is numbered
afresh.  A window that is closed stays until its animation ends.

Main results:

- `Stacked.raise`: what raising a window does to the stack.
- `stackLaw_iff`: the runs in which every window that is opened is shown.
-/

namespace TinyAgentOS.Desktop

open Collections Transition

/-! ## Windows -/

inductive SnapPosition where
  | left
  | right
  | topLeft
  | topRight
  | bottomLeft
  | bottomRight
deriving DecidableEq

structure Position where
  x : Rat
  y : Rat

structure Size where
  w : Rat
  h : Rat

/-- The values of the props are of any type. -/
structure WindowState (ρ : Type) where
  id : String
  appId : String
  position : Position
  size : Size
  zIndex : Nat
  minimized : Bool
  maximized : Bool
  snapped : Option SnapPosition
  focused : Bool
  closing : Bool
  props : Option (Dict String ρ)
  launchNonce : Nat

def WindowState.unfocused {ρ : Type} (w : WindowState ρ) : WindowState ρ :=
  { w with focused := false }

/-- `window.innerWidth` and `window.innerHeight`. -/
structure Viewport where
  vw : Rat
  vh : Rat

/-- `Math.round`. -/
def round (x : Rat) : Rat :=
  (x + 1 / 2).floor

/-- `safeBounds`. -/
def safeBounds (view : Viewport) (position : Position) (size : Size) : Position × Size :=
  let topBarH : Rat := 32
  let dockH : Rat := 84
  let margin : Rat := 16
  let deskW := view.vw
  let deskH := view.vh - topBarH - dockH
  let w := max 300 (min size.w (deskW - margin * 2))
  let h := max 200 (min size.h (deskH - margin * 2))
  let grab : Rat := 80
  let reachable := position.x ≤ deskW - grab ∧ grab ≤ position.x + w ∧ 0 ≤ position.y ∧
    position.y ≤ deskH - topBarH
  let x := if reachable then position.x else round ((deskW - w) / 2)
  let y := if reachable then position.y else round ((deskH - h) / 2)
  (⟨max margin (min x (max margin (deskW - w - margin))),
    max 0 (min y (max 0 (deskH - h - margin)))⟩, ⟨w, h⟩)

/-- `rank` and the map over it. -/
def normaliseStack {ρ : Type} (windows : List (WindowState ρ)) : List (WindowState ρ) :=
  windows.map fun w =>
    { w with zIndex := Ranking.rank WindowState.id WindowState.zIndex windows w.id }

/-! ## The store -/

structure ProcessStore (ρ : Type) where
  windows : List (WindowState ρ)
  nextZIndex : Nat
  idCounter : Nat

/-- `win-${++idCounter}`. -/
def windowId (n : Nat) : String :=
  "win-" ++ Nat.repr n

namespace ProcessStore

variable {ρ : Type}

def init : ProcessStore ρ := ⟨[], 1, 0⟩

/-- A window is changed where it is. -/
def change (s : ProcessStore ρ) (id : String) (f : WindowState ρ → WindowState ρ) :
    ProcessStore ρ :=
  { s with windows := s.windows.map fun w => if w.id = id then f w else w }

def closeWindow (s : ProcessStore ρ) (id : String) : ProcessStore ρ :=
  s.change id fun w => { w with closing := true }

def removeWindow (s : ProcessStore ρ) (id : String) : ProcessStore ρ :=
  { s with windows := s.windows.filter fun w => w.id ≠ id }

/-- The windows after one of them was put on top. -/
def restack (s : ProcessStore ρ) (f : WindowState ρ → WindowState ρ) : ProcessStore ρ :=
  { s with
    windows := normaliseStack (s.windows.map f)
    nextZIndex := s.windows.length + 1 }

def focusWindow (s : ProcessStore ρ) (id : String) : ProcessStore ρ :=
  let z := s.nextZIndex
  s.restack fun w =>
    { w with focused := w.id = id, zIndex := if w.id = id then z else w.zIndex }

def minimizeWindow (s : ProcessStore ρ) (id : String) : ProcessStore ρ :=
  s.change id fun w => { w with minimized := true, focused := false }

/-- A window is shown again, where it can be reached. -/
def restored (view : Viewport) (id : String) (z : Nat) (w : WindowState ρ) : WindowState ρ :=
  if w.id ≠ id then w.unfocused
  else
    let safe := if w.maximized then (w.position, w.size) else safeBounds view w.position w.size
    { w with
      position := safe.1
      size := safe.2
      minimized := false
      focused := true
      zIndex := z }

def restoreWindow (view : Viewport) (s : ProcessStore ρ) (id : String) : ProcessStore ρ :=
  s.restack (restored view id s.nextZIndex)

/-- A window is maximized, or no longer. -/
def maximized (view : Viewport) (w : WindowState ρ) : WindowState ρ :=
  if w.maximized then
    let safe := safeBounds view w.position w.size
    { w with position := safe.1, size := safe.2, maximized := false }
  else { w with maximized := true, minimized := false }

def maximizeWindow (view : Viewport) (s : ProcessStore ρ) (id : String) : ProcessStore ρ :=
  s.change id (maximized view)

/-- A window comes to the middle: it is far off before its bounds are made safe. -/
def recentered (view : Viewport) (id : String) (z : Nat) (w : WindowState ρ) : WindowState ρ :=
  if w.id ≠ id then w.unfocused
  else
    let safe := safeBounds view ⟨-1000000, -1000000⟩ w.size
    { w with
      position := safe.1
      size := safe.2
      minimized := false
      maximized := false
      focused := true
      zIndex := z }

def recenterWindow (view : Viewport) (s : ProcessStore ρ) (id : String) : ProcessStore ρ :=
  s.restack (recentered view id s.nextZIndex)

def updatePosition (s : ProcessStore ρ) (id : String) (x y : Rat) : ProcessStore ρ :=
  s.change id fun w => { w with position := ⟨x, y⟩ }

def updateSize (s : ProcessStore ρ) (id : String) (w h : Rat) : ProcessStore ρ :=
  s.change id fun win => { win with size := ⟨w, h⟩ }

def updateBounds (s : ProcessStore ρ) (id : String) (x y w h : Rat) : ProcessStore ρ :=
  s.change id fun win => { win with position := ⟨x, y⟩, size := ⟨w, h⟩ }

def snapWindow (s : ProcessStore ρ) (id : String) (snap : Option SnapPosition) :
    ProcessStore ρ :=
  s.change id fun w => { w with snapped := snap }

/-- The bounds of a window that stands by itself. -/
def reclamped (view : Viewport) (w : WindowState ρ) : WindowState ρ :=
  if w.minimized ∨ w.maximized ∨ w.snapped.isSome then w
  else
    let safe := safeBounds view w.position w.size
    { w with position := safe.1, size := safe.2 }

def reclampAllWindows (view : Viewport) (s : ProcessStore ρ) : ProcessStore ρ :=
  { s with windows := s.windows.map (reclamped view) }

/-- `{ ...w.props, ...props }`. -/
def mergeProps (old : Option (Dict String ρ)) (props : Dict String ρ) : Dict String ρ :=
  props.entries.foldl (fun d e => d.set e.1 e.2) (old.getD Dict.empty)

/-- The window of an app that is open already. -/
def existing (s : ProcessStore ρ) (appId : String) (forceNew : Bool) : Option (WindowState ρ) :=
  if forceNew then none else s.windows.find? fun w => w.appId = appId

/-- What the props are for an open window. -/
def relaunch (s : ProcessStore ρ) (id : String) (props : Option (Dict String ρ)) :
    ProcessStore ρ :=
  match props with
  | none => s
  | some props =>
    s.change id fun w =>
      { w with props := some (mergeProps w.props props), launchNonce := w.launchNonce + 1 }

/-- The window that is new. -/
def newWindow (s : ProcessStore ρ) (appId : String) (defaultSize : Size)
    (props : Option (Dict String ρ)) : WindowState ρ where
  id := windowId (s.idCounter + 1)
  appId := appId
  position := ⟨80 + (s.windows.length % 8 : Nat) * 30, 60 + (s.windows.length % 8 : Nat) * 30⟩
  size := defaultSize
  zIndex := s.nextZIndex
  minimized := false
  maximized := false
  snapped := none
  focused := true
  closing := false
  props := props
  launchNonce := 0

/-- `openWindow`, with the id that it returns. -/
def openWindow (view : Viewport) (s : ProcessStore ρ) (appId : String) (defaultSize : Size)
    (props : Option (Dict String ρ)) (forceNew : Bool) : ProcessStore ρ × String :=
  match s.existing appId forceNew with
  | some w => ((s.relaunch w.id props).restoreWindow view w.id, w.id)
  | none =>
    let win := s.newWindow appId defaultSize props
    ({ windows := normaliseStack (s.windows.map WindowState.unfocused ++ [win])
       nextZIndex := s.windows.length + 2
       idCounter := s.idCounter + 1 }, win.id)

end ProcessStore

/-- The operations of the store, with the viewport where they read it. -/
inductive WindowOp (ρ : Type) where
  | openWindow (view : Viewport) (appId : String) (defaultSize : Size)
      (props : Option (Dict String ρ)) (forceNew : Bool)
  | closeWindow (id : String)
  | removeWindow (id : String)
  | focusWindow (id : String)
  | minimizeWindow (id : String)
  | restoreWindow (view : Viewport) (id : String)
  | maximizeWindow (view : Viewport) (id : String)
  | recenterWindow (view : Viewport) (id : String)
  | updatePosition (id : String) (x y : Rat)
  | updateSize (id : String) (w h : Rat)
  | updateBounds (id : String) (x y w h : Rat)
  | snapWindow (id : String) (snap : Option SnapPosition)
  | reclampAllWindows (view : Viewport)

namespace ProcessStore

variable {ρ : Type}

def apply (s : ProcessStore ρ) : WindowOp ρ → ProcessStore ρ
  | .openWindow view appId size props forceNew => (s.openWindow view appId size props forceNew).1
  | .closeWindow id => s.closeWindow id
  | .removeWindow id => s.removeWindow id
  | .focusWindow id => s.focusWindow id
  | .minimizeWindow id => s.minimizeWindow id
  | .restoreWindow view id => s.restoreWindow view id
  | .maximizeWindow view id => s.maximizeWindow view id
  | .recenterWindow view id => s.recenterWindow view id
  | .updatePosition id x y => s.updatePosition id x y
  | .updateSize id w h => s.updateSize id w h
  | .updateBounds id x y w h => s.updateBounds id x y w h
  | .snapWindow id snap => s.snapWindow id snap
  | .reclampAllWindows view => s.reclampAllWindows view

/-- Every operation can be called in every state. -/
def step (s : ProcessStore ρ) (op : WindowOp ρ) : Option (ProcessStore ρ) :=
  some (s.apply op)

/-- The largest number of windows that were open at once. -/
def peak (s : ProcessStore ρ) : List (WindowOp ρ) → Nat
  | [] => s.windows.length
  | op :: ops => max s.windows.length ((s.apply op).peak ops)

/-- The window that an operation is to put on top. -/
def raised (s : ProcessStore ρ) : WindowOp ρ → Option String
  | .openWindow view appId size props forceNew =>
    some (s.openWindow view appId size props forceNew).2
  | .focusWindow id => some id
  | .restoreWindow _ id => some id
  | .recenterWindow _ id => some id
  | _ => none

/-! ## What is asked of the stack -/

/-- The stack is in order. -/
structure InOrder (s : ProcessStore ρ) (bound : Nat) : Prop where
  distinct : (s.windows.map WindowState.zIndex).Nodup
  bounded : ∀ w ∈ s.windows, w.zIndex ≤ bound
  oneFocused : ∀ v ∈ s.windows, ∀ w ∈ s.windows, v.focused = true → w.focused = true → v = w
  onTop : ∀ w ∈ s.windows, w.focused = true → ∀ v ∈ s.windows, v.zIndex ≤ w.zIndex

/-- The windows that are not put on top keep their order. -/
def KeepsOrder (s : ProcessStore ρ) (op : WindowOp ρ) (s' : ProcessStore ρ) : Prop :=
  ∀ v ∈ s.windows, ∀ w ∈ s.windows, some v.id ≠ s.raised op → some w.id ≠ s.raised op →
    ∀ v' ∈ s'.windows, ∀ w' ∈ s'.windows, v'.id = v.id → w'.id = w.id →
      (v'.zIndex < w'.zIndex ↔ v.zIndex < w.zIndex)

def Shown (s : ProcessStore ρ) (id : String) : Prop :=
  ∃ w ∈ s.windows, w.id = id ∧ w.focused = true ∧ w.minimized = false ∧ w.closing = false

/-- The window whose id is returned is shown. -/
def OpenedShown (s : ProcessStore ρ) (op : WindowOp ρ) (s' : ProcessStore ρ) : Prop :=
  match op with
  | .openWindow view appId size props forceNew =>
    s'.Shown (s.openWindow view appId size props forceNew).2
  | _ => True

/-- The stack is in order at all times, its order is kept, and what is opened is shown. -/
def StackLaw (ops : List (WindowOp ρ)) : Prop :=
  (∀ before after s, ops = before ++ after → run step init before = some s →
    s.InOrder (init.peak before)) ∧
  EveryStep step (fun s op s' => s.KeepsOrder op s' ∧ s.OpenedShown op s') init ops

/-- No window is opened that is being closed. -/
def OpensAlive (s : ProcessStore ρ) (op : WindowOp ρ) : Prop :=
  match op with
  | .openWindow _ appId _ _ forceNew =>
    ∀ w, s.existing appId forceNew = some w → w.closing = false
  | _ => True

end ProcessStore

/-! ## What an operation does to the stack -/

theorem windowId_injective {m n : Nat} (h : windowId m = windowId n) : m = n := by
  have hrepr := (String.append_right_inj "win-").mp h
  have hdigits : Nat.toDigits 10 m = Nat.toDigits 10 n := by
    simpa [Nat.repr] using congrArg String.toList hrepr
  exact Js.toDigits_injective hdigits

namespace ProcessStore

variable {ρ : Type}

/-- A change that leaves the place in the stack alone. -/
structure InPlace (f : WindowState ρ → WindowState ρ) : Prop where
  id_eq : ∀ w, (f w).id = w.id
  zIndex_eq : ∀ w, (f w).zIndex = w.zIndex
  focused_of : ∀ w, (f w).focused = true → w.focused = true

/-- A change that puts one window on top. -/
structure Raises (z : Nat) (id : String) (f : WindowState ρ → WindowState ρ) : Prop where
  id_eq : ∀ w, (f w).id = w.id
  zIndex_eq : ∀ w, (f w).zIndex = if w.id = id then z else w.zIndex
  focused_iff : ∀ w, (f w).focused = true ↔ w.id = id

inductive Restack (s : ProcessStore ρ) (op : WindowOp ρ) : ProcessStore ρ → Prop
  | edited (f : WindowState ρ → WindowState ρ) (hf : InPlace f) (hop : s.raised op = none) :
      Restack s op { s with windows := s.windows.map f }
  | removed (id : String) (hop : s.raised op = none) :
      Restack s op { s with windows := s.windows.filter fun w => w.id ≠ id }
  | raised (id : String) (f : WindowState ρ → WindowState ρ) (hf : Raises s.nextZIndex id f)
      (hop : s.raised op = some id) :
      Restack s op (s.restack f)
  | opened (win : WindowState ρ) (hid : win.id = windowId (s.idCounter + 1))
      (hz : win.zIndex = s.nextZIndex) (hop : s.raised op = some win.id) :
      Restack s op
        { windows := normaliseStack (s.windows.map WindowState.unfocused ++ [win])
          nextZIndex := s.windows.length + 2
          idCounter := s.idCounter + 1 }

/-- A change of one window, if it leaves the place in the stack alone. -/
theorem inPlace_if {f : WindowState ρ → WindowState ρ} (hf : InPlace f) (id : String) :
    InPlace fun w => if w.id = id then f w else w := by
  constructor
  · intro w
    by_cases hid : w.id = id
    · simp only [hid, if_true, hf.id_eq]
    · simp only [hid, if_false]
  · intro w
    by_cases hid : w.id = id
    · simp only [hid, if_true, hf.zIndex_eq]
    · simp only [hid, if_false]
  · intro w
    by_cases hid : w.id = id
    · simpa only [hid, if_true] using hf.focused_of w
    · simp only [hid, if_false, imp_self]

theorem inPlace_maximized (view : Viewport) : InPlace (ρ := ρ) (maximized view) := by
  constructor <;> intro w <;> by_cases hmax : w.maximized = true <;> simp [maximized, hmax]

theorem inPlace_reclamped (view : Viewport) : InPlace (ρ := ρ) (reclamped view) := by
  constructor <;> intro w <;>
    by_cases hstay : w.minimized = true ∨ w.maximized = true ∨ w.snapped.isSome = true <;>
    simp [reclamped, hstay]

/-- Restoring raises one window. -/
theorem raises_restored (view : Viewport) (z : Nat) (id : String) :
    Raises (ρ := ρ) z id (restored view id z) := by
  constructor <;> intro w <;> by_cases hid : w.id = id <;>
    simp [restored, WindowState.unfocused, hid]

/-- Centering raises one window. -/
theorem raises_recentered (view : Viewport) (z : Nat) (id : String) :
    Raises (ρ := ρ) z id (recentered view id z) := by
  constructor <;> intro w <;> by_cases hid : w.id = id <;>
    simp [recentered, WindowState.unfocused, hid]

/-- Raising one window and changing it in place raises it. -/
theorem Raises.comp {z : Nat} {id : String} {f g : WindowState ρ → WindowState ρ}
    (hf : Raises z id f) (hg : InPlace g) : Raises z id fun w => f (g w) := by
  constructor
  · intro w
    rw [hf.id_eq, hg.id_eq]
  · intro w
    rw [hf.zIndex_eq, hg.id_eq, hg.zIndex_eq]
  · intro w
    rw [hf.focused_iff, hg.id_eq]

/-- The props of an open window are its own matter. -/
theorem exists_relaunch (s : ProcessStore ρ) (id : String) (props : Option (Dict String ρ)) :
    ∃ f, InPlace f ∧ (∀ w, (f w).closing = w.closing) ∧
      s.relaunch id props = { s with windows := s.windows.map f } := by
  cases props with
  | none =>
    refine ⟨fun w => w, ⟨fun _ => rfl, fun _ => rfl, fun _ h => h⟩, fun _ => rfl, ?_⟩
    simp [relaunch]
  | some props =>
    refine ⟨_, inPlace_if ?_ id, ?_, rfl⟩
    · exact ⟨fun _ => rfl, fun _ => rfl, fun _ h => h⟩
    · intro w
      by_cases hid : w.id = id
      · simp only [hid, if_true]
      · simp only [hid, if_false]

/-- Restoring closes no window. -/
theorem closing_restored (view : Viewport) (id : String) (z : Nat) (w : WindowState ρ) :
    (restored view id z w).closing = w.closing := by
  by_cases hid : w.id = id
  · simp [restored, hid]
  · simp [restored, hid, WindowState.unfocused]

/-- Opening a window is a change of the stack. -/
theorem restack_openWindow (view : Viewport) (s : ProcessStore ρ) (appId : String) (size : Size)
    (props : Option (Dict String ρ)) (forceNew : Bool) :
    Restack s (.openWindow view appId size props forceNew)
      (s.openWindow view appId size props forceNew).1 := by
  cases hexisting : s.existing appId forceNew with
  | some w =>
    obtain ⟨f, hf, _, hrelaunch⟩ := exists_relaunch s w.id props
    have hopen : s.openWindow view appId size props forceNew =
        (s.restack fun v => restored view w.id s.nextZIndex (f v), w.id) := by
      simp [openWindow, hexisting, hrelaunch, restoreWindow, restack, Function.comp_def]
    rw [hopen]
    refine .raised w.id _ ((raises_restored view _ _).comp hf) ?_
    simp [raised, hopen]
  | none =>
    have hopen : s.openWindow view appId size props forceNew =
        ({ windows := normaliseStack (s.windows.map WindowState.unfocused ++
            [s.newWindow appId size props])
           nextZIndex := s.windows.length + 2
           idCounter := s.idCounter + 1 }, (s.newWindow appId size props).id) := by
      simp [openWindow, hexisting]
    rw [hopen]
    refine .opened _ rfl rfl ?_
    simp [raised, hopen]

/-- What an operation does to the stack. -/
theorem restack_apply (s : ProcessStore ρ) (op : WindowOp ρ) : Restack s op (s.apply op) := by
  have hplain : ∀ {f : WindowState ρ → WindowState ρ} (id : String), (∀ w, (f w).id = w.id) →
      (∀ w, (f w).zIndex = w.zIndex) → (∀ w, (f w).focused = true → w.focused = true) →
      s.raised op = none → Restack s op (s.change id f) :=
    fun id hid hz hfocused hop => .edited _ (inPlace_if ⟨hid, hz, hfocused⟩ id) hop
  cases op with
  | openWindow view appId size props forceNew =>
    exact restack_openWindow view s appId size props forceNew
  | closeWindow id | updatePosition id x y | updateSize id w h | updateBounds id x y w h
  | snapWindow id snap => exact hplain id (fun _ => rfl) (fun _ => rfl) (fun _ h => h) rfl
  | removeWindow id => exact .removed id rfl
  | focusWindow id =>
    refine .raised id _ ⟨fun _ => rfl, fun _ => rfl, ?_⟩ rfl
    intro w
    simp
  | minimizeWindow id =>
    refine hplain id (fun _ => rfl) (fun _ => rfl) ?_ rfl
    intro w hfocused
    contradiction
  | restoreWindow view id => exact .raised id _ (raises_restored view _ id) rfl
  | maximizeWindow view id => exact .edited _ (inPlace_if (inPlace_maximized view) id) rfl
  | recenterWindow view id => exact .raised id _ (raises_recentered view _ id) rfl
  | reclampAllWindows view => exact .edited _ (inPlace_reclamped view) rfl

/-! ## The stack at all times -/

/-- What holds in every state. -/
structure Stacked (s : ProcessStore ρ) : Prop where
  ids : (s.windows.map WindowState.id).Nodup
  numbered : ∀ w ∈ s.windows, ∃ n ≤ s.idCounter, w.id = windowId n
  zIndexes : (s.windows.map WindowState.zIndex).Nodup
  below : ∀ w ∈ s.windows, w.zIndex < s.nextZIndex
  top : ∀ w ∈ s.windows, w.focused = true → ∀ v ∈ s.windows, v.zIndex ≤ w.zIndex

theorem stacked_init : (init : ProcessStore ρ).Stacked := by
  constructor <;> simp [init]

variable {w : WindowState ρ} {ops : List (WindowOp ρ)} {appId : String} {forceNew : Bool}

/-- Windows of one id are one. -/
theorem Stacked.eq_of_id {s : ProcessStore ρ} (h : s.Stacked) {v : WindowState ρ}
    (hv : v ∈ s.windows) (hw : w ∈ s.windows) (hid : v.id = w.id) : v = w :=
  List.inj_on_of_nodup_map h.ids hv hw hid

/-- Windows at one height are one. -/
theorem Stacked.eq_of_zIndex {s : ProcessStore ρ} (h : s.Stacked) {v : WindowState ρ}
    (hv : v ∈ s.windows) (hw : w ∈ s.windows) (hz : v.zIndex = w.zIndex) : v = w :=
  List.inj_on_of_nodup_map h.zIndexes hv hw hz

section Normalise

variable {windows : List (WindowState ρ)}

/-- Normalising gives each window its rank. -/
theorem mem_normaliseStack_iff {v : WindowState ρ} : v ∈ normaliseStack windows ↔
    ∃ w ∈ windows, { w with
      zIndex := Ranking.rank WindowState.id WindowState.zIndex windows w.id } = v :=
  List.mem_map

theorem ids_normaliseStack :
    (normaliseStack windows).map WindowState.id = windows.map WindowState.id := by
  simp [normaliseStack, Function.comp_def]

section

variable (hids : (windows.map WindowState.id).Nodup)
  (hkeys : (windows.map WindowState.zIndex).Nodup)
include hids hkeys

/-- Normalised heights are different. -/
theorem zIndexes_normaliseStack : ((normaliseStack windows).map WindowState.zIndex).Nodup := by
  rw [normaliseStack, List.map_map]
  refine List.Nodup.map_on ?_ (List.Nodup.of_map _ hids)
  intro v hv w hw hrank
  have hlt := Ranking.rank_lt_iff WindowState.id WindowState.zIndex hids hkeys hv hw
  have hgt := Ranking.rank_lt_iff WindowState.id WindowState.zIndex hids hkeys hw hv
  simp only [Function.comp_apply] at hrank
  refine List.inj_on_of_nodup_map hkeys hv hw ?_
  omega

/-- A stack that is numbered afresh. -/
theorem stacked_normaliseStack {z c : Nat} (hnumbered : ∀ w ∈ windows, ∃ n ≤ c, w.id = windowId n)
    (htop : ∀ w ∈ windows, w.focused = true → ∀ v ∈ windows, v.zIndex ≤ w.zIndex)
    (hz : windows.length < z) : Stacked ⟨normaliseStack windows, z, c⟩ := by
  refine ⟨?_, ?_, zIndexes_normaliseStack hids hkeys, ?_, ?_⟩
  · rw [ids_normaliseStack]
    exact hids
  · intro v hv
    obtain ⟨w, hw, rfl⟩ := mem_normaliseStack_iff.mp hv
    exact hnumbered w hw
  · intro v hv
    obtain ⟨w, hw, rfl⟩ := mem_normaliseStack_iff.mp hv
    exact lt_of_le_of_lt (Ranking.rank_le_length _ _ hids hw) hz
  · intro w' hw' hfocused v' hv'
    obtain ⟨w, hw, rfl⟩ := mem_normaliseStack_iff.mp hw'
    obtain ⟨v, hv, rfl⟩ := mem_normaliseStack_iff.mp hv'
    have hle := htop w hw hfocused v hv
    have hlt := Ranking.rank_lt_iff WindowState.id WindowState.zIndex hids hkeys hw hv
    simp only
    omega

/-- Two windows of a stack that is numbered afresh. -/
theorem lt_normaliseStack_iff {v w v' w' : WindowState ρ}
    (hv : v ∈ windows) (hw : w ∈ windows) (hv' : v' ∈ normaliseStack windows)
    (hw' : w' ∈ normaliseStack windows) (hvid : v'.id = v.id) (hwid : w'.id = w.id) :
    v'.zIndex < w'.zIndex ↔ v.zIndex < w.zIndex := by
  obtain ⟨a, ha, rfl⟩ := mem_normaliseStack_iff.mp hv'
  obtain ⟨b, hb, rfl⟩ := mem_normaliseStack_iff.mp hw'
  obtain rfl := List.inj_on_of_nodup_map hids ha hv hvid
  obtain rfl := List.inj_on_of_nodup_map hids hb hw hwid
  exact Ranking.rank_lt_iff WindowState.id WindowState.zIndex hids hkeys ha hb

end

end Normalise

section Raise

variable {s : ProcessStore ρ}

variable {f : WindowState ρ → WindowState ρ} {win : WindowState ρ}

theorem ids_map (hid : ∀ w, (f w).id = w.id) :
    (s.windows.map f).map WindowState.id = s.windows.map WindowState.id := by
  simp [Function.comp_def, hid]

/-- Raised heights are different. -/
theorem Stacked.zIndexes_raise (h : s.Stacked) {id : String} (hf : Raises s.nextZIndex id f) :
    ((s.windows.map f).map WindowState.zIndex).Nodup := by
  rw [List.map_map]
  refine List.Nodup.map_on ?_ (List.Nodup.of_map _ h.ids)
  intro v hv w hw heq
  have hvz := h.below v hv
  have hwz := h.below w hw
  simp only [Function.comp_apply, hf.zIndex_eq] at heq
  by_cases hvid : v.id = id
  · by_cases hwid : w.id = id
    · exact h.eq_of_id hv hw (hvid.trans hwid.symm)
    · rw [if_pos hvid, if_neg hwid] at heq
      omega
  · by_cases hwid : w.id = id
    · rw [if_neg hvid, if_pos hwid] at heq
      omega
    · rw [if_neg hvid, if_neg hwid] at heq
      exact h.eq_of_zIndex hv hw heq

/-- A window that is put on top. -/
theorem Stacked.raise (h : s.Stacked) {id : String}
    (hf : Raises s.nextZIndex id f) : (s.restack f).Stacked := by
  refine stacked_normaliseStack (ids_map hf.id_eq ▸ h.ids) (h.zIndexes_raise hf) ?_ ?_ ?_
  · intro w' hw'
    obtain ⟨w, hw, rfl⟩ := List.mem_map.mp hw'
    rw [hf.id_eq]
    exact h.numbered w hw
  · intro w' hw' hfocused v' hv'
    obtain ⟨w, hw, rfl⟩ := List.mem_map.mp hw'
    obtain ⟨v, hv, rfl⟩ := List.mem_map.mp hv'
    have hbelow := h.below v hv
    rw [hf.zIndex_eq, hf.zIndex_eq, if_pos ((hf.focused_iff w).mp hfocused)]
    by_cases hid : v.id = id
    · rw [if_pos hid]
    · rw [if_neg hid]
      omega
  · simp

theorem ids_append (win : WindowState ρ) :
    (s.windows.map WindowState.unfocused ++ [win]).map WindowState.id =
      s.windows.map WindowState.id ++ [win.id] := by
  simp [Function.comp_def, WindowState.unfocused]

theorem zIndexes_append (win : WindowState ρ) :
    (s.windows.map WindowState.unfocused ++ [win]).map WindowState.zIndex =
      s.windows.map WindowState.zIndex ++ [win.zIndex] := by
  simp [Function.comp_def, WindowState.unfocused]

/-- An opened window has a new id. -/
theorem Stacked.ids_open (h : s.Stacked) (hid : win.id = windowId (s.idCounter + 1)) :
    ((s.windows.map WindowState.unfocused ++ [win]).map WindowState.id).Nodup := by
  have hfresh : ∀ w ∈ s.windows, w.id ≠ win.id := by
    intro w hw heq
    obtain ⟨n, hn, hwid⟩ := h.numbered w hw
    have hsame := windowId_injective (hwid.symm.trans (heq.trans hid))
    omega
  rw [ids_append, List.nodup_append]
  refine ⟨h.ids, List.nodup_singleton _, ?_⟩
  simpa using hfresh

/-- An opened window is at a new height. -/
theorem Stacked.zIndexes_open (h : s.Stacked) (hz : win.zIndex = s.nextZIndex) :
    ((s.windows.map WindowState.unfocused ++ [win]).map WindowState.zIndex).Nodup := by
  have hbelow : ∀ w ∈ s.windows, w.zIndex ≠ win.zIndex := by
    intro w hw heq
    have hlt := h.below w hw
    omega
  rw [zIndexes_append, List.nodup_append]
  refine ⟨h.zIndexes, List.nodup_singleton _, ?_⟩
  simpa using hbelow

/-- A window is the opened one, or was there. -/
theorem mem_append_cases {v : WindowState ρ}
    (hv : v ∈ s.windows.map WindowState.unfocused ++ [win]) :
    (∃ w ∈ s.windows, w.unfocused = v) ∨ v = win := by
  rcases List.mem_append.mp hv with hold | hnew
  · exact Or.inl (List.mem_map.mp hold)
  · exact Or.inr (List.mem_singleton.mp hnew)

/-- A window that is new is on top. -/
theorem Stacked.opened (h : s.Stacked)
    (hid : win.id = windowId (s.idCounter + 1)) (hz : win.zIndex = s.nextZIndex) :
    Stacked ⟨normaliseStack (s.windows.map WindowState.unfocused ++ [win]),
      s.windows.length + 2, s.idCounter + 1⟩ := by
  refine stacked_normaliseStack (h.ids_open hid) (h.zIndexes_open hz) ?_ ?_ (by simp)
  · intro v hv
    rcases mem_append_cases hv with ⟨w, hw, rfl⟩ | rfl
    · obtain ⟨n, hn, hwid⟩ := h.numbered w hw
      exact ⟨n, by omega, hwid⟩
    · exact ⟨s.idCounter + 1, le_rfl, hid⟩
  · intro w hw hfocused v hv
    rcases mem_append_cases hw with ⟨w₀, _, rfl⟩ | rfl
    · contradiction
    · rcases mem_append_cases hv with ⟨v₀, hv₀, rfl⟩ | rfl
      · have hbelow := h.below v₀ hv₀
        simp only [WindowState.unfocused]
        omega
      · exact le_rfl

/-- Windows change in place. -/
theorem Stacked.edited (h : s.Stacked) (hf : InPlace f) :
    Stacked { s with windows := s.windows.map f } := by
  have hzIndexes : (s.windows.map f).map WindowState.zIndex = s.windows.map WindowState.zIndex := by
    simp [Function.comp_def, hf.zIndex_eq]
  constructor
  · change ((s.windows.map f).map WindowState.id).Nodup
    rw [ids_map hf.id_eq]
    exact h.ids
  · intro w' hw'
    obtain ⟨w, hw, rfl⟩ := List.mem_map.mp hw'
    rw [hf.id_eq]
    exact h.numbered w hw
  · change ((s.windows.map f).map WindowState.zIndex).Nodup
    rw [hzIndexes]
    exact h.zIndexes
  · intro w' hw'
    obtain ⟨w, hw, rfl⟩ := List.mem_map.mp hw'
    rw [hf.zIndex_eq]
    exact h.below w hw
  · intro w' hw' hfocused v' hv'
    obtain ⟨w, hw, rfl⟩ := List.mem_map.mp hw'
    obtain ⟨v, hv, rfl⟩ := List.mem_map.mp hv'
    rw [hf.zIndex_eq, hf.zIndex_eq]
    exact h.top w hw (hf.focused_of w hfocused) v hv

/-- A window is removed. -/
theorem Stacked.removed (h : s.Stacked) (id : String) :
    Stacked { s with windows := s.windows.filter fun w => w.id ≠ id } := by
  have hsub : (s.windows.filter fun w => w.id ≠ id).Sublist s.windows := List.filter_sublist
  constructor
  · exact h.ids.sublist (hsub.map _)
  · exact fun w hw => h.numbered w (hsub.subset hw)
  · exact h.zIndexes.sublist (hsub.map _)
  · exact fun w hw => h.below w (hsub.subset hw)
  · exact fun w hw hfocused v hv => h.top w (hsub.subset hw) hfocused v (hsub.subset hv)

variable {s' : ProcessStore ρ} {op : WindowOp ρ}

/-- The stack is as it should be after every operation. -/
theorem Stacked.of_restack (h : s.Stacked) (hop : Restack s op s') : s'.Stacked := by
  cases hop with
  | edited f hf _ => exact h.edited hf
  | removed id _ => exact h.removed id
  | raised id f hf _ => exact h.raise hf
  | opened win hid hz _ => exact h.opened hid hz

theorem Stacked.of_step (h : s.Stacked) (hstep : step s op = some s') : s'.Stacked := by
  cases hstep
  exact h.of_restack (restack_apply s op)

end Raise

/-! ## Order -/

section Order

variable {s s' : ProcessStore ρ} {op : WindowOp ρ}

theorem Stacked.keepsOrder (h : s.Stacked) (hop : Restack s op s') : s.KeepsOrder op s' := by
  intro v hv w hw hvop hwop v' hv' w' hw' hvid hwid
  cases hop with
  | edited f hf _ =>
    obtain ⟨a, ha, rfl⟩ := List.mem_map.mp hv'
    obtain ⟨b, hb, rfl⟩ := List.mem_map.mp hw'
    rw [hf.id_eq] at hvid hwid
    obtain rfl := h.eq_of_id ha hv hvid
    obtain rfl := h.eq_of_id hb hw hwid
    rw [hf.zIndex_eq, hf.zIndex_eq]
  | removed id _ =>
    obtain rfl := h.eq_of_id (List.mem_filter.mp hv').1 hv hvid
    obtain rfl := h.eq_of_id (List.mem_filter.mp hw').1 hw hwid
    rfl
  | raised id f hf hraised =>
    have hne : v.id ≠ id ∧ w.id ≠ id := by
      rw [hraised] at hvop hwop
      exact ⟨fun heq => hvop (congrArg some heq), fun heq => hwop (congrArg some heq)⟩
    have hlt := lt_normaliseStack_iff (ids_map hf.id_eq ▸ h.ids) (h.zIndexes_raise hf)
      (List.mem_map_of_mem hv) (List.mem_map_of_mem hw) hv' hw'
      (hvid.trans (hf.id_eq v).symm) (hwid.trans (hf.id_eq w).symm)
    rwa [hf.zIndex_eq, hf.zIndex_eq, if_neg hne.1, if_neg hne.2] at hlt
  | opened win hid hz _ =>
    have hvold : v.unfocused ∈ s.windows.map WindowState.unfocused ++ [win] :=
      List.mem_append_left _ (List.mem_map_of_mem hv)
    have hwold : w.unfocused ∈ s.windows.map WindowState.unfocused ++ [win] :=
      List.mem_append_left _ (List.mem_map_of_mem hw)
    have hlt : v'.zIndex < w'.zIndex ↔ v.unfocused.zIndex < w.unfocused.zIndex :=
      lt_normaliseStack_iff (h.ids_open hid) (h.zIndexes_open hz) hvold hwold hv' hw' hvid hwid
    exact hlt

/-- A number in the stack is old, or no larger than the number of windows. -/
theorem Stacked.zIndex_cases (h : s.Stacked) (hop : Restack s op s') {w : WindowState ρ}
    (hw : w ∈ s'.windows) :
    (∃ v ∈ s.windows, w.zIndex = v.zIndex) ∨ w.zIndex ≤ s'.windows.length := by
  have hfresh : ∀ {windows : List (WindowState ρ)}, (windows.map WindowState.id).Nodup →
      w ∈ normaliseStack windows → w.zIndex ≤ (normaliseStack windows).length := by
    intro windows hids hmem
    obtain ⟨v, hv, rfl⟩ := mem_normaliseStack_iff.mp hmem
    rw [normaliseStack, List.length_map]
    exact Ranking.rank_le_length _ _ hids hv
  cases hop with
  | edited f hf _ =>
    obtain ⟨v, hv, rfl⟩ := List.mem_map.mp hw
    exact Or.inl ⟨v, hv, hf.zIndex_eq v⟩
  | removed id _ => exact Or.inl ⟨w, (List.mem_filter.mp hw).1, rfl⟩
  | raised id f hf _ => exact Or.inr (hfresh (ids_map hf.id_eq ▸ h.ids) hw)
  | opened win hid hz _ => exact Or.inr (hfresh (h.ids_open hid) hw)

end Order

/-- The peak is no less than the number of windows. -/
theorem length_le_peak (s : ProcessStore ρ) (ops : List (WindowOp ρ)) :
    s.windows.length ≤ s.peak ops := by
  cases ops with
  | nil => exact le_rfl
  | cons op ops => exact le_max_left _ _

/-- No number exceeds the largest number of windows so far. -/
theorem Stacked.le_peak {s s' : ProcessStore ρ} (h : s.Stacked)
    {bound : Nat} (hbound : ∀ w ∈ s.windows, w.zIndex ≤ bound) (hpeak : s.peak ops ≤ bound)
    (hrun : run step s ops = some s') : ∀ w ∈ s'.windows, w.zIndex ≤ bound := by
  induction ops generalizing s with
  | nil =>
    cases hrun
    exact hbound
  | cons op ops ih =>
    obtain ⟨t, hstep, hrest⟩ := run_cons_eq_some.mp hrun
    have hstacked := h.of_step hstep
    cases hstep
    have hrestPeak : (s.apply op).peak ops ≤ bound := (le_max_right _ _).trans hpeak
    refine ih hstacked ?_ hrestPeak hrest
    intro w hw
    rcases h.zIndex_cases (restack_apply s op) hw with ⟨v, hv, hold⟩ | hnew
    · rw [hold]
      exact hbound v hv
    · exact hnew.trans ((length_le_peak _ ops).trans hrestPeak)

/-- In every run the windows stay in order. -/
theorem inOrder_of_run {s : ProcessStore ρ}
    (hrun : run step init ops = some s) : s.InOrder (init.peak ops) := by
  have h : s.Stacked :=
    invariant_of_run (fun _ _ _ hold hstep => Stacked.of_step hold hstep) stacked_init hrun
  refine ⟨h.zIndexes, ?_, ?_, h.top⟩
  · exact stacked_init.le_peak (by simp [init]) le_rfl hrun
  · intro v hv w hw hvfocused hwfocused
    have hle := h.top v hv hvfocused w hw
    have hge := h.top w hw hwfocused v hv
    exact h.eq_of_zIndex hv hw (by omega)

/-! ## What is opened -/

/-- A new window is shown. -/
theorem openedShown_new {s : ProcessStore ρ}
    (hexisting : s.existing appId forceNew = none) (view : Viewport) (size : Size)
    (props : Option (Dict String ρ)) : (s.openWindow view appId size props forceNew).1.Shown
      (s.openWindow view appId size props forceNew).2 := by
  simp only [openWindow, hexisting]
  refine ⟨_, mem_normaliseStack_iff.mpr ⟨s.newWindow appId size props, ?_, rfl⟩, rfl, rfl, rfl, rfl⟩
  exact List.mem_append_right _ (List.mem_singleton.mpr rfl)

/-- A window that is opened again is shown exactly when it is not being closed. -/
theorem Stacked.openedShown_existing_iff {s : ProcessStore ρ} (h : s.Stacked)
    (hexisting : s.existing appId forceNew = some w)
    (view : Viewport) (size : Size) (props : Option (Dict String ρ)) :
    (s.openWindow view appId size props forceNew).1.Shown
      (s.openWindow view appId size props forceNew).2 ↔ w.closing = false := by
  have hw : w ∈ s.windows := by
    cases forceNew with
    | true => contradiction
    | false => exact List.mem_of_find?_eq_some hexisting
  obtain ⟨f, hf, hclosing, hrelaunch⟩ := exists_relaunch s w.id props
  have hopen : s.openWindow view appId size props forceNew =
      (s.restack fun v => restored view w.id s.nextZIndex (f v), w.id) := by
    simp [openWindow, hexisting, hrelaunch, restoreWindow, restack, Function.comp_def]
  rw [hopen]
  constructor
  · rintro ⟨v', hv', hid, _, _, hopenv⟩
    obtain ⟨u, hu, rfl⟩ := mem_normaliseStack_iff.mp hv'
    obtain ⟨v, hv, rfl⟩ := List.mem_map.mp hu
    have hvid : v.id = w.id := by
      rw [← hf.id_eq v, ← (raises_restored view s.nextZIndex w.id).id_eq (f v)]
      exact hid
    obtain rfl := h.eq_of_id hv hw hvid
    rw [← hclosing v, ← closing_restored view v.id s.nextZIndex (f v)]
    exact hopenv
  · intro hnot
    refine ⟨_, mem_normaliseStack_iff.mpr ⟨_, List.mem_map.mpr ⟨w, hw, rfl⟩, rfl⟩, ?_, ?_, ?_, ?_⟩
    · exact ((raises_restored view _ _).id_eq _).trans (hf.id_eq w)
    · exact ((raises_restored view _ _).focused_iff _).mpr (hf.id_eq w)
    · simp [restored, hf.id_eq]
    · exact (closing_restored view _ _ _).trans ((hclosing w).trans hnot)

/-- A step does what it should where it opens no window that is closing. -/
theorem Stacked.good_iff {s s' : ProcessStore ρ} (h : s.Stacked) {op : WindowOp ρ}
    (hstep : step s op = some s') : s.KeepsOrder op s' ∧ s.OpenedShown op s' ↔ s.OpensAlive op := by
  cases hstep
  rw [and_iff_right (h.keepsOrder (restack_apply s op))]
  cases op with
  | openWindow view appId size props forceNew =>
    cases hexisting : s.existing appId forceNew with
    | none =>
      refine iff_of_true (openedShown_new hexisting view size props) ?_
      intro w hsome
      rw [hexisting] at hsome
      contradiction
    | some w =>
      refine (h.openedShown_existing_iff hexisting view size props).trans ?_
      simp [OpensAlive, hexisting]
  | _ => exact iff_of_true trivial trivial

/-- The runs in which every window that is opened is shown: those that open no app again while
its window is being closed. -/
theorem stackLaw_iff (ops : List (WindowOp ρ)) :
    StackLaw ops ↔ Guarded step OpensAlive (init : ProcessStore ρ) ops := by
  have horder : ∀ before after s, ops = before ++ after → run step init before = some s →
      s.InOrder (init.peak before) := fun _ _ _ _ hrun => inOrder_of_run hrun
  rw [StackLaw, and_iff_right horder]
  refine everyStep_iff_guarded ?_ ?_ ?_ stacked_init ops
  · intro s op hnone
    contradiction
  · exact fun s op s' h _ hstep => h.of_step hstep
  · exact fun s op s' h hstep => h.good_iff hstep

/-- An app is opened again while its window closes: the window is not shown. -/
theorem not_stackLaw : ¬ StackLaw (ρ := String)
    [.openWindow ⟨1280, 800⟩ "files" ⟨900, 600⟩ none false, .closeWindow "win-1",
      .openWindow ⟨1280, 800⟩ "files" ⟨900, 600⟩ none false] := by
  intro h
  have hshown := (h.2 [_, _] _ [] _ _ rfl rfl rfl).2
  obtain ⟨w, hw, _, _, _, hclosing⟩ := hshown
  obtain rfl := List.mem_singleton.mp hw
  revert hclosing
  decide

end ProcessStore
end TinyAgentOS.Desktop
