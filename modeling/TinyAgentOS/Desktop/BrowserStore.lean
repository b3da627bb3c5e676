import TinyAgentOS.Library.Dict
import TinyAgentOS.Library.JsArray

/-!
# The tabs of the browser

The store holds the browser windows, each with the tabs of the profile that it shows and the tabs
of the profiles that it showed before.  The number of the next tab is shared by all windows.
-/

namespace TinyAgentOS.Desktop
namespace Browser

open Collections Js

/-! ## Tabs -/

inductive LiveExclusion where
  | audio
  | video
  | formActive
  | upload
  | pinned
deriving DecidableEq

structure ReaderExtract where
  title : String
  text : String
  html : String
  wordCount : Nat
  note : Option String

structure LiveSession where
  nekoUrl : String
  streamToken : String

inductive TabState where
  | live
  | discarded
deriving DecidableEq

/-- The extract of the reader may be there, `null` or missing. -/
structure Tab where
  id : String
  url : String
  title : String
  faviconUrl : Option String
  pinned : Bool
  history : List String
  historyIndex : Int
  scrollY : Rat
  zoom : Rat
  state : TabState
  lastActiveAt : Int
  liveExclusion : Option LiveExclusion
  readerAvailable : Option Bool
  readerActive : Option Bool
  readerExtract : Option (Option ReaderExtract)
  pinnedAgentIds : List String
  liveSession : Option LiveSession

structure RecentlyClosedTab where
  url : String
  title : String
  closedAt : Int
  pinnedAgentIds : Option (List String)

structure SavedProfileTabs where
  tabs : List Tab
  activeTabId : String

/-- The names that every object inherits. -/
def inheritedNames : List String :=
  ["constructor", "__defineGetter__", "__defineSetter__", "hasOwnProperty", "__lookupGetter__",
    "__lookupSetter__", "isPrototypeOf", "propertyIsEnumerable", "toString", "valueOf", "__proto__",
    "toLocaleString"]

/-- The windows are named by the store of the windows, which calls none of them by a name that the
record of the windows inherits. -/
structure WindowId where
  name : String
  own : name ∉ inheritedNames
deriving DecidableEq

structure BrowserWindowState where
  windowId : WindowId
  profileId : String
  tabs : List Tab
  activeTabId : String
  recentlyClosed : List RecentlyClosedTab
  savedTabsByProfile : Option (Dict String SavedProfileTabs)

def NEW_TAB_URL : String := "about:blank"

def HOME_URL : String := "https://taos.my"

def MAX_RECENTLY_CLOSED : Nat := 50

/-- What `Date.now()` says where an operation asks for it: for the id of a new tab, for the
time it was last active, and for the time a tab was closed. -/
structure Times where
  forId : Int
  active : Int
  closed : Int

/-- `tab-${Date.now()}-${_tabIdCounter}`. -/
def tabId (now : Int) (n : Nat) : String :=
  "tab-" ++ toString now ++ "-" ++ Nat.repr n

/-! ## The store -/

structure BrowserStore where
  windows : Dict WindowId BrowserWindowState
  tabIdCounter : Nat

namespace BrowserStore

def init : BrowserStore := ⟨Dict.empty, 0⟩

/-- `makeTab`, with the number that `nextTabId` takes. -/
def makeTab (s : BrowserStore) (now : Times) (url : String) : Tab where
  id := tabId now.forId (s.tabIdCounter + 1)
  url := url
  title := ""
  faviconUrl := none
  pinned := false
  history := if url = "" then [] else [url]
  historyIndex := if url = "" then -1 else 0
  scrollY := 0
  zoom := 1
  state := .live
  lastActiveAt := now.active
  liveExclusion := none
  readerAvailable := none
  readerActive := none
  readerExtract := none
  pinnedAgentIds := []
  liveSession := none

/-- A tab was made. -/
def counted (s : BrowserStore) : BrowserStore :=
  { s with tabIdCounter := s.tabIdCounter + 1 }

def put (s : BrowserStore) (w : WindowId) (win : BrowserWindowState) : BrowserStore :=
  { s with windows := s.windows.set w win }

def createWindow (s : BrowserStore) (w : WindowId) (profileId : String) (now : Times) :
    BrowserStore :=
  match s.windows.get? w with
  | some _ => s
  | none =>
    let initialTab := s.makeTab now HOME_URL
    s.counted.put w
      { windowId := w
        profileId := profileId
        tabs := [initialTab]
        activeTabId := initialTab.id
        recentlyClosed := []
        savedTabsByProfile := none }

def removeWindow (s : BrowserStore) (w : WindowId) : BrowserStore :=
  { s with windows := s.windows.pop w }

/-- The tab is made before the window is looked up. -/
def addTab (s : BrowserStore) (w : WindowId) (url : Option String) (now : Times) :
    BrowserStore :=
  let tab := s.makeTab now (url.getD NEW_TAB_URL)
  match s.windows.get? w with
  | none => s.counted
  | some win => s.counted.put w { win with tabs := win.tabs ++ [tab], activeTabId := tab.id }

/-- The tab that is active when the one at an index is gone. -/
def nextActive (remaining : List Tab) (idx : Nat) (active : String) : String :=
  match remaining[min idx (remaining.length - 1)]? with
  | some t => t.id
  | none => active

/-- The last tab of a window makes place for a new one. -/
def closeTab (s : BrowserStore) (w : WindowId) (id : String) (now : Times) : BrowserStore :=
  match s.windows.get? w with
  | none => s
  | some win =>
    match win.tabs.findIdx? fun t => t.id = id with
    | none => s
    | some closingIdx =>
      match win.tabs[closingIdx]? with
      | none => s
      | some closing =>
        let closedEntry : RecentlyClosedTab :=
          ⟨closing.url, closing.title, now.closed, some closing.pinnedAgentIds⟩
        let recentlyClosed :=
          (closedEntry :: win.recentlyClosed).take MAX_RECENTLY_CLOSED
        match win.tabs.eraseIdx closingIdx with
        | [] =>
          let fresh := s.makeTab now NEW_TAB_URL
          s.counted.put w
            { win with
              tabs := [fresh]
              activeTabId := if win.activeTabId = id then fresh.id else win.activeTabId
              recentlyClosed := recentlyClosed }
        | t :: ts =>
          s.put w
            { win with
              tabs := t :: ts
              activeTabId :=
                if win.activeTabId = id then nextActive (t :: ts) closingIdx win.activeTabId
                else win.activeTabId
              recentlyClosed := recentlyClosed }

def restoreClosedTab (s : BrowserStore) (w : WindowId) (now : Times) : BrowserStore :=
  match s.windows.get? w with
  | none => s
  | some win =>
    match win.recentlyClosed with
    | [] => s
    | entry :: remaining =>
      let restored : Tab :=
        { s.makeTab now entry.url with
          pinnedAgentIds := entry.pinnedAgentIds.getD []
          title := entry.title }
      s.counted.put w
        { win with
          tabs := win.tabs ++ [restored]
          activeTabId := restored.id
          recentlyClosed := remaining }

def setActiveTab (s : BrowserStore) (w : WindowId) (id : String) (now : Times) : BrowserStore :=
  match s.windows.get? w with
  | none => s
  | some win =>
    if win.tabs.any fun t => t.id = id then
      s.put w
        { win with
          activeTabId := id
          tabs := win.tabs.map fun t =>
            if t.id = id then { t with lastActiveAt := now.active } else t }
    else s

/-- `updateTab`. -/
def updateTab (s : BrowserStore) (w : WindowId) (id : String) (transform : Tab → Tab) :
    BrowserStore :=
  match s.windows.get? w with
  | none => s
  | some win =>
    s.put w { win with tabs := win.tabs.map fun t => if t.id = id then transform t else t }

end BrowserStore

/-! ## What is done to one tab -/

namespace Tab

def pinTab (t : Tab) : Tab :=
  { t with pinned := true }

def unpinTab (t : Tab) : Tab :=
  { t with pinned := false }

/-- The history ahead is cut off. -/
def navigateTab (url : String) (now : Times) (t : Tab) : Tab :=
  let trimmedHistory := sliceTo t.history (.finite ((t.historyIndex + 1 : Int) : Rat))
  let newHistory := trimmedHistory ++ [url]
  { t with
    url := url
    history := newHistory
    historyIndex := (newHistory.length : Int) - 1
    state := .live
    lastActiveAt := now.active
    readerAvailable := none
    readerActive := none
    readerExtract := some none
    liveSession := none }

/-- The tab shows what its history has at an index. -/
def travel (idx : Int) (t : Tab) : Tab :=
  match at? t.history idx with
  | none => t
  | some url =>
    { t with
      historyIndex := idx
      url := url
      readerAvailable := none
      readerActive := none
      readerExtract := some none }

def goBack (t : Tab) : Tab :=
  if t.historyIndex ≤ 0 then t else t.travel (t.historyIndex - 1)

def goForward (t : Tab) : Tab :=
  if (t.history.length : Int) - 1 ≤ t.historyIndex then t else t.travel (t.historyIndex + 1)

def markTabDiscarded (t : Tab) : Tab :=
  { t with state := .discarded }

def markTabLive (now : Times) (t : Tab) : Tab :=
  { t with state := .live, lastActiveAt := now.active }

def setTabZoom (zoom : Rat) (t : Tab) : Tab :=
  { t with zoom := max (1 / 2) (min 3 zoom) }

def setTabLiveExclusion (exclusion : Option LiveExclusion) (t : Tab) : Tab :=
  { t with liveExclusion := exclusion }

def setTabLiveSession (liveSession : Option LiveSession) (t : Tab) : Tab :=
  { t with liveSession := liveSession }

end Tab

/-- What a patch says of the reader, with the keys that it leaves out. -/
structure ReaderPatch where
  readerAvailable : Option (Option Bool)
  readerActive : Option (Option Bool)
  readerExtract : Option (Option (Option ReaderExtract))

namespace Tab

def setTabReader (patch : ReaderPatch) (t : Tab) : Tab :=
  { t with
    readerAvailable := patch.readerAvailable.getD t.readerAvailable
    readerActive := patch.readerActive.getD t.readerActive
    readerExtract := patch.readerExtract.getD t.readerExtract }

def addPinnedAgent (agentId : String) (t : Tab) : Tab :=
  if agentId ∈ t.pinnedAgentIds then t
  else { t with pinnedAgentIds := t.pinnedAgentIds ++ [agentId] }

def removePinnedAgent (agentId : String) (t : Tab) : Tab :=
  { t with pinnedAgentIds := t.pinnedAgentIds.filter fun id => id ≠ agentId }

end Tab

/-! ## Tabs move and profiles change -/

namespace BrowserWindowState

/-- A window without a tab that has left it. -/
def without (win : BrowserWindowState) (id : String) (fresh : Tab) : BrowserWindowState :=
  match win.tabs.filter fun t => t.id ≠ id with
  | [] => { win with tabs := [fresh], activeTabId := fresh.id }
  | t :: ts =>
    { win with
      tabs := t :: ts
      activeTabId :=
        if win.activeTabId = id then
          BrowserStore.nextActive (t :: ts) (win.tabs.findIdx fun t => t.id = id) win.activeTabId
        else win.activeTabId }

/-- A window with a tab that has come to it. -/
def inserted (win : BrowserWindowState) (tab : Tab) (toIndex : Option JsNumber) :
    BrowserWindowState :=
  let insertAt := toIndex.getD (.finite win.tabs.length)
  { win with
    tabs := sliceTo win.tabs insertAt ++ tab :: sliceFrom win.tabs insertAt
    activeTabId := tab.id }

/-- `_savedTabsByProfile ?? {}`. -/
def saved (win : BrowserWindowState) : Dict String SavedProfileTabs :=
  win.savedTabsByProfile.getD Dict.empty

end BrowserWindowState

namespace BrowserStore

def moveTab (s : BrowserStore) (fromWindowId : WindowId) (id : String) (toWindowId : WindowId)
    (toIndex : Option JsNumber) (now : Times) : BrowserStore :=
  if fromWindowId = toWindowId then s
  else
    match s.windows.get? fromWindowId, s.windows.get? toWindowId with
    | some fromWin, some toWin =>
      match fromWin.tabs.find? fun t => t.id = id with
      | none => s
      | some tab =>
        let fresh := s.makeTab now NEW_TAB_URL
        let s := if (fromWin.tabs.filter fun t => t.id ≠ id) = [] then s.counted else s
        (s.put fromWindowId (fromWin.without id fresh)).put toWindowId
          (toWin.inserted tab toIndex)
    | _, _ => s

/-- The tabs of the old profile are saved, and those of the new one are restored. -/
def switchProfile (s : BrowserStore) (w : WindowId) (newProfileId : String) (now : Times) :
    BrowserStore :=
  match s.windows.get? w with
  | none => s
  | some win =>
    if win.profileId = newProfileId then s
    else
      let updatedSavedMap := win.saved.set win.profileId ⟨win.tabs, win.activeTabId⟩
      let remaining := updatedSavedMap.pop newProfileId
      match updatedSavedMap.get? newProfileId with
      | some snapshot =>
        s.put w
          { win with
            profileId := newProfileId
            tabs := snapshot.tabs
            activeTabId := snapshot.activeTabId
            savedTabsByProfile := some remaining }
      | none =>
        let fresh := s.makeTab now NEW_TAB_URL
        s.counted.put w
          { win with
            profileId := newProfileId
            tabs := [fresh]
            activeTabId := fresh.id
            savedTabsByProfile := some remaining }

end BrowserStore

/-! ## Operations -/

/-- What is done to one tab of a window. -/
inductive TabOp where
  | pinTab
  | unpinTab
  | navigateTab (url : String)
  | goBack
  | goForward
  | markTabDiscarded
  | markTabLive
  | setTabZoom (zoom : Rat)
  | setTabLiveExclusion (exclusion : Option LiveExclusion)
  | setTabLiveSession (liveSession : Option LiveSession)
  | setTabReader (patch : ReaderPatch)
  | addPinnedAgent (agentId : String)
  | removePinnedAgent (agentId : String)

inductive BrowserOp where
  | createWindow (w : WindowId) (profileId : String)
  | removeWindow (w : WindowId)
  | addTab (w : WindowId) (url : Option String)
  | closeTab (w : WindowId) (id : String)
  | restoreClosedTab (w : WindowId)
  | setActiveTab (w : WindowId) (id : String)
  | moveTab (fromWindowId : WindowId) (id : String) (toWindowId : WindowId)
      (toIndex : Option JsNumber)
  | switchProfile (w : WindowId) (newProfileId : String)
  | tab (w : WindowId) (id : String) (op : TabOp)

def Tab.apply (now : Times) : TabOp → Tab → Tab
  | .pinTab => pinTab
  | .unpinTab => unpinTab
  | .navigateTab url => navigateTab url now
  | .goBack => goBack
  | .goForward => goForward
  | .markTabDiscarded => markTabDiscarded
  | .markTabLive => markTabLive now
  | .setTabZoom zoom => setTabZoom zoom
  | .setTabLiveExclusion exclusion => setTabLiveExclusion exclusion
  | .setTabLiveSession liveSession => setTabLiveSession liveSession
  | .setTabReader patch => setTabReader patch
  | .addPinnedAgent agentId => addPinnedAgent agentId
  | .removePinnedAgent agentId => removePinnedAgent agentId

namespace BrowserStore

def apply (s : BrowserStore) (op : BrowserOp) (now : Times) : BrowserStore :=
  match op with
  | .createWindow w profileId => s.createWindow w profileId now
  | .removeWindow w => s.removeWindow w
  | .addTab w url => s.addTab w url now
  | .closeTab w id => s.closeTab w id now
  | .restoreClosedTab w => s.restoreClosedTab w now
  | .setActiveTab w id => s.setActiveTab w id now
  | .moveTab fromWindowId id toWindowId toIndex =>
    s.moveTab fromWindowId id toWindowId toIndex now
  | .switchProfile w newProfileId => s.switchProfile w newProfileId now
  | .tab w id op => s.updateTab w id (Tab.apply now op)

/-- Every operation can be called in every state and at any time. -/
def step (s : BrowserStore) (e : BrowserOp × Times) : Option BrowserStore :=
  some (s.apply e.1 e.2)

end BrowserStore
end Browser
end TinyAgentOS.Desktop
