import TinyAgentOS.Desktop.BrowserStore
import TinyAgentOS.Library.JsString
import TinyAgentOS.Library.Placement
import TinyAgentOS.Library.Transition

/-!
# No tab is lost

The tabs lie at places, one for each window and each profile that it showed.  Every operation lays
out one place anew; a tab that is moved changes two.

Main results:

- `sound_of_step`: what holds in every state.
- `tabLaw_holds`: the tabs are in order at all times, and none is lost.
-/

namespace TinyAgentOS.Desktop
namespace Browser

open Collections Js Placement Transition

/-! ## Where the tabs are -/

def ids (tabs : List Tab) : List String :=
  tabs.map Tab.id

namespace BrowserWindowState

/-- The tabs of a profile, whether it is shown or not. -/
def tabsOf (win : BrowserWindowState) (profile : String) : List Tab :=
  if profile = win.profileId then win.tabs
  else
    match win.saved.get? profile with
    | some snapshot => snapshot.tabs
    | none => []

def allTabs (win : BrowserWindowState) : List Tab :=
  win.tabs ++ win.saved.values.flatMap SavedProfileTabs.tabs

end BrowserWindowState

/-- The operations that are to close a tab of a window. -/
def BrowserOp.Closes (w : WindowId) (id : String) : BrowserOp → Prop
  | .closeTab w' id' => w' = w ∧ id' = id
  | .removeWindow w' => w' = w
  | _ => False

namespace BrowserStore

def allTabs (s : BrowserStore) : List Tab :=
  s.windows.values.flatMap BrowserWindowState.allTabs

/-- The tabs at each place. -/
def board (s : BrowserStore) (place : WindowId × String) : List String :=
  match s.windows.get? place.1 with
  | some win => ids (win.tabsOf place.2)
  | none => []

/-! ## What is asked of the tabs -/

structure TabsInOrder (s : BrowserStore) : Prop where
  nonempty : ∀ w win, s.windows.get? w = some win → win.tabs ≠ []
  active : ∀ w win, s.windows.get? w = some win → win.activeTabId ∈ ids win.tabs
  distinct : (ids s.allTabs).Nodup
  history : ∀ t ∈ s.allTabs, t.history ≠ [] → 0 ≤ t.historyIndex ∧
    t.historyIndex < t.history.length ∧ at? t.history t.historyIndex = some t.url
  capped : ∀ w win, s.windows.get? w = some win →
    win.recentlyClosed.length ≤ MAX_RECENTLY_CLOSED

/-- A tab stays where it is, unless it is closed or moved to another window. -/
def KeepsTabs (s : BrowserStore) (e : BrowserOp × Times) (s' : BrowserStore) : Prop :=
  ∀ w profile id, id ∈ s.board (w, profile) →
    id ∈ s'.board (w, profile) ∨ e.1.Closes w id ∨
      ∃ toWindowId toIndex profile', e.1 = .moveTab w id toWindowId toIndex ∧
        id ∈ s'.board (toWindowId, profile')

/-- The tabs are in order at all times, and none is lost. -/
def TabLaw (es : List (BrowserOp × Times)) : Prop :=
  (∀ before after s, es = before ++ after → run step init before = some s → s.TabsInOrder) ∧
  EveryStep step KeepsTabs init es

end BrowserStore

/-! ## Ids -/

theorem notMem_toDigits (n : Nat) : '-' ∉ Nat.toDigits 10 n := by
  intro hmem
  have hdigit := Nat.isDigit_of_mem_toDigits (by decide) (by decide) hmem
  revert hdigit
  decide

/-- A text up to its first dash. -/
theorem takeWhile_dash {xs ys : List Char} (h : '-' ∉ xs) :
    (xs ++ '-' :: ys).takeWhile (fun c => c ≠ '-') = xs := by
  have hall : ∀ c ∈ xs, decide (c ≠ '-') = true := by
    intro c hc
    have hne : c ≠ '-' := fun heq => h (heq ▸ hc)
    exact decide_eq_true hne
  rw [List.takeWhile_append_of_pos hall]
  simp

/-- The number at the end of an id tells the tabs apart, whatever the time was. -/
theorem tabId_injective {now now' : Int} {m n : Nat} (h : tabId now m = tabId now' n) : m = n := by
  have hnumber : ∀ (time : Int) (k : Nat),
      (tabId time k).toList.reverse.takeWhile (fun c => c ≠ '-') =
        (Nat.toDigits 10 k).reverse := by
    intro time k
    have hdigits : '-' ∉ (Nat.toDigits 10 k).reverse := fun hmem =>
      notMem_toDigits k (List.mem_reverse.mp hmem)
    have hsplit : (tabId time k).toList.reverse =
        (Nat.toDigits 10 k).reverse ++ '-' :: ("tab-" ++ toString time).toList.reverse := by
      simp [tabId, Nat.repr]
    rw [hsplit, takeWhile_dash hdigits]
  have hdigits : Nat.toDigits 10 m = Nat.toDigits 10 n := by
    rw [← List.reverse_inj, ← hnumber now, ← hnumber now', h]
  exact Js.toDigits_injective hdigits

/-- An id that was given out. -/
def Minted (n : Nat) (id : String) : Prop :=
  ∃ now, ∃ k ≤ n, id = tabId now k

/-- What is minted stays so. -/
theorem Minted.mono {m n : Nat} (hmn : m ≤ n) {id : String} (h : Minted m id) : Minted n id := by
  obtain ⟨now, k, hk, hid⟩ := h
  exact ⟨now, k, hk.trans hmn, hid⟩

/-! ## Histories -/

/-- A tab is where its history says. -/
def Tab.Travelled (t : Tab) : Prop :=
  t.history = [] ∧ t.historyIndex = -1 ∨
    ∃ i : Nat, t.historyIndex = i ∧ t.history[i]? = some t.url

namespace Tab

/-- A tab that navigates has travelled. -/
theorem travelled_navigateTab (url : String) (now : Times) (t : Tab) :
    (t.navigateTab url now).Travelled := by
  refine Or.inr ⟨(sliceTo t.history (.finite ((t.historyIndex + 1 : Int) : Rat))).length, ?_, ?_⟩
  · simp [navigateTab]
  · simp [navigateTab]

/-- A tab travels in its history. -/
theorem Travelled.travel {t : Tab} (h : t.Travelled) (idx : Int) : (t.travel idx).Travelled := by
  cases hat : at? t.history idx with
  | none => simpa only [Tab.travel, hat] using h
  | some url =>
    have hidx : ¬ idx < 0 := by
      intro hneg
      rw [at?, if_pos hneg] at hat
      contradiction
    rw [at?, if_neg hidx] at hat
    refine Or.inr ⟨idx.toNat, ?_, ?_⟩
    · simp only [Tab.travel, at?, if_neg hidx, hat]
      omega
    · simp only [Tab.travel, at?, if_neg hidx, hat]

theorem id_travel (idx : Int) (t : Tab) : (t.travel idx).id = t.id := by
  cases hat : at? t.history idx with
  | none | some => simp only [travel, hat]

/-- What is done to a tab leaves it where its history says. -/
theorem Travelled.apply {t : Tab} (h : t.Travelled) (now : Times) (op : TabOp) :
    (t.apply now op).Travelled := by
  cases op with
  | navigateTab url => exact travelled_navigateTab url now t
  | goBack =>
    by_cases hback : t.historyIndex ≤ 0
    · simpa only [Tab.apply, goBack, if_pos hback] using h
    · simpa only [Tab.apply, goBack, if_neg hback] using h.travel _
  | goForward =>
    by_cases hforward : (t.history.length : Int) - 1 ≤ t.historyIndex
    · simpa only [Tab.apply, goForward, if_pos hforward] using h
    · simpa only [Tab.apply, goForward, if_neg hforward] using h.travel _
  | addPinnedAgent agentId =>
    by_cases hpinned : agentId ∈ t.pinnedAgentIds
    · simpa only [Tab.apply, addPinnedAgent, if_pos hpinned] using h
    · simp only [Tab.apply, addPinnedAgent, if_neg hpinned]
      exact h
  | _ => exact h

theorem id_apply (now : Times) (op : TabOp) (t : Tab) : (t.apply now op).id = t.id := by
  cases op with
  | goBack =>
    by_cases hback : t.historyIndex ≤ 0
    · simp only [apply, goBack, if_pos hback]
    · simp only [apply, goBack, if_neg hback, id_travel]
  | goForward =>
    by_cases hforward : (t.history.length : Int) - 1 ≤ t.historyIndex
    · simp only [apply, goForward, if_pos hforward]
    · simp only [apply, goForward, if_neg hforward, id_travel]
  | addPinnedAgent agentId =>
    by_cases hpinned : agentId ∈ t.pinnedAgentIds
    · simp only [apply, addPinnedAgent, if_pos hpinned]
    · simp only [apply, addPinnedAgent, if_neg hpinned]
  | _ => rfl

end Tab

/-- A tab with an id that was given out, where its history says. -/
structure Tab.Fine (n : Nat) (t : Tab) : Prop where
  minted : Minted n t.id
  travelled : t.Travelled

theorem Tab.Fine.mono {m n : Nat} (hmn : m ≤ n) {t : Tab} (h : t.Fine m) : t.Fine n :=
  ⟨h.minted.mono hmn, h.travelled⟩

/-! ## What holds in every state -/

structure BrowserWindowState.Sound (n : Nat) (win : BrowserWindowState) : Prop where
  active : win.activeTabId ∈ ids win.tabs
  restorable : ∀ p snapshot, win.saved.get? p = some snapshot →
    snapshot.activeTabId ∈ ids snapshot.tabs
  unshadowed : win.saved.get? win.profileId = none
  fine : ∀ p, ∀ t ∈ win.tabsOf p, t.Fine n
  capped : win.recentlyClosed.length ≤ MAX_RECENTLY_CLOSED

/-- A sound window stays so. -/
theorem BrowserWindowState.Sound.mono {m n : Nat} (hmn : m ≤ n) {win : BrowserWindowState}
    (h : win.Sound m) : win.Sound n :=
  ⟨h.active, h.restorable, h.unshadowed, fun p t ht => (h.fine p t ht).mono hmn, h.capped⟩

namespace BrowserStore

structure Sound (s : BrowserStore) : Prop where
  windows : ∀ w win, s.windows.get? w = some win → win.Sound s.tabIdCounter
  distinct : Distinct s.board

/-- The tabs of a window's profile. -/
theorem board_of_get? {s : BrowserStore} {w : WindowId} {win : BrowserWindowState}
    (hget : s.windows.get? w = some win) (p : String) : s.board (w, p) = ids (win.tabsOf p) := by
  simp only [board, hget]

/-- A window that is not there has no tabs. -/
theorem board_of_none {s : BrowserStore} {w : WindowId} (hget : s.windows.get? w = none)
    (p : String) : s.board (w, p) = [] := by
  simp only [board, hget]

theorem tabsOf_profileId (win : BrowserWindowState) : win.tabsOf win.profileId = win.tabs :=
  if_pos rfl

theorem sound_init : init.Sound := by
  have hnone : ∀ w, init.windows.get? w = none := fun w => rfl
  constructor
  · intro w win hget
    rw [hnone] at hget
    contradiction
  · constructor
    · rintro ⟨w, p⟩
      rw [board_of_none (hnone w)]
      exact List.nodup_nil
    · rintro ⟨w, p⟩ _ x hx _
      rw [board_of_none (hnone w)] at hx
      contradiction

/-- The id of a tab that is made is new. -/
theorem Sound.fresh {s : BrowserStore} (h : s.Sound) (now : Int)
    (place : WindowId × String) : tabId now (s.tabIdCounter + 1) ∉ s.board place := by
  obtain ⟨w, p⟩ := place
  intro hmem
  cases hget : s.windows.get? w with
  | none =>
    rw [board_of_none hget] at hmem
    contradiction
  | some win =>
    rw [board_of_get? hget] at hmem
    obtain ⟨t, ht, hid⟩ := List.mem_map.mp hmem
    obtain ⟨now', k, hk, hminted⟩ := ((h.windows w win hget).fine p t ht).minted
    have hnumber := tabId_injective (hid.symm.trans hminted)
    omega

/-- A new tab is fine. -/
theorem fine_makeTab (s : BrowserStore) (now : Times) (url : String) :
    (s.makeTab now url).Fine (s.tabIdCounter + 1) := by
  refine ⟨⟨now.forId, _, le_rfl, rfl⟩, ?_⟩
  by_cases hurl : url = ""
  · exact Or.inl ⟨if_pos hurl, if_pos hurl⟩
  · refine Or.inr ⟨0, if_neg hurl, ?_⟩
    simp [makeTab, hurl]

/-- One place is laid out anew. -/
structure Relaid (s : BrowserStore) (w : WindowId) (win : BrowserWindowState) (q : String)
    (n : Nat) (lost : String → Prop) : Prop where
  count : s.tabIdCounter ≤ n
  sound : win.Sound n
  others : ∀ p, p ≠ q → ids (win.tabsOf p) = s.board (w, p)
  once : (ids (win.tabsOf q)).Nodup
  source : ∀ x ∈ ids (win.tabsOf q), x ∈ s.board (w, q) ∨ ∀ place, x ∉ s.board place
  kept : ∀ x ∈ s.board (w, q), x ∈ ids (win.tabsOf q) ∨ lost x

section Relaid

variable {s : BrowserStore} {w : WindowId} {win : BrowserWindowState} {q : String} {n : Nat}
  {lost : String → Prop}

/-- One profile of one window is laid anew. -/
theorem Relaid.board_eq (h : s.Relaid w win q n lost) :
    board ⟨s.windows.set w win, n⟩ = Function.update s.board (w, q) (ids (win.tabsOf q)) := by
  funext place
  obtain ⟨w', p⟩ := place
  by_cases hw : w = w'
  · obtain rfl := hw
    have hget : (s.windows.set w win).get? w = some win := Dict.get?_set_self _ _ _
    rw [board_of_get? (s := ⟨s.windows.set w win, n⟩) hget]
    by_cases hp : p = q
    · rw [hp, Function.update_self]
    · rw [Function.update_of_ne (by simpa using hp), h.others p hp]
  · have hplace : (w', p) ≠ (w, q) := fun heq => hw (congrArg Prod.fst heq).symm
    rw [Function.update_of_ne hplace]
    simp only [board, Dict.get?_set_of_ne s.windows win hw]

/-- A window that is laid anew is sound. -/
theorem Relaid.sound_set (h : s.Relaid w win q n lost) (hs : s.Sound) :
    Sound ⟨s.windows.set w win, n⟩ := by
  constructor
  · intro w' win' hget
    rcases Dict.get?_set_cases hget with ⟨_, rfl⟩ | ⟨_, hold⟩
    · exact h.sound
    · exact (hs.windows w' win' hold).mono h.count
  · rw [h.board_eq]
    exact hs.distinct.update h.once h.source

/-- No tab is lost but those that are to go. -/
theorem Relaid.kept_set (h : s.Relaid w win q n lost) {w' : WindowId} {p x : String}
    (hx : x ∈ s.board (w', p)) : x ∈ board ⟨s.windows.set w win, n⟩ (w', p) ∨ w' = w ∧ lost x := by
  rw [h.board_eq]
  by_cases hplace : (w', p) = (w, q)
  · rw [hplace, Function.update_self]
    rw [hplace] at hx
    rcases h.kept x hx with hkept | hlost
    · exact Or.inl hkept
    · exact Or.inr ⟨congrArg Prod.fst hplace, hlost⟩
  · rw [Function.update_of_ne hplace]
    exact Or.inl hx

end Relaid

/-! ## The operations -/

section Operations

variable {s : BrowserStore} {w : WindowId} {win : BrowserWindowState} {n : Nat}
  {lost : String → Prop}

variable {closed : List RecentlyClosedTab} {active : String}

variable {tabs : List Tab}

/-- The tabs that a window shows are laid out anew. -/
theorem Sound.relaid (h : s.Sound) (hget : s.windows.get? w = some win)
    (hn : s.tabIdCounter ≤ n) (hactive : active ∈ ids tabs)
    (hfine : ∀ t ∈ tabs, t.Fine n) (hcapped : closed.length ≤ MAX_RECENTLY_CLOSED)
    (honce : (ids tabs).Nodup)
    (hsource : ∀ x ∈ ids tabs, x ∈ ids win.tabs ∨ ∀ place, x ∉ s.board place)
    (hkept : ∀ x ∈ ids win.tabs, x ∈ ids tabs ∨ lost x) :
    s.Relaid w { win with tabs := tabs, activeTabId := active, recentlyClosed := closed }
      win.profileId n lost := by
  have hwin := h.windows w win hget
  have hshown : s.board (w, win.profileId) = ids win.tabs := by
    rw [board_of_get? hget, tabsOf_profileId]
  have hnew : BrowserWindowState.tabsOf
      { win with tabs := tabs, activeTabId := active, recentlyClosed := closed }
      win.profileId = tabs := if_pos rfl
  have hother : ∀ p, p ≠ win.profileId → BrowserWindowState.tabsOf
      { win with tabs := tabs, activeTabId := active, recentlyClosed := closed } p =
        win.tabsOf p := by
    intro p hp
    simp only [BrowserWindowState.tabsOf, if_neg hp, BrowserWindowState.saved]
  refine ⟨hn, ⟨hactive, hwin.restorable, hwin.unshadowed, ?_, hcapped⟩, ?_, ?_, ?_, ?_⟩
  · intro p t ht
    by_cases hp : p = win.profileId
    · rw [hp, hnew] at ht
      exact hfine t ht
    · rw [hother p hp] at ht
      exact (hwin.fine p t ht).mono hn
  · intro p hp
    rw [hother p hp, board_of_get? hget]
  · rwa [hnew]
  · rwa [hnew, hshown]
  · rwa [hnew, hshown]

theorem ids_append (tabs : List Tab) (t : Tab) : ids (tabs ++ [t]) = ids tabs ++ [t.id] :=
  List.map_append

section

variable (h : s.Sound) (hget : s.windows.get? w = some win)
include h hget

theorem Sound.once_tabs : (ids win.tabs).Nodup := by
  have honce := h.distinct.once (w, win.profileId)
  rwa [board_of_get? hget, tabsOf_profileId] at honce

theorem Sound.fine_tabs : ∀ t ∈ win.tabs, t.Fine s.tabIdCounter := by
  intro t ht
  rw [← tabsOf_profileId] at ht
  exact (h.windows w win hget).fine win.profileId t ht

/-- A tab that is made is put at the end. -/
theorem Sound.relaid_append {t : Tab}
    (now : Times) (hid : t.id = tabId now.forId (s.tabIdCounter + 1)) (htravelled : t.Travelled)
    (hcapped : closed.length ≤ MAX_RECENTLY_CLOSED) :
    s.Relaid w { win with
      tabs := win.tabs ++ [t], activeTabId := t.id, recentlyClosed := closed }
      win.profileId (s.tabIdCounter + 1) lost := by
  have hfresh : ∀ place, t.id ∉ s.board place := by
    rw [hid]
    exact h.fresh now.forId
  apply h.relaid hget (Nat.le_succ _)
  · rw [ids_append]
    exact List.mem_append_right _ (List.mem_singleton.mpr rfl)
  · intro u hu
    rcases List.mem_append.mp hu with hold | hnew
    · exact (h.fine_tabs hget u hold).mono (Nat.le_succ _)
    · obtain rfl := List.mem_singleton.mp hnew
      exact ⟨⟨now.forId, _, le_rfl, hid⟩, htravelled⟩
  · exact hcapped
  · have hnot : t.id ∉ ids win.tabs := by
      have hplace := hfresh (w, win.profileId)
      rwa [board_of_get? hget, tabsOf_profileId] at hplace
    rw [ids_append]
    refine List.nodup_append.mpr ⟨h.once_tabs hget, List.nodup_singleton _, ?_⟩
    intro x hx y hy heq
    obtain rfl := List.mem_singleton.mp hy
    exact hnot (heq ▸ hx)
  · intro x hx
    rw [ids_append] at hx
    rcases List.mem_append.mp hx with hold | hnew
    · exact Or.inl hold
    · obtain rfl := List.mem_singleton.mp hnew
      exact Or.inr hfresh
  · intro x hx
    rw [ids_append]
    exact Or.inl (List.mem_append_left _ hx)

/-- A tab that is made takes the place of all that were there. -/
theorem Sound.relaid_fresh (now : Times) (url : String)
    (hcapped : closed.length ≤ MAX_RECENTLY_CLOSED) (hlost : ∀ x ∈ ids win.tabs, lost x) :
    s.Relaid w { win with
      tabs := [s.makeTab now url], activeTabId := (s.makeTab now url).id,
      recentlyClosed := closed } win.profileId (s.tabIdCounter + 1) lost := by
  apply h.relaid hget (Nat.le_succ _)
  · exact List.mem_singleton.mpr rfl
  · intro t ht
    obtain rfl := List.mem_singleton.mp ht
    exact fine_makeTab s now url
  · exact hcapped
  · exact List.nodup_singleton _
  · intro x hx
    obtain rfl := List.mem_singleton.mp hx
    exact Or.inr (h.fresh now.forId)
  · exact fun x hx => Or.inr (hlost x hx)

/-- Some of the tabs go. -/
theorem Sound.relaid_sublist (hsub : tabs.Sublist win.tabs) (hactive : active ∈ ids tabs)
    (hcapped : closed.length ≤ MAX_RECENTLY_CLOSED) (hkept : ∀ t ∈ win.tabs, t ∈ tabs ∨ lost t.id) :
    s.Relaid w { win with tabs := tabs, activeTabId := active, recentlyClosed := closed }
      win.profileId s.tabIdCounter lost := by
  apply h.relaid hget le_rfl hactive ?_ hcapped
  · exact (h.once_tabs hget).sublist (hsub.map _)
  · exact fun x hx => Or.inl ((hsub.map _).subset hx)
  · intro x hx
    obtain ⟨t, ht, rfl⟩ := List.mem_map.mp hx
    exact (hkept t ht).imp (fun hmem => List.mem_map_of_mem hmem) id
  · exact fun t ht => h.fine_tabs hget t (hsub.subset ht)

/-- The tabs are changed where they are. -/
theorem Sound.relaid_map {f : Tab → Tab}
    (hid : ∀ t, (f t).id = t.id) (htravelled : ∀ t : Tab, t.Travelled → (f t).Travelled)
    (hactive : active ∈ ids win.tabs) :
    s.Relaid w { win with tabs := win.tabs.map f, activeTabId := active } win.profileId
      s.tabIdCounter lost := by
  have hids : ids (win.tabs.map f) = ids win.tabs := by
    simp [ids, Function.comp_def, hid]
  apply h.relaid hget le_rfl
  · rwa [hids]
  · intro t ht
    obtain ⟨u, hu, rfl⟩ := List.mem_map.mp ht
    have hfine := h.fine_tabs hget u hu
    exact ⟨(hid u).symm ▸ hfine.minted, htravelled u hfine.travelled⟩
  · exact (h.windows w win hget).capped
  · rw [hids]
    exact h.once_tabs hget
  · rw [hids]
    exact fun x hx => Or.inl hx
  · rw [hids]
    exact fun x hx => Or.inl hx

end

end Operations

/-- A step after which the store is sound, and that loses no tab. -/
def Good (s : BrowserStore) (e : BrowserOp × Times) (s' : BrowserStore) : Prop :=
  s'.Sound ∧ s.KeepsTabs e s'

section Steps

variable {s : BrowserStore} {op : BrowserOp}

variable {n : Nat} {win : BrowserWindowState} {w : WindowId} {ts : List Tab} {lost : String → Prop}

/-- Laying a window anew is good. -/
theorem Sound.good_of_relaid (h : s.Sound) {q : String}
    (hrelaid : s.Relaid w win q n fun x => op.Closes w x) (now : Times) :
    s.Good (op, now) ⟨s.windows.set w win, n⟩ := by
  refine ⟨hrelaid.sound_set h, ?_⟩
  intro w' p x hx
  rcases hrelaid.kept_set hx with hkept | ⟨rfl, hlost⟩
  · exact Or.inl hkept
  · exact Or.inr (Or.inl hlost)

/-- The windows are as they were. -/
theorem Sound.good_same (h : s.Sound) (hn : s.tabIdCounter ≤ n)
    (e : BrowserOp × Times) : s.Good e ⟨s.windows, n⟩ := by
  refine ⟨⟨fun w win hget => (h.windows w win hget).mono hn, h.distinct⟩, ?_⟩
  exact fun w p x hx => Or.inl hx

/-- Creating a window is good. -/
theorem Sound.good_createWindow (h : s.Sound) (w : WindowId) (profileId : String) (now : Times) :
    s.Good (.createWindow w profileId, now) (s.createWindow w profileId now) := by
  cases hget : s.windows.get? w with
  | some win =>
    simp only [createWindow, hget]
    exact h.good_same le_rfl _
  | none =>
    simp only [createWindow, hget]
    refine h.good_of_relaid (q := profileId) ?_ now
    have hnowhere : ∀ p, s.board (w, p) = [] := board_of_none hget
    constructor
    · exact Nat.le_succ _
    · refine ⟨List.mem_singleton.mpr rfl, ?_, rfl, ?_, Nat.zero_le _⟩
      · intro p snapshot hsaved
        contradiction
      · intro p t ht
        by_cases hp : p = profileId
        · rw [BrowserWindowState.tabsOf, if_pos hp] at ht
          obtain rfl := List.mem_singleton.mp ht
          exact fine_makeTab s now HOME_URL
        · rw [BrowserWindowState.tabsOf, if_neg hp] at ht
          contradiction
    · intro p hp
      rw [hnowhere, BrowserWindowState.tabsOf, if_neg hp]
      rfl
    · rw [BrowserWindowState.tabsOf, if_pos rfl]
      exact List.nodup_singleton _
    · intro x hx
      rw [BrowserWindowState.tabsOf, if_pos rfl] at hx
      obtain rfl := List.mem_singleton.mp hx
      exact Or.inr (h.fresh now.forId)
    · intro x hx
      rw [hnowhere] at hx
      contradiction

/-- Removing a window is good. -/
theorem Sound.good_removeWindow (h : s.Sound) (w : WindowId) (now : Times) :
    s.Good (.removeWindow w, now) (s.removeWindow w) := by
  have hboard : ∀ w' p, w ≠ w' → (s.removeWindow w).board (w', p) = s.board (w', p) := by
    intro w' p hne
    simp only [board, removeWindow, Dict.get?_pop_of_ne s.windows hne]
  refine ⟨⟨?_, h.distinct.of_sublist ?_⟩, ?_⟩
  · intro w' win hget
    exact h.windows w' win (Dict.get?_pop_cases hget).2
  · rintro ⟨w', p⟩
    by_cases hw : w = w'
    · rw [board_of_none (hw ▸ Dict.get?_pop_self s.windows w)]
      exact List.nil_sublist _
    · rw [hboard w' p hw]
  · intro w' p x hx
    by_cases hw : w = w'
    · exact Or.inr (Or.inl hw)
    · rw [hboard w' p hw]
      exact Or.inl hx

/-- Adding a tab is good. -/
theorem Sound.good_addTab (h : s.Sound) (w : WindowId) (url : Option String) (now : Times) :
    s.Good (.addTab w url, now) (s.addTab w url now) := by
  cases hget : s.windows.get? w with
  | none =>
    simp only [addTab, hget]
    exact h.good_same (Nat.le_succ _) _
  | some win =>
    simp only [addTab, hget]
    refine h.good_of_relaid (h.relaid_append hget now rfl ?_ (h.windows w win hget).capped) now
    exact (fine_makeTab s now _).travelled

/-- Restoring a closed tab is good. -/
theorem Sound.good_restoreClosedTab (h : s.Sound) (w : WindowId) (now : Times) :
    s.Good (.restoreClosedTab w, now) (s.restoreClosedTab w now) := by
  cases hget : s.windows.get? w with
  | none =>
    simp only [restoreClosedTab, hget]
    exact h.good_same le_rfl _
  | some win =>
    have hcapped := (h.windows w win hget).capped
    cases hclosed : win.recentlyClosed with
    | nil =>
      simp only [restoreClosedTab, hget, hclosed]
      exact h.good_same le_rfl _
    | cons entry remaining =>
      rw [hclosed, List.length_cons] at hcapped
      simp only [restoreClosedTab, hget, hclosed]
      refine h.good_of_relaid (h.relaid_append hget now rfl ?_ (by omega)) now
      exact (fine_makeTab s now entry.url).travelled

/-- Activating a tab is good. -/
theorem Sound.good_setActiveTab (h : s.Sound) (w : WindowId) (id : String) (now : Times) :
    s.Good (.setActiveTab w id, now) (s.setActiveTab w id now) := by
  cases hget : s.windows.get? w with
  | none =>
    simp only [setActiveTab, hget]
    exact h.good_same le_rfl _
  | some win =>
    by_cases hexists : (win.tabs.any fun t => t.id = id) = true
    · simp only [setActiveTab, hget, if_pos hexists]
      refine h.good_of_relaid (h.relaid_map hget ?_ ?_ ?_) now
      · intro t
        by_cases hid : t.id = id
        · rw [if_pos hid]
        · rw [if_neg hid]
      · intro t ht
        by_cases hid : t.id = id
        · rw [if_pos hid]
          exact ht
        · rwa [if_neg hid]
      · obtain ⟨t, ht, hid⟩ := List.any_eq_true.mp hexists
        exact List.mem_map.mpr ⟨t, ht, of_decide_eq_true hid⟩
    · simp only [setActiveTab, hget, if_neg hexists]
      exact h.good_same le_rfl _

/-- Updating a tab is good. -/
theorem Sound.good_updateTab (h : s.Sound) (w : WindowId) (id : String) (op : TabOp)
    (now : Times) : s.Good (.tab w id op, now) (s.updateTab w id (Tab.apply now op)) := by
  cases hget : s.windows.get? w with
  | none =>
    simp only [updateTab, hget]
    exact h.good_same le_rfl _
  | some win =>
    simp only [updateTab, hget]
    refine h.good_of_relaid (h.relaid_map hget ?_ ?_ (h.windows w win hget).active) now
    · intro t
      by_cases hid : t.id = id
      · rw [if_pos hid, Tab.id_apply]
      · rw [if_neg hid]
    · intro t ht
      by_cases hid : t.id = id
      · rw [if_pos hid]
        exact ht.apply now op
      · rwa [if_neg hid]

/-! ## A tab goes -/

variable {t : Tab} {tabs : List Tab}

/-- The next active tab is one that is left. -/
theorem nextActive_mem (idx : Nat) (active : String) :
    nextActive (t :: ts) idx active ∈ ids (t :: ts) := by
  have hlt : min idx ((t :: ts).length - 1) < (t :: ts).length := by
    rw [List.length_cons]
    omega
  rw [nextActive, List.getElem?_eq_getElem hlt]
  exact List.mem_map_of_mem (List.getElem_mem hlt)

/-- The tab that is active when another is gone. -/
theorem active_of_gone {active id : String}
    (hactive : active ∈ ids tabs) (hkept : ∀ u ∈ tabs, u ∈ t :: ts ∨ u.id = id) (idx : Nat) :
    (if active = id then nextActive (t :: ts) idx active else active) ∈ ids (t :: ts) := by
  by_cases hid : active = id
  · rw [if_pos hid]
    exact nextActive_mem idx active
  · rw [if_neg hid]
    obtain ⟨u, hu, rfl⟩ := List.mem_map.mp hactive
    rcases hkept u hu with hmem | hgone
    · exact List.mem_map_of_mem hmem
    · exact absurd hgone hid

/-- A tab is left, or is the one that closes. -/
theorem mem_eraseIdx_or {i : Nat} {closing u : Tab}
    (hat : tabs[i]? = some closing) (hu : u ∈ tabs) : u ∈ tabs.eraseIdx i ∨ u = closing := by
  obtain ⟨j, hj⟩ := List.mem_iff_getElem?.mp hu
  by_cases hij : j = i
  · rw [hij, hat] at hj
    exact Or.inr (Option.some.inj hj).symm
  · exact Or.inl (List.mem_eraseIdx_iff_getElem?.mpr ⟨j, hij, hj⟩)

/-- Closing a tab is good. -/
theorem Sound.good_closeTab (h : s.Sound) (w : WindowId) (id : String) (now : Times) :
    s.Good (.closeTab w id, now) (s.closeTab w id now) := by
  cases hget : s.windows.get? w with
  | none =>
    simp only [closeTab, hget]
    exact h.good_same le_rfl _
  | some win =>
    have hactive := (h.windows w win hget).active
    cases hfind : win.tabs.findIdx? fun t => t.id = id with
    | none =>
      simp only [closeTab, hget, hfind]
      exact h.good_same le_rfl _
    | some i =>
      cases hat : win.tabs[i]? with
      | none =>
        simp only [closeTab, hget, hfind, hat]
        exact h.good_same le_rfl _
      | some closing =>
        have hclosing : closing.id = id := by
          obtain ⟨hlt, hid, _⟩ := List.findIdx?_eq_some_iff_getElem.mp hfind
          rw [List.getElem?_eq_getElem hlt, Option.some_inj] at hat
          exact hat ▸ of_decide_eq_true hid
        have hkept : ∀ u ∈ win.tabs, u ∈ win.tabs.eraseIdx i ∨ u.id = id := by
          intro u hu
          rcases mem_eraseIdx_or hat hu with hmem | rfl
          · exact Or.inl hmem
          · exact Or.inr hclosing
        have hcapped : ∀ entry : RecentlyClosedTab,
            ((entry :: win.recentlyClosed).take MAX_RECENTLY_CLOSED).length ≤
              MAX_RECENTLY_CLOSED := fun entry => List.length_take_le _ _
        cases hremaining : win.tabs.eraseIdx i with
        | nil =>
          have hall : ∀ u ∈ win.tabs, u.id = id := by
            intro u hu
            rcases hkept u hu with hmem | hid
            · rw [hremaining] at hmem
              contradiction
            · exact hid
          have hid : win.activeTabId = id := by
            obtain ⟨u, hu, hid⟩ := List.mem_map.mp hactive
            exact hid.symm.trans (hall u hu)
          simp only [closeTab, hget, hfind, hat, hremaining, if_pos hid]
          refine h.good_of_relaid (h.relaid_fresh hget now _ (hcapped _) ?_) now
          intro x hx
          obtain ⟨u, hu, rfl⟩ := List.mem_map.mp hx
          exact ⟨rfl, (hall u hu).symm⟩
        | cons t ts =>
          rw [hremaining] at hkept
          have hsub : (t :: ts).Sublist win.tabs :=
            hremaining ▸ List.eraseIdx_sublist win.tabs i
          simp only [closeTab, hget, hfind, hat, hremaining]
          refine h.good_of_relaid (h.relaid_sublist hget hsub
            (active_of_gone hactive hkept i) (hcapped _) ?_) now
          exact fun u hu => (hkept u hu).imp (fun hmem => hmem) fun hid => ⟨rfl, hid.symm⟩

/-! ## A tab moves -/

/-- A window that a tab leaves. -/
theorem Sound.relaid_without (h : s.Sound)
    (hget : s.windows.get? w = some win) (id : String) (now : Times) (url : String) :
    s.Relaid w (win.without id (s.makeTab now url)) win.profileId
      (if (win.tabs.filter fun t => t.id ≠ id) = [] then s.tabIdCounter + 1 else s.tabIdCounter)
      (fun x => x = id) := by
  have hwin := h.windows w win hget
  have hkept : ∀ u ∈ win.tabs, u ∈ (win.tabs.filter fun t => t.id ≠ id) ∨ u.id = id := by
    intro u hu
    by_cases hid : u.id = id
    · exact Or.inr hid
    · exact Or.inl (List.mem_filter.mpr ⟨hu, decide_eq_true hid⟩)
  cases hrest : win.tabs.filter fun t => t.id ≠ id with
  | nil =>
    rw [if_pos rfl, BrowserWindowState.without, hrest]
    refine h.relaid_fresh hget now url hwin.capped ?_
    intro x hx
    obtain ⟨u, hu, rfl⟩ := List.mem_map.mp hx
    rcases hkept u hu with hmem | hid
    · rw [hrest] at hmem
      contradiction
    · exact hid
  | cons t ts =>
    have hsub : (t :: ts).Sublist win.tabs := hrest ▸ List.filter_sublist
    rw [hrest] at hkept
    rw [if_neg (List.cons_ne_nil t ts), BrowserWindowState.without, hrest]
    exact h.relaid_sublist hget hsub (active_of_gone hwin.active hkept _) hwin.capped hkept

theorem profileId_without (win : BrowserWindowState) (id : String) (fresh : Tab) :
    (win.without id fresh).profileId = win.profileId := by
  cases hrest : win.tabs.filter fun t => t.id ≠ id with
  | nil | cons => rw [BrowserWindowState.without, hrest]

/-- A tab that is taken out is gone. -/
theorem tabs_without (win : BrowserWindowState) (id : String) (fresh : Tab) :
    ∀ t ∈ (win.without id fresh).tabs, t = fresh ∨ t.id ≠ id := by
  intro u hu
  cases hrest : win.tabs.filter fun t => t.id ≠ id with
  | nil =>
    rw [BrowserWindowState.without, hrest] at hu
    exact Or.inl (List.mem_singleton.mp hu)
  | cons t ts =>
    have hmem : u ∈ win.tabs.filter fun t => t.id ≠ id := by
      rw [BrowserWindowState.without, hrest] at hu
      rwa [hrest]
    exact Or.inr (by simpa using (List.mem_filter.mp hmem).2)

/-- Inserting a tab keeps the others. -/
theorem ids_inserted (win : BrowserWindowState) (t : Tab) (toIndex : Option JsNumber) :
    (ids (win.inserted t toIndex).tabs).Perm (t.id :: ids win.tabs) := by
  have hslices : sliceTo win.tabs (toIndex.getD (.finite win.tabs.length)) ++
      sliceFrom win.tabs (toIndex.getD (.finite win.tabs.length)) = win.tabs :=
    sliceTo_append_sliceFrom win.tabs _
  calc
    ids (win.inserted t toIndex).tabs =
        ids (sliceTo win.tabs (toIndex.getD (.finite win.tabs.length))) ++
          t.id :: ids (sliceFrom win.tabs (toIndex.getD (.finite win.tabs.length))) := by
      simp [BrowserWindowState.inserted, ids]
    List.Perm _ (t.id :: (ids (sliceTo win.tabs (toIndex.getD (.finite win.tabs.length))) ++
        ids (sliceFrom win.tabs (toIndex.getD (.finite win.tabs.length))))) :=
      List.perm_middle
    _ = t.id :: ids win.tabs := by
      rw [ids, ids, ← List.map_append, hslices, ids]

/-- A tab is the inserted one, or was there. -/
theorem mem_inserted {u : Tab} {toIndex : Option JsNumber}
    (hu : u ∈ (win.inserted t toIndex).tabs) : u = t ∨ u ∈ win.tabs := by
  have hslices : sliceTo win.tabs (toIndex.getD (.finite win.tabs.length)) ++
      sliceFrom win.tabs (toIndex.getD (.finite win.tabs.length)) = win.tabs :=
    sliceTo_append_sliceFrom win.tabs _
  rw [← hslices, List.mem_append]
  rcases List.mem_append.mp hu with hbefore | hafter
  · exact Or.inr (Or.inl hbefore)
  · rcases List.mem_cons.mp hafter with hnew | hbehind
    · exact Or.inl hnew
    · exact Or.inr (Or.inr hbehind)

/-- A window that a tab comes to from nowhere. -/
theorem Sound.relaid_inserted (h : s.Sound)
    (hget : s.windows.get? w = some win) (hfine : t.Fine s.tabIdCounter)
    (hnowhere : ∀ place, t.id ∉ s.board place) (toIndex : Option JsNumber) :
    s.Relaid w (win.inserted t toIndex) win.profileId s.tabIdCounter fun _ => False := by
  have hperm := ids_inserted win t toIndex
  have hnot : t.id ∉ ids win.tabs := by
    have hplace := hnowhere (w, win.profileId)
    rwa [board_of_get? hget, tabsOf_profileId] at hplace
  apply h.relaid hget le_rfl
  · exact hperm.mem_iff.mpr List.mem_cons_self
  · intro u hu
    rcases mem_inserted hu with rfl | hold
    · exact hfine
    · exact h.fine_tabs hget u hold
  · exact (h.windows w win hget).capped
  · exact hperm.nodup_iff.mpr (List.nodup_cons.mpr ⟨hnot, h.once_tabs hget⟩)
  · intro x hx
    rcases List.mem_cons.mp (hperm.mem_iff.mp hx) with rfl | hold
    · exact Or.inr hnowhere
    · exact Or.inl hold
  · exact fun x hx => Or.inl (hperm.mem_iff.mpr (List.mem_cons_of_mem _ hx))

/-- A tab that has left its window is nowhere. -/
theorem Sound.gone_of_without (h : s.Sound)
    (hget : s.windows.get? w = some win) (ht : t ∈ win.tabs) (now : Times)
    (url : String)
    (hrelaid : s.Relaid w (win.without t.id (s.makeTab now url)) win.profileId n lost) :
    ∀ place, t.id ∉ board
      ⟨s.windows.set w (win.without t.id (s.makeTab now url)), n⟩ place := by
  have hthere : t.id ∈ s.board (w, win.profileId) := by
    rw [board_of_get? hget, tabsOf_profileId]
    exact List.mem_map_of_mem ht
  intro place
  rw [hrelaid.board_eq]
  by_cases hplace : place = (w, win.profileId)
  · rw [hplace, Function.update_self, ← profileId_without win t.id (s.makeTab now url),
      tabsOf_profileId]
    intro hmem
    obtain ⟨u, hu, hid⟩ := List.mem_map.mp hmem
    rcases tabs_without win t.id _ u hu with rfl | hne
    · rw [← hid] at hthere
      exact h.fresh now.forId _ hthere
    · exact hne hid
  · rw [Function.update_of_ne hplace]
    exact fun hmem => hplace (h.distinct.onePlace hmem hthere)

/-- A tab that is found is moved. -/
theorem moveTab_of_found {fromWindowId toWindowId : WindowId} {id : String}
    {fromWin toWin : BrowserWindowState} (hsame : fromWindowId ≠ toWindowId)
    (hfrom : s.windows.get? fromWindowId = some fromWin)
    (hto : s.windows.get? toWindowId = some toWin)
    (hfind : (fromWin.tabs.find? fun t => t.id = id) = some t) (toIndex : Option JsNumber)
    (now : Times) :
    s.moveTab fromWindowId id toWindowId toIndex now =
      ⟨(s.windows.set fromWindowId (fromWin.without id (s.makeTab now NEW_TAB_URL))).set
        toWindowId (toWin.inserted t toIndex),
        if (fromWin.tabs.filter fun t => t.id ≠ id) = [] then s.tabIdCounter + 1
        else s.tabIdCounter⟩ := by
  by_cases hlast : (fromWin.tabs.filter fun t => t.id ≠ id) = []
  · simp only [moveTab, if_neg hsame, hfrom, hto, hfind, if_pos hlast, put, counted]
  · simp only [moveTab, if_neg hsame, hfrom, hto, hfind, if_neg hlast, put]

/-- Moving a tab is good. -/
theorem Sound.good_moveTab (h : s.Sound) (fromWindowId : WindowId) (id : String)
    (toWindowId : WindowId) (toIndex : Option JsNumber) (now : Times) :
    s.Good (.moveTab fromWindowId id toWindowId toIndex, now)
      (s.moveTab fromWindowId id toWindowId toIndex now) := by
  by_cases hsame : fromWindowId = toWindowId
  · rw [moveTab, if_pos hsame]
    exact h.good_same le_rfl _
  · cases hfrom : s.windows.get? fromWindowId with
    | none =>
      simp only [moveTab, if_neg hsame, hfrom]
      exact h.good_same le_rfl _
    | some fromWin =>
      cases hto : s.windows.get? toWindowId with
      | none =>
        simp only [moveTab, if_neg hsame, hfrom, hto]
        exact h.good_same le_rfl _
      | some toWin =>
        cases hfind : fromWin.tabs.find? fun t => t.id = id with
        | none =>
          simp only [moveTab, if_neg hsame, hfrom, hto, hfind]
          exact h.good_same le_rfl _
        | some t =>
          have ht : t ∈ fromWin.tabs := List.mem_of_find?_eq_some hfind
          obtain rfl : t.id = id := by simpa using List.find?_some hfind
          rw [moveTab_of_found hsame hfrom hto hfind toIndex now]
          -- the tab leaves its window first, and then comes to the other
          have hleft := h.relaid_without hfrom t.id now NEW_TAB_URL
          have hgone := h.gone_of_without hfrom ht now NEW_TAB_URL hleft
          have hmid := hleft.sound_set h
          have hto' := (Dict.get?_set_of_ne s.windows
            (fromWin.without t.id (s.makeTab now NEW_TAB_URL)) hsame).trans hto
          have hfine := (h.fine_tabs hfrom t ht).mono hleft.count
          have hcame := hmid.relaid_inserted hto' hfine hgone toIndex
          refine ⟨hcame.sound_set hmid, ?_⟩
          intro w p x hx
          rcases hleft.kept_set hx with hkept | ⟨rfl, rfl⟩
          · rcases hcame.kept_set hkept with hstill | ⟨_, hfalse⟩
            · exact Or.inl hstill
            · contradiction
          · refine Or.inr (Or.inr ⟨toWindowId, toIndex, toWin.profileId, rfl, ?_⟩)
            rw [hcame.board_eq, Function.update_self]
            have hshown : (toWin.inserted t toIndex).tabsOf toWin.profileId =
                (toWin.inserted t toIndex).tabs := if_pos rfl
            rw [hshown]
            exact (ids_inserted toWin t toIndex).mem_iff.mpr List.mem_cons_self

/-! ## A profile is shown instead of another -/

/-- Switching leaves the other profiles alone. -/
theorem tabsOf_switched (win : BrowserWindowState) {profile p : String}
    (hp : p ≠ profile) (tabs : List Tab) (active : String) :
    BrowserWindowState.tabsOf { win with
      profileId := profile
      tabs := tabs
      activeTabId := active
      savedTabsByProfile :=
        some ((win.saved.set win.profileId ⟨win.tabs, win.activeTabId⟩).pop profile) } p =
      win.tabsOf p := by
  simp only [BrowserWindowState.tabsOf, if_neg hp, BrowserWindowState.saved, Option.getD_some,
    Dict.get?_pop_of_ne _ hp.symm]
  by_cases hold : p = win.profileId
  · rw [if_pos hold, hold, Dict.get?_set_self]
  · rw [if_neg hold, Dict.get?_set_of_ne _ _ (Ne.symm hold)]

/-- A window shows the tabs of another profile. -/
theorem Sound.relaid_switched (h : s.Sound)
    (hget : s.windows.get? w = some win) {profile : String} {active : String}
    (hn : s.tabIdCounter ≤ n)
    (hactive : active ∈ ids tabs) (hfine : ∀ t ∈ tabs, t.Fine n) (honce : (ids tabs).Nodup)
    (hsource : ∀ x ∈ ids tabs, x ∈ s.board (w, profile) ∨ ∀ place, x ∉ s.board place)
    (hkept : ∀ x ∈ s.board (w, profile), x ∈ ids tabs) : s.Relaid w { win with
      profileId := profile
      tabs := tabs
      activeTabId := active
      savedTabsByProfile :=
        some ((win.saved.set win.profileId ⟨win.tabs, win.activeTabId⟩).pop profile) }
      profile n lost := by
  have hwin := h.windows w win hget
  have hnew : BrowserWindowState.tabsOf { win with
      profileId := profile
      tabs := tabs
      activeTabId := active
      savedTabsByProfile :=
        some ((win.saved.set win.profileId ⟨win.tabs, win.activeTabId⟩).pop profile) }
      profile = tabs := if_pos rfl
  refine ⟨hn, ⟨hactive, ?_, ?_, ?_, hwin.capped⟩, ?_, ?_, ?_, ?_⟩
  · intro p snapshot hsaved
    have hset := (Dict.get?_pop_cases hsaved).2
    rcases Dict.get?_set_cases hset with ⟨_, rfl⟩ | ⟨_, hold⟩
    · exact hwin.active
    · exact hwin.restorable p snapshot hold
  · exact Dict.get?_pop_self _ _
  · intro p t ht
    by_cases hp : p = profile
    · rw [hp, hnew] at ht
      exact hfine t ht
    · rw [tabsOf_switched win hp] at ht
      exact (hwin.fine p t ht).mono hn
  · intro p hp
    rw [tabsOf_switched win hp, board_of_get? hget]
  · rwa [hnew]
  · rwa [hnew]
  · rw [hnew]
    exact fun x hx => Or.inl (hkept x hx)

/-- Switching the profile is good. -/
theorem Sound.good_switchProfile (h : s.Sound) (w : WindowId) (profile : String) (now : Times) :
    s.Good (.switchProfile w profile, now) (s.switchProfile w profile now) := by
  cases hget : s.windows.get? w with
  | none =>
    simp only [switchProfile, hget]
    exact h.good_same le_rfl _
  | some win =>
    have hwin := h.windows w win hget
    by_cases hprofile : win.profileId = profile
    · simp only [switchProfile, hget, if_pos hprofile]
      exact h.good_same le_rfl _
    · have hset : (win.saved.set win.profileId ⟨win.tabs, win.activeTabId⟩).get? profile =
          win.saved.get? profile := Dict.get?_set_of_ne _ _ hprofile
      cases hsaved : win.saved.get? profile with
      | some snapshot =>
        have htabs : win.tabsOf profile = snapshot.tabs := by
          rw [BrowserWindowState.tabsOf, if_neg (Ne.symm hprofile), hsaved]
        have hboard : s.board (w, profile) = ids snapshot.tabs := by
          rw [board_of_get? hget, htabs]
        simp only [switchProfile, hget, if_neg hprofile, hset, hsaved]
        refine h.good_of_relaid (h.relaid_switched hget le_rfl
          (hwin.restorable profile snapshot hsaved) ?_ ?_ ?_ ?_) now
        · exact fun t ht => hwin.fine profile t (htabs ▸ ht)
        · exact hboard ▸ h.distinct.once (w, profile)
        · exact fun x hx => Or.inl (hboard ▸ hx)
        · exact fun x hx => hboard ▸ hx
      | none =>
        have hboard : s.board (w, profile) = [] := by
          rw [board_of_get? hget, BrowserWindowState.tabsOf, if_neg (Ne.symm hprofile), hsaved]
          rfl
        simp only [switchProfile, hget, if_neg hprofile, hset, hsaved]
        refine h.good_of_relaid (h.relaid_switched hget (Nat.le_succ _)
          (List.mem_singleton.mpr rfl) ?_ ?_ ?_ ?_) now
        · intro t ht
          obtain rfl := List.mem_singleton.mp ht
          exact fine_makeTab s now NEW_TAB_URL
        · exact List.nodup_singleton _
        · intro x hx
          obtain rfl := List.mem_singleton.mp hx
          exact Or.inr (h.fresh now.forId)
        · intro x hx
          rw [hboard] at hx
          contradiction

/-- Every operation leaves the store sound and loses no tab. -/
theorem Sound.good_apply (h : s.Sound) (op : BrowserOp) (now : Times) :
    s.Good (op, now) (s.apply op now) := by
  cases op with
  | createWindow w profileId => exact h.good_createWindow w profileId now
  | removeWindow w => exact h.good_removeWindow w now
  | addTab w url => exact h.good_addTab w url now
  | closeTab w id => exact h.good_closeTab w id now
  | restoreClosedTab w => exact h.good_restoreClosedTab w now
  | setActiveTab w id => exact h.good_setActiveTab w id now
  | moveTab fromWindowId id toWindowId toIndex =>
    exact h.good_moveTab fromWindowId id toWindowId toIndex now
  | switchProfile w profileId => exact h.good_switchProfile w profileId now
  | tab w id op => exact h.good_updateTab w id op now

end Steps

/-- What holds in every state. -/
theorem sound_of_step {s s' : BrowserStore} {e : BrowserOp × Times} (h : s.Sound)
    (hstep : step s e = some s') : s'.Sound := by
  cases hstep
  exact (h.good_apply e.1 e.2).1

/-! ## All tabs at once -/

/-- The places of a window. -/
def placesOf (w : WindowId) (win : BrowserWindowState) : List (WindowId × String) :=
  (w, win.profileId) :: win.saved.keys.map fun p => (w, p)

def places (s : BrowserStore) : List (WindowId × String) :=
  s.windows.entries.flatMap fun e => placesOf e.1 e.2

/-- The places of a window are in it. -/
theorem fst_placesOf {w : WindowId} {win : BrowserWindowState} {place : WindowId × String}
    (h : place ∈ placesOf w win) : place.1 = w := by
  rcases List.mem_cons.mp h with rfl | hsaved
  · rfl
  · obtain ⟨p, _, rfl⟩ := List.mem_map.mp hsaved
    rfl

theorem Sound.nodup_places {s : BrowserStore} (h : s.Sound) : s.places.Nodup := by
  refine List.nodup_flatMap.mpr ⟨?_, ?_⟩
  · rintro ⟨w, win⟩ hmem
    have hwin := h.windows w win (Dict.mem_entries_iff.mp hmem)
    refine List.nodup_cons.mpr ⟨?_, ?_⟩
    · intro hsaved
      obtain ⟨p, hp, heq⟩ := List.mem_map.mp hsaved
      obtain rfl : p = win.profileId := congrArg Prod.snd heq
      exact Dict.get?_eq_none_iff.mp hwin.unshadowed hp
    · exact win.saved.nodup.map fun p p' heq => congrArg Prod.snd heq
  · refine (List.pairwise_map.mp s.windows.nodup).imp ?_
    intro e e' hne place hplace hplace'
    exact hne ((fst_placesOf hplace).symm.trans (fst_placesOf hplace'))

theorem ids_append_tabs (tabs tabs' : List Tab) : ids (tabs ++ tabs') = ids tabs ++ ids tabs' :=
  List.map_append

/-- The tabs of a window lie at its places. -/
theorem Sound.ids_window {s : BrowserStore} (h : s.Sound) {w : WindowId}
    {win : BrowserWindowState} (hget : s.windows.get? w = some win) :
    ids win.allTabs = (placesOf w win).flatMap s.board := by
  have hsaved : ∀ e ∈ win.saved.entries, ids e.2.tabs = s.board (w, e.1) := by
    rintro ⟨p, snapshot⟩ hmem
    have hp := Dict.mem_entries_iff.mp hmem
    have hne : p ≠ win.profileId := by
      rintro rfl
      rw [(h.windows w win hget).unshadowed] at hp
      contradiction
    rw [board_of_get? hget, BrowserWindowState.tabsOf, if_neg hne, hp]
  have hall : ids (win.saved.values.flatMap SavedProfileTabs.tabs) =
      (win.saved.keys.map fun p => (w, p)).flatMap s.board := by
    rw [Dict.values, Dict.keys, List.map_map, List.flatMap_map, List.flatMap_map, ids,
      List.map_flatMap]
    exact List.flatMap_congr hsaved
  rw [BrowserWindowState.allTabs, ids_append_tabs, placesOf, List.flatMap_cons, hall,
    board_of_get? hget, tabsOf_profileId]

/-- All tabs are those of the boards. -/
theorem Sound.ids_allTabs {s : BrowserStore} (h : s.Sound) :
    ids s.allTabs = s.places.flatMap s.board := by
  rw [allTabs, places, Dict.values, List.flatMap_map, List.flatMap_assoc, ids, List.map_flatMap]
  refine List.flatMap_congr ?_
  rintro ⟨w, win⟩ hmem
  exact h.ids_window (Dict.mem_entries_iff.mp hmem)

/-- Every tab belongs to a profile of a window. -/
theorem Sound.fine_allTabs {s : BrowserStore} (h : s.Sound) :
    ∀ t ∈ s.allTabs, t.Fine s.tabIdCounter := by
  intro t ht
  obtain ⟨win, hwin, htab⟩ := List.mem_flatMap.mp ht
  obtain ⟨w, hget⟩ := Dict.mem_values_iff.mp hwin
  rcases List.mem_append.mp htab with hshown | hhidden
  · exact h.fine_tabs hget t hshown
  · obtain ⟨snapshot, hsnapshot, hmem⟩ := List.mem_flatMap.mp hhidden
    obtain ⟨p, hp⟩ := Dict.mem_values_iff.mp hsnapshot
    have hsound := h.windows w win hget
    refine hsound.fine p t ?_
    have hne : p ≠ win.profileId := by
      rintro rfl
      rw [hsound.unshadowed] at hp
      contradiction
    rw [BrowserWindowState.tabsOf, if_neg hne, hp]
    exact hmem

theorem Sound.tabsInOrder {s : BrowserStore} (h : s.Sound) : s.TabsInOrder := by
  constructor
  · intro w win hget hempty
    have hactive := (h.windows w win hget).active
    rw [hempty] at hactive
    contradiction
  · exact fun w win hget => (h.windows w win hget).active
  · rw [h.ids_allTabs]
    have hnodup : (s.places.map fun place => place).Nodup := by
      simpa using h.nodup_places
    exact nodup_flatMap_of_distinct h.distinct hnodup
  · intro t ht hhistory
    rcases (h.fine_allTabs t ht).travelled with ⟨hempty, _⟩ | ⟨i, hindex, hurl⟩
    · contradiction
    · obtain ⟨hlt, _⟩ := List.getElem?_eq_some_iff.mp hurl
      rw [hindex, at?_natCast]
      exact ⟨by omega, by omega, hurl⟩
  · exact fun w win hget => (h.windows w win hget).capped

/-- Whatever is done to the windows, their tabs are in order, and none is lost. -/
theorem tabLaw_holds (es : List (BrowserOp × Times)) : TabLaw es := by
  refine ⟨?_, ?_⟩
  · intro before after s _ hrun
    have hsound : s.Sound :=
      invariant_of_run (fun _ _ _ h hstep => sound_of_step h hstep) sound_init hrun
    exact hsound.tabsInOrder
  · refine everyStep_of_invariant (fun _ _ _ h hstep => sound_of_step h hstep) ?_ sound_init es
    intro s e s' h hstep
    cases hstep
    exact (h.good_apply e.1 e.2).2

end BrowserStore
end Browser
end TinyAgentOS.Desktop
