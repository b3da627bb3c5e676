import Mathlib.Tactic

/-!
# Requests of the pages of a tab

The shell navigates a tab with the id of the tab in the query.  The links and forms of the pages
that the proxy serves are rewritten to requests of the proxy as well, without the id.  The proxy
records the page it serves for the tab that the query names.
-/

namespace TinyAgentOS.Browser

structure TabKey where
  userId : String
  profileId : String
  tabId : String
deriving DecidableEq

/-! ## Routing -/

/-- The query of a request, as keys and values. -/
abbrev Query := List (String × String)

/-- The value of a key is its last. -/
def Query.get (query : Query) (key : String) : Option String :=
  (query.reverse.find? fun e => e.1 = key).map Prod.snd

def formPidField : String :=
  "__taos_pid"

def formUrlField : String :=
  "__taos_url"

def formTabField : String :=
  "__taos_tab"

/-- What a request of the proxy asks for. -/
structure Routing where
  profileId : Option String
  url : Option String
  tabId : Option String
  extraFields : Query

/-- The routing parameters of a GET form have names of their own; what is not routing is a field
of the site. -/
def route (query : Query) : Routing :=
  if (query.get formUrlField).isSome ∨ (query.get formPidField).isSome then
    { profileId := query.get formPidField
      url := query.get formUrlField
      tabId := query.get formTabField
      extraFields := query.filter fun e => e.1 ∉ [formPidField, formUrlField, formTabField] }
  else
    { profileId := query.get "profile_id"
      url := query.get "url"
      tabId := query.get "tab_id"
      extraFields := query.filter fun e => e.1 ∉ ["profile_id", "url", "tab_id"] }

/-- A request without a profile or a URL is refused. -/
def isRouted (query : Query) : Bool :=
  (route query).profileId.getD "" ≠ "" && (route query).url.getD "" ≠ ""

/-- The tab that the page is recorded for. -/
def recordedTab (userId : String) (query : Query) : Option TabKey :=
  match (route query).tabId with
  | none => none
  | some tabId =>
    if tabId = "" then none else some ⟨userId, (route query).profileId.getD "", tabId⟩

/-! ## Rewritten pages -/

/-- How a tab comes to its next page. -/
inductive PageRequest where
  /-- The shell navigates the tab. -/
  | shell (url : String)
  /-- A link of a rewritten page. -/
  | link (url : String)
  /-- The form keeps the query of its action. -/
  | postForm (action : String)
  /-- The fields of the form take the place of the query, after those that the rewriter adds. -/
  | getForm (action : String) (fields : Query)

/-- The query that the request has in the tab. -/
def PageRequest.query (tab : TabKey) : PageRequest → Query
  | .shell url => [("profile_id", tab.profileId), ("url", url), ("tab_id", tab.tabId)]
  | .link url => [("profile_id", tab.profileId), ("url", url)]
  | .postForm action => [("profile_id", tab.profileId), ("url", action)]
  | .getForm action fields =>
    (formUrlField, action) :: (formPidField, tab.profileId) :: fields

end TinyAgentOS.Browser
