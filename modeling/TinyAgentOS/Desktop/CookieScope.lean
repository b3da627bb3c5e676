import TinyAgentOS.Library.Dict
import TinyAgentOS.Library.Like
import Mathlib.Data.List.TakeWhile

/-!
# The scope of the browser's cookies

The cookies of a response are written to a table, and a jar for a request is read from it.  A row
has the host without its leading dots and whether the cookie is secure; the jar is given neither
the one nor the other, so a cookie of one host is offered to the hosts below it, and a secure cookie
to any scheme.

Main results:

- `get?_persistAll`: the rows are made of the cookies that were stored last.
- `domain_of_offered`: what is offered was set for the host, or for a host above it.
- `keepsScope_iff`: the jar keeps the scope of the cookies where it reaches neither a secure one
  without TLS nor one of another host.
-/

namespace TinyAgentOS.Desktop
namespace Cookies

open Collections Like

/-! ## Cookies and rows -/

/-- A cookie of `http.cookiejar`: the domain of a `Domain` attribute begins with a dot, and
the host stands in place of one that is missing. -/
structure Cookie where
  name : String
  value : Option String
  domain : List Char
  domainSpecified : Bool
  path : List Char
  expires : Option Int
  secure : Bool
deriving DecidableEq

/-- The primary key of `cookies`. -/
structure CookieKey where
  userId : String
  profileId : String
  host : List Char
  path : List Char
  name : String
deriving DecidableEq

structure CookieRow where
  value : String
  expiresAt : Option Int
  httpOnly : Bool
  secure : Bool
  sameSite : Option String
deriving DecidableEq

/-- `lstrip(".")`. -/
def lstripDots (text : List Char) : List Char :=
  text.dropWhile fun c => c = '.'

/-- The key under which `persist_response_cookies` stores a cookie. -/
def keyOf (userId profileId : String) (cookie : Cookie) : CookieKey where
  userId := userId
  profileId := profileId
  host := lstripDots cookie.domain
  path := if cookie.path = [] then ['/'] else cookie.path
  name := cookie.name

def rowOf (cookie : Cookie) : CookieRow where
  value := cookie.value.getD ""
  expiresAt := cookie.expires
  httpOnly := false
  secure := cookie.secure
  sameSite := none

/-- `expires_at is not None and expires_at <= now`. -/
def isExpired (now : Int) (cookie : Cookie) : Bool :=
  cookie.expires.any fun expires => expires ≤ now

/-! ## Responses -/

/-- The cookies of a response, and the arguments of `persist_response_cookies`. -/
structure Response where
  userId : String
  profileId : String
  now : Int
  cookies : List Cookie

/-- `delete_cookie` or `set_cookie`, with what is stored for a cookie. -/
def persistCookie {ν : Type} (stored : Cookie → ν) (r : Response) (table : Dict CookieKey ν)
    (cookie : Cookie) : Dict CookieKey ν :=
  if isExpired r.now cookie then table.pop (keyOf r.userId r.profileId cookie)
  else table.set (keyOf r.userId r.profileId cookie) (stored cookie)

/-- `persist_response_cookies`, which raises an error where there is no user or profile. -/
def persistResponseCookies {ν : Type} (stored : Cookie → ν) (table : Dict CookieKey ν)
    (r : Response) : Dict CookieKey ν :=
  if r.userId = "" ∨ r.profileId = "" then table
  else r.cookies.foldl (persistCookie stored r) table

def persistAll {ν : Type} (stored : Cookie → ν) (history : List Response) : Dict CookieKey ν :=
  history.foldl (persistResponseCookies stored) Dict.empty

/-- The table after some responses. -/
def tableOf (history : List Response) : Dict CookieKey CookieRow :=
  persistAll rowOf history

/-- The cookies that the rows of the table were stored for. -/
def originsOf (history : List Response) : Dict CookieKey Cookie :=
  persistAll id history

/-! ## Requests -/

/-- A request of a user's profile; no NUL is in the host of a URL. -/
structure Request where
  userId : String
  profileId : String
  host : List Char
  path : List Char
  https : Bool
  now : Int
  noNul : '\x00' ∉ host

/-- The conditions of `get_cookies`, for the host without leading dots. -/
def selects (r : Request) (e : CookieKey × CookieRow) : Bool :=
  e.1.userId = r.userId && e.1.profileId = r.profileId &&
    (e.1.host = lstripDots r.host || like ('%' :: '.' :: e.1.host) (lstripDots r.host)) &&
      e.2.expiresAt.all fun expires => r.now < expires

/-- `get_cookies`, or `none` where it raises an error. -/
def getCookies (table : Dict CookieKey CookieRow) (r : Request) :
    Option (List (CookieKey × CookieRow)) :=
  if r.userId = "" ∨ r.profileId = "" then none else some (table.entries.filter (selects r))

/-- `jar.set`, with the name, the value, the domain and the path. -/
def jarCookie (e : CookieKey × CookieRow) : Cookie where
  name := e.1.name
  value := some e.2.value
  domain := e.1.host
  domainSpecified := e.1.host ≠ []
  path := e.1.path
  expires := none
  secure := false

/-- `load_jar_for_request`. -/
def loadJarForRequest (table : Dict CookieKey CookieRow) (r : Request) : Option (List Cookie) :=
  (getCookies table r).map fun rows => rows.map jarCookie

/-! ## The policy of the jar -/

/-- `eff_request_host`. -/
def effRequestHost (host : List Char) : List Char :=
  if '.' ∈ host then host else host ++ ['.', 'l', 'o', 'c', 'a', 'l']

def dotted (domain : List Char) : List Char :=
  match domain with
  | [] => []
  | c :: rest => if c = '.' then c :: rest else '.' :: c :: rest

/-- `return_ok_domain`, for a cookie of version 0 and the liberal policy. -/
def returnOkDomain (cookie : Cookie) (r : Request) : Bool :=
  (dotted cookie.domain).isSuffixOf ('.' :: effRequestHost r.host)

/-- `path_return_ok`. -/
def pathReturnOk (cookie : Cookie) (r : Request) : Bool :=
  r.path = cookie.path ||
    (cookie.path.isPrefixOf r.path &&
      (cookie.path.getLast? = some '/' || r.path[cookie.path.length]? = some '/'))

def returnOkSecure (cookie : Cookie) (r : Request) : Bool :=
  !cookie.secure || r.https

def returnOkExpires (cookie : Cookie) (r : Request) : Bool :=
  !isExpired r.now cookie

/-- The cookie of the jar is offered to the request. -/
def offers (r : Request) (cookie : Cookie) : Bool :=
  pathReturnOk cookie r && returnOkSecure cookie r && returnOkExpires cookie r &&
    returnOkDomain cookie r

/-! ## The scope of a cookie -/

/-- The request is to the host that set the cookie, or to the domain of its attribute or below. -/
def InDomain (cookie : Cookie) (r : Request) : Prop :=
  if cookie.domainSpecified then
    r.host = lstripDots cookie.domain ∨ '.' :: lstripDots cookie.domain <:+ r.host
  else effRequestHost r.host = cookie.domain

/-- The cookie, stored under a key, may be offered to the request. -/
structure Allows (key : CookieKey) (cookie : Cookie) (r : Request) : Prop where
  user : key.userId = r.userId
  profile : key.profileId = r.profileId
  domain : InDomain cookie r
  secure : cookie.secure = true → r.https = true
  unexpired : ∀ expires, cookie.expires = some expires → r.now < expires

/-- What the jar of a request offers, the cookie that was stored allows. -/
def KeepsScope (history : List Response) (r : Request) : Prop :=
  ∀ rows, getCookies (tableOf history) r = some rows → ∀ e ∈ rows, offers r (jarCookie e) = true →
    ∃ cookie, (originsOf history).get? e.1 = some cookie ∧ Allows e.1 cookie r

/-- The row of a cookie is selected for the request, and the jar's cookie is offered to it. -/
def Reaches (key : CookieKey) (cookie : Cookie) (r : Request) : Prop :=
  selects r (key, rowOf cookie) = true ∧ offers r (jarCookie (key, rowOf cookie)) = true

/-- A cookie that is reached is not secure, or the request is; and it has a domain attribute, or its
host is the request's. -/
def Harmless (history : List Response) (r : Request) : Prop :=
  r.userId ≠ "" → r.profileId ≠ "" → ∀ key cookie, (originsOf history).get? key = some cookie →
    Reaches key cookie r →
      (cookie.secure = true → r.https = true) ∧
        (cookie.domainSpecified = false → effRequestHost r.host = cookie.domain)

/-! ## The table and the cookies that were stored -/

/-- What is stored, and what it is made of. -/
def Made {ν : Type} (stored : Cookie → ν) (table : Dict CookieKey ν)
    (origins : Dict CookieKey Cookie) : Prop :=
  ∀ key, table.get? key = (origins.get? key).map stored

section Origins

variable {ν : Type} {stored : Cookie → ν} {table : Dict CookieKey ν}
  {origins : Dict CookieKey Cookie}

/-- A stored cookie comes from the response that set it. -/
theorem made_persistCookie (r : Response) (cookie : Cookie) (h : Made stored table origins) :
    Made stored (persistCookie stored r table cookie) (persistCookie id r origins cookie) := by
  intro key
  unfold persistCookie
  by_cases hexpired : isExpired r.now cookie = true
  · rw [if_pos hexpired, if_pos hexpired, Dict.get?_pop, Dict.get?_pop, h key]
    split <;> rfl
  · rw [if_neg hexpired, if_neg hexpired, Dict.get?_set, Dict.get?_set, h key]
    split <;> rfl

theorem made_foldl (r : Response) (cookies : List Cookie) (h : Made stored table origins) :
    Made stored (cookies.foldl (persistCookie stored r) table)
      (cookies.foldl (persistCookie id r) origins) := by
  induction cookies generalizing table origins with
  | nil => exact h
  | cons cookie cookies ih => exact ih (made_persistCookie r cookie h)

/-- The cookies of a response keep their origins. -/
theorem made_persistResponseCookies (r : Response) (h : Made stored table origins) :
    Made stored (persistResponseCookies stored table r) (persistResponseCookies id origins r) := by
  unfold persistResponseCookies
  by_cases hraises : r.userId = "" ∨ r.profileId = ""
  · rw [if_pos hraises, if_pos hraises]
    exact h
  · rw [if_neg hraises, if_neg hraises]
    exact made_foldl r r.cookies h

/-- What is stored is made of the cookies that were stored last. -/
theorem get?_persistAll (history : List Response) :
    Made stored (persistAll stored history) (persistAll id history) := by
  have hmade : ∀ {table : Dict CookieKey ν} {origins : Dict CookieKey Cookie},
      Made stored table origins →
        Made stored (history.foldl (persistResponseCookies stored) table)
          (history.foldl (persistResponseCookies id) origins) := by
    induction history with
    | nil => exact fun h => h
    | cons r history ih => exact fun h => ih (made_persistResponseCookies r h)
  exact hmade fun _ => rfl

end Origins

/-- A stored row is that of its origin. -/
theorem get?_tableOf (history : List Response) (key : CookieKey) :
    (tableOf history).get? key = ((originsOf history).get? key).map rowOf :=
  get?_persistAll history key

variable {cookie : Cookie} {key : CookieKey} {text : List Char}

/-- The host of a key is the domain of its cookie, without leading dots. -/
theorem host_of_origin {history : List Response}
    (h : (originsOf history).get? key = some cookie) : key.host = lstripDots cookie.domain := by
  have hkeep : ∀ {origins : Dict CookieKey Cookie} (r : Response) (cookies : List Cookie),
      (∀ key cookie, origins.get? key = some cookie → key.host = lstripDots cookie.domain) →
        ∀ key cookie, (cookies.foldl (persistCookie id r) origins).get? key = some cookie →
          key.host = lstripDots cookie.domain := by
    intro origins r cookies hold
    induction cookies generalizing origins with
    | nil => exact hold
    | cons c cookies ih =>
      refine ih fun key cookie hget => ?_
      unfold persistCookie at hget
      split at hget
      · exact hold key cookie (Dict.get?_pop_cases hget).2
      · rcases Dict.get?_set_cases hget with ⟨rfl, rfl⟩ | ⟨_, hget⟩
        · rfl
        · exact hold key cookie hget
  have hall : ∀ {origins : Dict CookieKey Cookie},
      (∀ key cookie, origins.get? key = some cookie → key.host = lstripDots cookie.domain) →
        ∀ key cookie, (history.foldl (persistResponseCookies id) origins).get? key = some cookie →
          key.host = lstripDots cookie.domain := by
    clear h
    induction history with
    | nil => exact fun hold => hold
    | cons r history ih =>
      intro origins hold
      refine ih ?_
      unfold persistResponseCookies
      split
      · exact hold
      · exact hkeep r r.cookies hold
  refine hall (fun key cookie hget => ?_) key cookie h
  rw [Dict.get?_empty] at hget
  contradiction

/-! ## Domains -/

theorem lstripDots_suffix (text : List Char) : lstripDots text <:+ text :=
  List.dropWhile_suffix _

theorem lstripDots_of_notMem (h : '.' ∉ text) : lstripDots text = text := by
  cases text with
  | nil => rfl
  | cons c rest =>
    have hc : c ≠ '.' := fun heq => h (heq ▸ List.mem_cons_self)
    simp [lstripDots, hc]

/-- A domain gets one leading dot. -/
theorem dotted_lstripDots (h : lstripDots text ≠ []) :
    dotted (lstripDots text) = '.' :: lstripDots text := by
  cases hstripped : lstripDots text with
  | nil => exact absurd hstripped h
  | cons c rest =>
    have hc : c ≠ '.' := by
      have hhead := List.head?_dropWhile_not (fun c => decide (c = '.')) text
      rw [show text.dropWhile (fun c => decide (c = '.')) = c :: rest from hstripped] at hhead
      simpa using hhead
    rw [dotted, if_neg hc]

/-- A pattern that names a dot accepts texts with dots only. -/
theorem dot_mem_of_like {host : List Char} (h : like ('%' :: '.' :: host) text = true) :
    '.' ∈ text := by
  have hcut : cut ('%' :: '.' :: host) = '%' :: '.' :: cut host :=
    cut_append (by decide : '\x00' ∉ ['%', '.']) host
  rw [like, hcut] at h
  have hnamed : '.' ∈ '%' :: '.' :: cut host := List.mem_cons_of_mem _ List.mem_cons_self
  obtain ⟨d, hd, hcase⟩ := exists_of_accepts_pieces h hnamed (by decide)
  have hdot : d = '.' := eq_of_toLower_eq hcase (by decide) (by decide)
  rw [← hdot]
  exact (List.takeWhile_prefix _).subset hd

/-- What the pattern of an empty host accepts ends in a dot. -/
theorem dot_suffix_of_like (hnul : '\x00' ∉ text)
    (h : like ['%', '.'] text = true) : ['.'] <:+ text := by
  rw [like, cut_of_notMem hnul] at h
  have hcut : (cut ['%', '.']).map piece = [.star] ++ [piece '.'] := rfl
  rw [hcut] at h
  obtain ⟨u, v, rfl, _, hv⟩ := (Glob.accepts_append _ _ _).mp h
  obtain ⟨d, rest, rfl, hcase, hrest⟩ := (accepts_piece_iff (by decide) [] v).mp hv
  have hdot : d = '.' := eq_of_toLower_eq hcase (by decide) (by decide)
  cases rest with
  | nil => exact ⟨u, by rw [hdot]⟩
  | cons c rest => exact absurd hrest (by simp [Glob.accepts])

/-- What is offered was set for the host, or for a host above it. -/
theorem domain_of_offered {r : Request}
    (hhost : key.host = lstripDots cookie.domain) (h : Reaches key cookie r) :
    r.host = lstripDots cookie.domain ∨ '.' :: lstripDots cookie.domain <:+ r.host := by
  obtain ⟨hselects, hoffers⟩ := h
  simp only [selects, Bool.and_eq_true, Bool.or_eq_true, decide_eq_true_eq] at hselects
  simp only [offers, Bool.and_eq_true, returnOkDomain, List.isSuffixOf_iff_suffix] at hoffers
  have hselected := hselects.1.2
  have hsuffix := hoffers.2
  rw [hhost] at hselected
  have hdomain : (jarCookie (key, rowOf cookie)).domain = lstripDots cookie.domain := hhost
  rw [hdomain] at hsuffix
  by_cases hempty : lstripDots cookie.domain = []
  · rw [hempty] at hselected ⊢
    rcases hselected with hnothing | hlike
    · cases hr : r.host with
      | nil => exact Or.inl rfl
      | cons c rest =>
        -- A host of dots only ends in a dot.
        have hall := List.dropWhile_eq_nil_iff.mp hnothing.symm
        refine Or.inr ⟨(c :: rest).dropLast, ?_⟩
        have hlast : (c :: rest).getLast (by simp) = '.' := by
          have hmem : (c :: rest).getLast (by simp) ∈ r.host := by
            rw [hr]
            exact List.getLast_mem _
          exact of_decide_eq_true (hall _ hmem)
        rw [← hlast]
        exact List.dropLast_concat_getLast _
    · have hnul : '\x00' ∉ lstripDots r.host := fun hmem =>
        r.noNul ((lstripDots_suffix r.host).subset hmem)
      exact Or.inr ((dot_suffix_of_like hnul hlike).trans (lstripDots_suffix r.host))
  · rw [dotted_lstripDots hempty] at hsuffix
    by_cases hdot : '.' ∈ r.host
    · rw [effRequestHost, if_pos hdot] at hsuffix
      rcases List.suffix_cons_iff.mp hsuffix with heq | hbelow
      · exact Or.inl (List.cons.inj heq).2.symm
      · exact Or.inr hbelow
    · rw [lstripDots_of_notMem hdot] at hselected
      rcases hselected with heq | hlike
      · exact Or.inl heq.symm
      · exact absurd (dot_mem_of_like hlike) hdot

/-! ## The scope is kept -/

/-- What a cookie asks of a request that it reaches. -/
theorem allows_iff {r : Request}
    (hhost : key.host = lstripDots cookie.domain) (h : Reaches key cookie r) :
    Allows key cookie r ↔
      (cookie.secure = true → r.https = true) ∧
        (cookie.domainSpecified = false → effRequestHost r.host = cookie.domain) := by
  have hdomain := domain_of_offered hhost h
  constructor
  · intro hallows
    refine ⟨hallows.secure, fun hspecified => ?_⟩
    have hin := hallows.domain
    rw [InDomain, hspecified] at hin
    exact hin
  · rintro ⟨hsecure, hsame⟩
    have hselects := h.1
    simp only [selects, Bool.and_eq_true, decide_eq_true_eq] at hselects
    refine ⟨hselects.1.1.1, hselects.1.1.2, ?_, hsecure, fun expires hexpires => ?_⟩
    · rw [InDomain]
      by_cases hspecified : cookie.domainSpecified = true
      · rw [if_pos hspecified]
        exact hdomain
      · rw [if_neg hspecified]
        exact hsame (Bool.not_eq_true _ ▸ hspecified)
    · have hunexpired := hselects.2
      rw [show (rowOf cookie).expiresAt = some expires from hexpires, Option.all_some,
        decide_eq_true_eq] at hunexpired
      exact hunexpired

/-- The jar keeps the scope of the cookies where it reaches neither a secure one without TLS nor one
of another host. -/
theorem keepsScope_iff (history : List Response) (r : Request) :
    KeepsScope history r ↔ Harmless history r := by
  constructor
  · intro hkeeps huser hprofile key cookie hget hreaches
    have hrow : (tableOf history).get? key = some (rowOf cookie) := by
      rw [get?_tableOf, hget]
      rfl
    have hraises : ¬ (r.userId = "" ∨ r.profileId = "") := not_or.mpr ⟨huser, hprofile⟩
    obtain ⟨cookie', hget', hallows⟩ := hkeeps _ (by rw [getCookies, if_neg hraises])
      (key, rowOf cookie) (List.mem_filter.mpr ⟨Dict.mem_entries_iff.mpr hrow, hreaches.1⟩)
      hreaches.2
    obtain rfl := Option.some.inj (hget.symm.trans hget')
    exact (allows_iff (host_of_origin hget) hreaches).mp hallows
  · rintro hharmless rows hrows ⟨key, row⟩ he hoffers
    unfold getCookies at hrows
    split at hrows
    · contradiction
    rename_i hraises
    obtain ⟨huser, hprofile⟩ := not_or.mp hraises
    rw [← Option.some.inj hrows, List.mem_filter] at he
    have hrow := Dict.mem_entries_iff.mp he.1
    rw [get?_tableOf, Option.map_eq_some_iff] at hrow
    obtain ⟨cookie, hget, rfl⟩ := hrow
    have hreaches : Reaches key cookie r := ⟨he.2, hoffers⟩
    exact ⟨cookie, hget, (allows_iff (host_of_origin hget) hreaches).mpr
      (hharmless huser hprofile key cookie hget hreaches)⟩

/-! ## A session cookie -/

/-- A secure cookie of a host, without a domain attribute. -/
def session : Cookie :=
  ⟨"session", some "1", "bank.com".toList, false, ['/'], none, true⟩

def loggedIn : List Response :=
  [⟨"user", "profile", 0, [session]⟩]

/-- A page of the host is fetched without TLS. -/
def plainPage : Request :=
  ⟨"user", "profile", "bank.com".toList, ['/'], false, 1, by decide⟩

/-- A cookie that is sent beyond its scope. -/
theorem not_keepsScope : ¬ ∀ history r, KeepsScope history r := by
  intro h
  have hrow : (tableOf loggedIn).entries.filter (selects plainPage) =
      [(keyOf "user" "profile" session, rowOf session)] := by decide
  have hoffered : offers plainPage (jarCookie (keyOf "user" "profile" session, rowOf session)) =
      true := by decide
  have horigin : (originsOf loggedIn).get? (keyOf "user" "profile" session) = some session := by
    decide
  obtain ⟨cookie, hget, hallows⟩ := h loggedIn plainPage _ rfl
    (keyOf "user" "profile" session, rowOf session) (by rw [hrow]; exact List.mem_cons_self)
    hoffered
  obtain rfl := Option.some.inj (horigin.symm.trans hget)
  exact Bool.false_ne_true (hallows.secure rfl)

end Cookies
end TinyAgentOS.Desktop
