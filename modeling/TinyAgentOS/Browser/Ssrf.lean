import TinyAgentOS.Library.IpAddress
import TinyAgentOS.Library.Transition
import Mathlib.Data.List.DropRight

/-!
# The guard of the browser proxy

The proxy fetches a page on behalf of the user, and follows its redirects itself.  Before each
hop the guard reads the host of the target, looks its addresses up and refuses those that are
not public.  The client then finds its way to the host on its own.

Main results:

- `accepted_iff`: the addresses that the guard accepts for a hop.
- `connectsVetted_iff`: the client connects to accepted addresses alone in exactly the runs in
  which it is led where the guard was.
-/

namespace TinyAgentOS.Browser

open IpAddress Transition

/-! ## Targets -/

/-- What the guard uses of the texts and URLs of the language. -/
structure TextOps where
  lower : List Char → List Char
  isSpace : Char → Bool
  /-- The value of a decimal digit, of any script. -/
  decimal : Char → Option Nat
  /-- `urlparse` raises on the network location. -/
  refusesNetloc : List Char → Bool
  urljoin : List Char → List Char → Option (List Char)

/-- The texts of a URL in ASCII, and redirects to whole URLs. -/
def asciiText : TextOps where
  lower := List.map Char.toLower
  isSpace := Char.isWhitespace
  decimal := fun c => if c.isDigit then some (c.toNat - '0'.toNat) else none
  refusesNetloc := fun _ => false
  urljoin := fun _ location => some location

/-- The parts of a URL that the guard looks at. -/
structure ParsedUrl where
  scheme : List Char
  hostname : Option (List Char)

def isSchemeChar (c : Char) : Bool :=
  c.isAlphanum || c = '+' || c = '-' || c = '.'

/-- The scheme, in lower case, and what follows it. -/
def splitScheme (url : List Char) : List Char × List Char :=
  let scheme := url.takeWhile (· ≠ ':')
  match url.dropWhile (· ≠ ':') with
  | _ :: rest =>
    if (scheme.head?.any Char.isAlpha) && scheme.all isSchemeChar then
      (scheme.map Char.toLower, rest)
    else ([], url)
  | [] => ([], url)

def netlocOf (url : List Char) : List Char :=
  if ['/', '/'].isPrefixOf url then
    (url.drop 2).takeWhile fun c => c ≠ '/' ∧ c ≠ '?' ∧ c ≠ '#'
  else []

/-- `SplitResult.hostname`: the zone of an address keeps its case. -/
def hostnameOf (text : TextOps) (netloc : List Char) : Option (List Char) :=
  let hostinfo := netloc.rtakeWhile (· ≠ '@')
  let host :=
    if '[' ∈ hostinfo then
      ((hostinfo.dropWhile (· ≠ '[')).drop 1).takeWhile (· ≠ ']')
    else hostinfo.takeWhile (· ≠ ':')
  if host = [] then none
  else some (text.lower (host.takeWhile (· ≠ '%')) ++ host.dropWhile (· ≠ '%'))

/-- `urlparse`. -/
def urlparse (text : TextOps) (url : List Char) : Option ParsedUrl :=
  let url := (url.dropWhile (· ≤ ' ')).filter fun c => c ≠ '\t' ∧ c ≠ '\r' ∧ c ≠ '\n'
  let (scheme, rest) := splitScheme url
  let netloc := netlocOf rest
  if (decide ('[' ∈ netloc)) != (decide (']' ∈ netloc)) || text.refusesNetloc netloc then none
  else some ⟨scheme, hostnameOf text netloc⟩

/-! ## Addresses -/

/-- Why a target is refused. -/
inductive Refusal where
  | scheme (scheme : List Char)
  | noHostname
  | suffix (suffix : String)
  | unresolved
  | noAddresses
  | unparsed (addr : List Char)
  | blocked (addr : List Char)
  /-- Another exception than the guard's own. -/
  | raised
deriving DecidableEq

/-- The answer to a lookup of a name. -/
inductive Lookup where
  | answers (addrs : List (List Char))
  | unresolved
  | raises
deriving DecidableEq

def blockedTlds : List String :=
  [".local", ".onion", ".internal", ".home", ".corp", ".lan", ".intranet"]

def blockedNetworks : List Network :=
  [net4 100 64 0 0 10, net6 [0xfec0] 10]

def digitValue (c : Char) : Option Nat :=
  if '0' ≤ c ∧ c ≤ '9' then some (c.toNat - '0'.toNat)
  else if 'a' ≤ c ∧ c ≤ 'z' then some (c.toNat - 'a'.toNat + 10)
  else if 'A' ≤ c ∧ c ≤ 'Z' then some (c.toNat - 'A'.toNat + 10)
  else none

/-- The base that a number is written in, and its digits. -/
def baseOf : List Char → Nat × List Char
  | '0' :: c :: rest =>
    let digits := if rest.head? = some '_' then rest.drop 1 else rest
    if c = 'x' ∨ c = 'X' then (16, digits)
    else if c = 'o' ∨ c = 'O' then (8, digits)
    else if c = 'b' ∨ c = 'B' then (2, digits)
    else (10, '0' :: c :: rest)
  | digits => (10, digits)

/-- The digits may be grouped by single underscores. -/
def magnitude (base : Nat) (digits : List Char) : Option Nat :=
  let groups := digits.splitOn '_'
  if [] ∈ groups then none
  else
    groups.flatten.foldlM (fun n c =>
      (digitValue c).bind fun d => if d < base then some (base * n + d) else none) 0

/-- `int(text, 0)`: a decimal number has no leading zeros, and 4300 digits at most. -/
def intOfText (text : TextOps) (chars : List Char) : Option Int :=
  let chars := chars.map fun c => ((text.decimal c).map Nat.digitChar).getD c
  let negative := chars.head? = some '-'
  let unsigned := if negative ∨ chars.head? = some '+' then chars.drop 1 else chars
  let (base, digits) := baseOf unsigned
  match magnitude base digits with
  | none => none
  | some n =>
    if base = 10 ∧ (digits.head? = some '0' ∧ n ≠ 0 ∨ 4300 < digits.countP (· ≠ '_')) then none
    else some (if negative then -n else n)

/-- The address that an integer stands for. -/
def encodedIpv4 (text : TextOps) (host : List Char) : Option (BitVec 32) :=
  match intOfText text host with
  | none => none
  | some n => if 0 ≤ n ∧ n ≤ 0xFFFFFFFF then some (BitVec.ofNat 32 n.toNat) else none

/-- `_try_parse_encoded_ipv4`. -/
def tryParseEncodedIpv4 (text : TextOps) (host : List Char) : Option (List Char) :=
  (encodedIpv4 text host).map dotted

def validateResolvedAddr (addr : List Char) : Except Refusal Unit :=
  match parse addr with
  | none => .error (.unparsed addr)
  | some ip =>
    let ip := unmapped ip
    if isLoopback ip || isPrivate ip || isLinkLocal ip || isMulticast ip || isReserved ip ||
        isUnspecified ip then .error (.blocked addr)
    else if inAny blockedNetworks ip then .error (.blocked addr)
    else .ok ()

/-- The host of a target, where its scheme and its suffix pass. -/
def targetHost (text : TextOps) (url : List Char) : Except Refusal (List Char) :=
  match urlparse text url with
  | none => .error .raised
  | some parsed =>
    if parsed.scheme ≠ "http".toList ∧ parsed.scheme ≠ "https".toList then
      .error (.scheme parsed.scheme)
    else
      match parsed.hostname with
      | none => .error .noHostname
      | some hostname =>
        let host :=
          text.lower ((hostname.dropWhile text.isSpace).rdropWhile text.isSpace)
        match blockedTlds.find? fun suffix => suffix.toList.isSuffixOf host with
        | some suffix => .error (.suffix suffix)
        | none => .ok host

/-- The addresses of a host: its own, the one it encodes, or what its lookup answers. -/
def addrsOf (text : TextOps) (host : List Char) (lookup : Lookup) :
    Except Refusal (List (List Char)) :=
  match parse host with
  | some _ => .ok [host]
  | none =>
    match tryParseEncodedIpv4 text host with
    | some encoded => .ok [encoded]
    | none =>
      match lookup with
      | .answers addrs => .ok addrs
      | .unresolved => .error .unresolved
      | .raises => .error .raised

/-- `for addr in addrs: validate_resolved_addr(addr)`. -/
def validateAll : List (List Char) → Except Refusal Unit
  | [] => .ok ()
  | addr :: addrs =>
    match validateResolvedAddr addr with
    | .error refusal => .error refusal
    | .ok _ => validateAll addrs

/-- `validate_url_or_raise`, with the addresses that it has accepted. -/
def validateUrlOrRaise (text : TextOps) (url : List Char) (lookup : Lookup) :
    Except Refusal (List (List Char)) :=
  match targetHost text url with
  | .error refusal => .error refusal
  | .ok host =>
    match addrsOf text host lookup with
    | .error refusal => .error refusal
    | .ok addrs =>
      if addrs = [] then .error .noAddresses
      else
        match validateAll addrs with
        | .error refusal => .error refusal
        | .ok _ => .ok addrs

variable {addrs vetted : List (List Char)} {url : List Char}

/-- All are valid when each is. -/
theorem validateAll_eq_ok_iff :
    validateAll addrs = .ok () ↔ ∀ addr ∈ addrs, validateResolvedAddr addr = .ok () := by
  induction addrs with
  | nil => simp [validateAll]
  | cons addr addrs ih =>
    rw [List.forall_mem_cons, validateAll]
    cases hfirst : validateResolvedAddr addr with
    | error refusal => simp
    | ok _ => simp [ih]

variable {text : TextOps} {lookup : Lookup}

/-- The addresses that a URL is vetted for are those that its host leads to. -/
theorem validateUrlOrRaise_eq_ok (h : validateUrlOrRaise text url lookup = .ok vetted) :
    (∃ host, targetHost text url = .ok host ∧ addrsOf text host lookup = .ok vetted) ∧
      ∀ addr ∈ vetted, validateResolvedAddr addr = .ok () := by
  simp only [validateUrlOrRaise] at h
  split at h
  · contradiction
  rename_i host hhost
  split at h
  · contradiction
  rename_i addrs haddrs
  split at h
  · contradiction
  split at h
  · contradiction
  rename_i hall
  cases h
  exact ⟨⟨host, hhost, haddrs⟩, validateAll_eq_ok_iff.mp hall⟩

/-- The guard is led to the address: the host is its text, encodes it, or is answered with it. -/
def LedTo (text : TextOps) (host : List Char) (lookup : Lookup) (ip : Ip) : Prop :=
  match parse host with
  | some literal => ip = literal
  | none =>
    match encodedIpv4 text host with
    | some value => ip = .v4 value
    | none =>
      match lookup with
      | .answers addrs => ∃ addr ∈ addrs, parse addr = some ip
      | _ => False

/-- A host leads to the addresses that are looked up. -/
theorem ledTo_iff {host : List Char} (h : addrsOf text host lookup = .ok addrs) (ip : Ip) :
    LedTo text host lookup ip ↔ ∃ addr ∈ addrs, parse addr = some ip := by
  simp only [addrsOf, tryParseEncodedIpv4] at h
  simp only [LedTo]
  cases hliteral : parse host with
  | some literal =>
    rw [hliteral] at h
    cases h
    simp [hliteral, eq_comm]
  | none =>
    rw [hliteral] at h
    cases hencoded : encodedIpv4 text host with
    | some value =>
      rw [hencoded] at h
      cases h
      simp [parse_dotted, eq_comm]
    | none =>
      rw [hencoded] at h
      cases lookup with
      | answers answers =>
        cases h
        exact Iff.rfl
      | unresolved => contradiction
      | raises => contradiction

/-- The addresses that the guard accepts for a target are those that it is led to. -/
theorem accepted_iff (h : validateUrlOrRaise text url lookup = .ok vetted) (ip : Ip) :
    (∃ addr ∈ vetted, parse addr = some ip ∧ validateResolvedAddr addr = .ok ()) ↔
      ∃ host, targetHost text url = .ok host ∧ LedTo text host lookup ip := by
  obtain ⟨⟨host, hhost, haddrs⟩, hall⟩ := validateUrlOrRaise_eq_ok h
  constructor
  · rintro ⟨addr, hmem, hparse, _⟩
    exact ⟨host, hhost, (ledTo_iff haddrs ip).mpr ⟨addr, hmem, hparse⟩⟩
  · rintro ⟨host', hhost', hled⟩
    rw [hhost] at hhost'
    cases hhost'
    obtain ⟨addr, hmem, hparse⟩ := (ledTo_iff haddrs ip).mp hled
    exact ⟨addr, hmem, hparse, hall addr hmem⟩

/-! ## Redirects -/

structure FetchRequest where
  method : String
  url : List Char
  body : List Char
deriving DecidableEq

/-- What comes of one request of the client. -/
inductive Reply where
  | failed
  | timedOut
  | response (status : Nat) (location : Option (List Char))

inductive Outcome where
  | refused (refusal : Refusal)
  | fetchFailed
  | timedOut
  | tooManyRedirects
  | served (status : Nat)
deriving DecidableEq

/-- Where the proxy stands: before a hop it has the addresses that the guard accepted for it. -/
inductive Fetch where
  | idle
  | connecting (hop : Nat) (request : FetchRequest) (lookup : Lookup)
      (vetted : List (List Char))
  | ended (outcome : Outcome)
deriving DecidableEq

inductive FetchEvent where
  /-- A request of the user, and the answer to the lookup of the guard. -/
  | requested (request : FetchRequest) (lookup : Lookup)
  /-- A request of the client, the addresses it connects to, and the answer to the lookup of the
  guard where it is redirected. -/
  | fetched (connects : List Ip) (reply : Reply) (lookup : Lookup)

/-- `_MAX_REDIRECTS`. -/
def maxRedirects : Nat :=
  5

/-- 301, 302 and 303 turn other methods into a GET without a body. -/
def FetchRequest.redirected (request : FetchRequest) (status : Nat) (url : List Char) :
    FetchRequest :=
  if status ∈ [301, 302, 303] ∧ request.method ≠ "GET" then
    { method := "GET", url := url, body := [] }
  else { request with url := url }

namespace Fetch

/-- A redirected request, after its hop. -/
def follow (text : TextOps) (hop : Nat) (request : FetchRequest) (lookup : Lookup) : Fetch :=
  match validateUrlOrRaise text request.url lookup with
  | .error refusal => .ended (.refused refusal)
  | .ok vetted =>
    if hop < maxRedirects then .connecting (hop + 1) request lookup vetted
    else .ended .tooManyRedirects

def step (text : TextOps) : Fetch → FetchEvent → Option Fetch
  | .idle, .requested request lookup =>
    match validateUrlOrRaise text request.url lookup with
    | .error refusal => some (.ended (.refused refusal))
    | .ok vetted => some (.connecting 0 request lookup vetted)
  | .connecting _ _ _ _, .fetched _ .failed _ => some (.ended .fetchFailed)
  | .connecting _ _ _ _, .fetched _ .timedOut _ => some (.ended .timedOut)
  | .connecting hop request _ _, .fetched _ (.response status location) lookup =>
    if status ∈ [301, 302, 303, 307, 308] then
      match location with
      | none => some (.ended (.served status))
      | some location =>
        if location = [] then some (.ended (.served status))
        else
          match text.urljoin request.url location with
          | none => some (.ended (.refused .raised))
          | some url => some (follow text hop (request.redirected status url) lookup)
    else some (.ended (.served status))
  | _, _ => none

/-- The addresses before a hop are those that the guard has accepted for it. -/
def Vetted (text : TextOps) : Fetch → Prop
  | .connecting _ request lookup vetted =>
    validateUrlOrRaise text request.url lookup = .ok vetted
  | _ => True

/-- A request that is followed is vetted. -/
theorem vetted_follow (text : TextOps) (hop : Nat) (request : FetchRequest) (lookup : Lookup) :
    (follow text hop request lookup).Vetted text := by
  unfold follow
  split
  · trivial
  · rename_i vetted hvetted
    split
    · exact hvetted
    · trivial

variable {text : TextOps} {s : Fetch}

variable {e : FetchEvent}

theorem vetted_step {s' : Fetch} (hstep : step text s e = some s') : s'.Vetted text := by
  cases s with
  | idle =>
    cases e with
    | requested request lookup =>
      simp only [step] at hstep
      split at hstep
      · cases hstep
        trivial
      · rename_i vetted hvetted
        cases hstep
        exact hvetted
    | fetched connects reply lookup => contradiction
  | connecting hop request lookup vetted =>
    cases e with
    | requested request lookup => contradiction
    | fetched connects reply lookup' =>
      cases reply with
      | failed | timedOut =>
        cases hstep
        trivial
      | response status location =>
        simp only [step] at hstep
        split at hstep
        · split at hstep
          · cases hstep
            trivial
          · split at hstep
            · cases hstep
              trivial
            · split at hstep
              · cases hstep
                trivial
              · cases hstep
                exact vetted_follow _ _ _ _
        · cases hstep
          trivial
  | ended outcome => contradiction

/-- The client connects to addresses that the guard has accepted for the hop. -/
def ConnectsVetted : Fetch → FetchEvent → Fetch → Prop
  | .connecting _ _ _ vetted, .fetched connects _ _, _ =>
    ∀ ip ∈ connects, ∃ addr ∈ vetted, parse addr = some ip ∧ validateResolvedAddr addr = .ok ()
  | _, _, _ => True

/-- The client is led to where the guard was led by its own lookup. -/
def LedAlike (text : TextOps) : Fetch → FetchEvent → Prop
  | .connecting _ request lookup _, .fetched connects _ _ =>
    ∀ ip ∈ connects, ∃ host, targetHost text request.url = .ok host ∧ LedTo text host lookup ip
  | _, _ => True

/-- A vetted fetch connects to a vetted address when the host leads there alike. -/
theorem connectsVetted_step_iff (h : s.Vetted text) (e : FetchEvent)
    (s' : Fetch) : ConnectsVetted s e s' ↔ LedAlike text s e := by
  cases s with
  | connecting hop request lookup vetted =>
    cases e with
    | requested _ _ => exact Iff.rfl
    | fetched connects reply _ =>
      have haccepted := fun ip => accepted_iff h ip
      exact forall₂_congr fun ip _ => haccepted ip
  | idle | ended => exact Iff.rfl

theorem ledAlike_of_none (hstep : step text s e = none) : LedAlike text s e := by
  cases s with
  | connecting hop request lookup vetted =>
    cases e with
    | requested _ _ => trivial
    | fetched connects reply lookup' =>
      cases reply with
      | failed => contradiction
      | timedOut => contradiction
      | response status location =>
        simp only [step] at hstep
        repeat' split at hstep
        all_goals contradiction
  | idle => trivial
  | ended outcome => trivial

/-- The client connects to accepted addresses alone exactly when on every hop it is led where
the guard was led by its own lookup. -/
theorem connectsVetted_iff (text : TextOps) (es : List FetchEvent) :
    EveryStep (step text) ConnectsVetted .idle es ↔
      Guarded (step text) (LedAlike text) .idle es := by
  apply everyStep_iff_guarded (I := Vetted text)
  · exact fun _ _ hstep => ledAlike_of_none hstep
  · exact fun _ _ _ _ _ hstep => vetted_step hstep
  · exact fun _ e s' h _ => connectsVetted_step_iff h e s'
  · trivial

/-- The name is answered with a public address first and then with the loopback. -/
def rebound : List FetchEvent :=
  [.requested ⟨"GET", "http://rebind.test/".toList, []⟩ (.answers ["8.8.8.8".toList]),
    .fetched [.v4 (ofOctets 127 0 0 1)] (.response 200 none) .unresolved]

/-- The client connects to the loopback. -/
theorem not_connectsVetted : ¬ EveryStep (step asciiText) ConnectsVetted .idle rebound := by
  intro h
  have hrun : run (step asciiText) .idle (rebound.take 1) = some
      (.connecting 0 ⟨"GET", "http://rebind.test/".toList, []⟩ (.answers ["8.8.8.8".toList])
        ["8.8.8.8".toList]) := by
    decide
  have hlast := h (rebound.take 1) _ [] _ _ rfl hrun rfl
  obtain ⟨addr, hmem, hparse, _⟩ := hlast (.v4 (ofOctets 127 0 0 1)) List.mem_cons_self
  rw [List.mem_singleton.mp hmem] at hparse
  exact absurd hparse (by decide)

end Fetch

end TinyAgentOS.Browser
