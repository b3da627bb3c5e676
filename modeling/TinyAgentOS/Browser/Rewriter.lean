import TinyAgentOS.Browser.Ssrf
import Mathlib

/-!
# The URLs of a proxied page

Every URL of a page is resolved against the page and handed to the proxy, whose own path is
relative.  A URL that was rewritten before is one more relative URL.

Main results:

- `urljoin_proxied`: what the proxied form of a URL resolves to.
- `rewritesWell_iff`: the URLs that are rewritten, and only once.
- `not_rewritesWell`: a URL that is rewritten twice.
-/

namespace TinyAgentOS.Browser

/-! ## URLs of the language -/

/-- `ParseResult`. -/
structure UrlParts where
  scheme : List Char
  netloc : List Char
  path : List Char
  params : List Char
  query : List Char
  fragment : List Char

def usesRelative : List (List Char) :=
  ["", "ftp", "http", "gopher", "nntp", "imap", "wais", "file", "https", "shttp", "mms",
    "prospero", "rtsp", "rtsps", "rtspu", "sftp", "svn", "svn+ssh", "ws", "wss"].map String.toList

def usesNetloc : List (List Char) :=
  ["", "ftp", "http", "gopher", "nntp", "telnet", "imap", "wais", "file", "mms", "https", "shttp",
    "snews", "prospero", "rtsp", "rtsps", "rtspu", "rsync", "svn", "svn+ssh", "sftp", "nfs", "git",
    "git+ssh", "ws", "wss", "itms-services"].map String.toList

def usesParams : List (List Char) :=
  ["", "ftp", "hdl", "prospero", "http", "imap", "https", "shttp", "rtsp", "rtsps", "rtspu", "sip",
    "sips", "mms", "sftp", "tel"].map String.toList

-- The law has a name of its own, which the definitions below refer to.
local instance lawfulBEqChars : LawfulBEq (List Char) := inferInstance

/-- `_splitparams`: the parameters of the last segment. -/
def splitParams (path : List Char) : List Char × List Char :=
  let last := path.rtakeWhile (· ≠ '/')
  if ';' ∈ last then
    (path.rdropWhile (· ≠ '/') ++ last.takeWhile (· ≠ ';'), (last.dropWhile (· ≠ ';')).drop 1)
  else (path, [])

/-- `urlparse(url, scheme)`. -/
def parseUrl (text : TextOps) (url scheme : List Char) : Option UrlParts :=
  let url := (url.dropWhile (· ≤ ' ')).filter fun c => c ≠ '\t' ∧ c ≠ '\r' ∧ c ≠ '\n'
  let (own, rest) := splitScheme url
  let scheme := if own = [] then scheme else own
  let netloc := netlocOf rest
  if (decide ('[' ∈ netloc)) != (decide (']' ∈ netloc)) ||
      netloc ≠ [] && text.refusesNetloc netloc then none
  else
    let rest := if ['/', '/'].isPrefixOf rest then rest.drop (2 + netloc.length) else rest
    let front := rest.takeWhile (· ≠ '#')
    let path := front.takeWhile (· ≠ '?')
    let (path, params) := if scheme ∈ usesParams then splitParams path else (path, [])
    some ⟨scheme, netloc, path, params, (front.dropWhile (· ≠ '?')).drop 1,
      (rest.dropWhile (· ≠ '#')).drop 1⟩

/-- `urlunparse`. -/
def urlunparse (u : UrlParts) : List Char :=
  let url := if u.params = [] then u.path else u.path ++ ';' :: u.params
  let url :=
    if u.netloc ≠ [] then
      '/' :: '/' :: u.netloc ++ if url = [] ∨ url.head? = some '/' then url else '/' :: url
    else if ['/', '/'].isPrefixOf url then '/' :: '/' :: url
    else if u.scheme ≠ [] ∧ u.scheme ∈ usesNetloc ∧ (url = [] ∨ url.head? = some '/') then
      '/' :: '/' :: url
    else url
  let url := if u.scheme = [] then url else u.scheme ++ ':' :: url
  let url := if u.query = [] then url else url ++ '?' :: u.query
  if u.fragment = [] then url else url ++ '#' :: u.fragment

/-- The segments that are joined; the empty ones of a relative path count at its ends only. -/
def segmentsOf (basePath path : List Char) : List (List Char) :=
  if path.head? = some '/' then path.splitOn '/'
  else
    let parts := basePath.splitOn '/'
    let segments := (if parts.getLast? = some [] then parts else parts.dropLast) ++ path.splitOn '/'
    segments.take 1 ++ (segments.drop 1).dropLast.filter (· ≠ []) ++
      (segments.drop 1).getLast?.toList

def resolvedPath (segments : List (List Char)) : List (List Char) :=
  segments.foldl (fun resolved seg =>
      if seg = ['.', '.'] then resolved.dropLast
      else if seg = ['.'] then resolved else resolved ++ [seg]) [] ++
    if segments.getLast? = some ['.'] ∨ segments.getLast? = some ['.', '.'] then [[]] else []

/-- `urljoin`, with nothing where it raises. -/
def urljoin (text : TextOps) (base url : List Char) : Option (List Char) :=
  if base = [] then some url
  else if url = [] then some base
  else do
    let b ← parseUrl text base []
    let u ← parseUrl text url b.scheme
    if u.scheme ≠ b.scheme ∨ u.scheme ∉ usesRelative then some url
    else if u.scheme ∈ usesNetloc ∧ u.netloc ≠ [] then some (urlunparse u)
    else
      let netloc := if u.scheme ∈ usesNetloc then b.netloc else u.netloc
      if u.path = [] ∧ u.params = [] then
        let query := if u.query = [] then b.query else u.query
        some (urlunparse { u with
          netloc := netloc, path := b.path, params := b.params, query := query })
      else
        let joined := ['/'].intercalate (resolvedPath (segmentsOf b.path u.path))
        some (urlunparse { u with
          netloc := netloc, path := if joined = [] then ['/'] else joined })

/-- `_ALWAYS_SAFE`. -/
def alwaysSafe (c : Char) : Bool := c.isAlphanum || ['_', '.', '-', '~'].contains c

def hexDigit (n : Nat) : Char := "0123456789ABCDEF".toList.getD n '0'

def quoteChar (c : Char) : List Char :=
  if alwaysSafe c then [c]
  else (String.utf8EncodeChar c).flatMap fun b =>
    ['%', hexDigit (b.toNat / 16), hexDigit (b.toNat % 16)]

/-- `quote(text, safe="")`. -/
def quote (text : List Char) : List Char := text.flatMap quoteChar

/-! ## The rewriter -/

/-- `_PROXY_PATH`. -/
def proxyPath : List Char := "/api/desktop/browser/proxy".toList

def profileKey : List Char := "profile_id=".toList

def urlKey : List Char := "&url=".toList

def proxyQuery (profileId absolute : List Char) : List Char :=
  profileKey ++ quote profileId ++ urlKey ++ quote absolute

/-- `_proxy_url`. -/
def proxyUrl (profileId absolute : List Char) : List Char :=
  proxyPath ++ '?' :: proxyQuery profileId absolute

/-- `_SKIP_PREFIXES`. -/
def skipPrefixes : List (List Char) :=
  ["data:", "javascript:", "mailto:", "tel:", "blob:", "about:", "#"].map String.toList

/-- `_should_rewrite`. -/
def shouldRewrite (url : List Char) : Bool :=
  url ≠ [] && !skipPrefixes.any fun p => p.isPrefixOf url

/-- `absolute.startswith(("http://", "https://"))`. -/
def startsHttp (url : List Char) : Bool :=
  "http://".toList.isPrefixOf url || "https://".toList.isPrefixOf url

/-- `_rewrite_one`, with nothing where it raises. -/
def rewriteOne (text : TextOps) (profileId base url : List Char) : Option (List Char) :=
  if shouldRewrite url then
    (urljoin text base url).map fun absolute =>
      if startsHttp absolute then proxyUrl profileId absolute else url
  else some url

/-- The scheme of a URL is one of the proxy's, in any letter case. -/
def HasHttpScheme (text : TextOps) (url : List Char) : Prop :=
  ∃ parts ∈ parseUrl text url [], parts.scheme = "http".toList ∨ parts.scheme = "https".toList

instance (text : TextOps) (url : List Char) : Decidable (HasHttpScheme text url) :=
  decidable_of_iff ((parseUrl text url []).any fun parts =>
    parts.scheme = "http".toList || parts.scheme = "https".toList) (by
      simp only [HasHttpScheme, Option.any_eq_true, Bool.or_eq_true, decide_eq_true_eq,
        Option.mem_def])

/-- The resolved URL is proxied, and the result stays as it is. -/
structure RewritesWell (text : TextOps) (profileId base url absolute : List Char) : Prop where
  complete : rewriteOne text profileId base url = some (proxyUrl profileId absolute)
  idempotent : rewriteOne text profileId base (proxyUrl profileId absolute) =
    some (proxyUrl profileId absolute)

/-! ## Proxied URLs -/

/-- The characters of a quoted text. -/
theorem mem_quote {text : List Char} {c : Char} (h : c ∈ quote text) :
    alwaysSafe c = true ∨ c = '%' := by
  have hdigit : ∀ n < 16, alwaysSafe (hexDigit n) = true := by decide
  obtain ⟨d, -, hc⟩ := List.mem_flatMap.mp h
  rw [quoteChar] at hc
  split at hc
  · rename_i hsafe
    rw [List.mem_singleton.mp hc]
    exact Or.inl hsafe
  · obtain ⟨b, -, hc⟩ := List.mem_flatMap.mp hc
    have hb : b.toNat < 256 := b.toNat_lt
    simp only [List.mem_cons, List.not_mem_nil, or_false] at hc
    rcases hc with rfl | rfl | rfl
    · exact Or.inr rfl
    · exact Or.inl (hdigit _ (by omega))
    · exact Or.inl (hdigit _ (by omega))

theorem quoteChar_length_pos (c : Char) : 0 < (quoteChar c).length := by
  have hpos : 0 < (String.utf8EncodeChar c).length := by
    rw [String.length_utf8EncodeChar]
    exact c.utf8Size_pos
  rw [quoteChar]
  split
  · simp
  · simp only [List.length_flatMap, List.length_cons, List.length_nil, List.map_const',
      List.sum_replicate, smul_eq_mul]
    omega

/-- Quoting makes no text shorter. -/
theorem length_le_quote (text : List Char) : text.length ≤ (quote text).length := by
  induction text with
  | nil => simp
  | cons c text ih =>
    have hpos := quoteChar_length_pos c
    simp only [quote, List.flatMap_cons, List.length_append, List.length_cons] at ih ⊢
    omega

variable {text : TextOps} {profileId absolute joined base : List Char}

/-- The characters of a proxied URL. -/
theorem mem_proxyUrl {c : Char} (h : c ∈ proxyUrl profileId absolute) :
    alwaysSafe c = true ∨ c ∈ ['%', '/', '?', '=', '&'] := by
  have hpath : (proxyPath ++ '?' :: (profileKey ++ urlKey)).all
      (fun d => alwaysSafe d || ['%', '/', '?', '=', '&'].contains d) = true := by
    decide
  have hquote : ∀ text, c ∈ quote text → alwaysSafe c = true ∨ c ∈ ['%', '/', '?', '=', '&'] := by
    intro text hc
    rcases mem_quote hc with hsafe | rfl
    · exact Or.inl hsafe
    · exact Or.inr (by decide)
  have hfixed : c ∈ proxyPath ++ '?' :: (profileKey ++ urlKey) →
      alwaysSafe c = true ∨ c ∈ ['%', '/', '?', '=', '&'] := by
    intro hc
    simpa using List.all_eq_true.mp hpath c hc
  simp only [proxyUrl, proxyQuery, List.mem_append, List.mem_cons] at h hfixed
  grind

/-- A proxied URL is longer than the URL. -/
theorem length_lt_proxyUrl (profileId absolute : List Char) :
    absolute.length < (proxyUrl profileId absolute).length := by
  have hle := length_le_quote absolute
  simp only [proxyUrl, proxyQuery, List.length_append, List.length_cons]
  omega

theorem splitScheme_slash (rest : List Char) : splitScheme ('/' :: rest) = ([], '/' :: rest) := by
  have hfirst : ('/' :: rest).takeWhile (· ≠ ':') = '/' :: rest.takeWhile (· ≠ ':') := by simp
  simp only [splitScheme, hfirst]
  split
  · rfl
  · rfl

/-- A proxied URL has a path and a query, and takes the scheme of its base. -/
theorem parseUrl_proxyUrl (text : TextOps) (profileId absolute scheme : List Char) :
    parseUrl text (proxyUrl profileId absolute) scheme =
      some ⟨scheme, [], proxyPath, [], proxyQuery profileId absolute, []⟩ := by
  have hclean : ∀ c ∈ proxyUrl profileId absolute,
      (c ≠ '\t' ∧ c ≠ '\r' ∧ c ≠ '\n') ∧ c ≠ '#' := by
    intro c hc
    have hmem := mem_proxyUrl hc
    refine ⟨⟨?_, ?_, ?_⟩, ?_⟩ <;> (rintro rfl; exact absurd hmem (by decide))
  have hkept : (proxyUrl profileId absolute).filter
      (fun c => c ≠ '\t' ∧ c ≠ '\r' ∧ c ≠ '\n') = proxyUrl profileId absolute :=
    List.filter_eq_self.mpr fun c hc => by simpa using (hclean c hc).1
  have hfront : (proxyUrl profileId absolute).takeWhile (· ≠ '#') = proxyUrl profileId absolute :=
    List.takeWhile_eq_self_iff.mpr fun c hc => by simpa using (hclean c hc).2
  have hfragment : (proxyUrl profileId absolute).dropWhile (· ≠ '#') = [] :=
    List.dropWhile_eq_nil_iff.mpr fun c hc => by simpa using (hclean c hc).2
  have hpath : (proxyUrl profileId absolute).takeWhile (· ≠ '?') = proxyPath := by
    rw [proxyUrl, List.takeWhile_append_of_pos (List.all_eq_true.mp (by decide))]
    simp
  have hquery : (proxyUrl profileId absolute).dropWhile (· ≠ '?') =
      '?' :: proxyQuery profileId absolute := by
    rw [proxyUrl, List.dropWhile_append_of_pos (List.all_eq_true.mp (by decide))]
    simp
  have hshape : proxyUrl profileId absolute =
      '/' :: (proxyPath.drop 1 ++ '?' :: proxyQuery profileId absolute) := rfl
  have hstart : (proxyUrl profileId absolute).dropWhile (· ≤ ' ') =
      proxyUrl profileId absolute := by
    rw [hshape]
    rfl
  have hscheme : splitScheme (proxyUrl profileId absolute) =
      ([], proxyUrl profileId absolute) := by
    rw [hshape, splitScheme_slash]
  have hrooted : ['/', '/'].isPrefixOf (proxyUrl profileId absolute) = false := rfl
  have hparams : splitParams proxyPath = (proxyPath, []) := by decide
  simp only [parseUrl, hstart, hkept, hscheme, netlocOf, hrooted, Bool.false_eq_true, if_false,
    if_true, hfront, hfragment, hpath, hquery, hparams]
  simp

/-- The scheme and the host of a base. -/
def UrlParts.origin (b : UrlParts) : List Char :=
  (if b.scheme = [] then [] else b.scheme ++ [':']) ++
    if b.netloc = [] ∧ b.scheme = [] then [] else '/' :: '/' :: b.netloc

/-- A proxied path behind the origin of the base. -/
theorem urlunparse_proxyPath {b : UrlParts} {query : List Char} (hscheme : b.scheme ∈ usesNetloc)
    (hquery : query ≠ []) :
    urlunparse ⟨b.scheme, b.netloc, proxyPath, [], query, []⟩ =
      b.origin ++ (proxyPath ++ '?' :: query) := by
  have hhead : proxyPath.head? = some '/' := rfl
  have hrooted : ['/', '/'].isPrefixOf proxyPath = false := by decide
  by_cases hs : b.scheme = []
  · by_cases hn : b.netloc = []
    · simp [urlunparse, UrlParts.origin, hs, hn, hquery, hrooted]
    · simp [urlunparse, UrlParts.origin, hs, hn, hquery, hhead]
  · by_cases hn : b.netloc = []
    · simp [urlunparse, UrlParts.origin, hs, hn, hquery, hrooted, hscheme, hhead]
    · simp [urlunparse, UrlParts.origin, hs, hn, hquery, hhead]

/-- What a proxied URL resolves to: itself behind the origin of the base, where the base has a
scheme that relative URLs go with. -/
theorem urljoin_proxied (text : TextOps) (profileId absolute base : List Char) :
    urljoin text base (proxyUrl profileId absolute) =
      if base = [] then some (proxyUrl profileId absolute)
      else (parseUrl text base []).map fun b =>
        if b.scheme ∈ usesRelative then b.origin ++ proxyUrl profileId absolute
        else proxyUrl profileId absolute := by
  have hne : proxyUrl profileId absolute ≠ [] := by simp [proxyUrl]
  have hpath : proxyPath ≠ [] := by decide
  have hnetloc : ∀ s ∈ usesRelative, s ∈ usesNetloc := by decide
  have hsegments : ∀ basePath, ['/'].intercalate (resolvedPath (segmentsOf basePath proxyPath)) =
      proxyPath := by
    intro basePath
    have hrooted : segmentsOf basePath proxyPath = proxyPath.splitOn '/' := if_pos rfl
    rw [hrooted]
    decide
  unfold urljoin
  split
  · rfl
  · cases hb : parseUrl text base [] with
    | none => simp
    | some b =>
      simp only [if_false, Option.bind_eq_bind, Option.bind_some, parseUrl_proxyUrl,
        Option.map_some, ne_eq, not_true_eq_false, false_or, and_false]
      split
      · rfl
      · rename_i hrelative
        have hrelative := not_not.mp hrelative
        simp only [hnetloc _ hrelative, if_true, hpath, false_and, if_false, hsegments,
          hrelative]
        rw [urlunparse_proxyPath (hnetloc _ hrelative) (by simp [proxyQuery, urlKey])]
        rfl

theorem length_le_of_urljoin (h : urljoin text base (proxyUrl profileId absolute) = some joined) :
    (proxyUrl profileId absolute).length ≤ joined.length := by
  rw [urljoin_proxied] at h
  split at h
  · rw [← Option.some.inj h]
  · obtain ⟨b, -, hjoined⟩ := Option.map_eq_some_iff.mp h
    rw [← hjoined]
    split
    · simp
    · exact le_rfl

/-- A text begins with a scheme that has no colon in it if that is what stands before the first
one. -/
theorem isPrefixOf_scheme {scheme other rest : List Char} (tail : List Char)
    (hscheme : ':' ∉ scheme) (hother : ':' ∉ other)
    (h : (scheme ++ ':' :: tail).isPrefixOf (other ++ ':' :: rest) = true) : other = scheme := by
  obtain ⟨suffix, hsuffix⟩ := List.isPrefixOf_iff_prefix.mp h
  have hfirst := congrArg (List.takeWhile (· ≠ ':')) hsuffix
  have hall : ∀ s : List Char, ':' ∉ s → ∀ c ∈ s, decide (c ≠ ':') = true := by
    intro s hs c hc
    simpa using ne_of_mem_of_not_mem hc hs
  rw [List.append_assoc, List.cons_append, List.takeWhile_append_of_pos (hall _ hscheme),
    List.takeWhile_append_of_pos (hall _ hother)] at hfirst
  simpa using hfirst.symm

/-- When a URL behind an origin begins with http. -/
theorem startsHttp_origin {b : UrlParts} {rest : List Char} (hb : b.scheme ∈ usesRelative) :
    startsHttp (b.origin ++ '/' :: rest) = true ↔
      b.scheme = "http".toList ∨ b.scheme = "https".toList := by
  have hcolon : ∀ s ∈ usesRelative, ':' ∉ s := by decide
  constructor
  · intro h
    by_cases hs : b.scheme = []
    · by_cases hn : b.netloc = []
      · simp [startsHttp, UrlParts.origin, hs, hn] at h
      · simp [startsHttp, UrlParts.origin, hs, hn] at h
    · have hshape : b.origin ++ '/' :: rest =
          b.scheme ++ ':' :: ('/' :: '/' :: b.netloc ++ '/' :: rest) := by
        simp [UrlParts.origin, hs]
      rw [hshape, startsHttp, Bool.or_eq_true] at h
      rcases h with h | h
      · exact Or.inl (isPrefixOf_scheme ['/', '/'] (by decide) (hcolon _ hb) h)
      · exact Or.inr (isPrefixOf_scheme ['/', '/'] (by decide) (hcolon _ hb) h)
  · rintro (h | h)
    · simp [startsHttp, UrlParts.origin, h]
    · simp [startsHttp, UrlParts.origin, h]

/-- A proxied URL is wrapped once more if and only if the base has a scheme of the proxy. -/
theorem wraps_iff (h : urljoin text base (proxyUrl profileId absolute) = some joined) :
    startsHttp joined = true ↔ HasHttpScheme text base := by
  have hrooted : startsHttp (proxyUrl profileId absolute) = false := rfl
  have hrelative : "http".toList ∈ usesRelative ∧ "https".toList ∈ usesRelative := by decide
  rw [urljoin_proxied] at h
  split at h
  · rename_i hbase
    have hempty : ¬ HasHttpScheme text [] := by
      rintro ⟨parts, hparts, hscheme⟩
      simp [parseUrl, splitScheme, netlocOf] at hparts
      simp [← hparts] at hscheme
    rw [← Option.some.inj h, hrooted, hbase]
    simpa using hempty
  · obtain ⟨b, hb, hjoined⟩ := Option.map_eq_some_iff.mp h
    have hbase : HasHttpScheme text base ↔
        b.scheme = "http".toList ∨ b.scheme = "https".toList := by
      simp [HasHttpScheme, hb]
    rw [hbase, ← hjoined]
    split
    · rename_i hmem
      exact startsHttp_origin hmem
    · rename_i hmem
      rw [hrooted]
      constructor
      · intro hfalse
        cases hfalse
      · rintro (hs | hs)
        · exact absurd (hs ▸ hrelative.1) hmem
        · exact absurd (hs ▸ hrelative.2) hmem

/-- The value resolves to a URL with a scheme of the proxy. -/
structure ResolvesToHttp (text : TextOps) (base url absolute : List Char) : Prop where
  urljoin_eq : urljoin text base url = some absolute
  hasHttpScheme : HasHttpScheme text absolute

/-- URLs proxied alike are quoted alike. -/
theorem proxyUrl_injective (h : proxyUrl profileId absolute = proxyUrl profileId joined) :
    quote absolute = quote joined := by
  simpa [proxyUrl, proxyQuery] using h

/-- When a proxied URL is left as it is. -/
theorem rewriteOne_proxyUrl_iff
    (h : urljoin text base (proxyUrl profileId absolute) = some joined) :
    rewriteOne text profileId base (proxyUrl profileId absolute) =
      some (proxyUrl profileId absolute) ↔ ¬ HasHttpScheme text base := by
  have hshould : shouldRewrite (proxyUrl profileId absolute) = true := rfl
  rw [← wraps_iff h, rewriteOne, if_pos hshould, h]
  constructor
  · intro hsame hstarts
    simp only [Option.map_some, hstarts, if_true, Option.some.injEq] at hsame
    have hlength := length_le_of_urljoin h
    have hquote := congrArg List.length (proxyUrl_injective hsame)
    have hle := length_le_quote joined
    have hpart : (quote absolute).length < (proxyUrl profileId absolute).length := by
      simp only [proxyUrl, proxyQuery, List.length_append, List.length_cons]
      omega
    omega
  · intro hstarts
    simp [hstarts]

/-- A value that resolves to a URL of the web is rewritten once and for all if and only if it is not
skipped, the resolved URL begins with a lower-case scheme, and the base is none of the web. -/
theorem rewritesWell_iff {text : TextOps} {profileId base url absolute : List Char}
    (h : ResolvesToHttp text base url absolute) :
    RewritesWell text profileId base url absolute ↔
      shouldRewrite url = true ∧ startsHttp absolute = true ∧ ¬ HasHttpScheme text base := by
  have hjoin := h.urljoin_eq
  have hcomplete : rewriteOne text profileId base url = some (proxyUrl profileId absolute) ↔
      shouldRewrite url = true ∧ startsHttp absolute = true := by
    rw [rewriteOne]
    constructor
    · intro hone
      split at hone
      · rename_i hshould
        refine ⟨hshould, ?_⟩
        by_contra hstarts
        simp only [hjoin, Option.map_some, hstarts, if_false, Option.some.injEq] at hone
        rw [hone] at hjoin
        have hle := length_le_of_urljoin hjoin
        exact absurd (length_lt_proxyUrl profileId absolute) (not_lt.mpr hle)
      · rename_i hshould
        rw [Option.some.inj hone] at hshould
        exact absurd rfl hshould
    · rintro ⟨hshould, hstarts⟩
      simp [hshould, hjoin, hstarts]
  have hsome : shouldRewrite url = true →
      ∃ joined, urljoin text base (proxyUrl profileId absolute) = some joined := by
    intro hshould
    have hurl : url ≠ [] := by
      rintro rfl
      cases hshould
    rw [urljoin_proxied]
    by_cases hbase : base = []
    · simp [hbase]
    · cases hb : parseUrl text base [] with
      | none => simp [urljoin, hbase, hurl, hb] at hjoin
      | some b => simp [hbase]
  constructor
  · intro hwell
    obtain ⟨hshould, hstarts⟩ := hcomplete.mp hwell.complete
    obtain ⟨joined, hjoined⟩ := hsome hshould
    exact ⟨hshould, hstarts, (rewriteOne_proxyUrl_iff hjoined).mp hwell.idempotent⟩
  · rintro ⟨hshould, hstarts, hbase⟩
    obtain ⟨joined, hjoined⟩ := hsome hshould
    exact ⟨hcomplete.mpr ⟨hshould, hstarts⟩, (rewriteOne_proxyUrl_iff hjoined).mpr hbase⟩

/-- From a page that is not of the web. -/
theorem rewritesWell_ftp :
    RewritesWell asciiText "p".toList "ftp://example.com/".toList "http://b.org/x".toList
      "http://b.org/x".toList := by
  have hresolves : ResolvesToHttp asciiText "ftp://example.com/".toList "http://b.org/x".toList
      "http://b.org/x".toList := ⟨by decide, by decide⟩
  exact (rewritesWell_iff hresolves).mpr ⟨by decide, by decide, by decide⟩

/-- A picture of an ordinary page is rewritten twice. -/
theorem not_rewritesWell :
    urljoin asciiText "https://example.com/".toList "a.png".toList =
        some "https://example.com/a.png".toList ∧
      ¬ RewritesWell asciiText "p".toList "https://example.com/".toList "a.png".toList
        "https://example.com/a.png".toList := by
  refine ⟨by decide, fun h => ?_⟩
  exact absurd h.idempotent (by decide)

end TinyAgentOS.Browser
