/-
URLs as `urllib.parse` takes them apart and puts them together.

`urlsplit` knows a scheme, a network location behind two slashes, a path, a
query and a fragment, and `urlparse` cuts the parameters off the last segment
of the path. What `urlunparse` writes of a location, a path from the root,
parameters and a query is read back as it was (`urlparse_urlunparse`).
-/
import Nexus.Lib.CutAt
import Nexus.Lib.ExceptFacts
import Nexus.Lib.IpAddress
import Nexus.Lib.LowerCase
import Mathlib.Data.List.TakeWhile
import Mathlib.Tactic.Tauto

namespace UrlParse

open CutAt LowerCase

inductive ValueError
  | invalidIPv6Url
  | invalidIpvFuture
  | invalidAddress
  | invalidNetloc
  | invalidPort
  deriving DecidableEq, Repr

/-- The case mappings, and `unicodedata.normalize("NFKC", ·)`. -/
structure UnicodeData where
  case : CaseTable
  nfkc : List Char → List Char

structure SplitResult where
  scheme : List Char
  netloc : List Char
  path : List Char
  query : List Char
  fragment : List Char
  deriving DecidableEq, Repr

structure ParseResult where
  scheme : List Char
  netloc : List Char
  path : List Char
  params : List Char
  query : List Char
  fragment : List Char
  deriving DecidableEq, Repr

/-! ## The parts of a location -/

/-- `netloc.rpartition('@')` -/
def hostport (netloc : List Char) : List Char := (cutLast '@' netloc).2

def userinfo (netloc : List Char) : Option (List Char) × Option (List Char) :=
  match (cutLast '@' netloc).1 with
  | .some userinfo =>
    let (username, password) := cutFirst ':' userinfo
    (.some username, password)
  | .none => (.none, .none)

/-- `_hostinfo`: a host in brackets or up to the first colon, and what stands for the port. -/
def hostinfo (netloc : List Char) : List Char × Option (List Char) :=
  let (hostname, port) := match cutFirst '[' (hostport netloc) with
    | (_, .some bracketed) =>
      let (hostname, port) := cutFirst ']' bracketed
      (hostname, (cutFirst ':' (port.getD [])).2)
    | (_, .none) => cutFirst ':' (hostport netloc)
  (hostname, port.filter fun port => !port.isEmpty)

namespace ParseResult

variable (parsed : ParseResult)

def username : Option (List Char) := (userinfo parsed.netloc).1

def password : Option (List Char) := (userinfo parsed.netloc).2

/-- `hostname`: lowercase up to a scope. -/
def hostname (U : UnicodeData) : Option (List Char) :=
  let hostname := (hostinfo parsed.netloc).1
  if hostname.isEmpty then .none
  else .some <| match cutFirst '%' hostname with
    | (address, .some zone) => U.case.lower address ++ '%' :: zone
    | (address, .none) => U.case.lower address

def port : Except ValueError (Option Nat) :=
  match (hostinfo parsed.netloc).2 with
  | .none => .ok .none
  | .some port =>
    if !port.all Char.isDigit then .error .invalidPort
    else if 65535 < IpAddress.decimalValue port then .error .invalidPort
    else .ok (.some (IpAddress.decimalValue port))

end ParseResult

/-! ## Splitting -/

def isSchemeChar (c : Char) : Bool := c.isAlphanum || c == '+' || c == '-' || c == '.'

/-- The scheme before the first colon, in lowercase, or none. -/
def splitScheme (url : List Char) : List Char × List Char :=
  match cutFirst ':' url with
  | (scheme, .some behind) =>
    if scheme.head?.any Char.isAlpha && scheme.all isSchemeChar then (scheme.map Char.toLower, behind) else ([], url)
  | (_, .none) => ([], url)

def isNetlocEnd (c : Char) : Bool := c == '/' || c == '?' || c == '#'

/-- `_splitnetloc`, of a text behind two slashes. -/
def splitNetloc (url : List Char) : List Char × List Char :=
  (url.takeWhile fun c => !isNetlocEnd c, url.dropWhile fun c => !isNetlocEnd c)

/-- `re.match(r"\Av[a-fA-F0-9]+\..+\Z", hostname)`, of a host that starts with `v`. -/
def isIpvFuture (hostname : List Char) : Bool :=
  match cutFirst '.' (hostname.drop 1) with
  | (version, .some address) =>
    !version.isEmpty && version.all (fun c => (IpAddress.hexDigit c).isSome) && !address.isEmpty && !address.contains '\n'
  | (_, .none) => false

def checkBracketedHost (hostname : List Char) : Except ValueError Unit :=
  if hostname.head? == .some 'v' then
    if isIpvFuture hostname then .ok () else .error .invalidIpvFuture
  else match IpAddress.ipAddress hostname with
    | .some (.v6 _) => .ok ()
    | _ => .error .invalidAddress

def checkBracketedNetloc (netloc : List Char) : Except ValueError Unit :=
  match cutFirst '[' (hostport netloc) with
  | (before, .some bracketed) =>
    let (hostname, port) := cutFirst ']' bracketed
    if !before.isEmpty then .error .invalidIPv6Url
    else if port.any fun port => !port.isEmpty && port.head? != .some ':' then .error .invalidIPv6Url
    else checkBracketedHost hostname
  | (_, .none) => checkBracketedHost (cutFirst ':' (hostport netloc)).1

def checkBrackets (netloc : List Char) : Except ValueError Unit :=
  if netloc.contains '[' != netloc.contains ']' then .error .invalidIPv6Url
  else if netloc.contains '[' then checkBracketedNetloc netloc
  else .ok ()

def checkNetloc (U : UnicodeData) (netloc : List Char) : Except ValueError Unit :=
  if netloc.all fun c => c.toNat < 128 then .ok ()
  else
    let n := netloc.filter fun c => !(c == '@' || c == ':' || c == '#' || c == '?')
    if n == U.nfkc n then .ok ()
    else if (U.nfkc n).any fun c => c == '/' || c == '?' || c == '#' || c == '@' || c == ':' then .error .invalidNetloc
    else .ok ()

/-- The location and what is behind it. -/
def takeNetloc (url : List Char) : Except ValueError (List Char × List Char) :=
  match url with
  | '/' :: '/' :: url => do
    let (netloc, url) := splitNetloc url
    checkBrackets netloc
    return (netloc, url)
  | _ => .ok ([], url)

def isStripped (c : Char) : Bool := c.toNat ≤ 32

def isRemoved (c : Char) : Bool := c == '\t' || c == '\r' || c == '\n'

/-- The text without the characters `urlsplit` does not look at. -/
def cleaned (url : List Char) : List Char := (url.dropWhile isStripped).filter fun c => !isRemoved c

def urlsplit (U : UnicodeData) (url : List Char) : Except ValueError SplitResult := do
  let (scheme, url) := splitScheme (cleaned url)
  let (netloc, url) ← takeNetloc url
  let (url, fragment) := cutFirst '#' url
  let (path, query) := cutFirst '?' url
  checkNetloc U netloc
  return ⟨scheme, netloc, path, query.getD [], fragment.getD []⟩

def usesParams : List (List Char) :=
  [[], ['f', 't', 'p'], ['h', 'd', 'l'], ['p', 'r', 'o', 's', 'p', 'e', 'r', 'o'], ['h', 't', 't', 'p'],
    ['i', 'm', 'a', 'p'], ['h', 't', 't', 'p', 's'], ['s', 'h', 't', 't', 'p'], ['r', 't', 's', 'p'],
    ['r', 't', 's', 'p', 's'], ['r', 't', 's', 'p', 'u'], ['s', 'i', 'p'], ['s', 'i', 'p', 's'], ['m', 'm', 's'],
    ['s', 'f', 't', 'p'], ['t', 'e', 'l']]

/-- `_splitparams`: what is behind the first semicolon of the last segment. -/
def splitParams (url : List Char) : List Char × List Char :=
  match cutLast '/' url with
  | (.some directory, segment) =>
    match cutFirst ';' segment with
    | (segment, .some params) => (directory ++ '/' :: segment, params)
    | (_, .none) => (url, [])
  | (.none, _) =>
    let (path, params) := cutFirst ';' url
    (path, params.getD [])

def urlparse (U : UnicodeData) (url : List Char) : Except ValueError ParseResult := do
  let split ← urlsplit U url
  let (path, params) :=
    if usesParams.contains split.scheme && split.path.contains ';' then splitParams split.path else (split.path, [])
  return ⟨split.scheme, split.netloc, path, params, split.query, split.fragment⟩

/-! ## Putting together -/

def usesNetloc : List (List Char) :=
  [[], ['f', 't', 'p'], ['h', 't', 't', 'p'], ['g', 'o', 'p', 'h', 'e', 'r'], ['n', 'n', 't', 'p'],
    ['t', 'e', 'l', 'n', 'e', 't'], ['i', 'm', 'a', 'p'], ['w', 'a', 'i', 's'], ['f', 'i', 'l', 'e'], ['m', 'm', 's'],
    ['h', 't', 't', 'p', 's'], ['s', 'h', 't', 't', 'p'], ['s', 'n', 'e', 'w', 's'],
    ['p', 'r', 'o', 's', 'p', 'e', 'r', 'o'], ['r', 't', 's', 'p'], ['r', 't', 's', 'p', 's'], ['r', 't', 's', 'p', 'u'],
    ['r', 's', 'y', 'n', 'c'], ['s', 'v', 'n'], ['s', 'v', 'n', '+', 's', 's', 'h'], ['s', 'f', 't', 'p'], ['n', 'f', 's'],
    ['g', 'i', 't'], ['g', 'i', 't', '+', 's', 's', 'h'], ['w', 's'], ['w', 's', 's']]

def withNetloc (scheme netloc url : List Char) : List Char :=
  if !netloc.isEmpty then '/' :: '/' :: (netloc ++ if !url.isEmpty && url.head? != .some '/' then '/' :: url else url)
  else if url.take 2 == ['/', '/'] then '/' :: '/' :: url
  else if !scheme.isEmpty && usesNetloc.contains scheme && (url.isEmpty || url.head? == .some '/') then '/' :: '/' :: url
  else url

def urlunsplit (parts : SplitResult) : List Char :=
  let url := withNetloc parts.scheme parts.netloc parts.path
  let url := if parts.scheme.isEmpty then url else parts.scheme ++ ':' :: url
  let url := if parts.query.isEmpty then url else url ++ '?' :: parts.query
  if parts.fragment.isEmpty then url else url ++ '#' :: parts.fragment

def urlunparse (parts : ParseResult) : List Char :=
  urlunsplit ⟨parts.scheme, parts.netloc, if parts.params.isEmpty then parts.path else parts.path ++ ';' :: parts.params,
    parts.query, parts.fragment⟩

/-! ## What a parse gives -/

/-- The parts a parse gives of a URL with a location, when its scheme has parameters. -/
structure Parts (parsed : ParseResult) : Prop where
  clean : ∀ c ∈ parsed.netloc ++ parsed.path ++ parsed.params ++ parsed.query, isRemoved c = false
  netloc : ∀ c ∈ parsed.netloc, isNetlocEnd c = false
  path : ∀ c ∈ parsed.path, c ≠ '?' ∧ c ≠ '#'
  rooted : parsed.path = [] ∨ ∃ rest, parsed.path = '/' :: rest
  segment : ';' ∉ (cutLast '/' parsed.path).2
  params : ∀ c ∈ parsed.params, c ≠ '/' ∧ c ≠ '?' ∧ c ≠ '#'
  params_nil : parsed.path = [] → parsed.params = []
  query : '#' ∉ parsed.query

theorem splitScheme_subset (url : List Char) : (splitScheme url).2 ⊆ url := by
  unfold splitScheme
  rcases cutFirst_cases ':' url with ⟨_, h⟩ | ⟨before, behind, rfl, _, h⟩
  · rw [h]
    exact List.Subset.refl url
  · rw [h]
    dsimp only
    split
    · exact fun c hc => List.mem_append_right _ (List.mem_cons_of_mem _ hc)
    · exact List.Subset.refl _

theorem splitScheme_lower (url : List Char) : (splitScheme url).1.map Char.toLower = (splitScheme url).1 := by
  unfold splitScheme
  rcases cutFirst ':' url with ⟨scheme, _ | behind⟩
  · rfl
  · dsimp only
    split
    · rw [List.map_map]
      exact List.map_congr_left fun c _ => toLower_toLower c
    · rfl

theorem urlparse_scheme {U : UnicodeData} {url : List Char} {parsed : ParseResult} (h : urlparse U url = .ok parsed) :
    parsed.scheme.map Char.toLower = parsed.scheme := by
  unfold urlparse urlsplit at h
  obtain ⟨split, hsplit, h⟩ := ExceptFacts.bind_eq_ok.1 h
  have hlower := splitScheme_lower (cleaned url)
  rcases splitScheme (cleaned url) with ⟨scheme, behind⟩
  obtain ⟨⟨netloc, rest⟩, _, hsplit⟩ := ExceptFacts.bind_eq_ok.1 hsplit
  dsimp only at hsplit
  obtain ⟨_, _, hsplit⟩ := ExceptFacts.bind_eq_ok.1 hsplit
  cases hsplit
  cases h
  exact hlower

theorem takeNetloc_ok {url netloc rest : List Char} (h : takeNetloc url = .ok (netloc, rest)) (hne : netloc ≠ []) :
    url = '/' :: '/' :: (netloc ++ rest) ∧ (∀ c ∈ netloc, isNetlocEnd c = false) ∧
      (rest = [] ∨ ∃ c tail, rest = c :: tail ∧ isNetlocEnd c = true) ∧ checkBrackets netloc = .ok () := by
  unfold takeNetloc at h
  split at h
  next url =>
    obtain ⟨_, hbrackets, h⟩ := ExceptFacts.bind_eq_ok.1 h
    cases h
    refine ⟨?_, ?_, ?_, hbrackets⟩
    · rw [List.takeWhile_append_dropWhile]
    · intro c hc
      simpa using List.mem_takeWhile_imp hc
    · rcases hdrop : url.dropWhile fun c => !isNetlocEnd c with _ | ⟨c, tail⟩
      · exact .inl rfl
      · refine .inr ⟨c, tail, rfl, ?_⟩
        have hhead := List.head?_dropWhile_not (fun c => !isNetlocEnd c) url
        rw [hdrop] at hhead
        simpa using hhead
  next =>
    cases h
    exact absurd rfl hne

theorem splitParams_rooted {url : List Char} (hroot : ∃ rest, url = '/' :: rest) :
    ((splitParams url).1 = url ∧ (splitParams url).2 = [] ∨ url = (splitParams url).1 ++ ';' :: (splitParams url).2) ∧
      (∃ rest, (splitParams url).1 = '/' :: rest) ∧ ';' ∉ (cutLast '/' (splitParams url).1).2 ∧
      '/' ∉ (splitParams url).2 := by
  unfold splitParams
  obtain ⟨rest, hrest⟩ := hroot
  rcases cutLast_cases '/' url with ⟨hnot, _⟩ | ⟨directory, segment, hurl, hsegment, hcut⟩
  · rw [hrest] at hnot
    exact absurd List.mem_cons_self hnot
  · rw [hcut]
    dsimp only
    rcases cutFirst_cases ';' segment with ⟨hnone, hfirst⟩ | ⟨before, params, rfl, hbefore, hfirst⟩
    · rw [hfirst]
      refine ⟨.inl ⟨rfl, rfl⟩, ⟨rest, hrest⟩, ?_, List.not_mem_nil⟩
      rwa [hcut]
    · rw [hfirst]
      rw [List.mem_append, List.mem_cons, not_or, not_or] at hsegment
      refine ⟨.inr ?_, ?_, ?_, hsegment.2.2⟩
      · rw [hurl, List.append_assoc, List.cons_append]
      · cases directory with
        | nil => exact ⟨before, rfl⟩
        | cons c directory =>
          rw [hrest] at hurl
          cases hurl
          exact ⟨_, rfl⟩
      · rwa [cutLast_append hsegment.1]

theorem urlsplit_ok {U : UnicodeData} {url : List Char} {split : SplitResult} (h : urlsplit U url = .ok split)
    (hne : split.netloc ≠ []) :
    (∀ c ∈ split.netloc ++ split.path ++ split.query, isRemoved c = false) ∧
      (∀ c ∈ split.netloc, isNetlocEnd c = false) ∧ (∀ c ∈ split.path, c ≠ '?' ∧ c ≠ '#') ∧
      (split.path = [] ∨ ∃ rest, split.path = '/' :: rest) ∧ '#' ∉ split.query ∧
      checkBrackets split.netloc = .ok () ∧ checkNetloc U split.netloc = .ok () := by
  unfold urlsplit at h
  rcases hscheme : splitScheme (cleaned url) with ⟨scheme, behind⟩
  rw [hscheme] at h
  dsimp only at h
  obtain ⟨⟨netloc, rest⟩, hnetloc, h⟩ := ExceptFacts.bind_eq_ok.1 h
  dsimp only at h
  obtain ⟨_, hcheck, h⟩ := ExceptFacts.bind_eq_ok.1 h
  cases h
  obtain ⟨hbehind, hends, hrest, hbrackets⟩ := takeNetloc_ok hnetloc hne
  have hclean : ∀ c ∈ netloc ++ rest, isRemoved c = false := by
    intro c hc
    have hmem : c ∈ cleaned url := by
      have hsub := splitScheme_subset (cleaned url)
      rw [hscheme, hbehind] at hsub
      exact hsub (List.mem_cons_of_mem _ (List.mem_cons_of_mem _ hc))
    simpa using (List.mem_filter.1 hmem).2
  have hpath := List.Subset.trans (cutFirst_subset '?' (cutFirst '#' rest).1) (cutFirst_subset '#' rest)
  have hquery : ((cutFirst '?' (cutFirst '#' rest).1).2.getD []) ⊆ (cutFirst '#' rest).1 := by
    rcases cutFirst_cases '?' (cutFirst '#' rest).1 with ⟨_, hcut⟩ | ⟨before, query, hall, _, hcut⟩
    · rw [hcut]
      exact List.nil_subset _
    · rw [hcut, hall]
      exact fun c hc => List.mem_append_right _ (List.mem_cons_of_mem _ hc)
  refine ⟨?_, hends, ?_, ?_, fun hmem => not_mem_cutFirst '#' rest (hquery hmem), hbrackets, hcheck⟩
  · intro c hc
    rcases List.mem_append.1 hc with hc | hc
    · rcases List.mem_append.1 hc with hc | hc
      · exact hclean c (List.mem_append_left _ hc)
      · exact hclean c (List.mem_append_right _ (hpath hc))
    · exact hclean c (List.mem_append_right _ (cutFirst_subset '#' rest (hquery hc)))
  · intro c hc
    refine ⟨?_, ?_⟩
    · rintro rfl
      exact not_mem_cutFirst '?' _ hc
    · rintro rfl
      exact not_mem_cutFirst '#' rest (cutFirst_subset '?' _ hc)
  · -- What is behind the location starts with a slash or is no path.
    dsimp only
    rcases hrest with rfl | ⟨c, tail, rfl, hend⟩
    · exact .inl rfl
    · unfold isNetlocEnd at hend
      rw [Bool.or_eq_true, Bool.or_eq_true, beq_iff_eq, beq_iff_eq, beq_iff_eq] at hend
      rcases hend with (rfl | rfl) | rfl
      · exact .inr ⟨_, by rw [cutFirst, if_neg (by decide), cutFirst, if_neg (by decide)]⟩
      · exact .inl (by rw [cutFirst, if_neg (by decide), cutFirst, if_pos rfl])
      · exact .inl (by rw [cutFirst, if_pos rfl]; rfl)

/-- **What a parse gives**: the parts of a URL with a location, which passed the checks of locations. -/
theorem urlparse_ok {U : UnicodeData} {url : List Char} {parsed : ParseResult} (h : urlparse U url = .ok parsed)
    (hne : parsed.netloc ≠ []) (huses : usesParams.contains parsed.scheme = true) :
    Parts parsed ∧ checkBrackets parsed.netloc = .ok () ∧ checkNetloc U parsed.netloc = .ok () := by
  unfold urlparse at h
  obtain ⟨split, hsplit, h⟩ := ExceptFacts.bind_eq_ok.1 h
  rcases hparams : (if usesParams.contains split.scheme && split.path.contains ';' then splitParams split.path
    else (split.path, [])) with ⟨path, params⟩
  rw [hparams] at h
  cases h
  obtain ⟨hclean, hends, hpath, hroot, hquery, hbrackets, hcheck⟩ := urlsplit_ok hsplit hne
  refine ⟨?_, hbrackets, hcheck⟩
  dsimp only at hne huses
  rw [huses, Bool.true_and] at hparams
  -- The two are in the path, and the first of them up to the last segment.
  have hspec : path ⊆ split.path ∧ params ⊆ split.path ∧ (path = [] ∨ ∃ rest, path = '/' :: rest) ∧
      ';' ∉ (cutLast '/' path).2 ∧ '/' ∉ params ∧ (path = [] → params = []) := by
    by_cases hsemi : split.path.contains ';' = true
    · rw [if_pos hsemi] at hparams
      have hne' : split.path ≠ [] := by
        rintro hnil
        rw [hnil] at hsemi
        cases hsemi
      obtain ⟨hshape, hrooted, hsegment, hslash⟩ := splitParams_rooted (hroot.resolve_left hne')
      rw [hparams] at hshape hrooted hsegment hslash
      refine ⟨?_, ?_, .inr hrooted, hsegment, hslash, ?_⟩
      · rcases hshape with ⟨hsame, _⟩ | hsame
        · exact hsame ▸ List.Subset.refl _
        · exact hsame ▸ List.subset_append_left _ _
      · rcases hshape with ⟨_, hnil⟩ | hsame
        · exact (show params = [] from hnil) ▸ List.nil_subset _
        · rw [hsame]
          exact fun c hc => List.mem_append_right _ (List.mem_cons_of_mem _ hc)
      · intro hnil
        obtain ⟨rest, hrest⟩ := hrooted
        exact absurd (hnil.symm.trans hrest) (List.cons_ne_nil _ _).symm
    · rw [if_neg hsemi] at hparams
      cases hparams
      rw [List.contains_iff_mem] at hsemi
      exact ⟨List.Subset.refl _, List.nil_subset _, hroot, fun hmem => hsemi (cutLast_subset '/' _ hmem),
        List.not_mem_nil, fun _ => rfl⟩
  obtain ⟨hpathsub, hparamsub, hrooted, hsegment, hslash, hnil⟩ := hspec
  refine ⟨?_, hends, fun c hc => hpath c (hpathsub hc), hrooted, hsegment, ?_, hnil, hquery⟩
  · intro c hc
    apply hclean
    simp only [List.mem_append] at hc ⊢
    rcases hc with ((hc | hc) | hc) | hc
    · exact .inl (.inl hc)
    · exact .inl (.inr (hpathsub hc))
    · exact .inl (.inr (hparamsub hc))
    · exact .inr hc
  · intro c hc
    refine ⟨?_, hpath c (hparamsub hc)⟩
    rintro rfl
    exact hslash hc

/-! ## Reading what was put together -/

/-- A scheme as a parse gives it. -/
structure IsScheme (scheme : List Char) : Prop where
  head : scheme.head?.any Char.isAlpha = true
  all : ∀ c ∈ scheme, isSchemeChar c = true
  lower : scheme.map Char.toLower = scheme
  uses : usesParams.contains scheme = true

theorem not_removed_of_isSchemeChar {c : Char} (h : isSchemeChar c = true) : isRemoved c = false := by
  unfold isRemoved
  by_contra hnot
  rw [Bool.not_eq_false, Bool.or_eq_true, Bool.or_eq_true, beq_iff_eq, beq_iff_eq, beq_iff_eq] at hnot
  rcases hnot with (rfl | rfl) | rfl
  · exact absurd h (by decide)
  · exact absurd h (by decide)
  · exact absurd h (by decide)

theorem not_stripped_of_isAlpha {c : Char} (h : c.isAlpha = true) : isStripped c = false := by
  unfold isStripped
  simp only [Char.isAlpha, Char.isUpper, Char.isLower, Bool.or_eq_true, Bool.and_eq_true, decide_eq_true_eq, ge_iff_le,
    UInt32.le_iff_toNat_le] at h
  have hconst : 'A'.val.toNat = 65 ∧ 'a'.val.toNat = 97 := by decide
  have hval : c.toNat = c.val.toNat := rfl
  rw [decide_eq_false_iff_not]
  omega

namespace IsScheme

variable {scheme : List Char}

theorem ne_nil (h : IsScheme scheme) : scheme ≠ [] := by
  rintro rfl
  exact absurd h.head (by decide)

theorem colon_not_mem (h : IsScheme scheme) : ':' ∉ scheme := fun hmem => absurd (h.all ':' hmem) (by decide)

/-- Nothing is cleaned off a text behind a scheme but what is removed. -/
theorem cleaned_append (h : IsScheme scheme) {rest : List Char} (hrest : ∀ c ∈ rest, isRemoved c = false) :
    cleaned (scheme ++ rest) = scheme ++ rest := by
  unfold cleaned
  have hdrop : (scheme ++ rest).dropWhile isStripped = scheme ++ rest := by
    obtain ⟨c, tail, rfl⟩ := List.exists_cons_of_ne_nil h.ne_nil
    have hhead := not_stripped_of_isAlpha (show c.isAlpha = true from h.head)
    rw [List.cons_append, List.dropWhile_cons_of_neg (by rw [hhead]; decide)]
  rw [hdrop, List.filter_eq_self]
  intro c hc
  rcases List.mem_append.1 hc with hc | hc
  · rw [not_removed_of_isSchemeChar (h.all c hc)]
    rfl
  · rw [hrest c hc]
    rfl

theorem splitScheme_append (h : IsScheme scheme) (rest : List Char) : splitScheme (scheme ++ ':' :: rest) = (scheme, rest) := by
  unfold splitScheme
  rw [cutFirst_append h.colon_not_mem]
  dsimp only
  rw [h.head, List.all_eq_true.2 h.all, Bool.and_self, if_pos rfl, h.lower]

end IsScheme

theorem splitNetloc_append {netloc : List Char} (h : ∀ c ∈ netloc, isNetlocEnd c = false) {c : Char}
    (hc : isNetlocEnd c = true) (tail : List Char) : splitNetloc (netloc ++ c :: tail) = (netloc, c :: tail) := by
  have hall : ∀ d ∈ netloc, (!isNetlocEnd d) = true := fun d hd => by rw [h d hd]; rfl
  unfold splitNetloc
  rw [List.takeWhile_append_of_pos hall, List.dropWhile_append_of_pos hall, List.takeWhile_cons_of_neg (by simp [hc]),
    List.dropWhile_cons_of_neg (by simp [hc]), List.append_nil]

/-- The path with its parameters, as they are written. -/
def pathWithParams (parts : ParseResult) : List Char :=
  if parts.params.isEmpty then parts.path else parts.path ++ ';' :: parts.params

/-- The query behind them. -/
def written (parts : ParseResult) : List Char :=
  pathWithParams parts ++ if parts.query.isEmpty then [] else '?' :: parts.query

theorem urlunparse_eq {parts : ParseResult} (hscheme : IsScheme parts.scheme) (hnetloc : parts.netloc ≠ [])
    (hpath : ∃ rest, parts.path = '/' :: rest) (hfragment : parts.fragment = []) :
    urlunparse parts = parts.scheme ++ ':' :: '/' :: '/' :: (parts.netloc ++ written parts) := by
  obtain ⟨rest, hrest⟩ := hpath
  have hs : parts.scheme.isEmpty = false := by simpa using hscheme.ne_nil
  have hn : (!parts.netloc.isEmpty) = true := by simpa using hnetloc
  unfold urlunparse urlunsplit written pathWithParams withNetloc
  dsimp only
  rw [hs, hn, hfragment, hrest]
  by_cases hparams : parts.params.isEmpty = true
  · by_cases hquery : parts.query.isEmpty = true
    · simp [hparams, hquery]
    · simp [hparams, hquery]
  · by_cases hquery : parts.query.isEmpty = true
    · simp [hparams, hquery]
    · simp [hparams, hquery]

namespace Parts

variable {parts : ParseResult}

theorem not_mem_pathWithParams (h : Parts parts) {c : Char} (hc : c = '?' ∨ c = '#') : c ∉ pathWithParams parts := by
  have hpath : c ∉ parts.path := fun hmem => by
    rcases hc with rfl | rfl
    · exact (h.path _ hmem).1 rfl
    · exact (h.path _ hmem).2 rfl
  unfold pathWithParams
  split
  · exact hpath
  · rw [List.mem_append, List.mem_cons, not_or, not_or]
    refine ⟨hpath, ?_, fun hmem => ?_⟩
    · rcases hc with rfl | rfl
      · decide
      · decide
    · rcases hc with rfl | rfl
      · exact (h.params _ hmem).2.1 rfl
      · exact (h.params _ hmem).2.2 rfl

theorem cutFirst_fragment (h : Parts parts) : cutFirst '#' (written parts) = (written parts, .none) := by
  refine cutFirst_of_not_mem ?_
  unfold written
  rw [List.mem_append, not_or]
  refine ⟨h.not_mem_pathWithParams (.inr rfl), ?_⟩
  split
  · exact List.not_mem_nil
  · rw [List.mem_cons, not_or]
    exact ⟨by decide, h.query⟩

theorem cutFirst_query (h : Parts parts) :
    (cutFirst '?' (written parts)).1 = pathWithParams parts ∧ (cutFirst '?' (written parts)).2.getD [] = parts.query := by
  have hnot := h.not_mem_pathWithParams (.inl rfl)
  unfold written
  split
  next hempty =>
    rw [List.append_nil, cutFirst_of_not_mem hnot]
    exact ⟨rfl, (List.isEmpty_iff.1 hempty).symm⟩
  next =>
    rw [cutFirst_append hnot]
    exact ⟨rfl, rfl⟩

theorem splitParams_pathWithParams (h : Parts parts) (hpath : ∃ rest, parts.path = '/' :: rest) :
    (if (pathWithParams parts).contains ';' then splitParams (pathWithParams parts) else (pathWithParams parts, [])) =
      (parts.path, parts.params) := by
  obtain ⟨rest, hrest⟩ := hpath
  have hslash : '/' ∈ parts.path := hrest ▸ List.mem_cons_self
  obtain ⟨hnot, _⟩ | ⟨directory, segment, hdirectory, hsegment, hcut⟩ := cutLast_cases '/' parts.path
  · exact absurd hslash hnot
  · have hsemi := h.segment
    rw [hcut] at hsemi
    unfold pathWithParams
    by_cases hempty : parts.params.isEmpty = true
    · rw [if_pos hempty, List.isEmpty_iff.1 hempty]
      split
      · rw [splitParams, hcut]
        dsimp only
        rw [cutFirst_of_not_mem hsemi]
      · rfl
    · have hjoined : parts.path ++ ';' :: parts.params = directory ++ '/' :: (segment ++ ';' :: parts.params) := by
        rw [hdirectory, List.append_assoc, List.cons_append]
      have hnone : '/' ∉ segment ++ ';' :: parts.params := by
        rw [List.mem_append, List.mem_cons, not_or, not_or]
        exact ⟨hsegment, by decide, fun hmem => (h.params _ hmem).1 rfl⟩
      rw [if_neg hempty, if_pos (by simp), splitParams, hjoined, cutLast_append hnone]
      dsimp only
      rw [cutFirst_append hsemi, hdirectory]

end Parts

theorem not_removed_written {parts : ParseResult} (h : Parts parts) :
    ∀ c ∈ ':' :: '/' :: '/' :: (parts.netloc ++ written parts), isRemoved c = false := by
  have hparts : ∀ c, c ∈ parts.netloc ∨ c ∈ parts.path ∨ c ∈ parts.params ∨ c ∈ parts.query → isRemoved c = false := by
    intro c hc
    apply h.clean
    simp only [List.mem_append]
    tauto
  have hwritten : ∀ c ∈ written parts, c = ';' ∨ c = '?' ∨ c ∈ parts.path ∨ c ∈ parts.params ∨ c ∈ parts.query := by
    intro c hc
    unfold written pathWithParams at hc
    split at hc
    · split at hc
      · simp only [List.append_nil] at hc
        tauto
      · simp only [List.mem_append, List.mem_cons] at hc
        tauto
    · split at hc
      · simp only [List.append_nil, List.mem_append, List.mem_cons] at hc
        tauto
      · simp only [List.mem_append, List.mem_cons] at hc
        tauto
  intro c hc
  simp only [List.mem_cons, List.mem_append] at hc
  rcases hc with rfl | rfl | rfl | hc | hc
  · decide
  · decide
  · decide
  · exact hparts c (.inl hc)
  · rcases hwritten c hc with rfl | rfl | hc
    · decide
    · decide
    · exact hparts c (.inr hc)

theorem written_rooted {parts : ParseResult} (hpath : ∃ rest, parts.path = '/' :: rest) :
    ∃ tail, written parts = '/' :: tail := by
  obtain ⟨rest, hrest⟩ := hpath
  unfold written pathWithParams
  rw [hrest]
  split
  · exact ⟨_, rfl⟩
  · exact ⟨_, rfl⟩

/-- **What was put together is taken apart again**, when the location passes the checks. -/
theorem urlparse_urlunparse (U : UnicodeData) {parts : ParseResult} (h : Parts parts) (hscheme : IsScheme parts.scheme)
    (hnetloc : parts.netloc ≠ []) (hpath : ∃ rest, parts.path = '/' :: rest) (hfragment : parts.fragment = []) :
    urlparse U (urlunparse parts) = do
      checkBrackets parts.netloc
      checkNetloc U parts.netloc
      return parts := by
  obtain ⟨tail, htail⟩ := written_rooted hpath
  have htake : takeNetloc ('/' :: '/' :: (parts.netloc ++ written parts)) = do
      checkBrackets parts.netloc
      return (parts.netloc, written parts) := by
    rw [takeNetloc, htail, splitNetloc_append h.netloc (by decide)]
  have hparams := h.splitParams_pathWithParams hpath
  unfold urlparse urlsplit
  rw [urlunparse_eq hscheme hnetloc hpath hfragment, hscheme.cleaned_append (not_removed_written h),
    hscheme.splitScheme_append]
  dsimp only
  rw [htake]
  cases checkBrackets parts.netloc with
  | error e => rfl
  | ok _ =>
    obtain ⟨hpathq, hqueryq⟩ := h.cutFirst_query
    rcases hquery : cutFirst '?' (written parts) with ⟨path, query⟩
    rw [hquery] at hpathq hqueryq
    dsimp only at hpathq hqueryq
    simp only [bind, Except.bind, pure, Except.pure]
    rw [h.cutFirst_fragment]
    dsimp only
    rw [hquery]
    dsimp only
    cases checkNetloc U parts.netloc with
    | error e => rfl
    | ok _ =>
      dsimp only
      rw [hpathq, hqueryq, hscheme.uses, Bool.true_and, hparams, Option.getD_none, ← hfragment]

end UrlParse
