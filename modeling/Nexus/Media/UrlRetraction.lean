/-
When a normal form is a URL again.

A URL that was taken is put together from the parts of its parse, and the form
is read again (`reparse_normal`). It names the same resource and is its own
normal form exactly when its host is no literal in brackets, its port is a
number other than 0 or none, and the form is not too long (`Rebuilds`).
-/
import Nexus.Media.UrlNormalize

namespace Nexus.Media

open UrlParse LowerCase CutAt ExceptFacts

structure Resource where
  scheme : Text
  /-- Whether the host is a literal in brackets. -/
  literal : Bool
  host : Text
  port : Nat
  path : Text
  params : Text
  query : Text
  deriving DecidableEq, Repr

def effectivePort (scheme : Text) (port : Option Nat) : Nat := port.getD (if scheme = https then 443 else 80)

def isLiteral (parsed : ParseResult) : Bool := (hostport parsed.netloc).contains '['

def rootedPath (path : Text) : Text := if path.isEmpty then ['/'] else path

section

variable (U : UnicodeData)

def resource (parsed : ParseResult) (port : Option Nat) : Resource :=
  ⟨parsed.scheme.map Char.toLower, isLiteral parsed, normalHostname U parsed,
    effectivePort (parsed.scheme.map Char.toLower) port, rootedPath parsed.path, parsed.params, parsed.query⟩

/-- Two URLs that differ in the case of their hosts, in how a port is written, an empty path or the fragment at most. -/
def SameResource (parsed parsed' : ParseResult) : Prop :=
  ∃ port port', parsed.port = .ok port ∧ parsed'.port = .ok port' ∧ resource U parsed port = resource U parsed' port'

/-- The normal form is taken, names what the URL does without a fragment and is its own normal form. -/
def Retracts (url : Text) : Prop :=
  ∃ normal parsed reparsed, normalizeUrlForDisplay U url = .ok normal ∧ validateRequestedUrl U normal = .ok () ∧
    urlparse U url = .ok parsed ∧ urlparse U normal = .ok reparsed ∧ SameResource U parsed reparsed ∧
    reparsed.fragment = [] ∧ normalizeUrlForDisplay U normal = .ok normal

/-- The length of a part behind a character, if it is there. -/
def optionalLength (part : Text) : Nat := if part.isEmpty then 0 else part.length + 1

/-- The location that is written: the host in lowercase, and a port that is shown. -/
def shownNetloc (parsed : ParseResult) (port : Option Nat) : Text :=
  normalNetloc (normalHostname U parsed) (shownPort (parsed.scheme.map Char.toLower) port)

structure Rebuilds (parsed : ParseResult) (port : Option Nat) : Prop where
  host : isLiteral parsed = false
  nonzero : port ≠ .some 0
  length : parsed.scheme.length + 3 + (shownNetloc U parsed port).length + (rootedPath parsed.path).length +
    optionalLength parsed.params + optionalLength parsed.query ≤ maxUrlLength
  /-- `urlparse`'s check of locations, which passes every location that is ASCII. -/
  netloc : checkNetloc U (shownNetloc U parsed port) = .ok ()

/-! ## What validation has seen -/

/-- What is known of a URL that was taken. -/
structure Taken (parsed : ParseResult) : Prop where
  scheme : parsed.scheme = http ∨ parsed.scheme = https
  username : isPresent parsed.username = false
  password : isPresent parsed.password = false
  hostname : ∃ hostname, parsed.hostname U = .some hostname ∧ isBlockedHostname U hostname = false
  netloc : parsed.netloc ≠ []

end

variable {U : UnicodeData}

theorem raising_eq_ok {α : Type} {x : Except ValueError α} {a : α} : raising x = .ok a ↔ x = .ok a := by
  cases x <;> simp [raising]

theorem isScheme_http : IsScheme http := ⟨by decide, List.all_eq_true.1 (by decide), by decide, by decide⟩

theorem isScheme_https : IsScheme https := ⟨by decide, List.all_eq_true.1 (by decide), by decide, by decide⟩

theorem validateParsed_iff {parsed : ParseResult} (hlower : parsed.scheme.map Char.toLower = parsed.scheme) :
    validateParsed U parsed = .ok () ↔ Taken U parsed := by
  unfold validateParsed
  rw [check_eq_ok, check_eq_ok, hlower]
  have hallowed : (!allowedSchemes.contains parsed.scheme) = true ↔ ¬(parsed.scheme = http ∨ parsed.scheme = https) := by
    simp [allowedSchemes]
  have hpresent : ¬(isPresent parsed.username || isPresent parsed.password) = true ↔
      isPresent parsed.username = false ∧ isPresent parsed.password = false := by
    simp
  rw [hallowed, not_not, hpresent]
  constructor
  · rintro ⟨hscheme, ⟨husername, hpassword⟩, h⟩
    split at h
    next => cases h
    next hostname hhost =>
      rw [check_eq_ok, check_eq_ok] at h
      refine ⟨hscheme, husername, hpassword, ⟨hostname, hhost, by simpa using h.1⟩, fun hnil => h.2.1 ?_⟩
      rw [hnil]
      simp
  · intro h
    obtain ⟨hostname, hhost, hblocked⟩ := h.hostname
    refine ⟨h.scheme, ⟨h.username, h.password⟩, ?_⟩
    have hscheme : parsed.scheme ≠ [] := by
      rcases h.scheme with hs | hs
      · rw [hs]; decide
      · rw [hs]; decide
    rw [hhost]
    dsimp only
    rw [hblocked, if_neg (by decide), if_neg (by simp [hscheme, h.netloc])]

theorem validate_iff {url : Text} :
    validateRequestedUrl U url = .ok () ↔
      url.length ≤ maxUrlLength ∧ ∃ parsed, urlparse U url = .ok parsed ∧ Taken U parsed := by
  unfold validateRequestedUrl
  rw [check_eq_ok, bind_eq_ok, Nat.not_lt]
  refine and_congr_right fun _ => exists_congr fun parsed => ?_
  rw [raising_eq_ok]
  exact and_congr_right fun hparsed => validateParsed_iff (urlparse_scheme hparsed)

theorem Taken.isScheme {parsed : ParseResult} (h : Taken U parsed) : IsScheme parsed.scheme := by
  rcases h.scheme with hs | hs
  · exact hs ▸ isScheme_http
  · exact hs ▸ isScheme_https

/-! ## The location that is written -/

theorem eq_nil_of_not_present {text : Text} (h : isPresent (.some text) = false) : text = [] := by
  simpa [isPresent] using h

theorem Taken.mem_hostport {parsed : ParseResult} (h : Taken U parsed) {c : Char} (hc : c ∈ parsed.netloc)
    (hat : c ≠ '@') (hcolon : c ≠ ':') : c ∈ hostport parsed.netloc := by
  have husername := h.username
  have hpassword := h.password
  unfold ParseResult.username at husername
  unfold ParseResult.password at hpassword
  unfold userinfo at husername hpassword
  unfold hostport
  obtain ⟨_, hcut⟩ | ⟨before, behind, hnetloc, _, hcut⟩ := cutLast_cases '@' parsed.netloc
  · rwa [hcut]
  · rw [hcut] at husername hpassword ⊢
    dsimp only at husername hpassword ⊢
    have hbefore : c ∉ before := by
      intro hmem
      obtain ⟨_, hfirst⟩ | ⟨user, pass, hall, _, hfirst⟩ := cutFirst_cases ':' before
      · rw [hfirst] at husername
        dsimp only at husername
        rw [eq_nil_of_not_present husername] at hmem
        cases hmem
      · rw [hfirst] at husername hpassword
        dsimp only at husername hpassword
        rw [hall, eq_nil_of_not_present husername, eq_nil_of_not_present hpassword, List.nil_append,
          List.mem_singleton] at hmem
        exact hcolon hmem
    rw [hnetloc, List.mem_append, List.mem_cons] at hc
    exact (hc.resolve_left hbefore).resolve_left hat

theorem mem_hostname {parsed : ParseResult} {hostname : Text} (hhost : parsed.hostname U = .some hostname) {d : Char}
    (h : d ∈ hostname) (hascii : d.toNat < 128) (hletter : d.isAlpha = false) : d ∈ (hostinfo parsed.netloc).1 := by
  unfold ParseResult.hostname at hhost
  dsimp only at hhost
  split at hhost
  next => cases hhost
  next =>
    rw [Option.some.injEq] at hhost
    obtain ⟨_, hcut⟩ | ⟨address, zone, hall, _, hcut⟩ := cutFirst_cases '%' (hostinfo parsed.netloc).1
    · rw [hcut] at hhost
      subst hhost
      exact CaseTable.mem_of_mem_lower h hascii hletter
    · rw [hcut] at hhost
      subst hhost
      rw [hall]
      rcases List.mem_append.1 h with h | h
      · exact List.mem_append_left _ (CaseTable.mem_of_mem_lower h hascii hletter)
      · exact List.mem_append_right _ h

theorem mem_normalHostname {parsed : ParseResult} {d : Char} (h : d ∈ normalHostname U parsed) (hascii : d.toNat < 128)
    (hletter : d.isAlpha = false) : d ∈ (hostinfo parsed.netloc).1 := by
  unfold normalHostname at h
  cases hhost : parsed.hostname U with
  | none =>
    rw [hhost] at h
    cases h
  | some hostname =>
    rw [hhost] at h
    exact mem_hostname hhost (CaseTable.mem_of_mem_lower h hascii hletter) hascii hletter

theorem stable_normalHostname {parsed : ParseResult} {d : Char} (h : d ∈ normalHostname U parsed) :
    d ≠ 'Σ' ∧ U.case.lowerOf d = [d] := by
  unfold normalHostname at h
  cases hhost : parsed.hostname U with
  | none =>
    rw [hhost] at h
    cases h
  | some hostname =>
    rw [hhost] at h
    exact CaseTable.stable_of_mem_lower h

theorem lower_normalHostname (parsed : ParseResult) : U.case.lower (normalHostname U parsed) = normalHostname U parsed :=
  CaseTable.lower_of_forall_mem fun _ h => stable_normalHostname h

theorem hostinfo_subset (netloc : Text) : (hostinfo netloc).1 ⊆ hostport netloc ∧ ']' ∉ (hostinfo netloc).1 ∨
    (hostinfo netloc).1 ⊆ hostport netloc ∧ '[' ∉ hostport netloc ∧ ':' ∉ (hostinfo netloc).1 := by
  unfold hostinfo
  obtain ⟨hnot, hcut⟩ | ⟨before, bracketed, hall, _, hcut⟩ := cutFirst_cases '[' (hostport netloc)
  · rw [hcut]
    exact .inr ⟨cutFirst_subset ':' _, hnot, not_mem_cutFirst ':' _⟩
  · rw [hcut]
    refine .inl ⟨?_, not_mem_cutFirst ']' bracketed⟩
    rw [hall]
    exact fun c hc => List.mem_append_right _ (List.mem_cons_of_mem _ (cutFirst_subset ']' bracketed hc))

theorem hostport_subset (netloc : Text) : hostport netloc ⊆ netloc := cutLast_subset '@' netloc

theorem host_subset (netloc : Text) : (hostinfo netloc).1 ⊆ hostport netloc :=
  (hostinfo_subset netloc).elim And.left And.left

theorem not_mem_shownNetloc {parsed : ParseResult} {port : Option Nat} {c : Char} (hascii : c.toNat < 128)
    (hletter : c.isAlpha = false) (hdigit : c.isDigit = false) (hcolon : c ≠ ':') (hhost : c ∉ (hostinfo parsed.netloc).1) :
    c ∉ shownNetloc U parsed port := by
  intro h
  unfold shownNetloc normalNetloc at h
  split at h
  next p _ =>
    rcases List.mem_append.1 h with h | h
    · exact hhost (mem_normalHostname h hascii hletter)
    · rcases List.mem_cons.1 h with h | h
      · exact hcolon h
      · rw [Nat.isDigit_of_mem_toDigits (by decide) (by decide) h] at hdigit
        cases hdigit
  next => exact hhost (mem_normalHostname h hascii hletter)

theorem Taken.normalHostname_ne_nil {parsed : ParseResult} (h : Taken U parsed) : normalHostname U parsed ≠ [] := by
  obtain ⟨hostname, hhost, _⟩ := h.hostname
  unfold normalHostname
  rw [hhost]
  refine CaseTable.lower_ne_nil ?_
  unfold ParseResult.hostname at hhost
  dsimp only at hhost
  split at hhost
  next => cases hhost
  next hempty =>
    rw [Option.some.injEq] at hhost
    subst hhost
    obtain ⟨_, hcut⟩ | ⟨address, zone, _, _, hcut⟩ := cutFirst_cases '%' (hostinfo parsed.netloc).1
    · rw [hcut]
      exact CaseTable.lower_ne_nil (by simpa using hempty)
    · rw [hcut]
      simp

def normalParts (U : UnicodeData) (parsed : ParseResult) (port : Option Nat) : ParseResult :=
  ⟨parsed.scheme.map Char.toLower, shownNetloc U parsed port, rootedPath parsed.path, parsed.params, parsed.query, []⟩

theorem normalize_eq {url : Text} {parsed : ParseResult} (hparse : urlparse U url = .ok parsed) {port : Option Nat}
    (hport : parsed.port = .ok port) : normalizeUrlForDisplay U url = .ok (urlunparse (normalParts U parsed port)) := by
  unfold normalizeUrlForDisplay
  exact bind_eq_ok.2 ⟨parsed, raising_eq_ok.2 hparse, bind_eq_ok.2 ⟨port, raising_eq_ok.2 hport, rfl⟩⟩

theorem normalize_ok {url normal : Text} (h : normalizeUrlForDisplay U url = .ok normal) {parsed : ParseResult}
    (hparse : urlparse U url = .ok parsed) :
    ∃ port, parsed.port = .ok port ∧ normal = urlunparse (normalParts U parsed port) := by
  unfold normalizeUrlForDisplay at h
  obtain ⟨parsed', hparse', h⟩ := bind_eq_ok.1 h
  rw [raising_eq_ok, hparse, Except.ok.injEq] at hparse'
  subst hparse'
  obtain ⟨port, hport, h⟩ := bind_eq_ok.1 h
  cases h
  exact ⟨port, raising_eq_ok.1 hport, rfl⟩

theorem rooted_rootedPath {parsed : ParseResult} (hparts : Parts parsed) : ∃ rest, rootedPath parsed.path = '/' :: rest := by
  unfold rootedPath
  rcases hparts.rooted with hnil | ⟨rest, hrest⟩
  · rw [hnil]
    exact ⟨[], rfl⟩
  · rw [hrest]
    exact ⟨rest, rfl⟩

theorem parts_normalParts {parsed : ParseResult} (hparts : Parts parsed) (port : Option Nat) :
    Parts (normalParts U parsed port) := by
  have hin : ∀ c, c ∈ (hostinfo parsed.netloc).1 → c ∈ parsed.netloc := fun c hc =>
    hostport_subset _ (host_subset _ hc)
  have hrooted : ∀ c ∈ rootedPath parsed.path, c = '/' ∨ c ∈ parsed.path := by
    intro c hc
    unfold rootedPath at hc
    split at hc
    · exact .inl (List.mem_singleton.1 hc)
    · exact .inr hc
  have hclean : ∀ c ∈ shownNetloc U parsed port, isRemoved c = false := by
    intro c hc
    by_contra hnot
    have hremoved := hnot
    rw [Bool.not_eq_false, isRemoved, Bool.or_eq_true, Bool.or_eq_true, beq_iff_eq, beq_iff_eq, beq_iff_eq] at hremoved
    have hhost : c ∉ (hostinfo parsed.netloc).1 := fun hmem =>
      hnot (hparts.clean c (List.mem_append_left _ (List.mem_append_left _ (List.mem_append_left _ (hin c hmem)))))
    rcases hremoved with (rfl | rfl) | rfl
    · exact not_mem_shownNetloc (by decide) (by decide) (by decide) (by decide) hhost hc
    · exact not_mem_shownNetloc (by decide) (by decide) (by decide) (by decide) hhost hc
    · exact not_mem_shownNetloc (by decide) (by decide) (by decide) (by decide) hhost hc
  refine ⟨?_, ?_, ?_, .inr (rooted_rootedPath hparts), ?_, hparts.params, ?_, hparts.query⟩
  · intro c hc
    simp only [normalParts, List.mem_append] at hc
    rcases hc with ((hc | hc) | hc) | hc
    · exact hclean c hc
    · rcases hrooted c hc with rfl | hc
      · decide
      · exact hparts.clean c (by simp [hc])
    · exact hparts.clean c (by simp [hc])
    · exact hparts.clean c (by simp [hc])
  · intro c hc
    by_contra hnot
    have hends := hnot
    rw [Bool.not_eq_false, isNetlocEnd, Bool.or_eq_true, Bool.or_eq_true, beq_iff_eq, beq_iff_eq, beq_iff_eq] at hends
    have hhost : c ∉ (hostinfo parsed.netloc).1 := fun hmem => hnot (hparts.netloc c (hin c hmem))
    rcases hends with (rfl | rfl) | rfl
    · exact not_mem_shownNetloc (by decide) (by decide) (by decide) (by decide) hhost hc
    · exact not_mem_shownNetloc (by decide) (by decide) (by decide) (by decide) hhost hc
    · exact not_mem_shownNetloc (by decide) (by decide) (by decide) (by decide) hhost hc
  · intro c hc
    rcases hrooted c hc with rfl | hc
    · exact ⟨by decide, by decide⟩
    · exact hparts.path c hc
  · show ';' ∉ (cutLast '/' (rootedPath parsed.path)).2
    unfold rootedPath
    split
    · decide
    · exact hparts.segment
  · intro hnil
    obtain ⟨rest, hrest⟩ := rooted_rootedPath hparts
    exact absurd (hrest.symm.trans hnil) (List.cons_ne_nil _ _)

/-! ## Reading the normal form -/

/-- What validation and the parse have seen of a URL together. -/
structure Accepted (U : UnicodeData) (parsed : ParseResult) : Prop where
  taken : Taken U parsed
  parts : Parts parsed
  lower : parsed.scheme.map Char.toLower = parsed.scheme
  brackets : checkBrackets parsed.netloc = .ok ()

theorem accepted_of_validate {url : Text} (h : validateRequestedUrl U url = .ok ()) {parsed : ParseResult}
    (hparse : urlparse U url = .ok parsed) : Accepted U parsed := by
  obtain ⟨_, parsed', hparse', htaken⟩ := validate_iff.1 h
  rw [hparse, Except.ok.injEq] at hparse'
  subst hparse'
  obtain ⟨hparts, hbrackets, _⟩ := urlparse_ok hparse htaken.netloc htaken.isScheme.uses
  exact ⟨htaken, hparts, urlparse_scheme hparse, hbrackets⟩

theorem shownPort_eq_some {scheme : Text} {port : Option Nat} {p : Nat} (h : shownPort scheme port = .some p) :
    port = .some p := by
  unfold shownPort at h
  split at h
  · cases h
  · split at h
    · cases h
    · split at h
      · exact h
      · cases h

theorem shownPort_shownPort (scheme : Text) (port : Option Nat) :
    shownPort scheme (shownPort scheme port) = shownPort scheme port := by
  cases h : shownPort scheme port with
  | none => rfl
  | some p =>
    have hp := shownPort_eq_some h
    subst hp
    exact h

theorem effectivePort_shownPort {scheme : Text} {port : Option Nat} (hscheme : scheme = http ∨ scheme = https)
    (hport : port ≠ .some 0) : effectivePort scheme (shownPort scheme port) = effectivePort scheme port := by
  cases port with
  | none => rfl
  | some p =>
    have hzero : p ≠ 0 := fun hp => hport (hp ▸ rfl)
    have hdistinct : http ≠ https := by decide
    unfold effectivePort shownPort
    dsimp only
    rw [if_neg hzero]
    rcases hscheme with rfl | rfl
    · by_cases hp : p = 80
      · simp [hp, hdistinct]
      · simp [hp]
    · by_cases hp : p = 443
      · simp [hp, hdistinct.symm]
      · simp [hp]

theorem shownPort_eq {scheme : Text} (hscheme : scheme = http ∨ scheme = https) (port : Option Nat) :
    shownPort scheme port =
      if effectivePort scheme port = 0 ∨ effectivePort scheme port = effectivePort scheme .none then .none
      else .some (effectivePort scheme port) := by
  have hdistinct : http ≠ https := by decide
  cases port with
  | none => simp [shownPort]
  | some p =>
    unfold effectivePort shownPort
    dsimp only [Option.getD]
    by_cases hzero : p = 0
    · simp [hzero]
    · rcases hscheme with rfl | rfl
      · by_cases hp : p = 80
        · simp [hp, hdistinct]
        · simp [hp, hzero, hdistinct]
      · by_cases hp : p = 443
        · simp [hp, hdistinct.symm]
        · simp [hp, hzero]

theorem isDigit_facts {c : Char} (h : c.isDigit = true) : c.toNat < 128 ∧ c.isAlpha = false := by
  simp only [Char.isDigit, Bool.and_eq_true, decide_eq_true_eq, ge_iff_le, UInt32.le_iff_toNat_le] at h
  have hconst : '9'.val.toNat = 57 ∧ 'A'.val.toNat = 65 ∧ 'a'.val.toNat = 97 := by decide
  have hval : c.toNat = c.val.toNat := rfl
  simp only [Char.isAlpha, Char.isUpper, Char.isLower, Bool.or_eq_false_iff, Bool.and_eq_false_iff,
    decide_eq_false_iff_not, ge_iff_le, UInt32.le_iff_toNat_le]
  omega

theorem port_le {parsed : ParseResult} {p : Nat} (h : parsed.port = .ok (.some p)) : p ≤ 65535 := by
  unfold ParseResult.port at h
  split at h
  · cases h
  · rw [check_eq_ok, check_eq_ok] at h
    obtain ⟨_, hle, h⟩ := h
    cases h
    exact Nat.le_of_not_lt hle

namespace Accepted

variable {parsed : ParseResult}

theorem shownNetloc_ne_nil (h : Accepted U parsed) (port : Option Nat) : shownNetloc U parsed port ≠ [] := by
  unfold shownNetloc normalNetloc
  split
  · exact List.append_ne_nil_of_left_ne_nil h.taken.normalHostname_ne_nil _
  · exact h.taken.normalHostname_ne_nil

theorem reparse_normal (h : Accepted U parsed) (port : Option Nat) :
    urlparse U (urlunparse (normalParts U parsed port)) = do
      checkBrackets (shownNetloc U parsed port)
      checkNetloc U (shownNetloc U parsed port)
      return normalParts U parsed port := by
  refine urlparse_urlunparse U (parts_normalParts h.parts port) ?_ (h.shownNetloc_ne_nil port) (rooted_rootedPath h.parts) rfl
  show IsScheme (parsed.scheme.map Char.toLower)
  rw [h.lower]
  exact h.taken.isScheme

theorem open_not_mem (h : Accepted U parsed) (hliteral : isLiteral parsed = false) : '[' ∉ parsed.netloc := by
  intro hmem
  have hhost := h.taken.mem_hostport hmem (by decide) (by decide)
  unfold isLiteral at hliteral
  rw [List.contains_iff_mem.2 hhost] at hliteral
  cases hliteral

theorem close_not_mem_host (h : Accepted U parsed) : ']' ∉ (hostinfo parsed.netloc).1 := by
  rcases hostinfo_subset parsed.netloc with ⟨_, hnot⟩ | ⟨hsub, hopen, _⟩
  · exact hnot
  · intro hmem
    have hnetloc : '[' ∉ parsed.netloc := fun hin => hopen (h.taken.mem_hostport hin (by decide) (by decide))
    have hbrackets := h.brackets
    unfold checkBrackets at hbrackets
    rw [check_eq_ok] at hbrackets
    have hclose : parsed.netloc.contains ']' = true := List.contains_iff_mem.2 (hostport_subset _ (hsub hmem))
    have hopen' : parsed.netloc.contains '[' = false := by
      rw [Bool.eq_false_iff, ne_eq, List.contains_iff_mem]
      exact hnetloc
    rw [hclose, hopen'] at hbrackets
    exact hbrackets.1 (by decide)

theorem close_not_mem_shown (h : Accepted U parsed) (port : Option Nat) : ']' ∉ shownNetloc U parsed port :=
  not_mem_shownNetloc (by decide) (by decide) (by decide) (by decide) h.close_not_mem_host

theorem open_not_mem_shown (h : Accepted U parsed) (hliteral : isLiteral parsed = false) (port : Option Nat) :
    '[' ∉ shownNetloc U parsed port :=
  not_mem_shownNetloc (by decide) (by decide) (by decide) (by decide) fun hmem =>
    h.open_not_mem hliteral (hostport_subset _ (host_subset _ hmem))

theorem hostport_shown (port : Option Nat) : hostport (shownNetloc U parsed port) = shownNetloc U parsed port := by
  unfold hostport
  rw [cutLast_of_not_mem]
  exact not_mem_shownNetloc (by decide) (by decide) (by decide) (by decide) fun hmem =>
    not_mem_cutLast '@' parsed.netloc (host_subset _ hmem)

theorem isLiteral_normalParts (h : Accepted U parsed) (hliteral : isLiteral parsed = false) (port : Option Nat) :
    isLiteral (normalParts U parsed port) = false := by
  unfold isLiteral normalParts
  dsimp only
  rw [hostport_shown, Bool.eq_false_iff, ne_eq, List.contains_iff_mem]
  exact h.open_not_mem_shown hliteral port

theorem checkBrackets_shown (h : Accepted U parsed) (hliteral : isLiteral parsed = false) (port : Option Nat) :
    checkBrackets (shownNetloc U parsed port) = .ok () := by
  have hopen : (shownNetloc U parsed port).contains '[' = false := by
    rw [Bool.eq_false_iff, ne_eq, List.contains_iff_mem]
    exact h.open_not_mem_shown hliteral port
  have hclose : (shownNetloc U parsed port).contains ']' = false := by
    rw [Bool.eq_false_iff, ne_eq, List.contains_iff_mem]
    exact h.close_not_mem_shown port
  unfold checkBrackets
  rw [hopen, hclose]
  rfl

theorem colon_not_mem_host (h : Accepted U parsed) (hliteral : isLiteral parsed = false) :
    ':' ∉ (hostinfo parsed.netloc).1 := by
  unfold hostinfo
  rw [cutFirst_of_not_mem fun hmem => h.open_not_mem hliteral (hostport_subset _ hmem)]
  exact not_mem_cutFirst ':' _

theorem colon_not_mem_normalHostname (h : Accepted U parsed) (hliteral : isLiteral parsed = false) :
    ':' ∉ normalHostname U parsed := fun hmem =>
  h.colon_not_mem_host hliteral (mem_normalHostname hmem (by decide) (by decide))

theorem hostinfo_shown (h : Accepted U parsed) (hliteral : isLiteral parsed = false) (port : Option Nat) :
    hostinfo (shownNetloc U parsed port) =
      (normalHostname U parsed, (shownPort (parsed.scheme.map Char.toLower) port).map (Nat.toDigits 10)) := by
  unfold hostinfo
  rw [hostport_shown, cutFirst_of_not_mem (h.open_not_mem_shown hliteral port)]
  dsimp only
  unfold shownNetloc normalNetloc
  cases shownPort (parsed.scheme.map Char.toLower) port with
  | none =>
    dsimp only
    rw [cutFirst_of_not_mem (h.colon_not_mem_normalHostname hliteral)]
    rfl
  | some p =>
    dsimp only
    rw [cutFirst_append (h.colon_not_mem_normalHostname hliteral)]
    have hne : (Nat.toDigits 10 p).isEmpty = false := by simp
    simp [hne]

theorem port_normalParts (h : Accepted U parsed) (hliteral : isLiteral parsed = false) {port : Option Nat}
    (hport : parsed.port = .ok port) :
    (normalParts U parsed port).port = .ok (shownPort (parsed.scheme.map Char.toLower) port) := by
  have hinfo := h.hostinfo_shown hliteral port
  unfold ParseResult.port normalParts
  dsimp only
  rw [hinfo]
  cases hshown : shownPort (parsed.scheme.map Char.toLower) port with
  | none => rfl
  | some p =>
    have hsame : port = .some p := shownPort_eq_some hshown
    have hdigits : (Nat.toDigits 10 p).all Char.isDigit = true :=
      List.all_eq_true.2 fun c hc => Nat.isDigit_of_mem_toDigits (by decide) (by decide) hc
    have hvalue : IpAddress.decimalValue (Nat.toDigits 10 p) = p :=
      Nat.ofDigitChars_toDigits (by decide) (by decide)
    rw [Option.map_some]
    dsimp only
    rw [hdigits, hvalue, if_neg (by decide), if_neg (Nat.not_lt.2 (port_le (hsame ▸ hport)))]

theorem hostname_normalParts (h : Accepted U parsed) (hliteral : isLiteral parsed = false) (port : Option Nat) :
    (normalParts U parsed port).hostname U = .some (normalHostname U parsed) := by
  have hinfo := h.hostinfo_shown hliteral port
  unfold ParseResult.hostname normalParts
  dsimp only
  rw [hinfo]
  dsimp only
  rw [if_neg (by simpa using h.taken.normalHostname_ne_nil)]
  obtain ⟨_, hcut⟩ | ⟨address, zone, hall, _, hcut⟩ := cutFirst_cases '%' (normalHostname U parsed)
  · rw [hcut]
    exact congrArg some (lower_normalHostname parsed)
  · rw [hcut]
    dsimp only
    have hstable : U.case.lower address = address := by
      refine CaseTable.lower_of_forall_mem fun d hd => ?_
      have hmem : d ∈ normalHostname U parsed := by
        rw [hall]
        exact List.mem_append_left _ hd
      exact stable_normalHostname hmem
    rw [hstable, hall]

theorem normalHostname_normalParts (h : Accepted U parsed) (hliteral : isLiteral parsed = false) (port : Option Nat) :
    normalHostname U (normalParts U parsed port) = normalHostname U parsed := by
  rw [normalHostname, h.hostname_normalParts hliteral port]
  exact lower_normalHostname parsed

theorem isPrivateIp_normalHostname (h : Accepted U parsed) (hliteral : isLiteral parsed = false) :
    isPrivateIp (normalHostname U parsed) = false := by
  obtain ⟨hostname, hhost, hblocked⟩ := h.taken.hostname
  have hlower : normalHostname U parsed = U.case.lower hostname := by
    rw [normalHostname, hhost]
    rfl
  unfold isBlockedHostname at hblocked
  rw [Bool.or_eq_false_iff] at hblocked
  unfold isPrivateIp IpAddress.ipAddress
  rw [IpAddress.ipv6_of_no_colon (h.colon_not_mem_normalHostname hliteral)]
  cases hv4 : IpAddress.ipv4 (normalHostname U parsed) with
  | none => rfl
  | some n =>
    -- An IPv4 address has no letters, so that the host was in lowercase.
    have hsame : U.case.lower hostname = hostname := by
      refine CaseTable.lower_eq_of_no_letters fun d hd => ?_
      rw [← hlower] at hd
      rcases IpAddress.ipv4_chars hv4 d hd with hdigit | rfl
      · exact isDigit_facts hdigit
      · exact ⟨by decide, by decide⟩
    have hprivate := hblocked.2
    rw [← hsame, ← hlower] at hprivate
    unfold isPrivateIp IpAddress.ipAddress at hprivate
    rwa [hv4, IpAddress.ipv6_of_no_colon (h.colon_not_mem_normalHostname hliteral)] at hprivate

theorem isBlockedHostname_normalHostname (h : Accepted U parsed) (hliteral : isLiteral parsed = false) :
    isBlockedHostname U (normalHostname U parsed) = false := by
  obtain ⟨hostname, hhost, hblocked⟩ := h.taken.hostname
  have hlower : normalHostname U parsed = U.case.lower hostname := by
    rw [normalHostname, hhost]
    rfl
  unfold isBlockedHostname at hblocked ⊢
  rw [Bool.or_eq_false_iff] at hblocked ⊢
  refine ⟨?_, h.isPrivateIp_normalHostname hliteral⟩
  rw [lower_normalHostname, hlower]
  exact hblocked.1

theorem taken_normalParts (h : Accepted U parsed) (hliteral : isLiteral parsed = false) (port : Option Nat) :
    Taken U (normalParts U parsed port) := by
  have hcut : cutLast '@' (shownNetloc U parsed port) = (.none, shownNetloc U parsed port) := by
    rw [cutLast_of_not_mem]
    exact not_mem_shownNetloc (by decide) (by decide) (by decide) (by decide) fun hmem =>
      not_mem_cutLast '@' parsed.netloc (host_subset _ hmem)
  refine ⟨?_, ?_, ?_, ⟨_, h.hostname_normalParts hliteral port, h.isBlockedHostname_normalHostname hliteral⟩,
    h.shownNetloc_ne_nil port⟩
  · show parsed.scheme.map Char.toLower = http ∨ parsed.scheme.map Char.toLower = https
    rw [h.lower]
    exact h.taken.scheme
  · unfold ParseResult.username userinfo normalParts
    rw [hcut]
    rfl
  · unfold ParseResult.password userinfo normalParts
    rw [hcut]
    rfl

theorem scheme_normalParts (h : Accepted U parsed) (port : Option Nat) :
    (normalParts U parsed port).scheme.map Char.toLower = parsed.scheme.map Char.toLower :=
  show (parsed.scheme.map Char.toLower).map Char.toLower = _ from congrArg (List.map Char.toLower) h.lower

theorem rootedPath_normalParts (h : Accepted U parsed) (port : Option Nat) :
    rootedPath (normalParts U parsed port).path = rootedPath parsed.path := by
  obtain ⟨rest, hrest⟩ := rooted_rootedPath h.parts
  show rootedPath (rootedPath parsed.path) = rootedPath parsed.path
  rw [hrest]
  rfl

theorem normalParts_normalParts (h : Accepted U parsed) (hliteral : isLiteral parsed = false) (port : Option Nat) :
    normalParts U (normalParts U parsed port) (shownPort (parsed.scheme.map Char.toLower) port) =
      normalParts U parsed port := by
  have hnetloc : shownNetloc U (normalParts U parsed port) (shownPort (parsed.scheme.map Char.toLower) port) =
      shownNetloc U parsed port := by
    unfold shownNetloc
    rw [h.scheme_normalParts, shownPort_shownPort, h.normalHostname_normalParts hliteral]
  rw [normalParts, hnetloc, h.scheme_normalParts, h.rootedPath_normalParts]
  rfl

theorem resource_normalParts (h : Accepted U parsed) (hliteral : isLiteral parsed = false) {port : Option Nat}
    (hport : port ≠ .some 0) :
    resource U (normalParts U parsed port) (shownPort (parsed.scheme.map Char.toLower) port) = resource U parsed port := by
  have hscheme : parsed.scheme.map Char.toLower = http ∨ parsed.scheme.map Char.toLower = https := by
    rw [h.lower]
    exact h.taken.scheme
  unfold resource
  rw [h.scheme_normalParts, h.isLiteral_normalParts hliteral, h.normalHostname_normalParts hliteral,
    h.rootedPath_normalParts, effectivePort_shownPort hscheme hport, hliteral]
  rfl

theorem length_normal (h : Accepted U parsed) (port : Option Nat) :
    (urlunparse (normalParts U parsed port)).length = parsed.scheme.length + 3 + (shownNetloc U parsed port).length +
      (rootedPath parsed.path).length + optionalLength parsed.params + optionalLength parsed.query := by
  have hscheme : IsScheme (normalParts U parsed port).scheme := by
    show IsScheme (parsed.scheme.map Char.toLower)
    rw [h.lower]
    exact h.taken.isScheme
  rw [urlunparse_eq hscheme (h.shownNetloc_ne_nil port) (rooted_rootedPath h.parts) rfl]
  unfold written pathWithParams optionalLength normalParts
  dsimp only
  simp only [List.length_append, List.length_cons, List.length_map]
  by_cases hparams : parsed.params.isEmpty = true
  · by_cases hquery : parsed.query.isEmpty = true
    · simp [hparams, hquery]
      omega
    · simp [hparams, hquery]
      omega
  · by_cases hquery : parsed.query.isEmpty = true
    · simp [hparams, hquery]
      omega
    · simp [hparams, hquery]
      omega

end Accepted

/-! ## The condition -/

theorem retracts_of_rebuilds {url : Text} {parsed : ParseResult} (h : Accepted U parsed)
    (hparse : urlparse U url = .ok parsed) {port : Option Nat} (hport : parsed.port = .ok port)
    (hrebuilds : Rebuilds U parsed port) : Retracts U url := by
  have hliteral := hrebuilds.host
  have hreparse := h.reparse_normal port
  rw [h.checkBrackets_shown hliteral, hrebuilds.netloc] at hreparse
  have hreport := h.port_normalParts hliteral hport
  refine ⟨_, parsed, normalParts U parsed port, normalize_eq hparse hport, ?_, hparse, hreparse,
    ⟨port, _, hport, hreport, (h.resource_normalParts hliteral hrebuilds.nonzero).symm⟩, rfl, ?_⟩
  · refine validate_iff.2 ⟨?_, _, hreparse, h.taken_normalParts hliteral port⟩
    rw [h.length_normal]
    exact hrebuilds.length
  · rw [normalize_eq hreparse hreport, h.normalParts_normalParts hliteral]

theorem rebuilds_of_retracts {url : Text} {parsed : ParseResult} (h : Accepted U parsed)
    (hparse : urlparse U url = .ok parsed) (hretracts : Retracts U url) :
    ∃ port, parsed.port = .ok port ∧ Rebuilds U parsed port := by
  obtain ⟨normal, parsed', reparsed, hnormal, hvalid, hparse', hreparsed, hsame, _, _⟩ := hretracts
  rw [hparse, Except.ok.injEq] at hparse'
  subst hparse'
  obtain ⟨port, hport, rfl⟩ := normalize_ok hnormal hparse
  refine ⟨port, hport, ?_⟩
  -- The form was read, so that its location passed the checks.
  have hreparse := h.reparse_normal port
  rw [hreparsed] at hreparse
  obtain ⟨_, hbrackets, hreparse⟩ := bind_eq_ok.1 hreparse.symm
  obtain ⟨_, hnetloc, hreparse⟩ := bind_eq_ok.1 hreparse
  cases hreparse
  obtain ⟨port₁, port₂, hport₁, hport₂, hresource⟩ := hsame
  rw [hport, Except.ok.injEq] at hport₁
  subst hport₁
  have hliteral : isLiteral parsed = false := by
    -- Brackets are lost, and no other location is a literal.
    have hopen : (shownNetloc U parsed port).contains '[' = false := by
      have hclose : (shownNetloc U parsed port).contains ']' = false := by
        rw [Bool.eq_false_iff, ne_eq, List.contains_iff_mem]
        exact h.close_not_mem_shown port
      unfold checkBrackets at hbrackets
      rw [check_eq_ok, hclose] at hbrackets
      simpa using hbrackets.1
    have hsame := congrArg Resource.literal hresource
    refine Eq.trans hsame ?_
    show (hostport (shownNetloc U parsed port)).contains '[' = false
    rwa [Accepted.hostport_shown]
  refine ⟨hliteral, ?_, ?_, hnetloc⟩
  · rintro rfl
    rw [h.port_normalParts hliteral hport, Except.ok.injEq] at hport₂
    subst hport₂
    have hzero := congrArg Resource.port hresource
    simp only [resource, effectivePort, shownPort, Option.getD_some, Option.getD_none, if_true] at hzero
    split at hzero
    · cases hzero
    · cases hzero
  · rw [← h.length_normal]
    exact (validate_iff.1 hvalid).1

theorem normalize_eq_of_sameResource {url url' : Text} {parsed parsed' : ParseResult}
    (h' : Accepted U parsed') (hparse : urlparse U url = .ok parsed) (hparse' : urlparse U url' = .ok parsed')
    (hsame : SameResource U parsed parsed') : ∃ normal, normalizeUrlForDisplay U url = .ok normal ∧
      normalizeUrlForDisplay U url' = .ok normal := by
  obtain ⟨port, port', hport, hport', hresource⟩ := hsame
  refine ⟨_, normalize_eq hparse hport, ?_⟩
  rw [normalize_eq hparse' hport']
  unfold resource at hresource
  rw [Resource.mk.injEq] at hresource
  obtain ⟨hscheme, _, hhost, hports, hpath, hparams, hquery⟩ := hresource
  have hkind : parsed'.scheme.map Char.toLower = http ∨ parsed'.scheme.map Char.toLower = https := by
    rw [h'.lower]
    exact h'.taken.scheme
  have hshown : shownPort (parsed.scheme.map Char.toLower) port = shownPort (parsed'.scheme.map Char.toLower) port' := by
    rw [hscheme] at hports ⊢
    rw [shownPort_eq hkind, shownPort_eq hkind, hports]
  unfold normalParts shownNetloc
  rw [hshown, hscheme, hhost, hpath, hparams, hquery]

/-- **When normalization is a retraction**: the normal form of a URL that was taken is taken again, names the same
resource and is its own normal form exactly when the URL rebuilds; and URLs that name the same resource have one normal
form. -/
theorem normalization_retracts_iff (U : UnicodeData) :
    (∀ url parsed, validateRequestedUrl U url = .ok () → urlparse U url = .ok parsed →
      (Retracts U url ↔ ∃ port, parsed.port = .ok port ∧ Rebuilds U parsed port)) ∧
    ∀ url url' parsed parsed', validateRequestedUrl U url = .ok () → validateRequestedUrl U url' = .ok () →
      urlparse U url = .ok parsed → urlparse U url' = .ok parsed' → SameResource U parsed parsed' →
      ∃ normal, normalizeUrlForDisplay U url = .ok normal ∧ normalizeUrlForDisplay U url' = .ok normal := by
  refine ⟨fun url parsed hvalid hparse => ?_, fun url url' parsed parsed' hvalid hvalid' hparse hparse' hsame => ?_⟩
  · have h := accepted_of_validate hvalid hparse
    exact ⟨rebuilds_of_retracts h hparse, fun ⟨_, hport, hrebuilds⟩ => retracts_of_rebuilds h hparse hport hrebuilds⟩
  · exact normalize_eq_of_sameResource (accepted_of_validate hvalid' hparse') hparse hparse' hsame

/-- Case mappings of ASCII and the sigmas. -/
def asciiCase : CaseTable where
  lowerOf c := if c = 'Σ' then ['σ'] else [c.toLower]
  cased c := c.isAlpha
  caseIgnorable c := c == '.'
  lowerOf_ascii c hc := by
    rw [if_neg]
    rintro rfl
    exact absurd hc (by decide)
  ascii_of_mem c hc d hd hascii := by
    exfalso
    split at hd
    · rw [List.mem_singleton.1 hd] at hascii
      exact absurd hascii (by decide)
    · rw [toLower_of_not_ascii hc, List.mem_singleton] at hd
      rw [hd] at hascii
      omega
  lowerOf_ne_nil c := by
    split <;> simp
  lowerOf_of_mem c d hd := by
    split at hd
    next =>
      cases List.mem_singleton.1 hd
      exact ⟨by decide, by decide⟩
    next hc =>
      cases List.mem_singleton.1 hd
      have hsigma : c.toLower ≠ 'Σ' := by
        intro hlower
        by_cases hascii : 128 ≤ c.toNat
        · exact hc ((toLower_of_not_ascii hascii).symm.trans hlower)
        · have hupper := toLower_lt (Nat.lt_of_not_le hascii)
          rw [hlower] at hupper
          exact absurd hupper (by decide)
      rw [if_neg hsigma, toLower_toLower]
      exact ⟨hsigma, rfl⟩
  lowerOf_sigma := by decide

def asciiUnicode : UnicodeData := ⟨asciiCase, id⟩

/-- `http://[2606:4700::1111]/a` -/
def ipv6Url : Text :=
  ['h', 't', 't', 'p', ':', '/', '/', '[', '2', '6', '0', '6', ':', '4', '7', '0', '0', ':', ':', '1', '1', '1', '1', ']', '/', 'a']

/-- `http://2606:4700::1111/a` -/
def bareUrl : Text :=
  ['h', 't', 't', 'p', ':', '/', '/', '2', '6', '0', '6', ':', '4', '7', '0', '0', ':', ':', '1', '1', '1', '1', '/', 'a']

/-- The brackets of an IPv6 host are lost, and what is left of it reads as a port. -/
theorem not_retracts_ipv6Url :
    validateRequestedUrl asciiUnicode ipv6Url = .ok () ∧ normalizeUrlForDisplay asciiUnicode ipv6Url = .ok bareUrl ∧
      normalizeUrlForDisplay asciiUnicode bareUrl = .error (.value .invalidPort) ∧
      ¬ ∀ url, validateRequestedUrl asciiUnicode url = .ok () → Retracts asciiUnicode url := by
  have hvalid : validateRequestedUrl asciiUnicode ipv6Url = .ok () := by decide +kernel
  have hnormal : normalizeUrlForDisplay asciiUnicode ipv6Url = .ok bareUrl := by decide +kernel
  have hagain : normalizeUrlForDisplay asciiUnicode bareUrl = .error (.value .invalidPort) := by decide +kernel
  refine ⟨hvalid, hnormal, hagain, fun hall => ?_⟩
  obtain ⟨normal, _, _, hok, _, _, _, _, _, hfixed⟩ := hall ipv6Url hvalid
  rw [hnormal, Except.ok.injEq] at hok
  subst hok
  rw [hagain] at hfixed
  cases hfixed

/-- `HTTP://Example.com:80?q` -/
def plainUrl : Text :=
  ['H', 'T', 'T', 'P', ':', '/', '/', 'E', 'x', 'a', 'm', 'p', 'l', 'e', '.', 'c', 'o', 'm', ':', '8', '0', '?', 'q']

def plainParsed : ParseResult :=
  ⟨http, ['E', 'x', 'a', 'm', 'p', 'l', 'e', '.', 'c', 'o', 'm', ':', '8', '0'], [], [], ['q'], []⟩

theorem normalization_retracts_plain : Retracts asciiUnicode plainUrl := by
  refine ((normalization_retracts_iff asciiUnicode).1 plainUrl plainParsed (by decide +kernel) (by decide +kernel)).2
    ⟨.some 80, by decide +kernel, ?_⟩
  exact ⟨by decide +kernel, by decide, by decide +kernel, by decide +kernel⟩

end Nexus.Media
