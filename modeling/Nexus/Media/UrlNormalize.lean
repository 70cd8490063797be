/-
`services/url_normalize.py`: which URLs are taken, and the form they are kept in.

`validateRequestedUrl` reads the parts of a URL and refuses those of blocked
hosts; `normalizeUrlForDisplay` puts a URL together again from its parts. An
exception of either is an error the service answers with, or a `ValueError` of
the parser, which neither catches.
-/
import Nexus.Primitives
import Nexus.Lib.UrlParse

namespace Nexus.Media

open UrlParse IpAddress

inductive UrlFailure
  | invalidRequest (error : ApiError)
  | value (error : ValueError)
  deriving DecidableEq, Repr

def raising {α : Type} : Except ValueError α → Except UrlFailure α
  | .ok a => .ok a
  | .error error => .error (.value error)

def maxUrlLength : Nat := 2048

def http : Text := ['h', 't', 't', 'p']

def https : Text := ['h', 't', 't', 'p', 's']

def allowedSchemes : List Text := [http, https]

def blockedHostnames : List Text := [['l', 'o', 'c', 'a', 'l', 'h', 'o', 's', 't']]

/-- `.*\.local$`, of a host in lowercase without line ends. -/
def isLocalName (hostname : Text) : Bool := ['.', 'l', 'o', 'c', 'a', 'l'].isSuffixOf hostname

def privateIpRanges : List Network :=
  [.v4 (127 * 256 ^ 3) 8, .v4 (10 * 256 ^ 3) 8, .v4 ((172 * 256 + 16) * 256 ^ 2) 12, .v4 ((192 * 256 + 168) * 256 ^ 2) 16,
    .v4 ((169 * 256 + 254) * 256 ^ 2) 16, .v6 1 128, .v6 (0xfe80 * 65536 ^ 7) 10, .v6 (0xfc00 * 65536 ^ 7) 7]

def isPrivateIp (hostname : Text) : Bool :=
  (ipAddress hostname).any fun ip => privateIpRanges.any fun network => network.contains ip

section Urls

variable (U : UnicodeData)

def isBlockedHostname (hostname : Text) : Bool :=
  let hostnameLower := U.case.lower hostname
  blockedHostnames.contains hostnameLower || isLocalName hostnameLower || isPrivateIp hostname

def invalidUrl (message : String) : UrlFailure := .invalidRequest ⟨.invalidRequest, message⟩

def isPresent (text : Option Text) : Bool := text.any fun text => !text.isEmpty

/-- What `validateRequestedUrl` checks of the parts. -/
def validateParsed (parsed : ParseResult) : Except UrlFailure Unit :=
  if !allowedSchemes.contains (parsed.scheme.map Char.toLower) then
    .error (invalidUrl ("Invalid URL scheme '" ++ String.ofList parsed.scheme ++ "'. Only http and https are allowed."))
  else if isPresent parsed.username || isPresent parsed.password then
    .error (invalidUrl "URLs with credentials (user:pass@host) are not allowed")
  else match parsed.hostname U with
    | .none => .error (invalidUrl "URL must have a valid hostname")
    | .some hostname =>
      if isBlockedHostname U hostname then
        .error (invalidUrl ("URL hostname '" ++ String.ofList hostname ++ "' is not allowed"))
      else if parsed.scheme.isEmpty || parsed.netloc.isEmpty then
        .error (invalidUrl "URL must be an absolute URL with scheme and host")
      else .ok ()

def validateRequestedUrl (url : Text) : Except UrlFailure Unit :=
  if maxUrlLength < url.length then .error (invalidUrl "URL exceeds maximum length of 2048 characters")
  else raising (urlparse U url) >>= validateParsed U

/-- `hostname.lower()`, of no host the empty text. -/
def normalHostname (parsed : ParseResult) : Text := ((parsed.hostname U).map U.case.lower).getD []

/-- The port where it is none of the scheme's own; a port 0 is none. -/
def shownPort (scheme : Text) : Option Nat → Option Nat
  | .none => .none
  | .some port =>
    if port = 0 then .none
    else if scheme = http ∧ port ≠ 80 ∨ scheme = https ∧ port ≠ 443 then .some port
    else .none

def normalNetloc (hostname : Text) : Option Nat → Text
  | .some port => hostname ++ ':' :: Nat.toDigits 10 port
  | .none => hostname

def normalizeUrlForDisplay (url : Text) : Except UrlFailure Text := do
  let parsed ← raising (urlparse U url)
  let scheme := parsed.scheme.map Char.toLower
  let port ← raising parsed.port
  let netloc := normalNetloc (normalHostname U parsed) (shownPort scheme port)
  return urlunparse ⟨scheme, netloc, if parsed.path.isEmpty then ['/'] else parsed.path, parsed.params, parsed.query, []⟩

/-- `_canonical_enclosure` of a text that is not blank: no URL the validation refuses. -/
def canonicalEnclosure (raw : Text) : Except UrlFailure (Option Text) :=
  match validateRequestedUrl U raw with
  | .error (.invalidRequest _) => .ok .none
  | .error (.value error) => .error (.value error)
  | .ok () => (normalizeUrlForDisplay U raw).map .some

end Urls

end Nexus.Media
