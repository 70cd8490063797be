/-
Words every part of the service uses: identifiers, times, API errors and the
width of an `integer` column.

An identifier is a `uuid` of which only equality matters. An `Instant` counts
microseconds since the epoch, as a `timestamptz` does, and a `Date` counts
days.
-/

namespace Nexus

abbrev Uuid := Nat

abbrev Instant := Nat

abbrev Date := Nat

def microsecondsPerSecond : Nat := 1000000

def microsecondsPerDay : Nat := 86400 * microsecondsPerSecond

/-- `(now() AT TIME ZONE 'UTC')::date` -/
def utcDate (now : Instant) : Date := now / microsecondsPerDay

/-- `nexus.errors.ApiErrorCode`, as far as the modelled services raise it. -/
inductive ApiErrorCode
  | billingRequired
  | tokenBudgetExceeded
  | rateLimiterUnavailable
  | notFound
  | mediaNotFound
  | invalidRequest
  | invalidDiscoveryTarget
  | invalidCursor
  | invalidKind
  | limit
  | mediaDeleting
  | readerStateConflict
  | staleListeningRevision
  | idempotencyKeyReplayMismatch
  | forbidden
  | noteConflict
  | resourceConflict
  | linkSelf
  | linkCapability
  | linkTargetAmbiguous
  | linkTargetStale
  | defaultLibraryForbidden
  | libraryForbidden
  | ownerRequired
  | ownerExitForbidden
  | libraryNotFound
  | userNotFound
  | inviteNotFound
  | nameInvalid
  | inviteAlreadyExists
  | inviteMemberExists
  | inviteNotPending
  | ownershipTransferInvalid
  | conversationNotFound
  | messageNotFound
  | branchPathInvalid
  | mediaLastReference
  | podcastReplacesEpisodes
  | podcastSubscriptionRequired
  | podcastQuotaExceeded
  | podcastEpisodeIdentityConflict
  | selectionChanged
  | transcriptUnavailable
  | internal
  deriving DecidableEq, Repr

structure ApiError where
  code : ApiErrorCode
  message : String
  deriving DecidableEq, Repr

/-- Why a transaction rolled back: the service raised, a statement failed, or
an assertion did not hold. -/
inductive Abort
  | api (e : ApiError)
  | database
  | defect
  deriving DecidableEq, Repr

/-- `nexus.db.models.MediaKind` -/
inductive MediaKind
  | webArticle
  | epub
  | pdf
  | video
  | podcastEpisode
  deriving DecidableEq, Repr

def MediaKind.value : MediaKind → String
  | .webArticle => "web_article"
  | .epub => "epub"
  | .pdf => "pdf"
  | .video => "video"
  | .podcastEpisode => "podcast_episode"

/-- What `str.strip` strips. -/
def isPythonSpace (c : Char) : Bool :=
  let n := c.toNat
  (9 ≤ n && n ≤ 13) || (28 ≤ n && n ≤ 32) || n == 0x85 || n == 0xa0 || n == 0x1680 || (0x2000 ≤ n && n ≤ 0x200a) ||
    n == 0x2028 || n == 0x2029 || n == 0x202f || n == 0x205f || n == 0x3000

def pythonStrip (s : List Char) : List Char :=
  ((s.dropWhile isPythonSpace).reverse.dropWhile isPythonSpace).reverse

/-- The largest value of an `integer` column. -/
def integerMax : Nat := 2147483647

/-- A value as an `integer` column takes it: one out of range fails the
statement, and with it the transaction. -/
def pgInteger (n : Nat) : Option Nat := if n ≤ integerMax then .some n else .none

theorem pgInteger_eq_some {n m : Nat} : pgInteger n = .some m ↔ n ≤ integerMax ∧ n = m := by
  simp only [pgInteger, Option.ite_none_right_eq_some, Option.some.injEq]

end Nexus
