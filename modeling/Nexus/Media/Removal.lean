/-
The doorways that take the last reference from a document:
`services/media_deletion.py`, the grants of `services/resource_grants.py` and
the deletion of a highlight.

A command is one transaction under the media row's lock, so it is atomic here.
A reference is a library entry, or a grant on the media or on one of its
highlights. Positions of entries, embeds, anchors, collection revisions and the
other rows a command touches are not told: no count reads them.
-/
import Nexus.Libraries.Entries

namespace Nexus.Media
open Relational Nexus.Libraries Nexus.LibraryEntries

/-! ## Rows -/

structure MediaRow where
  id : Uuid
  kind : MediaKind
  deriving DecidableEq, Repr

structure Highlight where
  id : Uuid
  userId : Uuid
  anchorMediaId : Option Uuid
  deriving DecidableEq, Repr

inductive GrantSubject
  | media (id : Uuid)
  | highlight (id : Uuid)
  deriving DecidableEq, Repr

inductive GrantAudience
  | user (userId : Uuid)
  | link
  deriving DecidableEq, Repr

structure ResourceGrant where
  id : Uuid
  subject : GrantSubject
  createdByUserId : Uuid
  audience : GrantAudience
  createdAt : Instant
  deriving DecidableEq, Repr

/-- The grant with its subject repointed. -/
def ResourceGrant.pointedAt (g : ResourceGrant) (mediaId : Uuid) : ResourceGrant := { g with subject := .media mediaId }

/-- A row of `media_teardown_intents`, unique by its media. -/
structure TeardownIntent where
  mediaId : Uuid
  id : Uuid
  deriving DecidableEq, Repr

structure MediaDb where
  media : Table MediaRow MediaRow.id
  entries : Entries
  highlights : Table Highlight Highlight.id
  grants : Table ResourceGrant ResourceGrant.id
  intents : Table TeardownIntent TeardownIntent.mediaId
  /-- The `media_teardown` jobs enqueued, by media and intent. -/
  teardownJobs : List (Uuid × Uuid)
  /-- `user_media_deletions`, by user and media. -/
  tombstones : List (Uuid × Uuid)
  governance : GovernanceDb

inductive RemovalFailure
  | api (e : ApiError)
  /-- "claim_media_teardown reached with references still present" -/
  | referencesPresent
  /-- "media teardown reached grants excluded from its reference count" -/
  | grantsExcluded
  | assertion (message : String)
  | restart (reason : String)
  | database
  deriving DecidableEq, Repr

abbrev Removal (α : Type) := Except RemovalFailure α

def refuse {α : Type} (code : ApiErrorCode) (message : String) : Removal α := .error (.api ⟨code, message⟩)

/-- `_DOCUMENT_KINDS` -/
def isDocument : MediaKind → Bool
  | .pdf | .epub | .webArticle => true
  | .video | .podcastEpisode => false

namespace MediaDb

variable (db : MediaDb)

/-! ## References -/

/-- The grant's subject is the media, or a highlight on it. -/
def reaches (mediaId : Uuid) (g : ResourceGrant) : Bool :=
  match g.subject with
  | .media id => id == mediaId
  | .highlight id => (db.highlights.find? id).any fun h => h.anchorMediaId == .some mediaId

/-- `resource_grants.count_for_media` -/
def countForMedia (mediaId : Uuid) : Nat := db.grants.rows.countP (db.reaches mediaId)

def totalReferenceCount (mediaId : Uuid) : Nat := db.entries.countEntriesForMedia mediaId + db.countForMedia mediaId

def intentFor (mediaId : Uuid) : Option TeardownIntent := db.intents.find? mediaId

/-- A grant's audience or its creator. -/
def hasGrantPath (viewerId : Uuid) (g : ResourceGrant) : Bool :=
  g.audience == .user viewerId || g.createdByUserId == viewerId

def mediaGrantPathExists (viewerId mediaId : Uuid) : Bool :=
  db.grants.rows.any fun g => db.reaches mediaId g && hasGrantPath viewerId g

def mediaMembershipPathExists (viewerId mediaId : Uuid) : Bool :=
  db.entries.any fun e => e.target == .media mediaId && (db.governance.findMembership e.libraryId viewerId).isSome

def canReadMedia (viewerId mediaId : Uuid) (includeTearingDown : Bool) : Bool :=
  (db.media.find? mediaId).isSome &&
    (db.mediaMembershipPathExists viewerId mediaId || db.mediaGrantPathExists viewerId mediaId) &&
    !db.tombstones.contains (viewerId, mediaId) && (includeTearingDown || (db.intentFor mediaId).isNone)

def viewerHasNonSystemMediaReference (viewerId mediaId : Uuid) : Bool :=
  db.entries.any fun e => e.target == .media mediaId && (db.governance.findMembership e.libraryId viewerId).isSome &&
    (db.governance.findLibrary e.libraryId).any fun l => l.systemKey.isNone

def adminNonDefaultLibraryIdsForMedia (viewerId mediaId : Uuid) : List Uuid :=
  (db.entries.filter fun e => e.target == .media mediaId &&
    ((db.governance.findMembership e.libraryId viewerId).any fun m => m.role == .admin) &&
    (db.governance.findLibrary e.libraryId).any fun l => !l.isDefault && l.systemKey.isNone).map LibraryEntry.libraryId

def defaultLibraryId (viewerId : Uuid) : Option Uuid :=
  (db.governance.libraries.rows.find? fun l => l.ownerUserId == viewerId && l.isDefault).map Library.id

/-! ## Writes -/

def deleteEntries (p : LibraryEntry → Bool) : MediaDb := { db with entries := db.entries.filter fun e => !p e }

def deleteEntry (libraryId mediaId : Uuid) : MediaDb :=
  db.deleteEntries fun e => e.libraryId == libraryId && e.target == .media mediaId

def deleteGrants (p : ResourceGrant → Bool) : MediaDb := { db with grants := db.grants.deleteWhere p }

/-- `delete_media_and_child_highlight_subjects`, and how many went. -/
def deleteMediaAndChildHighlightSubjects (mediaId : Uuid) : MediaDb × Nat :=
  (db.deleteGrants (db.reaches mediaId), db.countForMedia mediaId)

def deleteViewerMediaPaths (viewerId mediaId : Uuid) : MediaDb :=
  db.deleteGrants fun g => db.reaches mediaId g && hasGrantPath viewerId g

/-! ## Claims -/

/-- `claim_media_teardown`, with the id it draws. -/
def claimMediaTeardown (mediaId newId : Uuid) : Removal MediaDb :=
  match db.intentFor mediaId with
  | .some _ => .ok db
  | .none =>
    if db.totalReferenceCount mediaId ≠ 0 then .error .referencesPresent
    else match db.intents.insert? ⟨mediaId, newId⟩ with
      | .none => .error .database
      | .some intents => .ok { db with intents, teardownJobs := db.teardownJobs ++ [(mediaId, newId)] }

def isDocumentMedia (mediaId : Uuid) : Bool := (db.media.find? mediaId).any fun m => isDocument m.kind

def claimDocumentTeardownIfUnreferencedLocked (mediaId newId : Uuid) : Removal MediaDb :=
  if !db.isDocumentMedia mediaId ∨ db.totalReferenceCount mediaId ≠ 0 then .ok db
  else db.claimMediaTeardown mediaId newId

/-! ## Highlights -/

def deleteHighlight (id : Uuid) : MediaDb := { db with highlights := db.highlights.deleteWhere fun h => h.id == id }

def deleteHighlightRows (highlight : Highlight) (newId : Uuid) : Removal MediaDb :=
  match highlight.anchorMediaId with
  | .none => .error (.assertion "typed highlight has no parent media")
  | .some mediaId =>
    if (db.media.find? mediaId).isNone then .error (.assertion "highlight parent media is missing")
    else if !db.highlights.rows.contains highlight then .ok db
    else
      let db := (db.deleteGrants fun g => g.subject == .highlight highlight.id).deleteHighlight highlight.id
      db.claimDocumentTeardownIfUnreferencedLocked mediaId newId

/-- `_delete_viewer_media_state`: the viewer's highlights on the media. -/
def deleteViewerMediaState (viewerId mediaId newId : Uuid) : Removal MediaDb :=
  let own := (db.highlights.rows.filter fun h => h.userId == viewerId && h.anchorMediaId == .some mediaId).insertionSort
    fun a b => a.id ≤ b.id
  own.foldlM (fun db h => db.deleteHighlightRows h newId) db

/-! ## The doorways -/

inductive MediaDeleteResult
  | deleting
  | removed (removedFromLibraryIds : List Uuid) (remainingReferenceCount : Nat)
  | hidden (removedFromLibraryIds : List Uuid) (remainingReferenceCount : Nat)
  deriving DecidableEq, Repr

/-- The libraries a viewer's removal takes the media from. -/
def removedLibraryIds (viewerId mediaId : Uuid) : List Uuid :=
  (db.defaultLibraryId viewerId).toList.filter (fun id => db.entries.entryExists id (.media mediaId)) ++
    sortedSet (db.adminNonDefaultLibraryIdsForMedia viewerId mediaId)

/-- Every path of the viewer to the media, but the viewer's highlights. -/
def deleteViewerPaths (viewerId mediaId : Uuid) : MediaDb :=
  ((db.removedLibraryIds viewerId mediaId).foldl (fun db id => db.deleteEntry id mediaId) db).deleteViewerMediaPaths
    viewerId mediaId

/-- The end of `remove_media_for_viewer`: claim, or hide what can still be read. -/
def settleRemoval (viewerId mediaId newId : Uuid) (kind : MediaKind) (removed : List Uuid) :
    Removal (MediaDb × MediaDeleteResult) :=
  let remaining := db.totalReferenceCount mediaId
  if remaining = 0 ∧ isDocument kind then (db.claimMediaTeardown mediaId newId).map fun db => (db, .deleting)
  else if !db.canReadMedia viewerId mediaId false then .ok (db, .removed removed remaining)
  else
    let tombstones := if db.tombstones.contains (viewerId, mediaId) then db.tombstones
      else (viewerId, mediaId) :: db.tombstones
    .ok ({ db with tombstones }, .hidden removed remaining)

def removeMediaForViewer (viewerId mediaId newId : Uuid) : Removal (MediaDb × MediaDeleteResult) :=
  match db.media.find? mediaId with
  | .none => refuse .mediaNotFound "Media not found"
  | .some media =>
    if !db.canReadMedia viewerId mediaId false then refuse .mediaNotFound "Media not found"
    else if !db.viewerHasNonSystemMediaReference viewerId mediaId ∧ !db.mediaGrantPathExists viewerId mediaId then
      refuse .forbidden "System-only media cannot be deleted"
    else do
      let removed := db.removedLibraryIds viewerId mediaId
      let db ← (db.deleteViewerPaths viewerId mediaId).deleteViewerMediaState viewerId mediaId newId
      db.settleRemoval viewerId mediaId newId media.kind removed

/-- `_parent_media_id_for_subject` and the rows `_lock_subject_rows` locks. -/
def lockSubjectRows (subject : GrantSubject) : Removal Uuid :=
  match subject with
  | .media id => if (db.media.find? id).isNone then refuse .notFound "Resource not found" else .ok id
  | .highlight id =>
    match (db.highlights.find? id).bind Highlight.anchorMediaId with
    | .none => refuse .notFound "Resource not found"
    | .some mediaId => if (db.media.find? mediaId).isNone then refuse .notFound "Resource not found" else .ok mediaId

/-- `delete_grant`, of an unsealed handle. -/
def deleteGrant (viewerId grantId newId : Uuid) : Removal MediaDb :=
  match db.grants.find? grantId with
  | .none => refuse .notFound "Resource grant not found"
  | .some grant => do
    let parentMediaId ← db.lockSubjectRows grant.subject
    if !hasGrantPath viewerId grant then refuse .notFound "Resource grant not found"
    else (db.deleteGrants fun g => g.id == grantId).claimDocumentTeardownIfUnreferencedLocked parentMediaId newId

/-- Grants on the two media for one creator and one audience. -/
def sameAudience (a b : ResourceGrant) : Bool := a.createdByUserId == b.createdByUserId && a.audience == b.audience

/-- The oldest grant of an audience, by `(created_at, id)`. -/
def survives (rows : List ResourceGrant) (g : ResourceGrant) : Bool :=
  rows.all fun h => !sameAudience g h || decide (g.createdAt < h.createdAt) ||
    g.createdAt == h.createdAt && decide (g.id ≤ h.id)

/-- A grant on one of the two media itself. -/
def onEither (loserMediaId winnerMediaId : Uuid) (g : ResourceGrant) : Bool :=
  g.subject == .media loserMediaId || g.subject == .media winnerMediaId

def repointMediaSubjects (loserMediaId winnerMediaId : Uuid) : MediaDb :=
  let rows := db.grants.rows.filter (onEither loserMediaId winnerMediaId)
  let kept := db.grants.deleteWhere fun g => onEither loserMediaId winnerMediaId g && !survives rows g
  { db with grants := kept.updateWhere (fun g => g.subject == .media loserMediaId) (·.pointedAt winnerMediaId) }

def claimDocumentMediaTeardown (mediaId newId : Uuid) : Removal MediaDb :=
  if !db.isDocumentMedia mediaId then .ok db
  else (db.deleteEntries fun e => e.target == .media mediaId).claimMediaTeardown mediaId newId

def deleteDuplicateDocumentMedia (loserMediaId winnerMediaId newId : Uuid) : Removal MediaDb :=
  if (db.media.find? loserMediaId).isNone ∨ (db.media.find? winnerMediaId).isNone then
    .error (.assertion "duplicate media changed before grant repoint")
  else
    let db := (db.repointMediaSubjects loserMediaId winnerMediaId).deleteMediaAndChildHighlightSubjects loserMediaId |>.1
    db.claimDocumentMediaTeardown loserMediaId newId

def deleteAbandonedDocumentMedia (mediaId newId : Uuid) : Removal MediaDb := db.claimDocumentMediaTeardown mediaId newId

/-- `delete_document_media_if_unreferenced`: the rows that go with the media, as
far as they are told here. -/
def deleteDocumentMediaIfUnreferenced (mediaId : Uuid) : Removal (Option MediaDb) :=
  if !db.isDocumentMedia mediaId ∨ db.totalReferenceCount mediaId ≠ 0 then .ok .none
  else
    let (db', deleted) := db.deleteMediaAndChildHighlightSubjects mediaId
    if deleted ≠ 0 then .error .grantsExcluded
    else .ok (.some { db' with
      highlights := db'.highlights.deleteWhere fun h => h.anchorMediaId == .some mediaId
      tombstones := db'.tombstones.filter fun t => t.2 != mediaId
      intents := db'.intents.deleteWhere fun i => i.mediaId == mediaId
      media := db'.media.deleteWhere fun m => m.id == mediaId })

/-! ## Creating a grant -/

/-- What a grant's creation reads of the other services: whether a highlight's
target resolves, whether the audience exists, whether the creator may share and
whether the link's projection is available, or why it is not. -/
structure GrantEnv where
  targetAvailable : Bool
  userExists : Bool
  canShare : Bool
  linkProblem : Option String
  newId : Uuid
  now : Instant
  deriving DecidableEq, Repr

def lockAuthorizedSubject (viewerId : Uuid) (subject : GrantSubject) : Removal Uuid := do
  let parentMediaId ← db.lockSubjectRows subject
  if (db.intentFor parentMediaId).isSome then refuse .mediaDeleting "Media is being deleted"
  else if !db.canReadMedia viewerId parentMediaId true then refuse .notFound "Resource not found"
  else match subject with
    | .media _ => .ok parentMediaId
    | .highlight id =>
      if (db.highlights.find? id).any fun h => h.userId == viewerId then .ok parentMediaId
      else refuse .notFound "Resource not found"

/-- The checks of the audience and of the subject's state. -/
def checkShareable (env : GrantEnv) (viewerId : Uuid) (subject : GrantSubject) (audience : GrantAudience) : Removal Unit :=
  match subject, env.targetAvailable with
  | .highlight _, false => refuse .invalidRequest "Share unavailable: HighlightUnresolved"
  | _, _ => match audience with
    | .link => .ok ()
    | .user userId =>
      if userId = viewerId then refuse .invalidRequest "Cannot share a resource with yourself"
      else if !env.userExists then refuse .userNotFound "User not found"
      else .ok ()

def createGrant (env : GrantEnv) (viewerId : Uuid) (subject : GrantSubject) (audience : GrantAudience) :
    Removal (MediaDb × ResourceGrant × Bool) := do
  let _ ← db.lockAuthorizedSubject viewerId subject
  checkShareable env viewerId subject audience
  match db.grants.rows.find? fun g => g.createdByUserId == viewerId && g.subject == subject && g.audience == audience with
  | .some existing => .ok (db, existing, false)
  | .none =>
    if !env.canShare then refuse .billingRequired "Sharing requires an eligible plan"
    else match audience, env.linkProblem with
      | .link, .some problem => refuse .invalidRequest ("Share unavailable: " ++ problem)
      | _, _ =>
        let grant : ResourceGrant := ⟨env.newId, subject, viewerId, audience, env.now⟩
        match db.grants.insert? grant with
        | .none => .error .database
        | .some grants => .ok ({ db with grants }, grant, true)

end MediaDb

end Nexus.Media
