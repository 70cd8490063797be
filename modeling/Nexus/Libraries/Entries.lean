/-
Filing, placing, removing and reordering: the writers of
`services/library_entries.py`.

Each command is a transaction of statements and row locks. The libraries, the
media, the podcasts and their episodes are rows no command here writes. What
other services keep (memberships, permissions, teardowns, entitlements,
subscriptions, replays) is read afresh by every statement and may be anything.
Tombstones, collection revisions, the recorded replays and the locks of other
services' rows are not told, nor is the lock of a row that is not there told
from the lock of one that is.
-/
import Nexus.Lib.RowLocks
import Nexus.Libraries.Governance
import Mathlib.Data.List.Sort
import Mathlib.Data.List.Dedup

namespace Nexus.LibraryEntries
open Relational RowLocks Nexus.Libraries

/-! ## Rows -/

/-- `ck_library_entries_exactly_one_target` -/
inductive EntryTarget
  | media (id : Uuid)
  | podcast (id : Uuid)
  deriving DecidableEq, Repr

structure LibraryEntry where
  id : Uuid
  libraryId : Uuid
  target : EntryTarget
  createdAt : Instant
  position : Nat
  deriving DecidableEq, Repr

/-- The columns no statement changes. -/
def LibraryEntry.row (e : LibraryEntry) : Uuid × Uuid × EntryTarget := (e.id, e.libraryId, e.target)

abbrev Entries := List LibraryEntry

inductive EntryWrite
  | insert (e : LibraryEntry)
  | delete (e : LibraryEntry)
  | move (e : LibraryEntry) (position : Nat)
  deriving DecidableEq, Repr

def EntryWrite.apply : EntryWrite → Entries → Entries
  | .insert e, v => v ++ [e]
  | .delete e, v => v.filter fun x => x.row != e.row
  | .move e position, v => v.map fun x => if x.row = e.row then { x with position } else x

/-- The primary key, `uq_library_entries_library_media` and
`uq_library_entries_library_podcast`, then the deferred
`uq_library_entries_library_position`. -/
def entryStorage : Storage Entries EntryWrite where
  apply := EntryWrite.apply
  unique v := decide (v.map LibraryEntry.id).Nodup && decide (v.map fun e => (e.libraryId, e.target)).Nodup
  deferred v := decide (v.map fun e => (e.libraryId, e.position)).Nodup

inductive Row
  | podcast (id : Uuid)
  | media (id : Uuid)
  | library (id : Uuid)
  deriving DecidableEq, Repr

structure PodcastEpisode where
  mediaId : Uuid
  podcastId : Uuid
  deriving DecidableEq, Repr

inductive LibraryFilingOutcome
  | added
  | alreadyPresent
  | includedThroughPodcast
  deriving DecidableEq, Repr

/-- The outcome of a `PodcastPlacementRemovalOut`. -/
inductive PlacementRemovalOutcome
  | removed
  | alreadyAbsent
  deriving DecidableEq, Repr

structure PodcastPlacementConflict where
  libraryId : Uuid
  libraryName : List Char
  episodeCount : Nat
  deriving DecidableEq, Repr

inductive EntryFailure
  | abort (a : Abort)
  | conflict (error : ApiError) (conflicts : List PodcastPlacementConflict) (conflictFingerprint : List Char)
  /-- `TransactionRestart`: the command runs again, as another transaction. -/
  | restart (reason : String)
  deriving DecidableEq, Repr

/-- The rows the commands rely on and do not write. -/
structure World where
  governance : GovernanceDb
  media : List Uuid
  podcasts : List Uuid
  episodes : Table PodcastEpisode PodcastEpisode.mediaId
  /-- The keyed digest of actor, podcast, libraries and entries. -/
  fingerprint : Uuid → Uuid → List Uuid → List Uuid → List Char

/-- What one statement reads of the other services, and the id and time an
insert draws. -/
structure Env where
  memberships : Table Membership Membership.key
  invitations : Store invitationSchema
  canRead : Uuid → Uuid → Bool
  canRestore : Uuid → Uuid → Bool
  tearingDown : Uuid → Bool
  canShare : Uuid → Bool
  subscribed : Uuid → Uuid → Bool
  filingReplay : Uuid → List Char → Uuid → Uuid → Except Abort (Option LibraryFilingOutcome)
  removalReplay : Uuid → List Char → Uuid → Uuid → Except Abort (Option PlacementRemovalOutcome)
  newId : Uuid
  now : Instant

abbrev EntryTx := Prog Row Entries Env EntryWrite EntryFailure

namespace World

def db (W : World) (env : Env) : GovernanceDb :=
  { W.governance with memberships := env.memberships, invitations := env.invitations }

def isDefault (W : World) (libraryId : Uuid) : Bool :=
  W.governance.libraries.rows.any fun l => l.id == libraryId && l.isDefault

def parentPodcast (W : World) (mediaId : Uuid) : Option Uuid :=
  (W.episodes.find? mediaId).map PodcastEpisode.podcastId

def hasTarget (W : World) : EntryTarget → Bool
  | .media id => W.media.contains id
  | .podcast id => W.podcasts.contains id

end World

/-! ## What a statement reads of the entries -/

namespace Entries

def entryExists (v : Entries) (libraryId : Uuid) (target : EntryTarget) : Bool :=
  v.any fun e => e.libraryId == libraryId && e.target == target

/-- `COALESCE(MAX(position), -1) + 1` -/
def nextPosition (v : Entries) (libraryId : Uuid) : Nat :=
  ((v.filter fun e => e.libraryId == libraryId).map fun e => e.position + 1).foldr max 0

def countEntriesForMedia (v : Entries) (mediaId : Uuid) : Nat := v.countP fun e => e.target == .media mediaId

/-- `_ENTRY_ORDER`: position, then the newest, then the greatest id. -/
def comesBefore (a b : LibraryEntry) : Bool :=
  decide (a.position < b.position) || a.position == b.position &&
    (decide (b.createdAt < a.createdAt) || a.createdAt == b.createdAt && decide (b.id ≤ a.id))

def inOrder (v : Entries) (libraryId : Uuid) : Entries :=
  (v.filter fun e => e.libraryId == libraryId).insertionSort fun a b => comesBefore a b = true

def podcastChildConflictRows (W : World) (v : Entries) (podcastId : Uuid) (libraryIds : List Uuid) : Entries :=
  v.filter fun e => libraryIds.contains e.libraryId && match e.target with
    | .media mediaId => W.parentPodcast mediaId == .some podcastId
    | .podcast _ => false

end Entries

def sortedSet (ids : List Uuid) : List Uuid := ids.dedup.insertionSort (· ≤ ·)

/-! ## Refusals, locks and checks -/

variable {α : Type}

def raise (code : ApiErrorCode) (message : String) : EntryTx α := .fail (.abort (.api ⟨code, message⟩))

/-- An `AssertionError`. -/
def defect : EntryTx α := .fail (.abort .defect)

/-- A governance check, whose refusal is the transaction's. -/
def govern (x : Except Abort α) : EntryTx α := .ofExcept (x.mapError .abort)

section Commands

variable (W : World)

/-- `lock_library_for_member` with `lock=False`. -/
def libraryForMember (viewerId libraryId : Uuid) : EntryTx LibraryMembershipContext := do
  govern (← .query fun _ env => Libraries.lockLibraryForMember (W.db env) viewerId libraryId)

def lockLibraryForMember (viewerId libraryId : Uuid) : EntryTx LibraryMembershipContext := do
  .lockRow (.library libraryId)
  libraryForMember W viewerId libraryId

def lockLibraryRowsInOrder (libraryIds : List Uuid) : EntryTx (List Uuid) := do
  let orderedIds := sortedSet libraryIds
  orderedIds.forM fun id => .lockRow (.library id)
  pure (orderedIds.filter fun id => (W.governance.findLibrary id).isSome)

def findDefaultLibraryId (userId : Uuid) : Option Uuid :=
  (W.governance.libraries.rows.find? fun l => l.ownerUserId == userId && l.isDefault).map Library.id

def defaultLibraryIdForUser (userId : Uuid) : EntryTx Uuid :=
  match findDefaultLibraryId W userId with
  | .some id => pure id
  | .none => raise .notFound "Default library not found"

/-- One destination of `resolve_writable_non_default_library_ids`. -/
def resolveDestination (env : Env) (viewerId libraryId : Uuid) : Except Abort Uuid := do
  match W.governance.findLibrary libraryId with
  | .none => refuse .libraryForbidden "library not writable"
  | .some l =>
    let role := ((W.db env).findMembership libraryId viewerId).map Membership.role
    if l.ownerUserId ≠ viewerId ∧ role ≠ .some .admin then refuse .libraryForbidden "library not writable"
    else if l.isDefault then refuse .invalidRequest "Default library cannot be selected"
    else if l.systemKey.isSome then refuse .libraryForbidden "library not writable"
    else .ok libraryId

def resolveWritableNonDefaultLibraryIds (viewerId : Uuid) (libraryIds : List Uuid) : EntryTx (List Uuid) := do
  if libraryIds = [] then pure []
  else if ¬ libraryIds.Nodup then raise .invalidRequest "library_ids must not contain duplicates"
  else govern (← .query fun _ env => libraryIds.mapM' fun id => resolveDestination W env viewerId id)

def raiseIfLockedMediaTeardownPending (mediaId : Uuid) : EntryTx Unit := do
  if ← .query fun _ env => env.tearingDown mediaId then raise .mediaDeleting "Media is being deleted"
  else pure ()

def raiseIfMediaTeardownPending (mediaId : Uuid) : EntryTx Unit := do
  .lockRow (.media mediaId)
  if W.media.contains mediaId then raiseIfLockedMediaTeardownPending mediaId else pure ()

inductive FilingAuthorization
  | readable
  | restorable
  | filable
  deriving DecidableEq, Repr

def FilingAuthorization.holds (env : Env) (viewerId mediaId : Uuid) : FilingAuthorization → Bool
  | .restorable => env.canRestore viewerId mediaId
  | .readable => env.canRead viewerId mediaId
  | .filable => env.canRestore viewerId mediaId || env.canRead viewerId mediaId

def lockAuthorizedMediaForFiling (viewerId mediaId : Uuid) (authorization : FilingAuthorization) : EntryTx Unit := do
  .lockRow (.media mediaId)
  let authorized ← .query fun _ env => authorization.holds env viewerId mediaId
  if ¬ W.media.contains mediaId ∨ ¬ authorized then raise .mediaNotFound "Media not found"
  else raiseIfLockedMediaTeardownPending mediaId

def lockMediaRowsInOrder (mediaIds : List Uuid) : EntryTx (List Uuid) := do
  let orderedIds := sortedSet mediaIds
  orderedIds.forM fun id => .lockRow (.media id)
  pure (orderedIds.filter fun id => W.media.contains id)

def lockParentPodcastForMedia (mediaId : Uuid) : EntryTx (Option Uuid) :=
  match W.parentPodcast mediaId with
  | .none => pure .none
  | .some podcastId => do
    .lockRow (.podcast podcastId)
    if W.podcasts.contains podcastId then pure (.some podcastId) else defect

def requireShareEntitlementForAccessIncrease (actorUserId libraryId : Uuid) : EntryTx Unit := do
  let increasesAccess ← .query fun _ env =>
    (env.memberships.rows.any fun m => m.libraryId == libraryId && m.userId != actorUserId) ||
      env.invitations.rows.any fun i => i.libraryId == libraryId && i.status == .pending
  let canShare ← .query fun _ env => env.canShare actorUserId
  if increasesAccess ∧ ¬ canShare then raise .billingRequired "Sharing requires Plus." else pure ()

/-! ## Primitives -/

def entryExists (libraryId : Uuid) (target : EntryTarget) : EntryTx Bool := .query fun v _ => v.entryExists libraryId target

/-- The insert, whose library and target are there. -/
def insertEntry (libraryId : Uuid) (target : EntryTarget) (position : Nat) : EntryTx Unit :=
  if W.hasTarget target ∧ (W.governance.findLibrary libraryId).isSome then
    .write fun _ env => [.insert ⟨env.newId, libraryId, target, env.now, position⟩]
  else .fail (.abort .database)

def ensureEntry (libraryId : Uuid) (target : EntryTarget) : EntryTx Bool := do
  (match target with
    | .media mediaId => raiseIfMediaTeardownPending W mediaId
    | .podcast _ => pure ())
  .lockRow (.library libraryId)
  if ← entryExists libraryId target then pure false
  else do
    let position ← .query fun v _ => v.nextPosition libraryId
    insertEntry W libraryId target position
    pure true

def deleteEntry (libraryId : Uuid) (target : EntryTarget) : EntryTx Bool :=
  .returning (fun v _ => (v.filter fun e => e.libraryId == libraryId && e.target == target).map .delete)
    fun v _ => v.entryExists libraryId target

def normalizePositions (libraryId : Uuid) : EntryTx Unit :=
  .write fun v _ => (v.inOrder libraryId).zipIdx.filterMap fun (e, position) =>
    if e.position ≠ position then .some (.move e position) else .none

/-! ## Filing media -/

/-- Whether the library holds the media's podcast. -/
def heldThroughPodcast (parentPodcastId : Option Uuid) (libraryId : Uuid) : EntryTx Bool :=
  match parentPodcastId with
  | .some podcastId => entryExists libraryId (.podcast podcastId)
  | .none => pure false

/-- The end of `ensure_media_in_library_in_current_transaction`, for media the
library does not include through its podcast. -/
def fileDirectly (viewerId mediaId : Uuid) (ctx : LibraryMembershipContext) : EntryTx LibraryFilingOutcome := do
  let present ← (if ctx.isDefault then pure true else entryExists ctx.id (.media mediaId))
  (if present then pure () else requireShareEntitlementForAccessIncrease viewerId ctx.id)
  if ← ensureEntry W ctx.id (.media mediaId) then pure .added else pure .alreadyPresent

def fileMedia (viewerId mediaId : Uuid) (parentPodcastId : Option Uuid) (ctx : LibraryMembershipContext) :
    EntryTx LibraryFilingOutcome := do
  if ← (if ctx.isDefault then pure false else heldThroughPodcast parentPodcastId ctx.id) then pure .includedThroughPodcast
  else fileDirectly W viewerId mediaId ctx

def ensureMediaInLibrary (viewerId libraryId mediaId : Uuid) : EntryTx LibraryFilingOutcome := do
  if ¬ W.media.contains mediaId then raise .mediaNotFound "Media not found"
  else
    if ¬ (← .query fun _ env => FilingAuthorization.filable.holds env viewerId mediaId) then
      raise .mediaNotFound "Media not found"
    else
      let parentPodcastId ← lockParentPodcastForMedia W mediaId
      lockAuthorizedMediaForFiling W viewerId mediaId .filable
      let ctx ← lockLibraryForMember W viewerId libraryId
      govern (requireAdmin ctx.role)
      govern (requireNotSystem ctx.systemKey)
      fileMedia W viewerId mediaId parentPodcastId ctx

def ensureMediaSavedInNexus (viewerId mediaId : Uuid) : EntryTx LibraryFilingOutcome := do
  ensureMediaInLibrary W viewerId (← defaultLibraryIdForUser W viewerId) mediaId

def ensureMediaInDefaultLibrary (userId mediaId : Uuid) : EntryTx Bool := do
  ensureEntry W (← defaultLibraryIdForUser W userId) (.media mediaId)

def addMediaToResolvedLibraries (viewerId mediaId : Uuid) (libraryIds : List Uuid) (parentPodcastId : Option Uuid) :
    EntryTx Unit :=
  if libraryIds = [] then pure ()
  else do
    raiseIfMediaTeardownPending W mediaId
    let lockedContexts ← (sortedSet libraryIds).mapM' fun id => lockLibraryForMember W viewerId id
    lockedContexts.forM fun ctx => do
      govern (requireNonDefault ctx.isDefault)
      govern (requireAdmin ctx.role)
      govern (requireNotSystem ctx.systemKey)
    libraryIds.forM fun libraryId => do
      if ← heldThroughPodcast parentPodcastId libraryId then pure ()
      else if ← entryExists libraryId (.media mediaId) then pure ()
      else requireShareEntitlementForAccessIncrease viewerId libraryId
    libraryIds.forM fun libraryId => do
      if ← heldThroughPodcast parentPodcastId libraryId then pure ()
      else do
        let _ ← ensureEntry W libraryId (.media mediaId)

def ensureMediaInLibraries (viewerId mediaId : Uuid) (libraryIds : List Uuid) : EntryTx Unit := do
  if ¬ W.media.contains mediaId then raise .mediaNotFound "Media not found"
  else
    if ¬ (← .query fun _ env => FilingAuthorization.filable.holds env viewerId mediaId) then
      raise .mediaNotFound "Media not found"
    else
      let parentPodcastId ← lockParentPodcastForMedia W mediaId
      lockAuthorizedMediaForFiling W viewerId mediaId .filable
      let targets ← resolveWritableNonDefaultLibraryIds W viewerId libraryIds
      addMediaToResolvedLibraries W viewerId mediaId targets parentPodcastId

def assignLibrariesForMedia (viewerId mediaId : Uuid) (libraryIds : List Uuid) : EntryTx Unit := do
  let targets ← resolveWritableNonDefaultLibraryIds W viewerId libraryIds
  let defaultLibraryId ← defaultLibraryIdForUser W viewerId
  let parentPodcastId ← lockParentPodcastForMedia W mediaId
  raiseIfMediaTeardownPending W mediaId
  let _ ← lockLibraryRowsInOrder W (defaultLibraryId :: targets)
  let _ ← ensureMediaInDefaultLibrary W viewerId mediaId
  addMediaToResolvedLibraries W viewerId mediaId targets parentPodcastId

def ensureSubscriptionEpisodeDefault (subscriptionUserId subscriptionPodcastId mediaId : Uuid) : EntryTx Bool := do
  let lockedPodcastId ← lockParentPodcastForMedia W mediaId
  if lockedPodcastId ≠ .some subscriptionPodcastId then defect
  else
    if (← lockMediaRowsInOrder W [mediaId]) ≠ [mediaId] then defect
    else
      let defaultLibraryId ← defaultLibraryIdForUser W subscriptionUserId
      raiseIfMediaTeardownPending W mediaId
      let _ ← lockLibraryRowsInOrder W [defaultLibraryId]
      ensureMediaInDefaultLibrary W subscriptionUserId mediaId

/-! ## Removing media -/

def requireMutable (requireNonDefaultDestination : Bool) (ctx : LibraryMembershipContext) : EntryTx Unit := do
  govern (requireAdmin ctx.role)
  (if requireNonDefaultDestination then govern (requireNonDefault ctx.isDefault) else pure ())
  govern (requireNotSystem ctx.systemKey)

/-- The end of `_ensure_media_absent_from_library_for_viewer`: the media and the
library are locked, and the entry is read again. -/
def removeLockedMedia (mediaId libraryId : Uuid) : EntryTx Unit := do
  if ¬ (← entryExists libraryId (.media mediaId)) then pure ()
  else
    raiseIfMediaTeardownPending W mediaId
    let referenceCount ← .query fun v _ => v.countEntriesForMedia mediaId
    if referenceCount = 1 then raise .mediaLastReference "Media must remain in at least one library"
    else if referenceCount < 1 then defect
    else
      if ¬ (← deleteEntry libraryId (.media mediaId)) then defect
      else normalizePositions libraryId

/-- `_ensure_media_absent_from_library_for_viewer` -/
def ensureMediaAbsentFromLibrary (viewerId mediaId libraryId : Uuid) (requireNonDefaultDestination : Bool) :
    EntryTx Unit := do
  requireMutable requireNonDefaultDestination (← libraryForMember W viewerId libraryId)
  if ¬ (← entryExists libraryId (.media mediaId)) then pure ()
  else
    if (← lockMediaRowsInOrder W [mediaId]) ≠ [mediaId] then
      if ¬ (← entryExists libraryId (.media mediaId)) then pure () else defect
    else
      requireMutable requireNonDefaultDestination (← lockLibraryForMember W viewerId libraryId)
      removeLockedMedia W mediaId libraryId

def ensureMediaAbsentFromSavedInNexus (viewerId mediaId : Uuid) : EntryTx Unit := do
  ensureMediaAbsentFromLibrary W viewerId mediaId (← defaultLibraryIdForUser W viewerId) false

/-! ## Podcasts -/

def removePodcastFromLibraryInTxn (libraryId podcastId : Uuid) : EntryTx Bool := do
  if ← deleteEntry libraryId (.podcast podcastId) then do
    normalizePositions libraryId
    pure true
  else pure false

def removalOutcome (removed : Bool) : PlacementRemovalOutcome := if removed then .removed else .alreadyAbsent

def removePodcastFromLibrary (viewerId libraryId podcastId : Uuid) (idempotencyKey : List Char) :
    EntryTx PlacementRemovalOutcome := do
  if pythonStrip idempotencyKey = [] then raise .invalidRequest "Idempotency-Key must be nonblank"
  else
    .lockRow (.podcast podcastId)
    requireMutable true (← lockLibraryForMember W viewerId libraryId)
    match ← govern (← .query fun _ env => env.removalReplay viewerId idempotencyKey libraryId podcastId) with
    | .some replay => pure replay
    | .none => pure (removalOutcome (← removePodcastFromLibraryInTxn libraryId podcastId))

def undoPodcastFiling (viewerId libraryId podcastId : Uuid) : EntryTx PlacementRemovalOutcome := do
  .lockRow (.podcast podcastId)
  requireMutable true (← lockLibraryForMember W viewerId libraryId)
  pure (removalOutcome (← removePodcastFromLibraryInTxn libraryId podcastId))

structure PodcastPlacementResult where
  addedLibraryIds : List Uuid
  alreadyPresentLibraryIds : List Uuid
  removedEpisodeEntryCount : Nat
  deriving DecidableEq, Repr

def childMediaIds (rows : Entries) : List Uuid := sortedSet (rows.filterMap fun e => match e.target with
  | .media mediaId => .some mediaId
  | .podcast _ => .none)

def episodeCount (conflicts : Entries) (libraryId : Uuid) : Nat := conflicts.countP fun e => e.libraryId == libraryId

def placementConflicts (targets : List Uuid) (contexts : List LibraryMembershipContext) (conflicts : Entries) :
    List PodcastPlacementConflict :=
  ((targets.zip contexts).filter fun t => 0 < episodeCount conflicts t.1).map fun t =>
    ⟨t.1, t.2.name, episodeCount conflicts t.1⟩

/-- The position of the earliest episode that gives way. -/
def earliestPosition (conflicts : Entries) (libraryId : Uuid) : Option Nat :=
  ((conflicts.filter fun e => e.libraryId == libraryId).map LibraryEntry.position).min?

/-- One destination: whether the podcast was added to it. -/
def placeInLibrary (viewerId podcastId : Uuid) (conflicts : Entries) (libraryId : Uuid) : EntryTx Bool := do
  if ← entryExists libraryId (.podcast podcastId) then pure false
  else do
    requireShareEntitlementForAccessIncrease viewerId libraryId
    let nextPosition ← .query fun v _ => v.nextPosition libraryId
    insertEntry W libraryId (.podcast podcastId) ((earliestPosition conflicts libraryId).getD nextPosition)
    pure true

/-- The writes of a confirmed placement: the podcast goes in, every child is kept
in the default library, and the conflicting entries go. -/
def replaceEpisodes (viewerId podcastId defaultLibraryId : Uuid) (targets mediaIds : List Uuid) (conflicts : Entries) :
    EntryTx PodcastPlacementResult := do
  let placed ← targets.mapM' fun libraryId => placeInLibrary W viewerId podcastId conflicts libraryId
  mediaIds.forM fun mediaId => do
    let _ ← ensureEntry W defaultLibraryId (.media mediaId)
  .write fun v _ => (v.filter fun e => (conflicts.map LibraryEntry.id).contains e.id).map .delete
  (targets.filter fun libraryId => 0 < episodeCount conflicts libraryId).forM fun libraryId =>
    normalizePositions libraryId
  pure {
    addedLibraryIds := ((targets.zip placed).filter fun t => t.2).map Prod.fst
    alreadyPresentLibraryIds := ((targets.zip placed).filter fun t => !t.2).map Prod.fst
    removedEpisodeEntryCount := conflicts.length }

/-- `place_podcast_in_named_libraries_in_current_transaction` -/
def placePodcastInNamedLibraries (viewerId podcastId : Uuid) (libraryIds : List Uuid)
    (confirmationFingerprint : Option (List Char)) : EntryTx PodcastPlacementResult := do
  let targets ← resolveWritableNonDefaultLibraryIds W viewerId libraryIds
  .lockRow (.podcast podcastId)
  if ¬ W.podcasts.contains podcastId then raise .notFound "Podcast not found"
  else
    let conflictRows ← .query fun v _ => v.podcastChildConflictRows W podcastId targets
    let mediaIds := childMediaIds conflictRows
    if (← lockMediaRowsInOrder W mediaIds) ≠ mediaIds then .fail (.restart "Podcast child Media set changed")
    else
      let defaultLibraryId ← defaultLibraryIdForUser W viewerId
      let lockedLibraryIds := sortedSet (defaultLibraryId :: targets)
      if (← lockLibraryRowsInOrder W lockedLibraryIds) ≠ lockedLibraryIds then
        .fail (.restart "Podcast destination Library set changed")
      else
        let contexts ← targets.mapM' fun id => libraryForMember W viewerId id
        contexts.forM fun ctx => requireMutable true ctx
        let currentConflicts ← .query fun v _ => v.podcastChildConflictRows W podcastId targets
        if sortedSet (currentConflicts.map LibraryEntry.id) ≠ sortedSet (conflictRows.map LibraryEntry.id) then
          .fail (.restart "Podcast child entry set changed")
        else
          let fingerprint := W.fingerprint viewerId podcastId (targets.insertionSort (· ≤ ·))
            ((currentConflicts.map LibraryEntry.id).insertionSort (· ≤ ·))
          if currentConflicts ≠ [] ∧ confirmationFingerprint ≠ .some fingerprint then
            .fail (.conflict ⟨.podcastReplacesEpisodes, "Podcast placement replaces direct episode placements"⟩
              (placementConflicts targets contexts currentConflicts) fingerprint)
          else replaceEpisodes W viewerId podcastId defaultLibraryId targets mediaIds currentConflicts

/-- `place_subscribed_podcast_in_named_library_in_current_transaction` -/
def placeSubscribedPodcastInNamedLibrary (viewerId libraryId podcastId : Uuid) : EntryTx LibraryFilingOutcome := do
  if ¬ (← .query fun _ env => env.subscribed viewerId podcastId) then
    raise .podcastSubscriptionRequired "Subscribe to this Podcast before adding it to a Library"
  else
    let placement ← placePodcastInNamedLibraries W viewerId podcastId [libraryId] .none
    pure (if placement.addedLibraryIds ≠ [] then .added else .alreadyPresent)

/-- `place_subscribed_podcast_in_named_library`, behind its replay. -/
def placeSubscribedPodcastOnce (viewerId libraryId podcastId : Uuid) (idempotencyKey : List Char) :
    EntryTx LibraryFilingOutcome := do
  if pythonStrip idempotencyKey = [] then raise .invalidRequest "Idempotency-Key must be nonblank"
  else
    match ← govern (← .query fun _ env => env.filingReplay viewerId idempotencyKey libraryId podcastId) with
    | .some replay => pure replay
    | .none => placeSubscribedPodcastInNamedLibrary W viewerId libraryId podcastId

/-! ## Order -/

def reorderEntries (viewerId libraryId : Uuid) (entryIds : List Uuid) : EntryTx Unit := do
  requireMutable true (← lockLibraryForMember W viewerId libraryId)
  let existingIds ← .query fun v _ => (v.inOrder libraryId).map LibraryEntry.id
  if existingIds.length ≠ entryIds.length ∨ sortedSet existingIds ≠ sortedSet entryIds then
    raise .invalidRequest "Library reorder requires an exact full set of entry IDs"
  else
    let updates (v : Entries) : List EntryWrite := entryIds.zipIdx.flatMap fun (id, position) =>
      (v.filter fun e => e.id == id && e.libraryId == libraryId).map fun e => .move e position
    let rowcount ← .returning (fun v _ => updates v) fun v _ => (updates v).length
    if rowcount ≠ entryIds.length then defect else pure ()

/-! ## The commands -/

inductive EntryCommand
  | ensureMediaInLibrary (viewerId libraryId mediaId : Uuid)
  | ensureMediaSavedInNexus (viewerId mediaId : Uuid)
  | ensureMediaInLibraries (viewerId mediaId : Uuid) (libraryIds : List Uuid)
  | assignLibrariesForMedia (viewerId mediaId : Uuid) (libraryIds : List Uuid)
  | ensureSubscriptionEpisodeDefault (userId podcastId mediaId : Uuid)
  | ensureMediaAbsentFromLibrary (viewerId mediaId libraryId : Uuid)
  | undoMediaFiling (viewerId mediaId libraryId : Uuid)
  | ensureMediaAbsentFromSavedInNexus (viewerId mediaId : Uuid)
  | placePodcastInNamedLibraries (viewerId podcastId : Uuid) (libraryIds : List Uuid)
      (confirmationFingerprint : Option (List Char))
  | placeSubscribedPodcast (viewerId libraryId podcastId : Uuid) (idempotencyKey : List Char)
  | removePodcastFromLibrary (viewerId libraryId podcastId : Uuid) (idempotencyKey : List Char)
  | undoPodcastFiling (viewerId libraryId podcastId : Uuid)
  | reorderEntries (viewerId libraryId : Uuid) (entryIds : List Uuid)
  deriving DecidableEq, Repr

/-- The transaction without its answer. -/
def answered (p : EntryTx α) : EntryTx Unit := do
  let _ ← p

def program : EntryCommand → EntryTx Unit
  | .ensureMediaInLibrary viewerId libraryId mediaId => answered (ensureMediaInLibrary W viewerId libraryId mediaId)
  | .ensureMediaSavedInNexus viewerId mediaId => answered (ensureMediaSavedInNexus W viewerId mediaId)
  | .ensureMediaInLibraries viewerId mediaId libraryIds => ensureMediaInLibraries W viewerId mediaId libraryIds
  | .assignLibrariesForMedia viewerId mediaId libraryIds => assignLibrariesForMedia W viewerId mediaId libraryIds
  | .ensureSubscriptionEpisodeDefault userId podcastId mediaId =>
    answered (ensureSubscriptionEpisodeDefault W userId podcastId mediaId)
  | .ensureMediaAbsentFromLibrary viewerId mediaId libraryId =>
    ensureMediaAbsentFromLibrary W viewerId mediaId libraryId true
  | .undoMediaFiling viewerId mediaId libraryId => ensureMediaAbsentFromLibrary W viewerId mediaId libraryId false
  | .ensureMediaAbsentFromSavedInNexus viewerId mediaId => ensureMediaAbsentFromSavedInNexus W viewerId mediaId
  | .placePodcastInNamedLibraries viewerId podcastId libraryIds confirmationFingerprint =>
    answered (placePodcastInNamedLibraries W viewerId podcastId libraryIds confirmationFingerprint)
  | .placeSubscribedPodcast viewerId libraryId podcastId idempotencyKey =>
    answered (placeSubscribedPodcastOnce W viewerId libraryId podcastId idempotencyKey)
  | .removePodcastFromLibrary viewerId libraryId podcastId idempotencyKey =>
    answered (removePodcastFromLibrary W viewerId libraryId podcastId idempotencyKey)
  | .undoPodcastFiling viewerId libraryId podcastId => answered (undoPodcastFiling W viewerId libraryId podcastId)
  | .reorderEntries viewerId libraryId entryIds => reorderEntries W viewerId libraryId entryIds

end Commands

end Nexus.LibraryEntries
