/-
`services/artifacts/engine.py`: heads, builds and the terminal children of a Dossier.

Each function here is one transaction: the engine's commands run serializable and hold
the lock of the head, and the cleanups run in a transaction of their caller that locks
their heads first. Who may see a subject or an audience is told by other services
(`Access`). A build's attempts are told apart by the claim of their job.

An event of the log is the event a stream sends, with `append_event` of `run_kit`.
-/
import Nexus.Jobs.Refinement
import Nexus.Streams.Tail
import Nexus.Strip

namespace Nexus.Dossiers
open Relational Jobs Streams

/-! ## Rows -/

/-- `subject_scheme`, `subject_id` -/
structure Subject where
  scheme : Text
  id : Uuid
  deriving DecidableEq

/-- `AudienceScope` -/
inductive Audience
  | user (userId : Uuid)
  | library (libraryId : Uuid)
  deriving DecidableEq

/-- `artifacts` -/
structure Head where
  id : Uuid
  subject : Subject
  audience : Audience
  currentRevisionId : Option Uuid
  deriving DecidableEq

/-- `artifact_builds` -/
structure Build where
  id : Uuid
  artifactId : Uuid
  requesterUserId : Option Uuid
  instruction : Option Text
  idempotencyKey : Text
  createdAt : Instant
  deriving DecidableEq

/-- `artifact_revisions`; the document is the page, its text and its manifest. -/
structure Revision (D : Type) where
  id : Uuid
  buildId : Uuid
  document : D
  citationOwnerUserId : Uuid
  creatorUserId : Option Uuid

/-- `DossierBuildFailureCode` -/
inductive BuildFailureCode
  | noSourceMaterial
  | inputsChanged
  | dependencyProjectionFailed
  | entitlementDenied
  | budgetExceeded
  | contextTooLarge
  | providerRefused
  | providerIncomplete
  | documentValidationFailed
  | citationValidationFailed
  deriving DecidableEq

/-- What a failure says: code, detail and support. -/
structure FailureFacts (S : Type) where
  code : BuildFailureCode
  detail : Option Text
  support : Option S
  deriving DecidableEq

/-- `artifact_build_failures` -/
structure BuildFailure (S : Type) where
  buildId : Uuid
  facts : FailureFacts S

/-- `artifact_build_cancellations` -/
structure Cancellation where
  buildId : Uuid
  actorUserId : Option Uuid

/-- The payloads of `ArtifactBuildEventType`. -/
inductive EventBody (S : Type)
  | started (buildId artifactId : Uuid)
  | progress (phase message : Text)
  | succeeded (revisionId : Uuid)
  | failed (facts : FailureFacts S)
  | cancelled (actor : Option Uuid)
  deriving DecidableEq

variable {D S P : Type}

def EventBody.eventType : EventBody S → Text
  | .started _ _ => ['S', 't', 'a', 'r', 't', 'e', 'd']
  | .progress _ _ => ['P', 'r', 'o', 'g', 'r', 'e', 's', 's']
  | .succeeded _ => ['S', 'u', 'c', 'c', 'e', 'e', 'd', 'e', 'd']
  | .failed _ => ['F', 'a', 'i', 'l', 'e', 'd']
  | .cancelled _ => ['C', 'a', 'n', 'c', 'e', 'l', 'l', 'e', 'd']

def EventBody.event (body : EventBody S) : Event (EventBody S) where
  eventType := body.eventType
  payload := body

/-- `artifact_build_events` -/
structure BuildEvent (S : Type) where
  buildId : Uuid
  row : EventRow (EventBody S)

structure DossierDb (D S P : Type) where
  heads : Table Head Head.id
  builds : Table Build Build.id
  revisions : Table (Revision D) Revision.id
  failures : Table (BuildFailure S) BuildFailure.buildId
  cancellations : Table Cancellation Cancellation.buildId
  events : List (BuildEvent S)
  jobs : Queue P

inductive DossierError
  | alreadyExists
  | notFound
  | generationInProgress
  | buildNotActive
  | revisionNotFound
  | revisionNotOwnedByHead
  | invalidInstruction
  | ownsLibraries
  /-- an assertion, or a constraint of a table -/
  | defect
  deriving DecidableEq

/-- What other services say of a viewer. -/
structure Access where
  isLibraryMember : Uuid → Uuid → Bool
  subjectVisible : Subject → Uuid → Bool

/-- The ids and the clock of one transaction. -/
structure Fresh where
  headId : Uuid
  buildId : Uuid
  jobId : Uuid
  now : Instant

/-! ## Reads -/

namespace DossierDb

variable (db : DossierDb D S P)

def dispatchKey (buildId : Uuid) : String := "dossier_build:" ++ toString buildId

/-- The terminal children of a build, as the events that tell of them. -/
def ending (buildId : Uuid) : List (EventBody S) :=
  (db.revisions.rows.filter fun r => r.buildId == buildId).map (fun r => .succeeded r.id) ++
    (db.failures.rows.filter fun f => f.buildId == buildId).map (fun f => .failed f.facts) ++
    (db.cancellations.rows.filter fun c => c.buildId == buildId).map (fun c => .cancelled c.actorUserId)

inductive TerminalChild
  | revision
  | failure
  | cancellation
  deriving DecidableEq

def existingTerminalChild (buildId : Uuid) : Except DossierError (Option TerminalChild) :=
  let rev := (db.revisions.rows.filter fun r => r.buildId == buildId).length
  let fail := (db.failures.rows.filter fun f => f.buildId == buildId).length
  let canc := (db.cancellations.rows.filter fun c => c.buildId == buildId).length
  if 1 < rev + fail + canc then .error .defect
  else if 0 < rev then .ok (.some .revision)
  else if 0 < fail then .ok (.some .failure)
  else if 0 < canc then .ok (.some .cancellation)
  else .ok .none

/-- The `NOT EXISTS` of the three children. -/
def activeBuild (buildId : Uuid) : Bool :=
  !(db.revisions.rows.any fun r => r.buildId == buildId) && !(db.failures.rows.any fun f => f.buildId == buildId) &&
    !(db.cancellations.rows.any fun c => c.buildId == buildId)

def hasActiveBuild (headId : Uuid) : Bool := db.builds.rows.any fun b => b.artifactId == headId && db.activeBuild b.id

/-- `_find_head_id_locked` -/
def findHeadId (subject : Subject) (audience : Audience) : Option Uuid :=
  (db.heads.rows.find? fun h => h.subject = subject ∧ h.audience = audience).map Head.id

def lockHeadIdForBuild (buildId : Uuid) : Option Uuid :=
  (db.builds.find? buildId).bind fun build => (db.heads.find? build.artifactId).map Head.id

/-- The events of a build. -/
def buildRows (buildId : Uuid) : List (EventRow (EventBody S)) :=
  (db.events.filter fun e => e.buildId == buildId).map BuildEvent.row

def runningClaimIsCurrent (now : Instant) (ctx : JobExecutionContext) : Bool := db.jobs.runningJobClaimIsCurrent now ctx

def authorizeAudience (access : Access) (viewer : Uuid) : Audience → Bool
  | .user userId => userId == viewer
  | .library libraryId => access.isLibraryMember libraryId viewer

structure BuildTicket where
  artifactId : Uuid
  buildId : Uuid
  created : Bool
  deriving DecidableEq

def buildTicketForIdempotency (artifactId : Uuid) (key : Text) : Option BuildTicket :=
  (db.builds.rows.find? fun b => b.artifactId = artifactId ∧ b.idempotencyKey = key).map fun b => ⟨artifactId, b.id, false⟩

def validateInstruction : Option Text → Except DossierError (Option Text)
  | .none => .ok .none
  | .some instruction =>
    let stripped := pythonStrip instruction
    if stripped = [] then .ok .none
    else if 4000 < stripped.length then .error .invalidInstruction
    else .ok (.some stripped)

/-! ## Writes -/

/-- An insert, which a constraint may refuse. -/
def orDefect {α : Type} : Option α → Except DossierError α
  | .some a => .ok a
  | .none => .error .defect

def insertHead (headId : Uuid) (subject : Subject) (audience : Audience) : Except DossierError (DossierDb D S P) := do
  let heads ← orDefect (db.heads.insert? ⟨headId, subject, audience, .none⟩)
  .ok { db with heads := heads }

def ensureHeadLocked (headId : Uuid) (subject : Subject) (audience : Audience) : Except DossierError (Uuid × DossierDb D S P) :=
  match db.findHeadId subject audience with
  | .some existing => .ok (existing, db)
  | .none => do
    let db ← db.insertHead headId subject audience
    .ok (headId, db)

def appendBuildEvent (buildId : Uuid) (body : EventBody S) : Except DossierError (DossierDb D S P) :=
  match db.builds.find? buildId with
  | .none => .error .defect
  | .some _ => .ok { db with events := db.events ++ [⟨buildId, nextSeq (db.buildRows buildId), body.event⟩] }

variable (dispatchPayload : Uuid → P)

def ensureBuildLocked (fresh : Fresh) (artifactId requester : Uuid) (instruction : Option Text) (key : Text) :
    Except DossierError (BuildTicket × DossierDb D S P) :=
  match db.buildTicketForIdempotency artifactId key with
  | .some replay => .ok (replay, db)
  | .none =>
    if db.hasActiveBuild artifactId then .error .generationInProgress
    else do
      let builds ← orDefect (db.builds.insert? ⟨fresh.buildId, artifactId, .some requester, instruction, key, fresh.now⟩)
      let db ← { db with builds := builds }.appendBuildEvent fresh.buildId (.started fresh.buildId artifactId)
      let (_, _, jobs) ← orDefect (db.jobs.enqueueUniqueJob fresh.now fresh.jobId "dossier_build" (dispatchPayload fresh.buildId)
        (dispatchKey fresh.buildId) 100 3 .none)
      .ok (⟨artifactId, fresh.buildId, true⟩, { db with jobs := jobs })

/-- `bootstrap_resource_dossier`, of a subject its policy has resolved and authorized. -/
def bootstrapResourceDossier (fresh : Fresh) (subject : Subject) (audience : Audience) (requester : Uuid) (key : Text)
    (instruction : Option Text) : Except DossierError (BuildTicket × DossierDb D S P) := do
  let instruction ← validateInstruction instruction
  match db.findHeadId subject audience with
  | .some headId => match db.buildTicketForIdempotency headId key with
    | .none => .error .alreadyExists
    | .some replay => .ok (replay, db)
  | .none =>
    let db ← db.insertHead fresh.headId subject audience
    db.ensureBuildLocked dispatchPayload fresh fresh.headId requester instruction key

def regenerateArtifact (access : Access) (fresh : Fresh) (artifactId requester : Uuid) (key : Text) (instruction : Option Text) :
    Except DossierError (BuildTicket × DossierDb D S P) := do
  let instruction ← validateInstruction instruction
  match db.heads.find? artifactId with
  | .none => .error .notFound
  | .some head =>
    if authorizeAudience access requester head.audience = false then .error .notFound
    else if access.subjectVisible head.subject requester = false then .error .notFound
    else db.ensureBuildLocked dispatchPayload fresh artifactId requester instruction key

/-- What Learn ends in. -/
inductive LearnSuccess
  | opened (artifactId : Uuid)
  | buildAccepted (ticket : BuildTicket)

/-- The heads and builds of `learn_idea`'s `finalize`, of an Idea that is resolved. -/
def finalizeLearn (fresh : Fresh) (idea : Subject) (requester : Uuid) (requestKey : Text) :
    Except DossierError (LearnSuccess × DossierDb D S P) := do
  let (artifactId, db) ← db.ensureHeadLocked fresh.headId idea (.user requester)
  match db.heads.find? artifactId with
  | .none => .error .defect
  | .some head =>
    if head.currentRevisionId.isSome || db.hasActiveBuild artifactId then .ok (.opened artifactId, db)
    else do
      let (ticket, db) ← db.ensureBuildLocked dispatchPayload fresh artifactId requester .none requestKey
      .ok (.buildAccepted ticket, db)

/-! ## The worker -/

inductive StreamEventWriteResult
  | written
  | inactive
  | inputsChanged
  deriving DecidableEq

/-- `_append_guarded_stream_event`, of a progress event. -/
def appendGuardedStreamEvent (now : Instant) (ctx : JobExecutionContext) (buildId : Uuid) (visible : Bool)
    (phase message : Text) (idempotentOnce : Bool) : Except DossierError (StreamEventWriteResult × DossierDb D S P) :=
  match db.lockHeadIdForBuild buildId with
  | .none => .ok (.inactive, db)
  | .some _ => do
    let child ← db.existingTerminalChild buildId
    if child.isSome || !db.runningClaimIsCurrent now ctx then .ok (.inactive, db)
    else if !visible then .ok (.inputsChanged, db)
    else if idempotentOnce && db.events.any fun e =>
        e.buildId == buildId && e.row.event.eventType == (EventBody.progress (S := S) phase message).eventType then
      .ok (.written, db)
    else do
      let db ← db.appendBuildEvent buildId (.progress phase message)
      .ok (.written, db)

/-- A failure's row and its event. -/
def insertFailure (buildId : Uuid) (facts : FailureFacts S) : Except DossierError (DossierDb D S P) := do
  let failures ← orDefect (db.failures.insert? ⟨buildId, facts⟩)
  { db with failures := failures }.appendBuildEvent buildId (.failed facts)

/-- A revision's row and its event. -/
def insertRevision (revision : Revision D) : Except DossierError (DossierDb D S P) := do
  let revisions ← orDefect (db.revisions.insert? revision)
  { db with revisions := revisions }.appendBuildEvent revision.buildId (.succeeded revision.id)

/-- The failure of inputs that changed. -/
def inputsChangedFacts : FailureFacts S :=
  ⟨.inputsChanged, .some "inputs changed between collection and terminal recheck".toList, .none⟩

def successTerminal (now : Instant) (ctx : JobExecutionContext) (inputsCurrent : Bool) (revision : Revision D) :
    Except DossierError (DossierDb D S P) :=
  match db.lockHeadIdForBuild revision.buildId with
  | .none => .ok db
  | .some headId => do
    let child ← db.existingTerminalChild revision.buildId
    if child.isSome then .ok db
    else if !db.runningClaimIsCurrent now ctx then .ok db
    else if !inputsCurrent then db.insertFailure revision.buildId inputsChangedFacts
    else do
      let db ← db.insertRevision revision
      .ok { db with heads := db.heads.updateWhere (fun h => h.id == headId) fun h => { h with currentRevisionId := .some revision.id } }

def terminalFailure (now : Instant) (ctx : Option JobExecutionContext) (inputRecheck : Option Bool) (buildId : Uuid)
    (facts : FailureFacts S) : Except DossierError (DossierDb D S P) :=
  match db.lockHeadIdForBuild buildId with
  | .none => .ok db
  | .some _ => do
    let child ← db.existingTerminalChild buildId
    if child.isSome then .ok db
    else if ctx.any fun ctx => !db.runningClaimIsCurrent now ctx then .ok db
    else db.insertFailure buildId (if inputRecheck = .some false then inputsChangedFacts else facts)

/-! ## Commands on a build or a revision -/

/-- A cancellation's row and its event. -/
def insertCancellation (buildId : Uuid) (actor : Option Uuid) : Except DossierError (DossierDb D S P) := do
  let cancellations ← orDefect (db.cancellations.insert? ⟨buildId, actor⟩)
  { db with cancellations := cancellations }.appendBuildEvent buildId (.cancelled actor)

def cancelBuild (access : Access) (buildId actor : Uuid) : Except DossierError (DossierDb D S P) :=
  match db.lockHeadIdForBuild buildId with
  | .none => .error .buildNotActive
  | .some headId => match db.heads.find? headId with
    | .none => .error .notFound
    | .some head =>
      if authorizeAudience access actor head.audience = false then .error .notFound
      else if access.subjectVisible head.subject actor = false then .error .notFound
      else do
        match ← db.existingTerminalChild buildId with
        | .some .cancellation => .ok db
        | .some _ => .error .buildNotActive
        | .none => db.insertCancellation buildId (.some actor)

def makeCurrent (access : Access) (revisionId actor : Uuid) : Except DossierError (DossierDb D S P) :=
  match (db.revisions.find? revisionId).bind fun revision => (db.builds.find? revision.buildId).bind fun build =>
      db.heads.find? build.artifactId with
  | .none => .error .revisionNotFound
  | .some head =>
    if authorizeAudience access actor head.audience = false then .error .revisionNotOwnedByHead
    else if access.subjectVisible head.subject actor = false then .error .revisionNotOwnedByHead
    else .ok { db with heads := db.heads.updateWhere (fun h => h.id == head.id) fun h => { h with currentRevisionId := .some revisionId } }

/-! ## Cleanups -/

/-- `_delete_heads`; the pointers are cleared first, and the rows that go with a head
are deleted before it. -/
def deleteHeads (headIds : List Uuid) : DossierDb D S P :=
  let buildIds := (db.builds.rows.filter fun b => headIds.contains b.artifactId).map Build.id
  { heads := (db.heads.updateWhere (fun h => headIds.contains h.id) fun h => { h with currentRevisionId := .none }).deleteWhere
      fun h => headIds.contains h.id
    builds := db.builds.deleteWhere fun b => buildIds.contains b.id
    revisions := db.revisions.deleteWhere fun r => buildIds.contains r.buildId
    failures := db.failures.deleteWhere fun f => buildIds.contains f.buildId
    cancellations := db.cancellations.deleteWhere fun c => buildIds.contains c.buildId
    events := db.events.filter fun e => !buildIds.contains e.buildId
    jobs := db.jobs.revokeJobsByDedupeKeys "dossier_build" (buildIds.map dispatchKey) }

/-- The deletion of the heads a statement selects. -/
def deleteHeadsWhere (p : Head → Bool) : DossierDb D S P := db.deleteHeads ((db.heads.rows.filter p).map Head.id)

def onSubjectDeleted (subject : Subject) : DossierDb D S P := db.deleteHeadsWhere fun h => h.subject == subject

def onSubjectAudienceRemoved (subject : Subject) (audience : Audience) : DossierDb D S P :=
  db.deleteHeadsWhere fun h => h.subject == subject && h.audience == audience

def onAudienceVisibilityChanged (access : Access) : Audience → DossierDb D S P
  | .library _ => db
  | .user userId => db.deleteHeadsWhere fun h => h.audience == .user userId && !access.subjectVisible h.subject userId

/-- What `on_user_deleted` does to an active build of a shared head. -/
def cancelForTeardown (buildId : Uuid) : Except DossierError (DossierDb D S P) := do
  let db ← db.insertCancellation buildId .none
  .ok { db with jobs := db.jobs.revokeJobsByDedupeKeys "dossier_build" [dispatchKey buildId] }

/-- The active builds a user has asked for on a head. -/
def activeBuildIds (headId userId : Uuid) : List Uuid :=
  (db.builds.rows.filter fun b => b.artifactId == headId && b.requesterUserId == .some userId && db.activeBuild b.id).map Build.id

/-- The payload of an event without the name of an actor. -/
def withoutActor (body : EventBody S) : EventBody S := match body with
  | .cancelled _ => .cancelled .none
  | _ => body

def isShared (audience : Audience) : Bool := match audience with
  | .library _ => true
  | .user _ => false

/-- The owner of the library a revision is shared with. -/
def libraryOwner (ownerOf : Uuid → Option Uuid) (r : Revision D) : Option Uuid :=
  (db.builds.find? r.buildId).bind fun b => (db.heads.find? b.artifactId).bind fun h => match h.audience with
    | .library libraryId => ownerOf libraryId
    | .user _ => .none

/-- The builds whose cancellation names a user. -/
def cancelledBy (userId : Uuid) : List Uuid :=
  (db.cancellations.rows.filter fun c => c.actorUserId == .some userId).map Cancellation.buildId

/-- The last statements of `on_user_deleted`: what is kept no longer names the user. -/
def redactUser (ownerOf : Uuid → Option Uuid) (userId : Uuid) : DossierDb D S P :=
  { db with
    builds := db.builds.updateWhere (fun b => b.requesterUserId == .some userId) fun b => { b with requesterUserId := .none }
    revisions := (db.revisions.updateWhere (fun r => r.citationOwnerUserId == userId) fun r =>
        { r with citationOwnerUserId := (db.libraryOwner ownerOf r).getD r.citationOwnerUserId }).updateWhere
      (fun r => r.creatorUserId == .some userId) fun r => { r with creatorUserId := .none }
    cancellations := db.cancellations.updateWhere (fun c => c.actorUserId == .some userId) fun c => { c with actorUserId := .none }
    events := db.events.map fun e => if (db.cancelledBy userId).contains e.buildId then
      { e with row := { e.row with event := (withoutActor e.row.event.payload).event } } else e }

def onUserDeleted (ownsLibraries : Bool) (ownerOf : Uuid → Option Uuid) (userId : Uuid) : Except DossierError (DossierDb D S P) := do
  if ownsLibraries then .error .ownsLibraries
  else
    let db := db.deleteHeadsWhere fun h => h.audience == .user userId
    let shared := (db.heads.rows.filter fun h => isShared h.audience && db.builds.rows.any fun b =>
      b.artifactId == h.id && b.requesterUserId == .some userId).map Head.id
    let db ← shared.foldlM (fun db headId => (db.activeBuildIds headId userId).foldlM cancelForTeardown db) db
    .ok (db.redactUser ownerOf userId)

end DossierDb

end Nexus.Dossiers
