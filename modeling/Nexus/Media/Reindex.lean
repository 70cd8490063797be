/-
`services/content_indexing.py`: reindexing a document medium, and
`tasks/media_content_reindex.py`, the job that does it.

The intent to reindex is the revision of the medium's `content_index_states`
row; the work is a queue row that carries the revision. `request` raises the
revision and leaves one waiting job of it, `ensure` enqueues a job when the
current revision has none, and the job prepares a snapshot, plans outside any
transaction and publishes if the revision is still its own.

A call is one transaction under the medium's row lock, and both calls lock the
queue rows they read, so each is atomic here; one that raises leaves nothing.
Chunks, spans and embeddings are told by their number only, the clocks and the
embedding columns of a state row by nothing.
-/
import Nexus.Base
import Nexus.Jobs.Queue
import Nexus.Lib.ExceptFacts
import Nexus.Lib.Run
import Mathlib.Data.List.Sort
import Mathlib.Logic.Function.Basic

namespace Nexus.Reindex
open Relational Nexus.Jobs

/-! ## Rows and payloads -/

/-- `MEDIA_CONTENT_REINDEX_REASONS` -/
inductive ReindexReason
  | sourceSuccess
  | reconciliation
  | operatorRepair
  | oracleCorpusSeed
  deriving DecidableEq, Repr

def ReindexReason.value : ReindexReason → String
  | .sourceSuccess => "source_success"
  | .reconciliation => "reconciliation"
  | .operatorRepair => "operator_repair"
  | .oracleCorpusSeed => "oracle_corpus_seed"

/-- The members of the objects the job's queue rows hold: its payload, and its
result. -/
structure ReindexJson where
  mediaId : Option Uuid := .none
  revision : Option Nat := .none
  reason : Option ReindexReason := .none
  requestId : Option (Option String) := .none
  status : Option String := .none
  chunkCount : Option Nat := .none
  deriving DecidableEq, Repr

/-- `@>` of one member. -/
def hasMember {α : Type} [DecidableEq α] (member expected : Option α) : Bool :=
  expected.all fun value => member == .some value

instance : Payload ReindexJson where
  contains payload expected :=
    hasMember payload.mediaId expected.mediaId && hasMember payload.revision expected.revision &&
      hasMember payload.reason expected.reason && hasMember payload.requestId expected.requestId &&
      hasMember payload.status expected.status && hasMember payload.chunkCount expected.chunkCount
  superseded := { status := .some "superseded" }

def mediaContentReindexJobKind : String := "media_content_reindex_job"

/-- The registry's definition of the job. -/
def reindexMaxAttempts : Int := 3
def reindexLeaseSeconds : Int := 900
def reindexRetryDelaysSeconds : List Int := [60, 300]

def mediaReindexPayload (mediaId : Uuid) (revision : Nat) (reason : ReindexReason) (requestId : Option String) :
    ReindexJson :=
  { mediaId := .some mediaId, revision := .some revision, reason := .some reason, requestId := .some requestId }

/-- What a `media` row says to the index: its kind, whether it is
`ready_for_reading`, and the blocks a snapshot of its text makes. -/
structure MediaRow (Block : Type) where
  kind : MediaKind
  readyForReading : Bool
  blocks : List Block

inductive ContentIndexStatus
  | pending
  | indexing
  | ready
  | noText
  | ocrRequired
  | failed
  deriving DecidableEq, Repr

/-- A row of `content_index_states` whose owner is a medium. -/
structure ContentIndexState where
  status : ContentIndexStatus
  statusReason : String
  revision : Nat
  deriving DecidableEq, Repr

variable {Block : Type}

structure IndexDb (Block : Type) where
  media : Uuid → Option (MediaRow Block)
  indexStates : Uuid → Option ContentIndexState
  /-- `content_blocks`, with the chunks and spans over them. -/
  contentBlocks : Uuid → List Block
  queue : Queue ReindexJson

/-- `UPDATE content_index_states` of one medium. -/
def IndexDb.setState (db : IndexDb Block) (mediaId : Uuid) (state : ContentIndexState) : IndexDb Block :=
  { db with indexStates := Function.update db.indexStates mediaId (.some state) }

/-- `_set_index_state`: an owner without a row gets one, at revision 0. -/
def IndexDb.setIndexState (db : IndexDb Block) (mediaId : Uuid) (status : ContentIndexStatus)
    (statusReason : String) : IndexDb Block :=
  db.setState mediaId ⟨status, statusReason, (db.indexStates mediaId).elim 0 (·.revision)⟩

/-! ## The queue rows of a medium -/

def jobRevision (payload : ReindexJson) : Except String Nat :=
  match payload.revision with
  | .some revision => .ok revision
  | .none => .error "media content-index revision is malformed"

/-- `lock_jobs_for_payload(kind, {"media_id": …})` -/
def lockJobsForPayload (queue : Queue ReindexJson) (mediaId : Uuid) : List (JobRow ReindexJson) :=
  (queue.rows.filter fun job => job.kind == mediaContentReindexJobKind &&
    Payload.contains job.payload { mediaId := .some mediaId }).insertionSort fun a b => a.id ≤ b.id

/-- `job.status in {"pending", "failed"} and job.claimed_by is None` -/
def isWaiting (job : JobRow ReindexJson) : Bool := job.waiting && job.claimedBy.isNone

/-- `[job for job in jobs if p(_job_revision(job.payload))]` -/
def jobsWhere (p : Nat → Bool) : List (JobRow ReindexJson) → Except String (List (JobRow ReindexJson))
  | [] => .ok []
  | job :: jobs => do
    let revision ← jobRevision job.payload
    let rest ← jobsWhere p jobs
    return if p revision then job :: rest else rest

def assertMediaReindexWaitingPostcondition (queue : Queue ReindexJson) (mediaId : Uuid) (revision : Nat) :
    Except String Unit := do
  let waiting := (lockJobsForPayload queue mediaId).filter isWaiting
  let current ← jobsWhere (· == revision) waiting
  let obsolete ← jobsWhere (· < revision) waiting
  if current.length ≠ 1 ∨ obsolete ≠ [] then
    throw "media content-reindex waiting-job postcondition failed"

/-- The row a queue statement returns, or the `NoResultFound` it raises. -/
def oneRow {α : Type} (result : Option α) : Except String α :=
  match result with
  | .some row => .ok row
  | .none => .error "no row"

/-- `for obsolete in waiting[1:]: supersede_unclaimed_job(…)` -/
def supersedeAll (now : Instant) : List (JobRow ReindexJson) → Queue ReindexJson → Except String (Queue ReindexJson)
  | [], queue => .ok queue
  | obsolete :: rest, queue => do
    let superseded ← oneRow (queue.supersedeUnclaimedJob now obsolete.id mediaContentReindexJobKind)
    supersedeAll now rest superseded.2

/-! ## Requests and reconciliation -/

structure MediaContentReindexIntent where
  revision : Nat
  backgroundJobId : Uuid
  suspended : Bool
  enqueued : Bool
  deriving DecidableEq, Repr

/-- `request_media_content_reindex`; `jobId` is the id a new row would get. -/
def requestMediaContentReindex (db : IndexDb Block) (now : Instant) (jobId mediaId : Uuid) (reason : ReindexReason)
    (requestId : Option String) : Except String (MediaContentReindexIntent × IndexDb Block) := do
  if (db.media mediaId).isNone then
    throw "media content-index owner does not exist"
  let state := (db.indexStates mediaId).getD ⟨.pending, reason.value, 0⟩
  let revision := state.revision + 1
  let db := db.setState mediaId ⟨.pending, reason.value, revision⟩
  let payload := mediaReindexPayload mediaId revision reason requestId
  let waiting := (lockJobsForPayload db.queue mediaId).filter isWaiting
  let written ← (match waiting with
    | [] => oneRow (db.queue.enqueueJob now jobId mediaContentReindexJobKind payload 100 reindexMaxAttempts
        .none .none)
    | first :: obsolete => do
      let selected ← oneRow (db.queue.resetUnclaimedJobForNewIntent now first.id mediaContentReindexJobKind payload
        reindexMaxAttempts)
      let queue ← supersedeAll now obsolete selected.2
      return (selected.1, queue))
  assertMediaReindexWaitingPostcondition written.2 mediaId revision
  return (⟨revision, written.1.id, false, waiting.isEmpty⟩, { db with queue := written.2 })

def ensureMediaContentReindexJob (db : IndexDb Block) (now : Instant) (jobId mediaId : Uuid) (reason : ReindexReason)
    (requestId : Option String) : Except String (MediaContentReindexIntent × IndexDb Block) := do
  if (db.media mediaId).isNone then
    throw "media content-index owner does not exist"
  let state ← (match db.indexStates mediaId with
    | .some state => .ok state
    | .none => .error "cannot ensure a job without a media content-index state")
  let revision := state.revision
  let current ← jobsWhere (· == revision) (lockJobsForPayload db.queue mediaId)
  let waiting := current.filter isWaiting
  if 1 < waiting.length then
    throw "multiple waiting jobs exist for one media index revision"
  let running := current.filter (·.status == .running)
  let dead := current.filter (·.status == .dead)
  if 1 < running.length ∨ 1 < dead.length then
    throw "multiple owned jobs exist for one media index revision"
  match waiting, running, dead with
  | job :: _, _, _ => return (⟨revision, job.id, false, false⟩, db)
  | [], job :: _, _ => return (⟨revision, job.id, false, false⟩, db)
  | [], [], job :: _ => return (⟨revision, job.id, true, false⟩, db)
  | [], [], [] =>
    let inserted ← oneRow (db.queue.enqueueJob now jobId mediaContentReindexJobKind
      (mediaReindexPayload mediaId revision reason requestId) 100 reindexMaxAttempts .none .none)
    assertMediaReindexWaitingPostcondition inserted.2 mediaId revision
    return (⟨revision, inserted.1.id, false, true⟩, { db with queue := inserted.2 })

/-- `deactivate_content_index` of a medium. -/
def deactivateContentIndex (db : IndexDb Block) (mediaId : Uuid) (reason : String) : IndexDb Block :=
  let db : IndexDb Block := { db with contentBlocks := Function.update db.contentBlocks mediaId [] }
  db.setIndexState mediaId .pending reason

/-- The dead job `retry_dead_content_index_job` puts back: `current_dead_job_for_payload`
of the medium's revision. -/
def retryDeadContentIndexJob (db : IndexDb Block) (now : Instant) (mediaId : Uuid) :
    Except String (Uuid × IndexDb Block) := do
  let state ← (match db.indexStates mediaId with
    | .some state => .ok state
    | .none => .error "Content index not found.")
  let dead := (lockJobsForPayload db.queue mediaId).filter fun job =>
    job.status == .dead && job.payload.revision == .some state.revision
  match dead with
  | [] => throw "The current content-index operation is not suspended."
  | job :: _ =>
    let requeued ← oneRow (db.queue.requeueDeadJob now job.id)
    return (job.id, { db with queue := requeued.2 })

/-! ## The job -/

def isDocumentSourceKind : MediaKind → Bool
  | .webArticle | .epub | .pdf => true
  | .video | .podcastEpisode => false

structure MediaContentReindexWork (Block : Type) where
  mediaId : Uuid
  revision : Nat
  sourceKind : MediaKind
  reason : ReindexReason
  blocks : List Block

/-- `ContentIndexPlan`, its chunks by their number. -/
structure ContentIndexPlan (Block : Type) where
  ownerId : Uuid
  sourceKind : MediaKind
  blocks : List Block
  chunks : Nat

/-- `plan_content_index`, when it returns: chunking and embedding are not told. -/
def planContentIndex (work : MediaContentReindexWork Block) (chunks : Nat) : ContentIndexPlan Block :=
  ⟨work.mediaId, work.sourceKind, work.blocks, chunks⟩

/-- The row names the payload of the attempt. -/
def namesPayload (job : JobRow ReindexJson) (mediaId : Uuid) (revision : Nat) : Bool :=
  job.kind == mediaContentReindexJobKind && job.payload.mediaId == .some mediaId &&
    job.payload.revision == .some revision

def prepareMediaContentReindex (db : IndexDb Block) (now : Instant) (mediaId : Uuid) (revision : Nat)
    (reason : ReindexReason) (context : JobExecutionContext) :
    Except String (Option (MediaContentReindexWork Block) × IndexDb Block) :=
  match db.media mediaId with
  | .none => .ok (.none, db)
  | .some media =>
    if !isDocumentSourceKind media.kind then .error "media content-reindex owner kind is ineligible"
    else match (db.indexStates mediaId).filter (·.revision == revision) with
      | .none => .ok (.none, db)
      | .some state =>
        match db.queue.lockAndRenewRunningJobClaim now context reindexLeaseSeconds with
        | .none => .ok (.none, db)
        | .some (job, queue) =>
          if !namesPayload job mediaId revision then .error "media content-reindex job identity is malformed"
          else if !media.readyForReading then .error "media content-reindex owner is not readable"
          else
            let db : IndexDb Block := { db with queue := queue }
            .ok (.some ⟨mediaId, revision, media.kind, reason, media.blocks⟩,
              db.setState mediaId ⟨.indexing, reason.value, state.revision⟩)

/-- `publish_content_index`: the blocks are replaced, and the status it leaves. -/
def publishContentIndex (db : IndexDb Block) (plan : ContentIndexPlan Block) (reason : ReindexReason) :
    ContentIndexStatus × IndexDb Block :=
  let db : IndexDb Block := { db with contentBlocks := Function.update db.contentBlocks plan.ownerId plan.blocks }
  if plan.chunks = 0 then (.noText, db.setIndexState plan.ownerId .noText "no_text")
  else (.ready, db.setIndexState plan.ownerId .ready reason.value)

/-- `publish_media_content_reindex`; what it returns is the status and the
number of chunks. -/
def publishMediaContentReindex (db : IndexDb Block) (now : Instant) (work : MediaContentReindexWork Block)
    (plan : ContentIndexPlan Block) (context : JobExecutionContext) :
    Except String (Option (ContentIndexStatus × Nat) × IndexDb Block) :=
  match db.media work.mediaId with
  | .none => .ok (.none, db)
  | .some media =>
    if media.kind ≠ work.sourceKind then .error "media kind changed during content reindex"
    else match (db.indexStates work.mediaId).filter (·.revision == work.revision) with
      | .none => .ok (.none, db)
      | .some _ =>
        match db.queue.lockAndRenewRunningJobClaim now context reindexLeaseSeconds with
        | .none => .ok (.none, db)
        | .some (job, queue) =>
          if !namesPayload job work.mediaId work.revision then
            .error "media content-reindex publication identity is malformed"
          else if plan.ownerId ≠ work.mediaId ∨ plan.sourceKind ≠ work.sourceKind then
            .error "media content-index plan identity is malformed"
          else
            let (status, db) := publishContentIndex { db with queue := queue } plan work.reason
            if work.sourceKind = .pdf ∧ plan.chunks = 0 then
              .ok (.some (.ocrRequired, 0), db.setIndexState work.mediaId .ocrRequired "ocr_required")
            else .ok (.some (status, plan.chunks), db)

/-- Where an attempt of `media_content_reindex_job` stands. -/
inductive Stage (Block : Type)
  | claimed
  | prepared (work : MediaContentReindexWork Block)
  | returned (result : ReindexJson)

/-- The attempt a worker is executing, with the payload it claimed. -/
structure Attempt (Block : Type) where
  jobId : Uuid
  attemptNo : Nat
  payload : ReindexJson
  stage : Stage Block

def Attempt.context (attempt : Attempt Block) (worker : String) : JobExecutionContext :=
  ⟨attempt.jobId, worker, attempt.attemptNo⟩

def parsePayload (payload : ReindexJson) : Option (Uuid × Nat × ReindexReason) :=
  match payload with
  | ⟨.some mediaId, .some revision, .some reason, .some _, .none, .none⟩ => .some (mediaId, revision, reason)
  | _ => .none

/-- `{"status": "superseded", …}` -/
def supersededResult (mediaId : Uuid) (revision : Nat) : ReindexJson :=
  { status := .some "superseded", mediaId := .some mediaId, revision := .some revision }

def ContentIndexStatus.value : ContentIndexStatus → String
  | .pending => "pending"
  | .indexing => "indexing"
  | .ready => "ready"
  | .noText => "no_text"
  | .ocrRequired => "ocr_required"
  | .failed => "failed"

def publishedResult (work : MediaContentReindexWork Block) (status : ContentIndexStatus) (chunkCount : Nat) : ReindexJson :=
  { status := .some status.value, mediaId := .some work.mediaId, revision := .some work.revision,
    chunkCount := .some chunkCount }

/-! ## Runs -/

structure ReindexState (Block : Type) where
  db : IndexDb Block
  workers : String → Option (Attempt Block)
  /-- The revision and the blocks of the last snapshot prepared of a medium. -/
  snapshots : Uuid → Option (Nat × List Block)

inductive ReindexEvent (Block : Type)
  | request (now : Instant) (jobId mediaId : Uuid) (reason : ReindexReason) (requestId : Option String)
  | ensure (now : Instant) (jobId mediaId : Uuid) (reason : ReindexReason) (requestId : Option String)
  | deactivate (mediaId : Uuid) (reason : String)
  /-- A source publication rewrites the medium's text or its processing status. -/
  | rewrite (mediaId : Uuid) (readyForReading : Bool) (blocks : List Block)
  | claimNext (now : Instant) (worker : String) (leaseSeconds : Int) (allowedKinds : Option (List String))
      (locked : List Uuid)
  | claimExact (now : Instant) (worker : String) (jobId : Uuid) (leaseSeconds : Int)
      (allowedKinds : Option (List String))
  | heartbeat (now : Instant) (worker : String)
  | prepare (now : Instant) (worker : String)
  | publish (now : Instant) (worker : String) (chunks : Nat)
  | complete (now : Instant) (worker : String)
  /-- The handler raised, in a transaction or while it planned. -/
  | fail (now : Instant) (worker errorCode errorMessage : String)
  /-- The worker crashes. -/
  | stop (worker : String)
  | deadLetterExpired (now : Instant) (allowedKinds : Option (List String)) (locked : List Uuid)
  | retryDead (now : Instant) (mediaId : Uuid)
  | requeueDead (now : Instant) (jobId : Uuid)
  /-- Dead jobs of this kind are never pruned (`never_prune_dead`). -/
  | prune (now : Instant) (succeededAfterDays deadAfterDays limit : Int) (locked : List Uuid)

namespace ReindexState

def setQueue (s : ReindexState Block) (queue : Queue ReindexJson) : ReindexState Block :=
  { s with db := { s.db with queue := queue } }

def setWorker (s : ReindexState Block) (worker : String) (attempt : Option (Attempt Block)) : ReindexState Block :=
  { s with workers := Function.update s.workers worker attempt }

/-- A worker takes up the row its claim returned. -/
def claimed (s : ReindexState Block) (worker : String) :
    Option (JobRow ReindexJson × Queue ReindexJson) → ReindexState Block
  | .none => s
  | .some (job, queue) => (s.setQueue queue).setWorker worker (.some ⟨job.id, job.attempts, job.payload, .claimed⟩)

/-- The queue after a statement that may find no row. -/
def afterStatement (s : ReindexState Block) (result : Option (JobRow ReindexJson × Queue ReindexJson)) :
    ReindexState Block :=
  match result with
  | .none => s
  | .some (_, queue) => s.setQueue queue

/-- The transaction of a call: what it wrote, or nothing when it raised. -/
def committed {α : Type} (s : ReindexState Block) (result : Except String (α × IndexDb Block)) : ReindexState Block :=
  match result with
  | .ok (_, db) => { s with db := db }
  | .error _ => s

/-- `media_content_reindex_job` up to the commit of its first transaction. -/
def prepare (s : ReindexState Block) (now : Instant) (worker : String) (attempt : Attempt Block) :
    Except String (ReindexState Block) := do
  let (mediaId, revision, reason) ← oneRow (parsePayload attempt.payload)
  let (work?, db) ← prepareMediaContentReindex s.db now mediaId revision reason (attempt.context worker)
  match work? with
  | .none =>
    let t : ReindexState Block := { s with db := db }
    return t.setWorker worker (.some { attempt with stage := .returned (supersededResult mediaId revision) })
  | .some work =>
    let t : ReindexState Block :=
      { s with db := db, snapshots := Function.update s.snapshots mediaId (.some (revision, work.blocks)) }
    return t.setWorker worker (.some { attempt with stage := .prepared work })

/-- The commit of its second transaction. -/
def publish (s : ReindexState Block) (now : Instant) (worker : String) (attempt : Attempt Block)
    (work : MediaContentReindexWork Block) (chunks : Nat) : Except String (ReindexState Block) := do
  let (result, db) ← publishMediaContentReindex s.db now work (planContentIndex work chunks) (attempt.context worker)
  let returned := match result with
    | .none => supersededResult work.mediaId work.revision
    | .some (status, chunkCount) => publishedResult work status chunkCount
  let t : ReindexState Block := { s with db := db }
  return t.setWorker worker (.some { attempt with stage := .returned returned })

/-- One event; `none` where it cannot happen. A medium of requests and
reconciliations exists, and a reconciled one has a state row: both are selected
by those. An id of a new row is fresh. -/
def next (s : ReindexState Block) : ReindexEvent Block → Option (ReindexState Block)
  | .request now jobId mediaId reason requestId =>
    if (s.db.media mediaId).isSome ∧ s.db.queue.find? jobId = .none then
      .some (s.committed (requestMediaContentReindex s.db now jobId mediaId reason requestId))
    else .none
  | .ensure now jobId mediaId reason requestId =>
    if (s.db.media mediaId).isSome ∧ (s.db.indexStates mediaId).isSome ∧ s.db.queue.find? jobId = .none then
      .some (s.committed (ensureMediaContentReindexJob s.db now jobId mediaId reason requestId))
    else .none
  | .deactivate mediaId reason => .some { s with db := deactivateContentIndex s.db mediaId reason }
  | .rewrite mediaId readyForReading blocks =>
    (s.db.media mediaId).map fun media =>
      { s with db := { s.db with media := Function.update s.db.media mediaId (.some ⟨media.kind, readyForReading, blocks⟩) } }
  | .claimNext now worker leaseSeconds allowedKinds locked =>
    match s.workers worker with
    | .some _ => .none
    | .none => .some (s.claimed worker (s.db.queue.claimNextJob now worker leaseSeconds allowedKinds locked))
  | .claimExact now worker jobId leaseSeconds allowedKinds =>
    match s.workers worker with
    | .some _ => .none
    | .none => .some (s.claimed worker (s.db.queue.claimJob now jobId worker leaseSeconds allowedKinds))
  | .heartbeat now worker =>
    (s.workers worker).map fun attempt =>
      s.afterStatement (s.db.queue.heartbeatJob now attempt.jobId worker reindexLeaseSeconds)
  | .prepare now worker =>
    match s.workers worker with
    | .some ⟨jobId, attemptNo, payload, .claimed⟩ =>
      (s.prepare now worker ⟨jobId, attemptNo, payload, .claimed⟩).toOption
    | _ => .none
  | .publish now worker chunks =>
    match s.workers worker with
    | .some ⟨jobId, attemptNo, payload, .prepared work⟩ =>
      (s.publish now worker ⟨jobId, attemptNo, payload, .prepared work⟩ work chunks).toOption
    | _ => .none
  | .complete now worker =>
    match s.workers worker with
    | .some ⟨jobId, _, _, .returned result⟩ =>
      .some ((s.afterStatement (s.db.queue.completeJob now jobId worker (.some result))).setWorker worker .none)
    | _ => .none
  | .fail now worker errorCode errorMessage =>
    (s.workers worker).map fun attempt =>
      (s.afterStatement (s.db.queue.failJob now attempt.jobId worker errorCode errorMessage reindexRetryDelaysSeconds
        .none)).setWorker worker .none
  | .stop worker => .some (s.setWorker worker .none)
  | .deadLetterExpired now allowedKinds locked =>
    .some (s.afterStatement (s.db.queue.deadLetterExpiredJob now allowedKinds locked))
  | .retryDead now mediaId => .some (s.committed (retryDeadContentIndexJob s.db now mediaId))
  | .requeueDead now jobId => .some (s.afterStatement (s.db.queue.requeueDeadJob now jobId))
  | .prune now succeededAfterDays deadAfterDays limit locked =>
    .some (s.setQueue (s.db.queue.pruneTerminalJobs now succeededAfterDays deadAfterDays limit
      [mediaContentReindexJobKind] locked).2)

end ReindexState

/-- Some media, and nothing requested, claimed or indexed of them. -/
def ReindexState.Initial (s : ReindexState Block) : Prop :=
  s.db.indexStates = (fun _ => .none) ∧ s.db.contentBlocks = (fun _ => []) ∧ s.db.queue = .empty ∧
    s.workers = (fun _ => .none) ∧ s.snapshots = fun _ => .none

def reindexSystem (Block : Type) : Transition.System (ReindexState Block) (ReindexEvent Block) :=
  .ofFun ReindexState.Initial ReindexState.next

end Nexus.Reindex
