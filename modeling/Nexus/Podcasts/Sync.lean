/-
`services/podcasts/sync.py`: the attempts of a subscription sync, and runs of
them among admissions, other ingestion and the queue's own upkeep.

An attempt has three transactions: it claims its generation, ingests the feed
and writes the checkpoint, and finalizes, which hands the new episodes of the
subscription to the Lectern and moves the watermark. Each renews the queue
lease first and then reads the subscription's row of this generation; a later
attempt starts from the checkpoint it finds. An attempt that raises or runs out
of its lease with none left is dead-lettered by the worker.

A feed is the list of its episodes, each with the medium its aliases resolve
to, or the one it would get. Only publication times are kept of an episode. The
clock of the database does not go back. `handed` remembers what was handed to
`ensure_missing`, and `drawn` the ids subscriptions were given.
-/
import Nexus.Podcasts.Refresh
import Nexus.Lib.Run

namespace Nexus.PodcastSync
open Relational Nexus.Jobs

def podcastSyncJobLeaseSeconds : Int := 900

/-- The registry's `retry_delays_seconds` of the sync job. -/
def podcastSyncRetryDelaysSeconds : List Int := [60, 300, 900]

/-! ## Fences -/

def PodcastSyncPayload.parse : PodcastSyncJson → Option PodcastSyncPayload
  | .payload p => if p.syncGeneration < 1 then .none else .some p
  | .result _ => .none

def requireExactQueueAttempt (db : SyncDb) (now : Instant) (payload : PodcastSyncPayload) (context : JobExecutionContext) :
    Except String (Option SyncDb) :=
  match db.queue.lockAndRenewRunningJobClaim now context podcastSyncJobLeaseSeconds with
  | .none => .ok .none
  | .some (job, queue) =>
    if job.kind ≠ podcastSyncJobKind ∨ job.payload ≠ .payload payload ∨
        job.dedupeKey ≠ .some (podcastSyncDedupeKey payload.subscriptionId payload.syncGeneration) then
      .error "Podcast sync queue attempt does not match its exact operation"
    else .ok (.some { db with queue := queue })

def lockSubscriptionEpoch (db : SyncDb) (payload : PodcastSyncPayload) : Option PodcastSubscription :=
  (db.subscriptions.find? payload.subscriptionId).filter fun row =>
    row.userId == payload.userId && row.podcastId == payload.podcastId && row.syncGeneration == payload.syncGeneration

/-- `int(row["sync_job_attempt_no"] or -1) == attempt_no` -/
def PodcastSubscription.attemptIs (row : PodcastSubscription) (attemptNo : Nat) : Bool :=
  row.syncJobAttemptNo == .some attemptNo && attemptNo != 0

/-- The row is the running generation of this attempt. -/
def PodcastSubscription.runBy (row : PodcastSubscription) (context : JobExecutionContext) : Bool :=
  row.syncJobId == .some context.jobId && row.attemptIs context.attemptNo && row.syncStatus == .running

/-! ## Claiming a generation -/

/-- `_claim_sync_attempt`: the cutoff and the checkpoint it finds. -/
def claimSyncAttempt (db : SyncDb) (now : Instant) (payload : PodcastSyncPayload) (context : JobExecutionContext) :
    Except String (Option (Instant × Option SyncCheckpoint) × SyncDb) := do
  match ← requireExactQueueAttempt db now payload context with
  | .none => return (.none, db)
  | .some db =>
    match lockSubscriptionEpoch db payload with
    | .none => return (.none, db)
    | .some row =>
      if row.syncJobId ≠ .some context.jobId ∨ !row.syncStatus.active then
        return (.none, db)
      else
        let db := db.updateSubscription payload.subscriptionId fun row =>
          { row with syncStatus := .running, syncJobAttemptNo := .some context.attemptNo }
        let db := setJoinedItemsRunning db now payload.subscriptionId payload.syncGeneration
        return (.some (now, row.checkpoint), db)

/-! ## Ingestion -/

/-- An episode of a feed: the medium of its aliases, when it has any. -/
structure FeedEpisode where
  mediaId : Option Uuid
  publishedAt : Option Instant
  deriving DecidableEq, Repr

structure SubscriptionIngestResult where
  ingestedEpisodeCount : Nat
  reusedEpisodeCount : Nat
  sourceLimited : Bool
  deriving DecidableEq, Repr

abbrev Episodes := Table PodcastEpisode PodcastEpisode.mediaId

/-- One round of the loop of `sync_subscription_ingest`. -/
def ingestEpisode (podcastId : Uuid) (episodes : Episodes) (result : SubscriptionIngestResult) (episode : FeedEpisode) :
    Except String (Episodes × SubscriptionIngestResult) :=
  match episode.mediaId with
  | .none => .ok (episodes, { result with sourceLimited := true })
  | .some mediaId =>
    match episodes.find? mediaId with
    | .some row =>
      if row.podcastId ≠ podcastId then .error "unique violation"
      else
        let episodes := episodes.updateWhere (fun row => row.mediaId == mediaId) fun row =>
          { row with publishedAt := episode.publishedAt.or row.publishedAt }
        .ok (episodes, { result with reusedEpisodeCount := result.reusedEpisodeCount + 1 })
    | .none =>
      match episodes.insert? ⟨mediaId, podcastId, episode.publishedAt⟩ with
      | .none => .error "unique violation"
      | .some episodes => .ok (episodes, { result with ingestedEpisodeCount := result.ingestedEpisodeCount + 1 })

def syncSubscriptionIngest (podcastId : Uuid) : List FeedEpisode → Episodes → SubscriptionIngestResult →
    Except String (Episodes × SubscriptionIngestResult)
  | [], episodes, result => .ok (episodes, result)
  | episode :: selected, episodes, result => do
    let (episodes, result) ← ingestEpisode podcastId episodes result episode
    syncSubscriptionIngest podcastId selected episodes result

def writeIngestCheckpoint (db : SyncDb) (now : Instant) (payload : PodcastSyncPayload) (context : JobExecutionContext)
    (cutoffAt : Instant) (selectedEpisodes : List FeedEpisode) (sourceLimited : Bool) :
    Except String (Option SyncCheckpoint × SyncDb) := do
  match ← requireExactQueueAttempt db now payload context with
  | .none => return (.none, db)
  | .some db =>
    match (lockSubscriptionEpoch db payload).filter (·.runBy context) with
    | .none => return (.none, db)
    | .some row =>
      match row.checkpoint with
      | .some existing => return (.some existing, db)
      | .none =>
        let (episodes, ingested) ← syncSubscriptionIngest payload.podcastId selectedEpisodes db.episodes ⟨0, 0, false⟩
        let status := if sourceLimited || ingested.sourceLimited then PodcastHealthySyncStatus.sourceLimited else .complete
        let checkpoint : SyncCheckpoint := ⟨status, cutoffAt, ingested.ingestedEpisodeCount, now⟩
        let db : SyncDb := { db with episodes := episodes }
        return (.some checkpoint,
          db.updateSubscription payload.subscriptionId fun row => { row with checkpoint := .some checkpoint })

/-! ## Finalization -/

/-- `published_at IS NOT NULL AND published_at <= :cutoff AND published_at > :watermark` -/
def inWindow (watermark : Option Instant) (cutoff : Instant) (publishedAt : Option Instant) : Bool :=
  publishedAt.any fun published => decide (published ≤ cutoff) && watermark.all fun w => decide (w < published)

def eligibleAutoSubscriptionMedia (episodes : Episodes) (podcastId : Uuid) (syncCutoffAt : Instant)
    (watermark : Option Instant) : List Uuid :=
  ((episodes.rows.filter fun row => row.podcastId == podcastId && inWindow watermark syncCutoffAt row.publishedAt).insertionSort
    fun a b => ((compare (a.publishedAt.getD 0) (b.publishedAt.getD 0)).then (compare a.mediaId b.mediaId)).isLE).map
      (·.mediaId)

/-- The columns a terminal generation clears. -/
def PodcastSubscription.ended (status : PodcastSyncStatus) (row : PodcastSubscription) : PodcastSubscription :=
  { row with syncStatus := status, syncJobId := .none, syncJobAttemptNo := .none, checkpoint := .none }

/-- The subscription's part of the queueing: what is handed to
`ensure_missing_items_in_txn`, and the new watermark. -/
def autoQueueWindow (episodes : Episodes) (row : PodcastSubscription) (cutoff : Instant) : List Uuid × Option Instant :=
  if row.autoQueue ∧ (row.autoQueueWatermarkAt.all fun w => decide (w < cutoff)) = true then
    (eligibleAutoSubscriptionMedia episodes row.podcastId cutoff row.autoQueueWatermarkAt,
      .some (max (row.autoQueueWatermarkAt.getD cutoff) cutoff))
  else ([], row.autoQueueWatermarkAt)

/-- `_finalize_healthy_sync`: whether it finalized, and the media handed over. -/
def finalizeHealthySync (db : SyncDb) (now : Instant) (payload : PodcastSyncPayload) (context : JobExecutionContext) :
    Except String (Bool × List Uuid × SyncDb) := do
  match ← requireExactQueueAttempt db now payload context with
  | .none => return (false, [], db)
  | .some db =>
    match (lockSubscriptionEpoch db payload).filter (·.runBy context) with
    | .none => return (false, [], db)
    | .some row =>
      match row.checkpoint with
      | .none => throw "Podcast sync finalization requires an ingest checkpoint"
      | .some checkpoint =>
        let (eligible, watermark) := autoQueueWindow db.episodes row checkpoint.cutoffAt
        let db := db.updateSubscription payload.subscriptionId fun row =>
          { row.ended checkpoint.status.sync with autoQueueWatermarkAt := watermark }
        return (true, eligible, finishJoinedItems db now payload.subscriptionId payload.syncGeneration
          checkpoint.status.sync checkpoint.newEpisodeCount)

/-! ## Failure -/

/-- What a modeled failure and a dead letter write. -/
def failGeneration (db : SyncDb) (now : Instant) (row : PodcastSubscription) : SyncDb :=
  finishJoinedItems (db.updateSubscription row.id (·.ended .failed)) now row.id row.syncGeneration .failed
    (row.checkpoint.elim 0 (·.newEpisodeCount))

def terminalizeModeledFailure (db : SyncDb) (now : Instant) (payload : PodcastSyncPayload)
    (context : JobExecutionContext) : Except String (Bool × SyncDb) := do
  match ← requireExactQueueAttempt db now payload context with
  | .none => return (false, db)
  | .some db =>
    match (lockSubscriptionEpoch db payload).filter (·.runBy context) with
    | .none => return (false, db)
    | .some row => return (true, failGeneration db now row)

def deadLetterPodcastSubscriptionSync (db : SyncDb) (now : Instant) (job : JobRow PodcastSyncJson) : SyncDb :=
  if job.kind ≠ podcastSyncJobKind then db
  else match PodcastSyncPayload.parse job.payload with
    | .none => db
    | .some payload =>
      if job.dedupeKey ≠ .some (podcastSyncDedupeKey payload.subscriptionId payload.syncGeneration) then db
      else match lockSubscriptionEpoch db payload with
        | .none => db
        | .some row =>
          if row.syncJobId ≠ .some job.id then db
          else if row.syncStatus = .running ∧ !row.attemptIs job.attempts then db
          else if !row.syncStatus.active then db
          else failGeneration db now row

/-! ## Attempts -/

/-- Where `run_podcast_subscription_sync_now` stands. -/
inductive SyncStage
  | started
  | claimed (cutoffAt : Instant)
  | checkpointed (checkpoint : SyncCheckpoint)
  /-- An `ApiError` was raised behind the claim. -/
  | failing (errorCode : String)
  | returned (result : SubscriptionSyncResult)

structure SyncExecution where
  jobId : Uuid
  attemptNo : Nat
  payload : PodcastSyncJson
  stage : SyncStage

def SyncExecution.context (e : SyncExecution) (worker : String) : JobExecutionContext := ⟨e.jobId, worker, e.attemptNo⟩

def staleResult (reason : String) (errorCode : Option String) : SubscriptionSyncResult :=
  ⟨"Stale", 0, false, .some reason, errorCode⟩

def PodcastHealthySyncStatus.value : PodcastHealthySyncStatus → String
  | .complete => "Complete"
  | .sourceLimited => "SourceLimited"

def healthyResult (checkpoint : SyncCheckpoint) : SubscriptionSyncResult :=
  ⟨checkpoint.status.value, checkpoint.newEpisodeCount, decide (checkpoint.status = .sourceLimited), .none, .none⟩

def failedResult (errorCode : String) : SubscriptionSyncResult := ⟨"Failed", 0, false, .none, .some errorCode⟩

/-! ## Runs -/

structure SyncState where
  db : SyncDb
  clock : Instant
  workers : String → Option SyncExecution
  drawn : List Uuid
  /-- Subscription and medium of each hand-over to the Lectern. -/
  handed : List (Uuid × Uuid)

inductive SyncEvent
  | subscribe (subscriptionId userId podcastId : Uuid) (priority : Int) (jobId : Uuid)
  | unsubscribe (userId podcastId : Uuid)
  | setAutoQueue (userId podcastId : Uuid) (autoQueue : Bool)
  | manual (viewerId : Uuid) (scope : PodcastRefreshManualScope) (runId : Uuid) (newIds : Uuid → Uuid × Uuid)
  | due (due : List Uuid) (runIds : Uuid → Uuid) (newIds : Uuid → Uuid × Uuid)
  | pruneRuns (locked : List Uuid)
  | claimNext (worker : String) (leaseSeconds : Int) (allowedKinds : Option (List String)) (locked : List Uuid)
  | claimExact (worker : String) (jobId : Uuid) (leaseSeconds : Int) (allowedKinds : Option (List String))
  | heartbeat (worker : String)
  | claimAttempt (worker : String)
  /-- The feed was fetched: the second transaction. -/
  | checkpoint (worker : String) (selectedEpisodes : List FeedEpisode) (sourceLimited : Bool)
  | finalize (worker : String)
  /-- An `ApiError` behind the claim: what the transaction wrote is undone. -/
  | apiError (worker errorCode : String)
  | terminalize (worker : String)
  | complete (worker : String)
  /-- Any other exception: the worker fails the job. -/
  | raise (worker errorCode errorMessage : String)
  | stop (worker : String)
  | deadLetterExpired (allowedKinds : Option (List String)) (locked : List Uuid)
  | pruneJobs (succeededAfterDays deadAfterDays limit : Int) (excludedDeadKinds : List String) (locked : List Uuid)
  /-- Another subscriber's sync or a backfill ingests episodes. -/
  | ingestElsewhere (podcastId : Uuid) (selectedEpisodes : List FeedEpisode)

namespace SyncState

def setQueue (s : SyncState) (queue : Queue PodcastSyncJson) : SyncState := { s with db := { s.db with queue := queue } }

def setWorker (s : SyncState) (worker : String) (e : Option SyncExecution) : SyncState :=
  { s with workers := Function.update s.workers worker e }

/-- The transaction of a call: what it wrote, or nothing when it raised. -/
def committed (s : SyncState) : Except String SyncDb → SyncState
  | .ok db => { s with db := db }
  | .error _ => s

/-- A worker takes up the row its claim returned. -/
def claimed (s : SyncState) (worker : String) : Option (JobRow PodcastSyncJson × Queue PodcastSyncJson) → SyncState
  | .none => s
  | .some (job, queue) => (s.setQueue queue).setWorker worker (.some ⟨job.id, job.attempts, job.payload, .started⟩)

/-- A statement that makes a job dead, and the dead-letter hook behind it. -/
def settled (s : SyncState) (now : Instant) : Option (JobRow PodcastSyncJson × Queue PodcastSyncJson) → SyncState
  | .none => s
  | .some (job, queue) =>
    let t := s.setQueue queue
    if job.status = .dead then { t with db := deadLetterPodcastSubscriptionSync t.db now job } else t

/-- The first transaction of an attempt. -/
def claimAttempt (s : SyncState) (now : Instant) (worker : String) (e : SyncExecution) (payload : PodcastSyncPayload) :
    Except String SyncState := do
  let (claim, db) ← claimSyncAttempt s.db now payload (e.context worker)
  let stage := match claim with
    | .none => SyncStage.returned (staleResult "StaleEpochGenerationOrAttempt" .none)
    | .some (_, .some checkpoint) => .checkpointed checkpoint
    | .some (cutoffAt, .none) => .claimed cutoffAt
  let t : SyncState := { s with db := db }
  return t.setWorker worker (.some { e with stage := stage })

def checkpoint (s : SyncState) (now : Instant) (worker : String) (e : SyncExecution) (payload : PodcastSyncPayload)
    (cutoffAt : Instant) (selectedEpisodes : List FeedEpisode) (sourceLimited : Bool) : Except String SyncState := do
  let (checkpoint, db) ← writeIngestCheckpoint s.db now payload (e.context worker) cutoffAt selectedEpisodes sourceLimited
  let stage := match checkpoint with
    | .none => SyncStage.returned (staleResult "StaleAfterFeedFetch" .none)
    | .some checkpoint => .checkpointed checkpoint
  let t : SyncState := { s with db := db }
  return t.setWorker worker (.some { e with stage := stage })

def finalize (s : SyncState) (now : Instant) (worker : String) (e : SyncExecution) (payload : PodcastSyncPayload)
    (checkpoint : SyncCheckpoint) : Except String SyncState := do
  let (finalized, eligible, db) ← finalizeHealthySync s.db now payload (e.context worker)
  let result := if finalized then healthyResult checkpoint else staleResult "StaleBeforeFinalization" .none
  let t : SyncState := { s with db := db, handed := eligible.map (fun mediaId => (payload.subscriptionId, mediaId)) ++ s.handed }
  return t.setWorker worker (.some { e with stage := .returned result })

/-- The transaction of a modeled failure. -/
def terminalize (s : SyncState) (now : Instant) (worker : String) (e : SyncExecution) (payload : PodcastSyncPayload)
    (errorCode : String) : Except String SyncState := do
  let (terminalized, db) ← terminalizeModeledFailure s.db now payload (e.context worker)
  let result := if terminalized then failedResult errorCode else staleResult "StaleDuringFailure" .none
  let t : SyncState := { s with db := db }
  return t.setWorker worker (.some { e with stage := .returned result })

/-- The execution of a worker, with the payload it parsed. -/
def executing (s : SyncState) (worker : String) : Option (SyncExecution × PodcastSyncPayload) := do
  let e ← s.workers worker
  let payload ← PodcastSyncPayload.parse e.payload
  return (e, payload)

/-- What an event does at an instant; `none` where it cannot happen. -/
def act (s : SyncState) (now : Instant) : SyncEvent → Option SyncState
  | .subscribe subscriptionId userId podcastId priority jobId =>
    -- an id is drawn once
    if subscriptionId ∈ s.drawn then .none
    else
      let t : SyncState := { s with drawn := subscriptionId :: s.drawn }
      .some (t.committed (PodcastSync.subscribe s.db now subscriptionId userId podcastId priority jobId))
  | .unsubscribe userId podcastId => .some { s with db := PodcastSync.unsubscribe s.db now userId podcastId }
  | .setAutoQueue userId podcastId autoQueue => .some { s with db := PodcastSync.setAutoQueue s.db userId podcastId autoQueue }
  | .manual viewerId scope runId newIds => .some (s.committed (createManualRefreshRun s.db now viewerId scope runId newIds))
  | .due due runIds newIds => .some (s.committed (admitDueRefreshRuns s.db now due runIds newIds))
  | .pruneRuns locked => .some { s with db := pruneTerminalRefreshRuns s.db now locked }
  | .claimNext worker leaseSeconds allowedKinds locked =>
    match s.workers worker with
    | .some _ => .none
    | .none => .some (s.claimed worker (s.db.queue.claimNextJob now worker leaseSeconds allowedKinds locked))
  | .claimExact worker jobId leaseSeconds allowedKinds =>
    match s.workers worker with
    | .some _ => .none
    | .none => .some (s.claimed worker (s.db.queue.claimJob now jobId worker leaseSeconds allowedKinds))
  | .heartbeat worker =>
    (s.workers worker).map fun e =>
      match s.db.queue.heartbeatJob now e.jobId worker podcastSyncJobLeaseSeconds with
      | .none => s
      | .some (_, queue) => s.setQueue queue
  | .claimAttempt worker =>
    match s.executing worker with
    | .some (⟨jobId, attemptNo, json, .started⟩, payload) =>
      (s.claimAttempt now worker ⟨jobId, attemptNo, json, .started⟩ payload).toOption
    | _ => .none
  | .checkpoint worker selectedEpisodes sourceLimited =>
    match s.executing worker with
    | .some (⟨jobId, attemptNo, json, .claimed cutoffAt⟩, payload) =>
      (s.checkpoint now worker ⟨jobId, attemptNo, json, .claimed cutoffAt⟩ payload cutoffAt selectedEpisodes
        sourceLimited).toOption
    | _ => .none
  | .finalize worker =>
    match s.executing worker with
    | .some (⟨jobId, attemptNo, json, .checkpointed checkpoint⟩, payload) =>
      (s.finalize now worker ⟨jobId, attemptNo, json, .checkpointed checkpoint⟩ payload checkpoint).toOption
    | _ => .none
  | .apiError worker errorCode =>
    match s.workers worker with
    | .some ⟨jobId, attemptNo, json, .claimed _⟩ | .some ⟨jobId, attemptNo, json, .checkpointed _⟩ =>
      .some (s.setWorker worker (.some ⟨jobId, attemptNo, json, .failing errorCode⟩))
    | _ => .none
  | .terminalize worker =>
    match s.executing worker with
    | .some (⟨jobId, attemptNo, json, .failing errorCode⟩, payload) =>
      (s.terminalize now worker ⟨jobId, attemptNo, json, .failing errorCode⟩ payload errorCode).toOption
    | _ => .none
  | .complete worker =>
    match s.workers worker with
    | .some ⟨jobId, _, _, .returned result⟩ =>
      match s.db.queue.completeJob now jobId worker (.some (.result result)) with
      | .none => .some (s.setWorker worker .none)
      | .some (_, queue) => .some ((s.setQueue queue).setWorker worker .none)
    | _ => .none
  | .raise worker errorCode errorMessage =>
    (s.workers worker).map fun e =>
      (s.settled now (s.db.queue.failJob now e.jobId worker errorCode errorMessage podcastSyncRetryDelaysSeconds
        .none)).setWorker worker .none
  | .stop worker => .some (s.setWorker worker .none)
  | .deadLetterExpired allowedKinds locked => .some (s.settled now (s.db.queue.deadLetterExpiredJob now allowedKinds locked))
  | .pruneJobs succeededAfterDays deadAfterDays limit excludedDeadKinds locked =>
    .some (s.setQueue (s.db.queue.pruneTerminalJobs now succeededAfterDays deadAfterDays limit excludedDeadKinds locked).2)
  | .ingestElsewhere podcastId selectedEpisodes =>
    .some (s.committed ((syncSubscriptionIngest podcastId selectedEpisodes s.db.episodes ⟨0, 0, false⟩).map fun r =>
      { s.db with episodes := r.1 }))

def next (s : SyncState) : Instant × SyncEvent → Option SyncState
  | (now, ev) => if now < s.clock then .none else (s.act now ev).map fun t => { t with clock := now }

/-- Nobody has subscribed yet; some episodes may be stored. -/
def Initial (s : SyncState) : Prop :=
  s.db.subscriptions = .empty ∧ s.db.runs = .empty ∧ s.db.items = .empty ∧ s.db.queue = .empty ∧
    s.workers = (fun _ => .none) ∧ s.handed = []

end SyncState

def syncSystem : Transition.System SyncState (Instant × SyncEvent) := .ofFun SyncState.Initial SyncState.next

end Nexus.PodcastSync
