/-
`services/podcasts/refresh.py`: admission of sync generations, refresh runs and
their items.

A subscription is in one sync generation at a time. A generation that is
pending or running names the queue job that syncs it; a refresh run has an item
for each generation it asked for, and its counters are the aggregation of its
items. A call is one transaction that locks the rows it writes, so it is atomic
here, and one that raises leaves nothing.

Which subscriptions a due scan finds is told by the caller: `next_sync_at` and
the failure count decide nothing else. Replays of a manual request, error texts,
the times of items and collection revisions are not told.
-/
import Nexus.Base
import Nexus.Jobs.Queue
import Nexus.Lib.ExceptFacts
import Mathlib.Data.List.Sort

namespace Nexus.PodcastSync
open Relational Nexus.Jobs

/-! ## Rows -/

inductive PodcastSyncStatus
  | pending
  | running
  | complete
  | sourceLimited
  | failed
  deriving DecidableEq, Repr

/-- `_ACTIVE_SYNC_STATUSES` -/
def PodcastSyncStatus.active : PodcastSyncStatus → Bool
  | .pending | .running => true
  | .complete | .sourceLimited | .failed => false

inductive PodcastHealthySyncStatus
  | complete
  | sourceLimited
  deriving DecidableEq, Repr

def PodcastHealthySyncStatus.sync : PodcastHealthySyncStatus → PodcastSyncStatus
  | .complete => .complete
  | .sourceLimited => .sourceLimited

inductive PodcastRefreshRunItemStatus
  | pending
  | running
  | complete
  | sourceLimited
  | failed
  | skipped
  deriving DecidableEq, Repr

/-- `_ACTIVE_ITEM_STATUSES` -/
def PodcastRefreshRunItemStatus.active : PodcastRefreshRunItemStatus → Bool
  | .pending | .running => true
  | .complete | .sourceLimited | .failed | .skipped => false

/-- An item joins a generation under the status that has. -/
def PodcastSyncStatus.item : PodcastSyncStatus → PodcastRefreshRunItemStatus
  | .pending => .pending
  | .running => .running
  | .complete => .complete
  | .sourceLimited => .sourceLimited
  | .failed => .failed

inductive PodcastRefreshRunStatus
  | running
  | complete
  | partialSuccess
  | failed
  deriving DecidableEq, Repr

/-- `_SyncCheckpoint`, the four checkpoint columns. -/
structure SyncCheckpoint where
  status : PodcastHealthySyncStatus
  cutoffAt : Instant
  newEpisodeCount : Nat
  completedAt : Instant
  deriving DecidableEq, Repr

structure PodcastSubscription where
  id : Uuid
  userId : Uuid
  podcastId : Uuid
  syncGeneration : Nat
  syncStatus : PodcastSyncStatus
  syncJobId : Option Uuid
  syncJobAttemptNo : Option Nat
  checkpoint : Option SyncCheckpoint
  autoQueue : Bool
  autoQueueWatermarkAt : Option Instant
  deriving DecidableEq, Repr

/-- `RefreshAggregation`, and the columns of a run it is stored in. -/
structure RefreshAggregation where
  status : PodcastRefreshRunStatus
  requestedCount : Nat
  finishedCount : Nat
  succeededCount : Nat
  sourceLimitedCount : Nat
  failedCount : Nat
  skippedCount : Nat
  newEpisodeCount : Nat
  deriving DecidableEq, Repr

structure PodcastRefreshRun where
  id : Uuid
  userId : Uuid
  aggregation : RefreshAggregation
  completedAt : Option Instant
  deriving DecidableEq, Repr

structure PodcastRefreshRunItem where
  id : Uuid
  runId : Uuid
  podcastId : Uuid
  subscriptionId : Uuid
  syncGeneration : Nat
  status : PodcastRefreshRunItemStatus
  newEpisodeCount : Nat
  deriving DecidableEq, Repr

structure PodcastSyncPayload where
  subscriptionId : Uuid
  userId : Uuid
  podcastId : Uuid
  syncGeneration : Nat
  deriving DecidableEq, Repr

structure SubscriptionSyncResult where
  status : String
  newEpisodeCount : Nat
  sourceLimited : Bool
  reason : Option String
  errorCode : Option String
  deriving DecidableEq, Repr

/-- The objects the sync job's queue rows hold: its payload, and its result. -/
inductive PodcastSyncJson
  | payload (p : PodcastSyncPayload)
  | result (r : SubscriptionSyncResult)
  deriving DecidableEq, Repr

/-- A row of `podcast_episodes`. -/
structure PodcastEpisode where
  mediaId : Uuid
  podcastId : Uuid
  publishedAt : Option Instant
  deriving DecidableEq, Repr

structure SyncDb where
  subscriptions : Table PodcastSubscription PodcastSubscription.id
  runs : Table PodcastRefreshRun PodcastRefreshRun.id
  items : Table PodcastRefreshRunItem PodcastRefreshRunItem.id
  queue : Queue PodcastSyncJson
  episodes : Table PodcastEpisode PodcastEpisode.mediaId

def podcastSyncJobKind : String := "podcast_sync_subscription_job"

def podcastSyncInteractivePriority : Int := 75
def podcastSyncBulkPriority : Int := 100
def podcastRefreshRunPruneLimit : Nat := 1000
def podcastRefreshRunRetentionDays : Nat := 30

/-- `podcast_sync_payload` of a subscription's generation. -/
def PodcastSubscription.payload (row : PodcastSubscription) : PodcastSyncPayload :=
  ⟨row.id, row.userId, row.podcastId, row.syncGeneration⟩

def podcastSyncDedupeKey (subscriptionId : Uuid) (syncGeneration : Nat) : String :=
  "podcast-sync:" ++ toString subscriptionId ++ ":" ++ toString syncGeneration

def SyncDb.setItems (db : SyncDb) (items : Table PodcastRefreshRunItem PodcastRefreshRunItem.id) : SyncDb :=
  { db with items := items }

/-! ## Aggregation -/

def aggregateRefreshItemStatuses (items : List (PodcastRefreshRunItemStatus × Nat)) : RefreshAggregation :=
  let counts := fun status => items.countP (·.1 == status)
  let finished := counts .complete + counts .sourceLimited + counts .failed + counts .skipped
  let effectiveSuccesses := counts .complete + counts .sourceLimited
  let status : PodcastRefreshRunStatus :=
    if counts .pending ≠ 0 ∨ counts .running ≠ 0 then .running
    else if items.length = 0 then .complete
    else if counts .failed = 0 ∧ counts .skipped = 0 then .complete
    else if 0 < effectiveSuccesses then .partialSuccess
    else if 0 < counts .failed then .failed
    else .complete
  { status := status
    requestedCount := items.length
    finishedCount := finished
    succeededCount := counts .complete
    sourceLimitedCount := counts .sourceLimited
    failedCount := counts .failed
    skippedCount := counts .skipped
    newEpisodeCount := (items.map (·.2)).sum }

/-- What `recompute_refresh_runs_in_txn` reads of a run's items. -/
def itemsOfRun (items : Table PodcastRefreshRunItem PodcastRefreshRunItem.id) (runId : Uuid) :
    List (PodcastRefreshRunItemStatus × Nat) :=
  (items.rows.filter (·.runId == runId)).map fun item => (item.status, item.newEpisodeCount)

/-- The run's row after its recomputation. -/
def PodcastRefreshRun.recomputed (now : Instant) (items : Table PodcastRefreshRunItem PodcastRefreshRunItem.id)
    (run : PodcastRefreshRun) : PodcastRefreshRun :=
  let aggregation := aggregateRefreshItemStatuses (itemsOfRun items run.id)
  { run with
    aggregation := aggregation
    completedAt := if aggregation.status = .running then .none else .some (run.completedAt.getD now) }

/-- `recompute_refresh_runs_in_txn`; the run of an item exists. -/
def recomputeRefreshRuns (db : SyncDb) (now : Instant) (runIds : List Uuid) : SyncDb :=
  { db with runs := db.runs.updateWhere (fun run => runIds.contains run.id) (·.recomputed now db.items) }

/-! ## Admission -/

def SyncDb.updateSubscription (db : SyncDb) (subscriptionId : Uuid) (f : PodcastSubscription → PodcastSubscription)
    (hf : ∀ row, (f row).id = row.id := by intro _; rfl) : SyncDb :=
  { db with subscriptions := db.subscriptions.updateWhere (fun row => row.id == subscriptionId) f hf }

def requireSubscriptionIdentity (row? : Option PodcastSubscription) (userId podcastId : Uuid) :
    Except String PodcastSubscription :=
  match row? with
  | .none => .error "Podcast subscription epoch changed during refresh admission"
  | .some row =>
    if row.userId ≠ userId ∨ row.podcastId ≠ podcastId then
      .error "Podcast subscription epoch changed during refresh admission"
    else .ok row

/-- The active generation, or the next one of a terminal subscription. -/
def PodcastSubscription.startGeneration (row : PodcastSubscription) : PodcastSubscription :=
  { row with
    syncGeneration := if row.syncStatus.active then row.syncGeneration else row.syncGeneration + 1
    syncStatus := if row.syncStatus.active then row.syncStatus else .pending
    syncJobId := if row.syncStatus.active then row.syncJobId else .none
    syncJobAttemptNo := if row.syncStatus.active then row.syncJobAttemptNo else .none
    checkpoint := if row.syncStatus.active then row.checkpoint else .none }

structure GenerationAdmission where
  subscriptionId : Uuid
  userId : Uuid
  podcastId : Uuid
  syncGeneration : Nat
  status : PodcastSyncStatus
  jobId : Uuid
  insertedJob : Bool
  promotedJob : Bool
  deriving DecidableEq, Repr

/-- The interactive join of an active generation promotes its job. -/
def promoteActive (queue : Queue PodcastSyncJson) (now : Instant) (row : PodcastSubscription) (priority : Int) :
    Except String (Bool × Queue PodcastSyncJson) :=
  match row.syncJobId with
  | .some jobId =>
    if row.syncStatus.active ∧ priority = podcastSyncInteractivePriority then
      queue.promoteUnclaimedJob now jobId podcastSyncJobKind (.payload row.payload)
        (podcastSyncDedupeKey row.id row.syncGeneration) priority
    else .ok (false, queue)
  | .none => .ok (false, queue)

/-- The job of the generation: the one it names, or the one enqueued for it. -/
def generationJob (db : SyncDb) (now : Instant) (row : PodcastSubscription) (priority : Int) (jobId : Uuid) :
    Except String (Uuid × Bool × SyncDb) :=
  match row.syncJobId with
  | .some current => .ok (current, false, db)
  | .none =>
    match db.queue.enqueueUniqueJob now jobId podcastSyncJobKind (.payload row.payload)
        (podcastSyncDedupeKey row.id row.syncGeneration) priority 3 .none with
    | .none => .error "unique violation"
    | .some (job, inserted, queue) =>
      if job.kind ≠ podcastSyncJobKind ∨ job.payload ≠ .payload row.payload then
        .error "Podcast sync dedupe key resolved to a different operation"
      else
        let db : SyncDb := { db with queue := queue }
        .ok (job.id, inserted, db.updateSubscription row.id fun row => { row with syncJobId := .some job.id })

/-- The `INSERT` of a run's item; the ids a run and an item get are fresh. -/
def insertItem (db : SyncDb) (row : PodcastSubscription) (run : Option (Uuid × Uuid)) : Except String SyncDb :=
  match run with
  | .none => .ok db
  | .some (runId, itemId) =>
    match db.items.insert? ⟨itemId, runId, row.podcastId, row.id, row.syncGeneration, row.syncStatus.item, 0⟩ with
    | .none => .error "unique violation"
    | .some items => .ok (db.setItems items)

/-- `admit_subscription_generation_in_txn`; `jobId` is the id a new job would
get, and `run` the run that asks with the id of its item. -/
def admitSubscriptionGeneration (db : SyncDb) (now : Instant) (subscriptionId userId podcastId : Uuid) (priority : Int)
    (jobId : Uuid) (run : Option (Uuid × Uuid)) : Except String (GenerationAdmission × SyncDb) := do
  let before ← requireSubscriptionIdentity (db.subscriptions.find? subscriptionId) userId podcastId
  let (promoted, queue) ← promoteActive db.queue now before priority
  let row := before.startGeneration
  let db := SyncDb.updateSubscription { db with queue := queue } subscriptionId (·.startGeneration)
  let (currentJobId, inserted, db) ← generationJob db now row priority jobId
  let db ← insertItem db row run
  return (⟨row.id, row.userId, row.podcastId, row.syncGeneration, row.syncStatus, currentJobId, inserted, promoted⟩, db)

/-- Admissions of one run, one after the other; `newIds` gives the ids a
subscription's new job and item would get. -/
def admitAll (now : Instant) (priority : Int) (runId : Uuid) (newIds : Uuid → Uuid × Uuid) :
    List PodcastSubscription → SyncDb → Except String SyncDb
  | [], db => .ok db
  | row :: rows, db => do
    let admitted ← admitSubscriptionGeneration db now row.id row.userId row.podcastId priority (newIds row.id).1
      (.some (runId, (newIds row.id).2))
    admitAll now priority runId newIds rows admitted.2

inductive PodcastRefreshManualScope
  | all
  | podcast (podcastId : Uuid)
  /-- A library, by the podcasts that have an entry in it. -/
  | library (entries : List Uuid)

def PodcastRefreshManualScope.selects : PodcastRefreshManualScope → PodcastSubscription → Bool
  | .all, _ => true
  | .podcast podcastId, row => row.podcastId == podcastId
  | .library entries, row => entries.contains row.podcastId

def manualScopeSubscriptions (db : SyncDb) (viewerId : Uuid) (scope : PodcastRefreshManualScope) :
    Except String (List PodcastSubscription) :=
  let rows := (db.subscriptions.rows.filter fun row => row.userId == viewerId && scope.selects row).insertionSort
    fun a b => a.id ≤ b.id
  match scope, rows with
  | .podcast _, [] => .error "Podcast subscription not found"
  | _, rows => .ok rows

/-- The aggregation a run is inserted with. -/
def initialAggregation (requested : Nat) : RefreshAggregation :=
  ⟨if requested = 0 then .complete else .running, requested, 0, 0, 0, 0, 0, 0⟩

def insertRun (db : SyncDb) (now : Instant) (runId userId : Uuid) (requested : Nat) : Except String SyncDb :=
  match db.runs.insert? ⟨runId, userId, initialAggregation requested, if requested = 0 then .some now else .none⟩ with
  | .none => .error "unique violation"
  | .some runs => .ok { db with runs := runs }

/-- `create_manual_refresh_run` under a key not used before. -/
def createManualRefreshRun (db : SyncDb) (now : Instant) (viewerId : Uuid) (scope : PodcastRefreshManualScope)
    (runId : Uuid) (newIds : Uuid → Uuid × Uuid) : Except String SyncDb := do
  let subscriptions ← manualScopeSubscriptions db viewerId scope
  let db ← insertRun db now runId viewerId subscriptions.length
  let db ← admitAll now podcastSyncInteractivePriority runId newIds subscriptions db
  return if subscriptions.isEmpty then db else recomputeRefreshRuns db now [runId]

/-- The runs of a due scan, one for each viewer. -/
def admitViewers (now : Instant) (rows : List PodcastSubscription) (runIds : Uuid → Uuid)
    (newIds : Uuid → Uuid × Uuid) : List Uuid → SyncDb → Except String SyncDb
  | [], db => .ok db
  | viewerId :: viewers, db => do
    let viewerRows := rows.filter (·.userId == viewerId)
    let db ← insertRun db now (runIds viewerId) viewerId viewerRows.length
    let db ← admitAll now podcastSyncBulkPriority (runIds viewerId) newIds viewerRows db
    admitViewers now rows runIds newIds viewers (recomputeRefreshRuns db now [runIds viewerId])

/-- `admit_due_refresh_runs`, of the subscriptions the scan locked. -/
def admitDueRefreshRuns (db : SyncDb) (now : Instant) (due : List Uuid) (runIds : Uuid → Uuid)
    (newIds : Uuid → Uuid × Uuid) : Except String SyncDb :=
  let rows := db.subscriptions.rows.filter fun row => !row.syncStatus.active && due.contains row.id
  admitViewers now rows runIds newIds ((rows.map (·.userId)).dedup.insertionSort (· ≤ ·)) db

/-! ## Items -/

/-- `UPDATE podcast_refresh_run_items … RETURNING run_id`, and the recomputation
of the runs it returns. -/
def updateItems (db : SyncDb) (now : Instant) (p : PodcastRefreshRunItem → Bool)
    (status : PodcastRefreshRunItemStatus) (newEpisodeCount : Option Nat) : SyncDb :=
  let runIds := (db.items.rows.filter p).map (·.runId)
  let items := db.items.updateWhere p fun item =>
    { item with status := status, newEpisodeCount := newEpisodeCount.getD item.newEpisodeCount }
  recomputeRefreshRuns (db.setItems items) now runIds

/-- An unfinished item of the generation. -/
def PodcastRefreshRunItem.joined (subscriptionId : Uuid) (syncGeneration : Nat) (item : PodcastRefreshRunItem) : Bool :=
  item.subscriptionId == subscriptionId && item.syncGeneration == syncGeneration && item.status.active

/-- `set_joined_items_running_in_txn` -/
def setJoinedItemsRunning (db : SyncDb) (now : Instant) (subscriptionId : Uuid) (syncGeneration : Nat) : SyncDb :=
  updateItems db now (·.joined subscriptionId syncGeneration) .running .none

/-- `finish_joined_items_in_txn`; its callers pass terminal statuses. -/
def finishJoinedItems (db : SyncDb) (now : Instant) (subscriptionId : Uuid) (syncGeneration : Nat)
    (status : PodcastSyncStatus) (newEpisodeCount : Nat) : SyncDb :=
  updateItems db now (·.joined subscriptionId syncGeneration) status.item (.some newEpisodeCount)

/-- `skip_subscription_epoch_in_txn` -/
def skipSubscriptionEpoch (db : SyncDb) (now : Instant) (subscriptionId : Uuid) : SyncDb :=
  updateItems db now (fun item => item.subscriptionId == subscriptionId && item.status.active) .skipped .none

/-- The runs `prune_terminal_refresh_runs` may delete. -/
def prunableRun (now : Instant) (run : PodcastRefreshRun) : Bool :=
  decide (run.aggregation.status ≠ .running) && run.completedAt.any fun at_ =>
    decide (at_ + podcastRefreshRunRetentionDays * microsecondsPerDay < now)

def pruneTerminalRefreshRuns (db : SyncDb) (now : Instant) (locked : List Uuid) : SyncDb :=
  let rows := (db.runs.rows.filter fun run => prunableRun now run && !locked.contains run.id).insertionSort fun a b =>
    ((compare (a.completedAt.getD 0) (b.completedAt.getD 0)).then (compare a.id b.id)).isLE
  let runIds := (rows.take podcastRefreshRunPruneLimit).map (·.id)
  { db with
    items := db.items.deleteWhere fun item => runIds.contains item.runId
    runs := db.runs.deleteWhere fun run => runIds.contains run.id }

/-! ## Subscriptions -/

/-- `_insert_subscription_in_current_transaction` -/
def newSubscription (subscriptionId userId podcastId : Uuid) : PodcastSubscription :=
  ⟨subscriptionId, userId, podcastId, 1, .pending, .none, .none, .none, false, .none⟩

/-- The insert and the admission of a Subscribe; a viewer who is subscribed
writes nothing here. -/
def subscribe (db : SyncDb) (now : Instant) (subscriptionId userId podcastId : Uuid) (priority : Int) (jobId : Uuid) :
    Except String SyncDb :=
  if (db.subscriptions.rows.any fun row => row.userId == userId && row.podcastId == podcastId) then .ok db
  else match db.subscriptions.insert? (newSubscription subscriptionId userId podcastId) with
    | .none => .error "unique violation"
    | .some subscriptions => do
      let admitted ← admitSubscriptionGeneration { db with subscriptions := subscriptions } now subscriptionId userId
        podcastId priority jobId .none
      return admitted.2

/-- `unsubscribe_from_podcast`, as far as its subscription row is concerned. -/
def unsubscribe (db : SyncDb) (now : Instant) (userId podcastId : Uuid) : SyncDb :=
  match db.subscriptions.rows.find? fun row => row.userId == userId && row.podcastId == podcastId with
  | .none => db
  | .some row =>
    let db := skipSubscriptionEpoch db now row.id
    { db with subscriptions := db.subscriptions.deleteWhere fun other => other.id == row.id }

/-- `update_subscription_settings_for_viewer` of the one setting syncs read. -/
def setAutoQueue (db : SyncDb) (userId podcastId : Uuid) (autoQueue : Bool) : SyncDb :=
  let named := fun row : PodcastSubscription => row.userId == userId && row.podcastId == podcastId
  { db with subscriptions := db.subscriptions.updateWhere named fun row => { row with autoQueue := autoQueue } }

end Nexus.PodcastSync
