/-
`services/podcasts/backfill.py`: the traversal of a subscription's history, and
runs of it among subscriptions, retries and the queue's own upkeep.

A backfill is applied page by page. A job names the step it is to apply and the
digest of the cursor that step starts from; the page is fetched outside any
transaction, and the transaction that applies it renews the queue lease first
and compares both with the backfill's row. The job of the next step is enqueued
with the row's update. A job that dies while it names the current step fails the
backfill.

A page is any list of episodes with any continuation. Of an episode the model
keeps its publication time and whether it has an alias; what the ingestion of
the selected episodes adds is told by the caller. The clock of the database does
not go back. `drawn` holds the ids backfills were given, `orphaned` those an
unsubscribe left to be revoked, and `history` what was applied to each.
-/
import Nexus.Primitives
import Nexus.Lib.Json
import Nexus.Lib.Run
import Nexus.Lib.Traversal
import Nexus.Lib.ExceptFacts
import Nexus.Jobs.Attempts

namespace Nexus.PodcastBackfill
open Relational Nexus.Jobs

def backfillJobKind : String := "podcast_backfill_subscription"
def backfillJobLeaseSeconds : Int := 900
def errorDetailMaxLength : Nat := 500

/-- The registry's `retry_delays_seconds` of the backfill job. -/
def backfillRetryDelaysSeconds : List Int := [60, 300, 900]

/-! ## Cursors -/

/-- `{"kind": "RssPage", "url": …, "visited": […]}` -/
structure BackfillCursor where
  url : Text
  visited : List Text
  deriving DecidableEq, Repr

def BackfillCursor.value (cursor : BackfillCursor) : Json.Value :=
  .obj [("kind".toList, .str "RssPage".toList), ("url".toList, .str cursor.url),
    ("visited".toList, .arr (cursor.visited.map .str))]

def cursorDigest (sha256 : Bytes → Bytes) (cursor : Option BackfillCursor) : Text :=
  Hex.encode (sha256 (encodeUtf8 (Json.dumps (cursor.elim .null (·.value)))))

/-! ## Rows -/

/-- What ends a backfill: the column it is stamped in. -/
inductive BackfillEnding
  | completed
  | sourceLimited
  | failed
  deriving DecidableEq, Repr

/-- A row of `podcast_subscription_backfills`. -/
structure PodcastSubscriptionBackfill where
  id : Uuid
  subscriptionId : Uuid
  cutoffAt : Instant
  stepNo : Nat
  cursor : Option BackfillCursor
  processedCount : Nat
  addedCount : Nat
  startedAt : Option Instant
  completedAt : Option Instant
  sourceLimitedAt : Option Instant
  failedAt : Option Instant
  errorCode : Option String
  errorDetail : Option String
  deriving DecidableEq, Repr

/-- The stamps a row has, in the order of its columns. -/
def PodcastSubscriptionBackfill.endings (row : PodcastSubscriptionBackfill) : List BackfillEnding :=
  (row.completedAt.map fun _ => .completed).toList ++ (row.sourceLimitedAt.map fun _ => .sourceLimited).toList ++
    (row.failedAt.map fun _ => .failed).toList

/-- One of `completed_at`, `source_limited_at` and `failed_at` is set. -/
def PodcastSubscriptionBackfill.ended (row : PodcastSubscriptionBackfill) : Bool :=
  row.completedAt.isSome || row.sourceLimitedAt.isSome || row.failedAt.isSome

structure PodcastSubscription where
  id : Uuid
  userId : Uuid
  podcastId : Uuid
  deriving DecidableEq, Repr

structure BackfillPayload where
  backfillId : Uuid
  expectedStepNo : Nat
  expectedCursorDigest : Text
  deriving DecidableEq, Repr

/-- The dict `run_backfill_step` returns, by its `status`. -/
inductive BackfillResult
  | staleOrUnsubscribed
  | alreadyApplied
  | staleJobAttempt
  | applied (processedCount addedCount : Nat) (terminal : Bool)
  deriving DecidableEq, Repr

/-- What stands in the `jsonb` columns of a backfill job. -/
inductive BackfillJson
  | payload (p : BackfillPayload)
  | result (r : BackfillResult)
  /-- `{"backfillId": …}` alone, which a revocation matches. -/
  | backfillId (id : Uuid)
  | superseded
  deriving DecidableEq, Repr

instance : Payload BackfillJson where
  contains
    | .payload p, .backfillId id => p.backfillId == id
    | json, expected => json == expected
  superseded := .superseded

/-- The tables a backfill reads and writes. -/
structure BackfillDb where
  subscriptions : Table PodcastSubscription PodcastSubscription.id
  backfills : Table PodcastSubscriptionBackfill PodcastSubscriptionBackfill.id
  queue : Queue BackfillJson

def BackfillDb.updateBackfill (db : BackfillDb) (id : Uuid) (f : PodcastSubscriptionBackfill → PodcastSubscriptionBackfill)
    (hf : ∀ row, (f row).id = row.id := by intro _; rfl) : BackfillDb :=
  { db with backfills := db.backfills.updateWhere (fun row => row.id == id) f hf }

/-- `FROM podcast_subscription_backfills backfill JOIN podcast_subscriptions subscription` -/
def BackfillDb.joined (db : BackfillDb) (backfillId : Uuid) : Option PodcastSubscriptionBackfill :=
  (db.backfills.find? backfillId).filter fun row => (db.subscriptions.find? row.subscriptionId).isSome

/-! ## Pages -/

structure BackfillEpisode where
  publishedAt : Option Instant
  /-- `aliases_from_episode` finds one. -/
  hasAlias : Bool
  deriving DecidableEq, Repr

structure FeedBackfillPage where
  episodes : List BackfillEpisode
  nextCursor : Option BackfillCursor
  sourceLimited : Bool
  deriving DecidableEq, Repr

/-- `sorted(episodes, key=_newest_first_key)` -/
def newestFirst (episodes : List BackfillEpisode) : List BackfillEpisode :=
  episodes.insertionSort fun a b => (match a.publishedAt, b.publishedAt with
    | .some x, .some y => decide (y ≤ x)
    | .none, .some _ => false
    | _, .none => true) = true

/-- The loop over a page's episodes: the selected ones, and whether the source
is limited. -/
def selectEpisodes (cutoffAt : Instant) : List BackfillEpisode → Bool → List BackfillEpisode × Bool
  | [], sourceLimited => ([], sourceLimited)
  | episode :: episodes, sourceLimited =>
    if episode.publishedAt.any (cutoffAt < ·) then selectEpisodes cutoffAt episodes sourceLimited
    else if !episode.hasAlias then selectEpisodes cutoffAt episodes true
    else
      let (selected, sourceLimited) := selectEpisodes cutoffAt episodes sourceLimited
      (episode :: selected, sourceLimited)

structure PageCounts where
  processedCount : Nat
  addedCount : Nat
  deriving DecidableEq, Repr

abbrev BackfillStep := Traversal.Step BackfillCursor BackfillEnding PageCounts

section Steps

variable (sha256 : Bytes → Bytes)

/-! ## Jobs -/

def backfillDedupeKey (backfillId : Uuid) (stepNo : Nat) : String :=
  "podcast-backfill:" ++ toString backfillId ++ ":" ++ toString stepNo

/-- The payload of the job of the row's current step. -/
def PodcastSubscriptionBackfill.payload (row : PodcastSubscriptionBackfill) : BackfillPayload :=
  ⟨row.id, row.stepNo, cursorDigest sha256 row.cursor⟩

/-- `enqueue_backfill_step_in_current_transaction` -/
def enqueueBackfillStep (queue : Queue BackfillJson) (now : Instant) (jobId backfillId : Uuid) (stepNo : Nat)
    (cursor : Option BackfillCursor) : Option (Bool × Queue BackfillJson) :=
  (queue.enqueueUniqueJob now jobId backfillJobKind (.payload ⟨backfillId, stepNo, cursorDigest sha256 cursor⟩)
    (backfillDedupeKey backfillId stepNo) 100 3 .none).map fun (_, inserted, queue) => (inserted, queue)

/-- `seed_subscription_backfill_in_current_transaction`; a subscription has one backfill. -/
def seedSubscriptionBackfill (db : BackfillDb) (now : Instant) (backfillId subscriptionId : Uuid) (cutoffAt : Instant)
    (jobId : Uuid) : Option BackfillDb :=
  if db.backfills.rows.any fun row => row.subscriptionId == subscriptionId then .none
  else do
    let backfills ← db.backfills.insert? {
      id := backfillId
      subscriptionId := subscriptionId
      cutoffAt := cutoffAt
      stepNo := 0
      cursor := .none
      processedCount := 0
      addedCount := 0
      startedAt := .none
      completedAt := .none
      sourceLimitedAt := .none
      failedAt := .none
      errorCode := .none
      errorDetail := .none }
    let (_, queue) ← enqueueBackfillStep sha256 db.queue now jobId backfillId 0 .none
    return { db with backfills := backfills, queue := queue }

/-! ## Subscriptions -/

/-- The viewer's subscription to a podcast. -/
def BackfillDb.subscriptionOf (db : BackfillDb) (userId podcastId : Uuid) : Option PodcastSubscription :=
  db.subscriptions.rows.find? fun row => row.userId == userId && row.podcastId == podcastId

/-- The part of Subscribe that seeds a backfill; the cutoff is the subscription's `created_at`. -/
def subscribe (db : BackfillDb) (now : Instant) (subscriptionId userId podcastId backfillId jobId : Uuid) : Option BackfillDb :=
  match db.subscriptionOf userId podcastId with
  | .some _ => .some db
  | .none => do
    let subscriptions ← db.subscriptions.insert? ⟨subscriptionId, userId, podcastId⟩
    seedSubscriptionBackfill sha256 { db with subscriptions := subscriptions } now backfillId subscriptionId now jobId

/-- `unsubscribe_from_podcast`: the backfill it removed, for the revocation that follows. -/
def unsubscribe (db : BackfillDb) (userId podcastId : Uuid) : Option Uuid × BackfillDb :=
  match db.subscriptionOf userId podcastId with
  | .none => (.none, db)
  | .some subscription =>
    ((db.backfills.rows.find? fun row => row.subscriptionId == subscription.id).map (·.id),
      { db with
        backfills := db.backfills.deleteWhere fun row => row.subscriptionId == subscription.id
        subscriptions := db.subscriptions.deleteWhere fun row => row.id == subscription.id })

def revokeSubscriptionJobs (db : BackfillDb) (backfillId : Uuid) : BackfillDb :=
  { db with queue := db.queue.revokeJobsForPayload backfillJobKind (.backfillId backfillId) }

def retrySubscriptionBackfill (db : BackfillDb) (now : Instant) (userId podcastId backfillId jobId : Uuid) : Option BackfillDb := do
  let subscription ← db.subscriptionOf userId podcastId
  let current ← db.backfills.rows.find? fun row => row.subscriptionId == subscription.id
  match current.failedAt with
  | .none => return db
  | .some _ =>
    let db := { db with
      backfills := db.backfills.deleteWhere fun row =>
        row.id == current.id && row.subscriptionId == subscription.id && row.failedAt.isSome }
    seedSubscriptionBackfill sha256 db now backfillId subscription.id current.cutoffAt jobId

/-! ## A step -/

/-- The read before the fetch: the cursor to fetch with, or a result. -/
def preflight (db : BackfillDb) (payload : BackfillPayload) : Except String (BackfillResult ⊕ Option BackfillCursor) :=
  match db.joined payload.backfillId with
  | .none => .ok (.inl .staleOrUnsubscribed)
  | .some row =>
    if payload.expectedStepNo < row.stepNo then .ok (.inl .alreadyApplied)
    else if row.stepNo ≠ payload.expectedStepNo then .error "Podcast backfill job names a future step"
    else if cursorDigest sha256 row.cursor ≠ payload.expectedCursorDigest then
      .error "Podcast backfill cursor fence mismatch"
    else .ok (.inr row.cursor)

def PodcastSubscriptionBackfill.advance (now : Instant) (nextCursor : Option BackfillCursor) (processedCount addedCount : Nat)
    (sourceLimited : Bool) (row : PodcastSubscriptionBackfill) : PodcastSubscriptionBackfill :=
  { row with
    stepNo := row.stepNo + 1
    cursor := nextCursor
    processedCount := row.processedCount + processedCount
    addedCount := row.addedCount + addedCount
    startedAt := .some (row.startedAt.getD now)
    completedAt := if nextCursor.isNone && !sourceLimited then .some now else .none
    sourceLimitedAt := if sourceLimited then .some now else .none }

def pageEnding (nextCursor : Option BackfillCursor) (sourceLimited : Bool) : Option BackfillEnding :=
  if sourceLimited then .some .sourceLimited else if nextCursor.isNone then .some .completed else .none

/-- The page's part of the transaction, for the row it has locked. -/
def applyPage (db : BackfillDb) (now : Instant) (row : PodcastSubscriptionBackfill) (fetched : FeedBackfillPage)
    (ingest : List BackfillEpisode → Nat) (jobId : Uuid) : Except String (BackfillResult × Option BackfillEnding × BackfillDb) :=
  let (selected, sourceLimited) := selectEpisodes row.cutoffAt (newestFirst fetched.episodes) fetched.sourceLimited
  let nextCursor := if sourceLimited then .none else fetched.nextCursor
  let db := db.updateBackfill row.id
    (·.advance now nextCursor fetched.episodes.length (ingest selected) sourceLimited)
  let result := BackfillResult.applied fetched.episodes.length (ingest selected) (nextCursor.isNone && !sourceLimited || sourceLimited)
  match nextCursor with
  | .none => .ok (result, pageEnding nextCursor sourceLimited, db)
  | .some cursor =>
    match enqueueBackfillStep sha256 db.queue now jobId row.id (row.stepNo + 1) (.some cursor) with
    | .none => .error "unique violation"
    | .some (_, queue) => .ok (result, pageEnding nextCursor sourceLimited, { db with queue := queue })

/-- `apply` behind the renewed lease. -/
def applyLeased (db : BackfillDb) (now : Instant) (payload : BackfillPayload) (fetched : FeedBackfillPage)
    (ingest : List BackfillEpisode → Nat) (jobId : Uuid) : Except String (BackfillResult × Option BackfillEnding × BackfillDb) :=
  match db.joined payload.backfillId with
  | .none => .ok (.staleOrUnsubscribed, .none, db)
  | .some row =>
    if payload.expectedStepNo < row.stepNo then .ok (.alreadyApplied, .none, db)
    else if row.stepNo < payload.expectedStepNo then .error "Podcast backfill job names a future step"
    else if cursorDigest sha256 row.cursor ≠ payload.expectedCursorDigest then
      .error "Podcast backfill cursor fence mismatch"
    else if row.ended then .ok (.alreadyApplied, .none, db)
    else applyPage sha256 db now row fetched ingest jobId

/-- The transaction of `apply`: its result and, when a page was applied, what it stamped. -/
def apply (db : BackfillDb) (now : Instant) (payload : BackfillPayload) (context : JobExecutionContext) (fetched : FeedBackfillPage)
    (ingest : List BackfillEpisode → Nat) (jobId : Uuid) : Except String (BackfillResult × Option BackfillEnding × BackfillDb) :=
  match db.queue.lockAndRenewRunningJobClaim now context backfillJobLeaseSeconds with
  | .none => .ok (.staleJobAttempt, .none, db)
  | .some (_, queue) => applyLeased sha256 { db with queue := queue } now payload fetched ingest jobId

def PodcastSubscriptionBackfill.fail (now : Instant) (job : JobRow BackfillJson) (row : PodcastSubscriptionBackfill) :
    PodcastSubscriptionBackfill :=
  let classification := ((job.errorCode.getD "E_INTERNAL").take 100).toString
  { row with
    failedAt := .some now
    errorCode := .some classification
    errorDetail := .some (("Podcast backfill exhausted retries; job=" ++ toString job.id ++ "; classification=" ++
      classification).take errorDetailMaxLength).toString }

/-- The row `dead_letter_backfill` fails. -/
def deadLetterTarget (db : BackfillDb) (job : JobRow BackfillJson) : Option PodcastSubscriptionBackfill :=
  match job.payload with
  | .payload payload => (db.backfills.find? payload.backfillId).filter fun row =>
      row.stepNo == payload.expectedStepNo && cursorDigest sha256 row.cursor == payload.expectedCursorDigest && !row.ended
  | _ => .none

def deadLetterBackfill (db : BackfillDb) (now : Instant) (job : JobRow BackfillJson) : BackfillDb :=
  match deadLetterTarget sha256 db job with
  | .none => db
  | .some row => db.updateBackfill row.id (·.fail now job)

end Steps

/-! ## Runs -/

/-- Where `run_backfill_step` stands. -/
inductive BackfillStage
  | started
  /-- The page of this cursor is being fetched, or was. -/
  | fetching (cursor : Option BackfillCursor)
  | returned (result : BackfillResult)

structure BackfillState where
  db : BackfillDb
  clock : Instant
  workers : Attempts BackfillJson BackfillStage
  drawn : List Uuid
  orphaned : List Uuid
  history : Uuid → List BackfillStep

inductive BackfillEvent
  | subscribe (subscriptionId userId podcastId backfillId jobId : Uuid)
  | unsubscribe (userId podcastId : Uuid)
  | revoke (backfillId : Uuid)
  | retry (userId podcastId backfillId jobId : Uuid)
  | claimNext (worker : String) (leaseSeconds : Int) (allowedKinds : Option (List String)) (locked : List Uuid)
  | claimExact (worker : String) (jobId : Uuid) (leaseSeconds : Int) (allowedKinds : Option (List String))
  | heartbeat (worker : String)
  | preflight (worker : String)
  /-- The page was fetched: its transaction commits. -/
  | apply (worker : String) (fetched : FeedBackfillPage) (ingest : List BackfillEpisode → Nat) (jobId : Uuid)
  | complete (worker : String)
  /-- An exception at any point, behind a commit too: the worker fails the job. -/
  | raise (worker errorCode errorMessage : String)
  | stop (worker : String)
  | deadLetterExpired (allowedKinds : Option (List String)) (locked : List Uuid)
  | pruneJobs (succeededAfterDays deadAfterDays limit : Int) (excludedDeadKinds : List String) (locked : List Uuid)
  /-- An operator requeues a dead job. -/
  | requeueDead (jobId : Uuid)

namespace BackfillState

def setQueue (s : BackfillState) (queue : Queue BackfillJson) : BackfillState := { s with db := { s.db with queue := queue } }

def setWorker (s : BackfillState) (worker : String) (a : Option (Attempt BackfillJson BackfillStage)) : BackfillState :=
  { s with workers := Function.update s.workers worker a }

/-- The history of a backfill goes on. -/
def record (s : BackfillState) (backfillId : Uuid) (step : BackfillStep) : BackfillState :=
  { s with history := Function.update s.history backfillId (s.history backfillId ++ [step]) }

/-- A worker takes up the row its claim returned. -/
def claimed (s : BackfillState) (worker : String) : Option (JobRow BackfillJson × Queue BackfillJson) → BackfillState
  | .none => s
  | .some (job, queue) => (s.setQueue queue).setWorker worker (.some (.ofRow job .started))

/-- A seed that went through, or nothing. -/
def seeded (s : BackfillState) (backfillId : Uuid) : Option BackfillDb → BackfillState
  | .none => s
  | .some db => { s with db := db, drawn := backfillId :: s.drawn }

variable (sha256 : Bytes → Bytes)

/-- The dead-letter hook behind a statement that makes a job dead. -/
def deadLettered (s : BackfillState) (now : Instant) (job : JobRow BackfillJson) : BackfillState :=
  let t := { s with db := deadLetterBackfill sha256 s.db now job }
  match deadLetterTarget sha256 s.db job with
  | .none => t
  | .some row => t.record row.id (.stop .failed)

/-- A statement that may make a job dead, and the hook. -/
def settled (s : BackfillState) (now : Instant) : Option (JobRow BackfillJson × Queue BackfillJson) → BackfillState
  | .none => s
  | .some (job, queue) => if job.status = .dead then (s.setQueue queue).deadLettered sha256 now job else s.setQueue queue

def preflight (s : BackfillState) (worker : String) (a : Attempt BackfillJson BackfillStage) (payload : BackfillPayload) :
    Except String BackfillState := do
  let read ← PodcastBackfill.preflight sha256 s.db payload
  let stage := match read with
    | .inl result => BackfillStage.returned result
    | .inr cursor => .fetching cursor
  return s.setWorker worker (.some { a with stage := stage })

def apply (s : BackfillState) (now : Instant) (worker : String) (a : Attempt BackfillJson BackfillStage) (payload : BackfillPayload)
    (cursor : Option BackfillCursor) (fetched : FeedBackfillPage) (ingest : List BackfillEpisode → Nat) (jobId : Uuid) :
    Except String BackfillState := do
  let (result, ending, db) ← PodcastBackfill.apply sha256 s.db now payload (a.context worker) fetched ingest jobId
  let t : BackfillState := { s with db := db }
  let t := match result with
    | .applied processedCount addedCount _ => t.record payload.backfillId
        (.page ⟨payload.expectedStepNo, cursor, ⟨processedCount, addedCount⟩, fetched.nextCursor⟩ ending)
    | _ => t
  return t.setWorker worker (.some { a with stage := .returned result })

/-- What an event does at an instant; `none` where it cannot happen. -/
def act (s : BackfillState) (now : Instant) : BackfillEvent → Option BackfillState
  | .subscribe subscriptionId userId podcastId backfillId jobId =>
    -- an id is drawn once
    if backfillId ∈ s.drawn then .none
    else .some (s.seeded backfillId (PodcastBackfill.subscribe sha256 s.db now subscriptionId userId podcastId backfillId jobId))
  | .unsubscribe userId podcastId =>
    let (removed, db) := PodcastBackfill.unsubscribe s.db userId podcastId
    .some { s with db := db, orphaned := removed.toList ++ s.orphaned }
  | .revoke backfillId =>
    if backfillId ∈ s.orphaned then .some { s with db := revokeSubscriptionJobs s.db backfillId } else .none
  | .retry userId podcastId backfillId jobId =>
    if backfillId ∈ s.drawn then .none
    else .some (s.seeded backfillId (retrySubscriptionBackfill sha256 s.db now userId podcastId backfillId jobId))
  | .claimNext worker leaseSeconds allowedKinds locked =>
    match s.workers worker with
    | .some _ => .none
    | .none => .some (s.claimed worker (s.db.queue.claimNextJob now worker leaseSeconds allowedKinds locked))
  | .claimExact worker jobId leaseSeconds allowedKinds =>
    match s.workers worker with
    | .some _ => .none
    | .none => .some (s.claimed worker (s.db.queue.claimJob now jobId worker leaseSeconds allowedKinds))
  | .heartbeat worker =>
    (s.workers worker).map fun a =>
      match s.db.queue.heartbeatJob now a.jobId worker backfillJobLeaseSeconds with
      | .none => s
      | .some (_, queue) => s.setQueue queue
  | .preflight worker =>
    match s.workers worker with
    | .some ⟨jobId, attemptNo, .payload payload, .started⟩ =>
      (s.preflight sha256 worker ⟨jobId, attemptNo, .payload payload, .started⟩ payload).toOption
    | _ => .none
  | .apply worker fetched ingest newJobId =>
    match s.workers worker with
    | .some ⟨jobId, attemptNo, .payload payload, .fetching cursor⟩ =>
      (s.apply sha256 now worker ⟨jobId, attemptNo, .payload payload, .fetching cursor⟩ payload cursor fetched ingest
        newJobId).toOption
    | _ => .none
  | .complete worker =>
    match s.workers worker with
    | .some ⟨jobId, _, _, .returned result⟩ =>
      match s.db.queue.completeJob now jobId worker (.some (.result result)) with
      | .none => .some (s.setWorker worker .none)
      | .some (_, queue) => .some ((s.setQueue queue).setWorker worker .none)
    | _ => .none
  | .raise worker errorCode errorMessage =>
    (s.workers worker).map fun a =>
      (s.settled sha256 now (s.db.queue.failJob now a.jobId worker errorCode errorMessage backfillRetryDelaysSeconds
        .none)).setWorker worker .none
  | .stop worker => .some (s.setWorker worker .none)
  | .deadLetterExpired allowedKinds locked =>
    .some (s.settled sha256 now (s.db.queue.deadLetterExpiredJob now allowedKinds locked))
  | .pruneJobs succeededAfterDays deadAfterDays limit excludedDeadKinds locked =>
    .some (s.setQueue (s.db.queue.pruneTerminalJobs now succeededAfterDays deadAfterDays limit excludedDeadKinds locked).2)
  | .requeueDead jobId =>
    match s.db.queue.requeueDeadJob now jobId with
    | .none => .some s
    | .some (_, queue) => .some (s.setQueue queue)

def next (s : BackfillState) : Instant × BackfillEvent → Option BackfillState
  | (now, ev) => if now < s.clock then .none else (s.act sha256 now ev).map fun t => { t with clock := now }

def Initial (s : BackfillState) : Prop :=
  s.db.subscriptions = .empty ∧ s.db.backfills = .empty ∧ s.db.queue = .empty ∧ s.workers = (fun _ => .none) ∧
    s.drawn = [] ∧ s.orphaned = [] ∧ s.history = fun _ => []

end BackfillState

def backfillSystem (sha256 : Bytes → Bytes) : Transition.System BackfillState (Instant × BackfillEvent) :=
  .ofFun BackfillState.Initial (BackfillState.next sha256)

end Nexus.PodcastBackfill
