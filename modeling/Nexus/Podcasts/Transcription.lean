/-
The minutes of a transcription: `services/podcasts/transcription.py`, for
podcast episodes.

A request decides from what it reads before it holds any row, and everything
it writes stays locked until it commits: so a transaction's reads are steps of
their own, and its writes one step at its commit. The phases of a run hold the
media row, and are one step each.

Entitlements, readability and the index's state are read from other services
and may be anything, and so may the answer of the enqueue. Audits, revisions,
segments, the source attempts and the clocks of the rows are not told, nor is
the import of a video's captions, which costs no minutes.
-/
import Nexus.Base
import Nexus.Lib.Table

namespace Nexus.Podcasts
open Relational

/-! ## Rows -/

/-- `PODCAST_TRANSCRIPT_REQUEST_REASONS` -/
inductive TranscriptRequestReason
  | episodeOpen
  | search
  | highlight
  | quote
  | backgroundWarming
  | operatorRequeue
  | rssFeed
  deriving DecidableEq, Repr

/-- `podcast_episodes` -/
structure EpisodeRow where
  mediaId : Uuid
  durationSeconds : Option Int
  rssTranscriptUrl : Option String
  deriving DecidableEq, Repr

/-- `podcast_transcription_jobs.status` -/
inductive TranscriptionJobStatus
  | pending
  | running
  | completed
  | failed
  deriving DecidableEq, Repr

structure TranscriptionJob where
  mediaId : Uuid
  requestedByUserId : Option Uuid
  requestReason : TranscriptRequestReason
  reservedMinutes : Nat
  reservationUsageDate : Option Date
  status : TranscriptionJobStatus
  errorCode : Option ApiErrorCode
  deriving DecidableEq, Repr

/-- `podcast_transcription_usage_daily` -/
structure UsageDaily where
  userId : Uuid
  usageDate : Date
  minutesUsed : Nat
  minutesReserved : Nat
  deriving DecidableEq, Repr

def UsageDaily.key (r : UsageDaily) : Uuid × Date := (r.userId, r.usageDate)

inductive TranscriptStatus
  | notRequested
  | queued
  | running
  | ready
  | partially
  | unavailable
  | failedQuota
  | failedProvider
  deriving DecidableEq, Repr

inductive TranscriptCoverage
  | none
  | partially
  | full
  deriving DecidableEq, Repr

inductive SemanticStatus
  | none
  | pending
  | ready
  | failed
  deriving DecidableEq, Repr

/-- `media_transcript_states` -/
structure TranscriptStateRow where
  mediaId : Uuid
  transcriptState : TranscriptStatus
  transcriptCoverage : TranscriptCoverage
  semanticStatus : SemanticStatus
  deriving DecidableEq, Repr

/-- A job's reservation: whose minutes of which day. -/
structure Reservation where
  mediaId : Uuid
  userId : Option Uuid
  usageDate : Date
  minutes : Nat
  deriving DecidableEq, Repr

/-- What became of reservations, told for the proofs: no table keeps it. -/
inductive LedgerEntry
  | admitted (r : Reservation)
  | released (r : Reservation)
  | committed (r : Reservation)
  deriving DecidableEq, Repr

structure TranscriptionDb where
  episodes : Table EpisodeRow EpisodeRow.mediaId
  jobs : Table TranscriptionJob TranscriptionJob.mediaId
  usage : Table UsageDaily UsageDaily.key
  states : Table TranscriptStateRow TranscriptStateRow.mediaId
  ledger : List LedgerEntry

/-- `BillingEntitlementsOut`, as far as transcription reads it. -/
structure Entitlements where
  canTranscribe : Bool
  transcriptionMinutesLimitMonthly : Option Nat
  usagePeriodStart : Date
  usagePeriodEnd : Date
  deriving DecidableEq, Repr

def coercePositiveInt (value : Option Int) : Option Nat :=
  value.bind fun n => if n ≤ 0 then .none else .some n.toNat

def requiredMinutes (durationSeconds : Option Int) : Nat :=
  match coercePositiveInt durationSeconds with
  | .some seconds => max 1 ((seconds + 59) / 60)
  | .none => 1

namespace TranscriptionDb

variable (db : TranscriptionDb)

/-! ## The usage of a day -/

/-- `get_transcription_usage`: minutes used and reserved. -/
def getTranscriptionUsage (userId : Uuid) (startDate endDate : Date) : Nat × Nat :=
  let inPeriod (r : UsageDaily) := r.userId == userId && decide (startDate ≤ r.usageDate) && decide (r.usageDate < endDate)
  (db.usage.sumBy inPeriod (·.minutesUsed), db.usage.sumBy inPeriod (·.minutesReserved))

def ensureUsageDailyRow (userId : Uuid) (usageDate : Date) : TranscriptionDb :=
  if (db.usage.find? (userId, usageDate)).isSome then db
  else { db with usage := db.usage.put ⟨userId, usageDate, 0, 0⟩ }

def quotaExceeded : ApiError := ⟨.podcastQuotaExceeded, "Monthly transcription quota exceeded"⟩

/-- `_reserve_usage_minutes_or_raise`: the user's row is locked first. -/
def reserveUsageMinutesOrRaise (userId : Uuid) (usageDate : Date) (entitlements : Entitlements)
    (requiredMinutes : Nat) : Except ApiError TranscriptionDb :=
  if requiredMinutes = 0 then .ok db
  else
    let db := db.ensureUsageDailyRow userId usageDate
    let others := db.usage.sumBy (fun r => r.userId == userId && decide (entitlements.usagePeriodStart ≤ r.usageDate) &&
      decide (r.usageDate < entitlements.usagePeriodEnd) && r.usageDate != usageDate) fun r => r.minutesUsed + r.minutesReserved
    match db.usage.find? (userId, usageDate) with
    | .none => .error quotaExceeded
    | .some row =>
      if entitlements.transcriptionMinutesLimitMonthly.all fun limit =>
          decide (others + row.minutesUsed + row.minutesReserved + requiredMinutes ≤ limit) then
        .ok { db with usage := db.usage.put { row with minutesReserved := row.minutesReserved + requiredMinutes } }
      else .error quotaExceeded

/-! ## The reservation of a job -/

def reservation (j : TranscriptionJob) : Option Reservation :=
  if j.reservedMinutes = 0 then .none
  else j.reservationUsageDate.map fun date => ⟨j.mediaId, j.requestedByUserId, date, j.reservedMinutes⟩

def liveReservation (mediaId : Uuid) : Option Reservation := (db.jobs.find? mediaId).bind reservation

def claimJobReservation (mediaId : Uuid) : Option Reservation × TranscriptionDb :=
  match db.jobs.find? mediaId with
  | .none => (.none, db)
  | .some j => match reservation j with
    | .none => (.none, db)
    | .some r => (.some r, { db with jobs := db.jobs.put { j with reservedMinutes := 0, reservationUsageDate := .none } })

def record (e : LedgerEntry) : TranscriptionDb := { db with ledger := db.ledger ++ [e] }

def releaseReservedUsageForMedia (mediaId : Uuid) : TranscriptionDb :=
  match db.claimJobReservation mediaId with
  | (.none, db) => db
  | (.some r, db) =>
    let db := db.record (.released r)
    match r.userId.bind fun userId => db.usage.find? (userId, r.usageDate) with
    | .none => db
    | .some row => { db with usage := db.usage.put { row with minutesReserved := row.minutesReserved - r.minutes } }

def commitReservedUsageForMedia (mediaId : Uuid) : TranscriptionDb :=
  match db.claimJobReservation mediaId with
  | (.none, db) => db
  | (.some r, db) =>
    let db := db.record (.committed r)
    match r.userId with
    | .none => db
    | .some userId =>
      let db := db.ensureUsageDailyRow userId r.usageDate
      match db.usage.find? (userId, r.usageDate) with
      | .none => db
      | .some row =>
        let row := { row with minutesUsed := row.minutesUsed + r.minutes, minutesReserved := row.minutesReserved - r.minutes }
        { db with usage := db.usage.put row }

/-- `_reset_podcast_transcription_job_for_source_attempt`: insert the job, or
overwrite whatever reservation it holds. -/
def resetPodcastTranscriptionJob (mediaId requestedByUserId : Uuid) (requestReason : TranscriptRequestReason)
    (reservedMinutes : Nat) (reservationUsageDate : Option Date) : TranscriptionDb :=
  let job : TranscriptionJob :=
    ⟨mediaId, .some requestedByUserId, requestReason, reservedMinutes, reservationUsageDate, .pending, .none⟩
  { db with
    jobs := db.jobs.put job
    ledger := db.ledger ++ (reservation job).toList.map .admitted }

/-! ## Transcript states -/

/-- `set_media_transcript_state`; no semantic status keeps the old one. -/
def setMediaTranscriptState (mediaId : Uuid) (transcriptState : TranscriptStatus) (transcriptCoverage : TranscriptCoverage)
    (semanticStatus : Option SemanticStatus) : TranscriptionDb :=
  let kept := (db.states.find? mediaId).elim .none TranscriptStateRow.semanticStatus
  { db with states := db.states.put ⟨mediaId, transcriptState, transcriptCoverage, semanticStatus.getD kept⟩ }

def ensureMediaTranscriptStateRow (mediaId : Uuid) : TranscriptionDb :=
  if (db.states.find? mediaId).isSome then db
  else { db with states := db.states.put ⟨mediaId, .notRequested, .none, .none⟩ }

/-- The state an error leaves the transcript in. -/
def failedState : ApiErrorCode → TranscriptStatus
  | .transcriptUnavailable => .unavailable
  | .podcastQuotaExceeded => .failedQuota
  | _ => .failedProvider

def updateJob (mediaId : Uuid) (f : TranscriptionJob → TranscriptionJob) : TranscriptionDb :=
  match db.jobs.find? mediaId with
  | .none => db
  | .some j => { db with jobs := db.jobs.put (f j) }

def markPodcastTranscriptionFailure (mediaId : Uuid) (errorCode : ApiErrorCode) : TranscriptionDb :=
  let db := db.updateJob mediaId fun j => { j with status := .failed, errorCode := .some errorCode }
  (db.releaseReservedUsageForMedia mediaId).setMediaTranscriptState mediaId (failedState errorCode) .none (.some .none)

end TranscriptionDb

/-! ## Requests -/

/-- What a request reads of an episode, and of the viewer, before it decides. -/
structure Observation where
  mediaId : Uuid
  durationSeconds : Option Int
  jobStatus : Option TranscriptionJobStatus
  state : Option TranscriptStateRow
  rssTranscriptUrl : Option String
  entitlements : Entitlements
  consumedMinutes : Nat
  /-- `_semantic_index_requires_repair` -/
  semanticIndexRequiresRepair : Bool
  deriving DecidableEq, Repr

namespace Observation

variable (o : Observation)

def requiredMinutes : Nat := Podcasts.requiredMinutes o.durationSeconds

def alreadyReady : Bool := o.state.any fun s =>
  (s.transcriptState == .ready || s.transcriptState == .partially) &&
    (s.transcriptCoverage == .partially || s.transcriptCoverage == .full)

def alreadyInflight : Bool :=
  (o.state.any fun s => s.transcriptState == .queued || s.transcriptState == .running) ||
    o.jobStatus == .some .pending || o.jobStatus == .some .running

/-- The publisher's own transcript is asked for. -/
def asksPublisher : Bool := o.rssTranscriptUrl.isSome && !o.alreadyReady && !o.alreadyInflight

def semanticNeedsRepair : Bool := o.alreadyReady &&
  ((o.state.any fun s => s.semanticStatus == .pending || s.semanticStatus == .failed) || o.semanticIndexRequiresRepair)

def remainingMinutes : Option Nat :=
  o.entitlements.transcriptionMinutesLimitMonthly.map fun limit => limit - o.consumedMinutes

def fitsBudget : Bool := o.remainingMinutes.all fun remaining => decide (o.requiredMinutes ≤ remaining)

/-- A request that read this reserves minutes. -/
def reserves : Bool :=
  !o.asksPublisher && o.entitlements.canTranscribe && !o.alreadyReady && !o.alreadyInflight && o.fitsBudget

end Observation

/-- `TranscriptRequestResponse`, without the media's own status. -/
structure TranscriptRequestResponse where
  transcriptState : TranscriptStatus
  transcriptCoverage : TranscriptCoverage
  requiredMinutes : Nat
  remainingMinutes : Option Nat
  fitsBudget : Bool
  requestEnqueued : Bool
  deriving DecidableEq, Repr

namespace TranscriptionDb

variable (db : TranscriptionDb)

/-- The reads of `request_media_transcript_for_viewer`. -/
def observe (viewerId mediaId : Uuid) (entitlements : Entitlements) (semanticIndexRequiresRepair : Bool) : Observation :=
  let episode := db.episodes.find? mediaId
  let used := db.getTranscriptionUsage viewerId entitlements.usagePeriodStart entitlements.usagePeriodEnd
  { mediaId
    durationSeconds := episode.bind EpisodeRow.durationSeconds
    jobStatus := (db.jobs.find? mediaId).map TranscriptionJob.status
    state := db.states.find? mediaId
    rssTranscriptUrl := episode.bind EpisodeRow.rssTranscriptUrl
    entitlements
    consumedMinutes := used.1 + used.2
    semanticIndexRequiresRepair }

/-- A request for the publisher's transcript, at no minutes. -/
def requestPublisherTranscript (viewerId : Uuid) (reason : TranscriptRequestReason) (o : Observation) (enqueued : Bool) :
    TranscriptionDb × TranscriptRequestResponse :=
  let db := (db.ensureMediaTranscriptStateRow o.mediaId).releaseReservedUsageForMedia o.mediaId
  let db := (db.resetPodcastTranscriptionJob o.mediaId viewerId reason 0 .none).setMediaTranscriptState
    o.mediaId .queued .none (.some .none)
  (db, ⟨if enqueued then .queued else .failedProvider, .none, 0, .none, true, enqueued⟩)

/-- The end of a request that is admitted. -/
def requestGeneratedTranscript (viewerId : Uuid) (reason : TranscriptRequestReason) (o : Observation) (usageDate : Date)
    (enqueued : Bool) : Except ApiError (TranscriptionDb × TranscriptRequestResponse) :=
  (db.reserveUsageMinutesOrRaise viewerId usageDate o.entitlements o.requiredMinutes).map fun db =>
    let after := db.getTranscriptionUsage viewerId o.entitlements.usagePeriodStart o.entitlements.usagePeriodEnd
    let remaining := o.entitlements.transcriptionMinutesLimitMonthly.map fun limit => limit - (after.1 + after.2)
    let db := (db.resetPodcastTranscriptionJob o.mediaId viewerId reason o.requiredMinutes (.some usageDate)).setMediaTranscriptState
      o.mediaId .queued .none (.some .none)
    if enqueued then (db, ⟨.queued, .none, o.requiredMinutes, remaining, true, true⟩)
    else (db.markPodcastTranscriptionFailure o.mediaId .internal,
      ⟨.failedProvider, .none, o.requiredMinutes, o.remainingMinutes, true, false⟩)

/-- `request_media_transcript_for_viewer`, after its reads: what it writes, and
its answer. A refusal for the quota commits what came before it when the
request is a transaction of its own. -/
def requestMediaTranscript (viewerId : Uuid) (reason : TranscriptRequestReason) (dryRun autoCommit : Bool)
    (o : Observation) (usageDate : Date) (enqueued : Bool) : TranscriptionDb × Except ApiError TranscriptRequestResponse :=
  let state := (o.state.map TranscriptStateRow.transcriptState).getD .notRequested
  let coverage := (o.state.map TranscriptStateRow.transcriptCoverage).getD .none
  if o.asksPublisher then
    if dryRun then (db, .ok ⟨state, coverage, 0, .none, true, false⟩)
    else
      let (db, response) := db.requestPublisherTranscript viewerId reason o enqueued
      (db, .ok response)
  else if !o.entitlements.canTranscribe then
    (db, .error ⟨.billingRequired, "Transcription requires an AI tier."⟩)
  else
    let ensured := if o.state.isNone then db.ensureMediaTranscriptStateRow o.mediaId else db
    let answer (fits enqueued : Bool) : TranscriptRequestResponse :=
      ⟨state, coverage, o.requiredMinutes, o.remainingMinutes, fits, enqueued⟩
    if dryRun then (ensured, .ok (answer o.fitsBudget false))
    else if o.semanticNeedsRepair then
      (if enqueued then ensured.setMediaTranscriptState o.mediaId state coverage (.some .pending) else ensured,
        .ok (answer true enqueued))
    else if o.alreadyReady || o.alreadyInflight then (ensured, .ok (answer true false))
    else if !o.fitsBudget then (if autoCommit then ensured else db, .error quotaExceeded)
    else match ensured.requestGeneratedTranscript viewerId reason o usageDate enqueued with
      | .error e => (db, .error e)
      | .ok (db, response) => (db, .ok response)

/-- `request_podcast_episode_query_transcripts`: all its episodes, or none. -/
def requestQueryTranscripts (viewerId : Uuid) (reason : TranscriptRequestReason) (dryRun : Bool) (os : List Observation)
    (usageDate : Date) (enqueued : Uuid → Bool) : Except ApiError TranscriptionDb :=
  os.foldlM (fun db o => match db.requestMediaTranscript viewerId reason dryRun false o usageDate (enqueued o.mediaId) with
    | (db, .ok _) => .ok db
    | (_, .error e) => .error e) db

/-- `prepare_podcast_transcription_for_source_attempt`: no reservation is looked
for, and none is released. -/
def preparePodcastTranscription (mediaId requestedByUserId : Uuid) (requestReason : TranscriptRequestReason)
    (entitlements : Entitlements) (usageDate : Date) : Except ApiError TranscriptionDb :=
  let required := requiredMinutes ((db.episodes.find? mediaId).bind EpisodeRow.durationSeconds)
  let used := db.getTranscriptionUsage requestedByUserId entitlements.usagePeriodStart entitlements.usagePeriodEnd
  let fits := entitlements.transcriptionMinutesLimitMonthly.all fun limit => decide (required ≤ limit - (used.1 + used.2))
  if !entitlements.canTranscribe then .error ⟨.billingRequired, "Transcription requires an AI tier."⟩
  else if !fits then .error quotaExceeded
  else (db.reserveUsageMinutesOrRaise requestedByUserId usageDate entitlements required).map fun db =>
    (db.resetPodcastTranscriptionJob mediaId requestedByUserId requestReason required (.some usageDate)).setMediaTranscriptState
      mediaId .queued .none (.some .none)

/-! ## The phases of `run_podcast_transcription_now` -/

def publishRunningState (mediaId : Uuid) : TranscriptionDb :=
  (db.updateJob mediaId fun j => { j with status := .running, errorCode := .none }).setMediaTranscriptState
    mediaId .running .none (.some .none)

def publishPublisherTranscript (mediaId : Uuid) : TranscriptionDb :=
  (db.setMediaTranscriptState mediaId .ready .full (.some .pending)).updateJob mediaId fun j =>
    if j.reservedMinutes = 0 then { j with status := .completed, errorCode := .none } else j

def publishTranscript (mediaId : Uuid) (diagnosticErrorCode : Option ApiErrorCode) : TranscriptionDb :=
  ((db.setMediaTranscriptState mediaId .ready .full (.some .pending)).updateJob mediaId fun j =>
    { j with status := .completed, errorCode := diagnosticErrorCode }).commitReservedUsageForMedia mediaId

end TranscriptionDb

end Nexus.Podcasts
