/-
`NativeConsumptionRecorder`: the Android player's owner of listening state and
Listening activity, with the coroutines it launches.

Every public method and every resumption of a coroutine is one turn of the
service's main thread. A transport call and a delay suspend; the answer or the
end of the delay is a later turn, and so is the resumption of a coroutine that
was cancelled, which may come arbitrarily late. `UUID.randomUUID()` draws the
next number. An activity batch is told from the others by the
`clientMutationId` of its body.

`admitted`, `firstPosted` and `answered` record the batches since the last
`discardPending`, `sent` the heartbeats, `captured` the captures delivered and
`acceptedEpoch` the reset epoch of the state the session last accepted; nothing
reads them. A state read while a capture waits is not one the playback that
ended went on from, so reading it accepts nothing.
-/
import Nexus.Base
import Nexus.Lib.Coroutines
import Nexus.Consumption.Commands

namespace Nexus.Playback
open Coroutine Consumption

/-! ## Data -/

/-- `Int.MAX_VALUE` -/
def intMax : Int := 2147483647

def nativeListeningSyncIntervalMs : Nat := 15000

def nativeActivityCheckpointMs : Nat := 10000

def nativeRecorderCadenceTickMs : Nat := 5000

def nativeActivitySpanMaxMs : Int := 30000

def nativeActivityQueueMaxBatches : Nat := 120

/-- `RetryPolicies.SAME_SYSTEM_CLIENT_RECOVERY`, in seconds. -/
def sameSystemClientRecovery : List Nat := [1, 2, 5, 15, 30]

structure RecorderPlaybackSample where
  positionMs : Int
  durationMs : Option Int
  deriving DecidableEq, Repr

def RecorderPlaybackSample.bounded (s : RecorderPlaybackSample) : RecorderPlaybackSample where
  positionMs := max 0 (min intMax s.positionMs)
  durationMs := s.durationMs.map fun d => max 0 (min intMax d)

/-- What a turn reads of the two clocks and of the player. -/
structure Reading where
  elapsedMs : Int
  wallMs : Int
  playback : RecorderPlaybackSample
  deriving DecidableEq, Repr

structure NaturalEndCapture (F : Type) where
  positionMs : Int
  durationMs : Option Int
  episodePlaybackRate : Option F
  writeRevision : Nat
  resetEpoch : Nat
  deriving DecidableEq, Repr

structure DirtyHeartbeat where
  version : Nat
  sample : RecorderPlaybackSample
  deriving DecidableEq, Repr

structure RecordingSession (F : Type) where
  token : Uuid
  mediaId : Uuid
  episodeRate : Option F
  writeRevision : Nat
  resetEpoch : Nat
  playing : Bool
  dirtyVersion : Nat
  dirty : Option DirtyHeartbeat
  generation : Uuid
  sequence : Nat
  drained : Bool
  deriving DecidableEq, Repr

/-- `HeartbeatRequest`, with the media its PUT names. -/
structure HeartbeatRequest (F : Type) where
  token : Uuid
  mediaId : Uuid
  dirtyVersion : Nat
  generation : Uuid
  sequence : Nat
  expectedWriteRevision : Nat
  expectedResetEpoch : Nat
  episodeRate : Option F
  sample : RecorderPlaybackSample
  deriving DecidableEq, Repr

structure ActivityEpoch where
  token : Uuid
  mediaId : Uuid
  startedElapsedMs : Int
  startedWallMs : Int
  startedPositionMs : Int
  startedDurationMs : Option Int
  deriving DecidableEq, Repr

/-- The JSON body of a batch: its one span. -/
structure ActivityBody where
  clientMutationId : Uuid
  mediaId : Uuid
  occurredAt : Int
  durationMs : Int
  mediaPositionStartMs : Int
  mediaPositionEndMs : Int
  deriving DecidableEq, Repr

structure FrozenActivity where
  body : ActivityBody
  retryAttempt : Nat
  deriving DecidableEq, Repr

def FrozenActivity.id (a : FrozenActivity) : Uuid := a.body.clientMutationId

inductive RecoveryKind
  | network
  | authExpired
  deriving DecidableEq, Repr

/-- What a suspended transport call is resumed with: a status with the body as
it decodes, or an `IOException`. -/
inductive Answer (β : Type)
  | response (status : Nat) (body : Option β)
  | failure
  deriving DecidableEq, Repr

structure DecodedHeartbeatResult (F : Type) where
  state : ListeningStateOut F
  generation : Uuid
  sequence : Nat
  deriving DecidableEq, Repr

/-- Where the coroutine of `sendActivityIfReady` or of `retryActivity` waits. -/
inductive ActivityPoint
  | post (frozen : ActivityBody)
  | retryDelay
  deriving DecidableEq, Repr

/-- Where `recover` waits: in the delay before its `attempt`-th read, or in the read. -/
structure RecoverPoint where
  token : Uuid
  mediaId : Uuid
  fromSuspended : Bool
  attempt : Nat
  reading : Bool
  deriving DecidableEq, Repr

/-- The counters of the cadence coroutine. -/
structure CadencePoint where
  activityElapsedMs : Nat
  heartbeatElapsedMs : Nat
  deriving DecidableEq, Repr

inductive RecorderFailure
  /-- a `check` -/
  | illegalState
  /-- a body that does not decode -/
  | malformed
  /-- `error("Unexpected … response …")` -/
  | unexpectedResponse (status : Nat)
  /-- `removeFirst` of an empty queue -/
  | noSuchElement
  deriving DecidableEq, Repr

/-- A capture as it was delivered, with the heartbeats under way at that moment. -/
structure Delivery (F : Type) where
  id : Nat
  token : Uuid
  capture : NaturalEndCapture F
  heartbeats : Scope (HeartbeatRequest F)
  ambiguous : List Uuid
  acceptedEpoch : Nat

structure Recorder (F : Type) where
  session : Option (RecordingSession F)
  cadenceJob : Option Nat
  heartbeatJobs : List (Uuid × Nat)
  recoveryJob : Option Nat
  recoveryKind : Option RecoveryKind
  activityEpoch : Option ActivityEpoch
  activityQueue : List FrozenActivity
  activityJob : Option Nat
  naturalEndCapture : Option (Uuid × Nat)
  naturalEndSample : Option RecorderPlaybackSample
  heartbeatOutcomeAmbiguous : List Uuid
  drainCallback : Bool
  drainDeadlineJob : Option Nat
  cadences : Scope CadencePoint
  heartbeats : Scope (HeartbeatRequest F)
  recoveries : Scope RecoverPoint
  activities : Scope ActivityPoint
  drainDeadlines : Scope Unit
  randomUuid : Uuid
  admitted : List Uuid
  firstPosted : List Uuid
  answered : List Uuid
  sent : List (HeartbeatRequest F)
  captured : List (Delivery F)
  acceptedEpoch : Nat

/-- The recorder as it is constructed. -/
def Recorder.initial {F : Type} : Recorder F where
  session := .none
  cadenceJob := .none
  heartbeatJobs := []
  recoveryJob := .none
  recoveryKind := .none
  activityEpoch := .none
  activityQueue := []
  activityJob := .none
  naturalEndCapture := .none
  naturalEndSample := .none
  heartbeatOutcomeAmbiguous := []
  drainCallback := false
  drainDeadlineJob := .none
  cadences := .empty
  heartbeats := .empty
  recoveries := .empty
  activities := .empty
  drainDeadlines := .empty
  randomUuid := 0
  admitted := []
  firstPosted := []
  answered := []
  sent := []
  captured := []
  acceptedEpoch := 0

namespace Recorder

variable {F : Type} (s : Recorder F)

/-- `session?.takeIf { it.token == token }` -/
def sessionOf (token : Uuid) : Option (RecordingSession F) := s.session.filter fun c => c.token = token

/-! ## Activity -/

def openActivity (now : Reading) (current : RecordingSession F) : Recorder F :=
  match s.activityEpoch with
  | .some _ => s
  | .none =>
    let sample := now.playback.bounded
    let epoch : ActivityEpoch :=
      ⟨current.token, current.mediaId, now.elapsedMs, now.wallMs, sample.positionMs, sample.durationMs⟩
    { s with activityEpoch := .some epoch }

/-- `sendActivityIfReady`, up to the suspension of the POST. -/
def sendActivityIfReady : Recorder F :=
  match s.activityQueue with
  | [] => s
  | frozen :: _ =>
    if s.activities.isActive s.activityJob || s.recoveryKind.isSome then s
    else { s with
      activities := s.activities.launch (.post frozen.body)
      activityJob := .some s.activities.next
      firstPosted := if frozen.id ∈ s.firstPosted then s.firstPosted else s.firstPosted ++ [frozen.id] }

def restartActivityRetries : Recorder F :=
  let queue := s.activityQueue.map fun a => { a with retryAttempt := 0 }
  { s with activityQueue := queue }.sendActivityIfReady

/-! ## Natural end and drain -/

def finishDrain : Recorder F :=
  if s.drainCallback then
    let token := s.session.map RecordingSession.token
    { s with
      drainCallback := false
      drainDeadlines := s.drainDeadlines.cancel s.drainDeadlineJob
      drainDeadlineJob := .none
      heartbeats := s.heartbeats.cancel (token.bind fun t => s.heartbeatJobs.lookup t)
      heartbeatJobs := s.heartbeatJobs.filter fun e => token ≠ .some e.1
      recoveries := s.recoveries.cancel s.recoveryJob
      recoveryJob := .none
      session := s.session.map fun c => { c with dirty := .none, generation := s.randomUuid, sequence := 0 }
      randomUuid := s.randomUuid + 1
      heartbeatOutcomeAmbiguous := s.heartbeatOutcomeAmbiguous.filter fun t => token ≠ .some t }
  else s

/-- A heartbeat of the session is in flight or of unknown outcome, or a recovery is under way. -/
def outcomeOpen (token : Uuid) : Bool :=
  s.heartbeats.isActive (s.heartbeatJobs.lookup token) || s.recoveries.isActive s.recoveryJob ||
    s.heartbeatOutcomeAmbiguous.contains token

def completeNaturalEndCaptureIfReady : Recorder F :=
  match s.naturalEndCapture with
  | .none => s
  | .some pending =>
    match s.sessionOf pending.1 with
    | .none => { s with naturalEndCapture := .none, naturalEndSample := .none }
    | .some current =>
      if s.outcomeOpen current.token then s
      else match s.naturalEndSample with
        | .none => s
        | .some sample =>
          let capture : NaturalEndCapture F :=
            ⟨sample.positionMs, sample.durationMs, current.episodeRate, current.writeRevision, current.resetEpoch⟩
          { s with
            naturalEndCapture := .none
            naturalEndSample := .none
            captured := s.captured ++
              [Delivery.mk pending.2 current.token capture s.heartbeats s.heartbeatOutcomeAmbiguous s.acceptedEpoch] }

def completeDrainIfReady : Recorder F :=
  if s.drainCallback then
    if s.session.any (fun c => s.heartbeats.isActive (s.heartbeatJobs.lookup c.token)) ||
        s.recoveries.isActive s.recoveryJob || s.session.any (fun c => c.dirty.isSome) then s
    else s.finishDrain
  else s

def suspendPersistence (kind : RecoveryKind) : Recorder F :=
  let s : Recorder F := { s with
    recoveries := s.recoveries.cancel s.recoveryJob
    recoveryJob := .none
    recoveryKind := .some kind }
  let s := s.completeNaturalEndCaptureIfReady
  if kind = .authExpired then s.finishDrain else s

def enqueueActivity (epoch : ActivityEpoch) (durationMs : Int) (finish : RecorderPlaybackSample) : Recorder F :=
  let body : ActivityBody :=
    ⟨s.randomUuid, epoch.mediaId, epoch.startedWallMs, durationMs, epoch.startedPositionMs, finish.positionMs⟩
  let s : Recorder F := { s with randomUuid := s.randomUuid + 1 }
  if nativeActivityQueueMaxBatches ≤ s.activityQueue.length then s.suspendPersistence .network
  else
    let s : Recorder F := { s with
      activityQueue := s.activityQueue ++ [FrozenActivity.mk body 0]
      admitted := s.admitted ++ [body.clientMutationId] }
    s.sendActivityIfReady

def closeActivity (now : Reading) (reopen : Bool) : Recorder F :=
  match s.activityEpoch with
  | .none => s
  | .some epoch =>
    let s : Recorder F := { s with activityEpoch := .none }
    let current := s.sessionOf epoch.token
    let elapsedMs : Int := now.elapsedMs - epoch.startedElapsedMs
    let s :=
      if 1 ≤ elapsedMs ∧ elapsedMs ≤ nativeActivitySpanMaxMs ∧ current.isSome = true then
        s.enqueueActivity epoch elapsedMs now.playback.bounded
      else s
    match current with
    | .some current => if reopen && current.playing then s.openActivity now current else s
    | .none => s

/-- `frozen.retryAttempt = n`, of the object in the queue. -/
def setRetryAttempt (queue : List FrozenActivity) (frozen : ActivityBody) (n : Nat) : List FrozenActivity :=
  queue.map fun a => if a.id = frozen.clientMutationId then { a with retryAttempt := n } else a

def retryActivity (frozen : ActivityBody) : Recorder F :=
  let attempt := ((s.activityQueue.find? fun a => a.id = frozen.clientMutationId).map FrozenActivity.retryAttempt).getD 0
  if attempt < sameSystemClientRecovery.length then
    { s with
      activityQueue := setRetryAttempt s.activityQueue frozen (attempt + 1)
      activities := s.activities.launch .retryDelay
      activityJob := .some s.activities.next }
  else
    let queue := setRetryAttempt s.activityQueue frozen 0
    { s with activityQueue := queue }.suspendPersistence .network

/-- What the coroutine of a POST does with its answer. -/
def handleActivityResponse (frozen : ActivityBody) : Answer Unit → Except RecorderFailure (Recorder F)
  | .failure => .ok (s.retryActivity frozen)
  | .response status _ =>
    if status = 204 ∨ status = 403 ∨ status = 404 then
      match s.activityQueue with
      | [] => .error .noSuchElement
      | _ :: rest => .ok { s with activityQueue := rest, answered := s.answered ++ [frozen.clientMutationId] }
    else if status = 401 then .ok (s.suspendPersistence .authExpired)
    else if status = 408 ∨ status = 429 ∨ 500 ≤ status then .ok (s.retryActivity frozen)
    else .error (.unexpectedResponse status)

def activityAnswered (job : Nat) (frozen : ActivityBody) (answer : Answer Unit) : Except RecorderFailure (Recorder F) := do
  let s : Recorder F := { s with activities := s.activities.finish job, activityJob := .none }
  let s ← s.handleActivityResponse frozen answer
  return s.sendActivityIfReady

def activityRetried (job : Nat) : Recorder F :=
  let s : Recorder F := { s with activities := s.activities.finish job, activityJob := .none }
  s.sendActivityIfReady

/-! ## Heartbeats -/

def markHeartbeatDirty (now : Reading) : Recorder F :=
  let dirty (c : RecordingSession F) : DirtyHeartbeat := ⟨c.dirtyVersion + 1, now.playback.bounded⟩
  { s with session := s.session.map fun c => { c with dirtyVersion := c.dirtyVersion + 1, dirty := .some (dirty c) } }

/-- `sendHeartbeatIfReady`, up to the suspension of the PUT. -/
def sendHeartbeatIfReady : Recorder F :=
  match s.session with
  | .none => s
  | .some current =>
    match current.dirty with
    | .none => s
    | .some dirty =>
      if s.heartbeats.isActive (s.heartbeatJobs.lookup current.token) || s.recoveries.isActive s.recoveryJob ||
          s.recoveryKind.isSome then s
      else
        let request : HeartbeatRequest F := {
          token := current.token
          mediaId := current.mediaId
          dirtyVersion := dirty.version
          generation := current.generation
          sequence := current.sequence
          expectedWriteRevision := current.writeRevision
          expectedResetEpoch := current.resetEpoch
          episodeRate := current.episodeRate
          sample := dirty.sample }
        { s with
          session := .some { current with sequence := current.sequence + 1 }
          heartbeatOutcomeAmbiguous := s.heartbeatOutcomeAmbiguous.insert current.token
          heartbeats := s.heartbeats.launch request
          heartbeatJobs := (current.token, s.heartbeats.next) :: s.heartbeatJobs.filter fun e => e.1 ≠ current.token
          sent := s.sent ++ [request] }

def beginRecovery (token : Uuid) : Recorder F :=
  match s.sessionOf token with
  | .none => s
  | .some current =>
    if s.recoveries.isActive s.recoveryJob then s
    else { s with
      heartbeatOutcomeAmbiguous := s.heartbeatOutcomeAmbiguous.insert token
      recoveries := s.recoveries.launch ⟨token, current.mediaId, false, 0, false⟩
      recoveryJob := .some s.recoveries.next }

def handleHeartbeatResponse (request : HeartbeatRequest F) (status : Nat) (body : Option (DecodedHeartbeatResult F)) :
    Except RecorderFailure (Recorder F) :=
  if status = 200 then
    match body with
    | .none => .error .malformed
    | .some result =>
      if result.generation = request.generation ∧ result.sequence = request.sequence then
        match s.session with
        | .none => .ok s
        | .some current =>
          let s : Recorder F := { s with
            heartbeatOutcomeAmbiguous := s.heartbeatOutcomeAmbiguous.filter fun t => t ≠ request.token
            acceptedEpoch := result.state.resetEpoch
            session := .some { current with
              writeRevision := result.state.writeRevision
              resetEpoch := result.state.resetEpoch
              episodeRate := result.state.episodePlaybackRate
              dirty := if current.dirty.all fun d => d.version == request.dirtyVersion then .none else current.dirty } }
          .ok s.sendHeartbeatIfReady
      else .error .illegalState
  else if status = 401 then
    let s : Recorder F := { s with heartbeatOutcomeAmbiguous := s.heartbeatOutcomeAmbiguous.filter fun t => t ≠ request.token }
    .ok (s.suspendPersistence .authExpired)
  else if status = 409 ∨ status = 408 ∨ status = 429 ∨ 500 ≤ status then .ok (s.beginRecovery request.token)
  else .error (.unexpectedResponse status)

def heartbeatAnswered (job : Nat) (request : HeartbeatRequest F) (answer : Answer (DecodedHeartbeatResult F)) :
    Except RecorderFailure (Recorder F) := do
  let s : Recorder F := { s with
    heartbeats := s.heartbeats.finish job
    heartbeatJobs := s.heartbeatJobs.filter fun e => e.1 ≠ request.token }
  if (s.sessionOf request.token).isSome then
    let s ← (match answer with
      | .response status body => s.handleHeartbeatResponse request status body
      | .failure => .ok (s.beginRecovery request.token))
    return s.completeNaturalEndCaptureIfReady.completeDrainIfReady
  else
    let s : Recorder F := { s with heartbeatOutcomeAmbiguous := s.heartbeatOutcomeAmbiguous.filter fun t => t ≠ request.token }
    return s.sendHeartbeatIfReady.completeNaturalEndCaptureIfReady.completeDrainIfReady

/-! ## Recovery -/

/-- A natural end of the session waits to be delivered. -/
def captureWaits (token : Uuid) : Bool := s.naturalEndCapture.any fun p => p.1 = token

/-- The end of `recover` when its schedule is exhausted. -/
def recoverExhausted (point : RecoverPoint) : Recorder F :=
  let s :=
    if (s.sessionOf point.token).isSome then
      let s :=
        if s.captureWaits point.token then
          { s with heartbeatOutcomeAmbiguous := s.heartbeatOutcomeAmbiguous.filter fun t => t ≠ point.token }
        else s
      s.suspendPersistence .network
    else s
  if point.fromSuspended then { s with recoveryJob := .none } else s

/-- `continue`: the next delay of the schedule, or its end. -/
def recoverContinue (job : Nat) (point : RecoverPoint) : Recorder F :=
  if point.attempt + 1 < sameSystemClientRecovery.length then
    { s with recoveries := s.recoveries.moveTo job { point with attempt := point.attempt + 1, reading := false } }
  else
    let s := s.recoverExhausted point
    { s with recoveries := s.recoveries.finish job }

/-- The delay before a read is over. -/
def recoverDelayed (job : Nat) (point : RecoverPoint) : Recorder F :=
  if (s.sessionOf point.token).isSome then
    { s with recoveries := s.recoveries.moveTo job { point with reading := true } }
  else { s with recoveries := s.recoveries.finish job }

/-- What a successful read installs in the session. -/
def installRecovered (now : Reading) (active : RecordingSession F) (server : ListeningStateOut F) : Recorder F :=
  let acceptedEpoch := if s.captureWaits active.token then s.acceptedEpoch else server.resetEpoch
  if server.resetEpoch ≠ active.resetEpoch then
    let s := s.closeActivity now false
    { s with
      acceptedEpoch := acceptedEpoch
      cadences := s.cadences.cancel s.cadenceJob
      cadenceJob := .none
      session := s.session.map fun c => { c with
        playing := false
        dirty := .none
        episodeRate := server.episodePlaybackRate
        writeRevision := server.writeRevision
        resetEpoch := server.resetEpoch } }
  else { s with
    acceptedEpoch := acceptedEpoch
    session := s.session.map fun c => { c with
      writeRevision := server.writeRevision
      resetEpoch := server.resetEpoch } }

/-- The rest of `recover` after a state was read. -/
def recovered (now : Reading) (token : Uuid) (active : RecordingSession F) (server : ListeningStateOut F) : Recorder F :=
  let s : Recorder F := { s with heartbeatOutcomeAmbiguous := s.heartbeatOutcomeAmbiguous.filter fun t => t ≠ token }
  let s := s.installRecovered now active server
  let s : Recorder F := { s with
    session := s.session.map fun c => { c with generation := s.randomUuid, sequence := 0 }
    randomUuid := s.randomUuid + 1
    recoveryKind := .none
    recoveryJob := .none }
  s.restartActivityRetries.sendHeartbeatIfReady.completeNaturalEndCaptureIfReady.completeDrainIfReady

def recoverAnswered (now : Reading) (job : Nat) (point : RecoverPoint) (answer : Answer (ListeningStateOut F)) :
    Except RecorderFailure (Recorder F) :=
  match answer with
  | .failure => .ok (s.recoverContinue job point)
  | .response status body =>
    if status = 200 then
      match body with
      | .none => .error .malformed
      | .some server =>
        match s.sessionOf point.token with
        | .none => .ok { s with recoveries := s.recoveries.finish job }
        | .some active =>
          let s := s.recovered now point.token active server
          .ok { s with recoveries := s.recoveries.finish job }
    else if status = 401 then
      let s : Recorder F := { s with heartbeatOutcomeAmbiguous := s.heartbeatOutcomeAmbiguous.filter fun t => t ≠ point.token }
      let s := s.suspendPersistence .authExpired
      .ok { s with recoveries := s.recoveries.finish job }
    else if status = 408 ∨ status = 409 ∨ status = 429 ∨ 500 ≤ status then .ok (s.recoverContinue job point)
    else .error (.unexpectedResponse status)

def retryPersistence : Recorder F :=
  match s.session with
  | .none => s
  | .some current =>
    if s.recoveryKind.isNone || s.recoveries.isActive s.recoveryJob then s
    else { s with
      recoveries := s.recoveries.launch ⟨current.token, current.mediaId, true, 0, false⟩
      recoveryJob := .some s.recoveries.next }

/-- `onCapabilitiesChanged`, of a validated network. -/
def networkValidated : Recorder F := if s.recoveryKind = .some .network then s.retryPersistence else s

/-! ## The calls -/

def startCadence : Recorder F :=
  if s.cadences.isActive s.cadenceJob then s
  else { s with cadences := s.cadences.launch ⟨0, 0⟩, cadenceJob := .some s.cadences.next }

def stopCadence : Recorder F := { s with cadences := s.cadences.cancel s.cadenceJob, cadenceJob := .none }

def setPlaying (playing : Bool) : Recorder F :=
  { s with session := s.session.map fun c => { c with playing := playing } }

/-- `stopCurrent`, with `flush`. -/
def stopCurrent (now : Reading) : Recorder F :=
  match s.session with
  | .none => s
  | .some current =>
    let s := ((s.closeActivity now false).setPlaying false).stopCadence
    if current.drained then s else (s.markHeartbeatDirty now).sendHeartbeatIfReady

def install (now : Reading) (mediaId : Uuid) (episodeRate : Option F) (writeRevision resetEpoch : Nat) : Recorder F :=
  let s := s.stopCurrent now
  { s with
    heartbeatOutcomeAmbiguous := []
    recoveries := s.recoveries.cancel s.recoveryJob
    recoveryJob := .none
    recoveryKind := .none
    acceptedEpoch := resetEpoch
    session := .some ⟨s.randomUuid, mediaId, episodeRate, writeRevision, resetEpoch, false, 0, .none, s.randomUuid + 1, 0, false⟩
    randomUuid := s.randomUuid + 2 }

def updateEpisodeRate (episodeRate : Option F) : Recorder F :=
  { s with session := s.session.map fun c => { c with episodeRate := episodeRate } }

def onPlayingChanged (now : Reading) (playing : Bool) : Recorder F :=
  match s.session with
  | .none => s
  | .some current =>
    if current.drained then s.setPlaying false
    else if current.playing = playing then s
    else if playing then ((s.setPlaying true).openActivity now { current with playing := true }).startCadence
    else ((((s.setPlaying false).closeActivity now false).markHeartbeatDirty now).sendHeartbeatIfReady).stopCadence

def beforeManualDiscontinuity (now : Reading) : Recorder F :=
  match s.session with
  | .none => s
  | .some current =>
    if current.drained then s else ((s.closeActivity now false).markHeartbeatDirty now).sendHeartbeatIfReady

def afterManualDiscontinuity (now : Reading) : Recorder F :=
  match s.session with
  | .none => s
  | .some current => if current.playing then s.openActivity now current else s

def flush (now : Reading) : Recorder F :=
  match s.session with
  | .none => s
  | .some current =>
    if current.drained then s
    else ((s.closeActivity now current.playing).markHeartbeatDirty now).sendHeartbeatIfReady

/-- `captureNaturalEnd`; the callback is told by its number. -/
def captureNaturalEnd (now : Reading) : Except RecorderFailure (Recorder F) :=
  match s.session with
  | .none => .ok s
  | .some current =>
    if s.naturalEndCapture.isSome then .error .illegalState
    else
      let s := s.closeActivity now false
      let s : Recorder F := { s with session := s.session.map fun c => { c with playing := false, drained := true } }
      let s := s.stopCadence
      let s : Recorder F := { s with
        session := s.session.map fun c => { c with dirty := .none }
        naturalEndSample := .some now.playback.bounded
        naturalEndCapture := .some (current.token, s.randomUuid)
        randomUuid := s.randomUuid + 1 }
      let s :=
        if s.heartbeatOutcomeAmbiguous.contains current.token && s.recoveryKind.isSome &&
            !s.recoveries.isActive s.recoveryJob then s.retryPersistence
        else s
      .ok s.completeNaturalEndCaptureIfReady

def drain (now : Reading) : Except RecorderFailure (Recorder F) :=
  match s.session with
  | .none => .ok s
  | .some _ =>
    if s.drainCallback then .error .illegalState
    else
      let s := s.closeActivity now false
      let s : Recorder F := { s with session := s.session.map fun c => { c with playing := false, drained := true } }
      let s := s.stopCadence
      let s : Recorder F := { s.markHeartbeatDirty now with drainCallback := true }
      let s := s.sendHeartbeatIfReady
      let s : Recorder F := { s with
        drainDeadlines := s.drainDeadlines.launch ()
        drainDeadlineJob := .some s.drainDeadlines.next }
      .ok s.completeDrainIfReady

def adoptListeningState (now : Reading) (state : ListeningStateOut F) : Recorder F :=
  match s.session with
  | .none => s
  | .some _ =>
    let s := s.closeActivity now false
    let s : Recorder F := { s with
      session := s.session.map fun c => { c with
        playing := false
        episodeRate := state.episodePlaybackRate
        writeRevision := state.writeRevision
        resetEpoch := state.resetEpoch
        dirty := .none
        generation := s.randomUuid
        sequence := 0
        drained := false }
      acceptedEpoch := state.resetEpoch
      randomUuid := s.randomUuid + 1
      recoveries := s.recoveries.cancel s.recoveryJob
      recoveryJob := .none
      recoveryKind := .none }
    s.stopCadence

def discardPending : Recorder F :=
  { s with
    cadences := s.cadences.cancel s.cadenceJob
    cadenceJob := .none
    heartbeats := s.heartbeatJobs.foldl (fun h e => h.cancel (.some e.2)) s.heartbeats
    heartbeatJobs := []
    heartbeatOutcomeAmbiguous := []
    recoveries := s.recoveries.cancel s.recoveryJob
    recoveryJob := .none
    activities := s.activities.cancel s.activityJob
    activityJob := .none
    activityEpoch := .none
    activityQueue := []
    naturalEndCapture := .none
    naturalEndSample := .none
    drainCallback := false
    drainDeadlines := s.drainDeadlines.cancel s.drainDeadlineJob
    drainDeadlineJob := .none
    session := .none
    recoveryKind := .none
    admitted := []
    firstPosted := []
    answered := [] }

def dismiss (now : Reading) : Recorder F :=
  let s := s.stopCurrent now
  { s with
    session := .none
    recoveries := s.recoveries.cancel s.recoveryJob
    recoveryJob := .none
    recoveryKind := .none }

/-- One tick of the cadence coroutine. -/
def cadenceTick (now : Reading) (job : Nat) (point : CadencePoint) : Recorder F :=
  match s.session with
  | .none => { s with cadences := s.cadences.finish job }
  | .some current =>
    if current.playing then
      let activityElapsedMs := point.activityElapsedMs + nativeRecorderCadenceTickMs
      let heartbeatElapsedMs := point.heartbeatElapsedMs + nativeRecorderCadenceTickMs
      let checkpoint : Bool := nativeActivityCheckpointMs ≤ activityElapsedMs
      let sync : Bool := nativeListeningSyncIntervalMs ≤ heartbeatElapsedMs
      let s := if checkpoint then s.closeActivity now true else s
      let s := if sync then (s.markHeartbeatDirty now).sendHeartbeatIfReady else s
      let next : CadencePoint :=
        ⟨if checkpoint then 0 else activityElapsedMs, if sync then 0 else heartbeatElapsedMs⟩
      { s with cadences := s.cadences.moveTo job next }
    else { s with cadences := s.cadences.finish job }

def drainDeadline (job : Nat) : Recorder F :=
  let s := s.finishDrain
  { s with drainDeadlines := s.drainDeadlines.finish job }

end Recorder

/-! ## Turns -/

inductive RecorderEvent (F : Type)
  | install (mediaId : Uuid) (episodeRate : Option F) (writeRevision resetEpoch : Nat)
  | updateEpisodeRate (episodeRate : Option F)
  | onPlayingChanged (playing : Bool)
  | beforeManualDiscontinuity
  | afterManualDiscontinuity
  | flush
  | captureNaturalEnd
  | drain
  | adoptListeningState (state : ListeningStateOut F)
  | retryPersistence
  | networkValidated
  | discardPending
  | dismiss
  | cadenceTick (job : Nat)
  | drainDeadline (job : Nat)
  | heartbeatAnswered (job : Nat) (answer : Answer (DecodedHeartbeatResult F))
  | recoverDelayed (job : Nat)
  | recoverAnswered (job : Nat) (answer : Answer (ListeningStateOut F))
  | activityAnswered (job : Nat) (answer : Answer Unit)
  | activityRetried (job : Nat)
  | cadenceCancelled (job : Nat)
  | drainDeadlineCancelled (job : Nat)
  | heartbeatCancelled (job : Nat)
  | recoverCancelled (job : Nat)
  | activityCancelled (job : Nat)

namespace Recorder

variable {F : Type} (s : Recorder F)

/-- What a cancelled coroutine does when it resumes: only the two that catch
the cancellation touch the recorder. -/
def cancelledResumes : RecorderEvent F → Option (Recorder F)
  | .cadenceCancelled job => (s.cadences.stopped job).map fun _ => { s with cadences := s.cadences.finish job }
  | .drainDeadlineCancelled job =>
    (s.drainDeadlines.stopped job).map fun _ => { s with drainDeadlines := s.drainDeadlines.finish job }
  | .recoverCancelled job => (s.recoveries.stopped job).map fun _ => { s with recoveries := s.recoveries.finish job }
  | .heartbeatCancelled job => (s.heartbeats.stopped job).map fun request => { s with
      heartbeats := s.heartbeats.finish job
      heartbeatJobs := s.heartbeatJobs.filter fun e => e.1 ≠ request.token }
  | .activityCancelled job => (s.activities.stopped job).map fun point => match point with
    | .post _ => { s with activities := s.activities.finish job, activityJob := .none }
    | .retryDelay => { s with activities := s.activities.finish job }
  | _ => .none

/-- One turn of the main thread: `none` when no coroutine waits as the event says. -/
def turn (now : Reading) : RecorderEvent F → Option (Except RecorderFailure (Recorder F))
  | .install mediaId rate writeRevision resetEpoch => .some (.ok (s.install now mediaId rate writeRevision resetEpoch))
  | .updateEpisodeRate rate => .some (.ok (s.updateEpisodeRate rate))
  | .onPlayingChanged playing => .some (.ok (s.onPlayingChanged now playing))
  | .beforeManualDiscontinuity => .some (.ok (s.beforeManualDiscontinuity now))
  | .afterManualDiscontinuity => .some (.ok (s.afterManualDiscontinuity now))
  | .flush => .some (.ok (s.flush now))
  | .captureNaturalEnd => .some (s.captureNaturalEnd now)
  | .drain => .some (s.drain now)
  | .adoptListeningState state => .some (.ok (s.adoptListeningState now state))
  | .retryPersistence => .some (.ok s.retryPersistence)
  | .networkValidated => .some (.ok s.networkValidated)
  | .discardPending => .some (.ok s.discardPending)
  | .dismiss => .some (.ok (s.dismiss now))
  | .cadenceTick job => (s.cadences.runs job).map fun point => .ok (s.cadenceTick now job point)
  | .drainDeadline job => (s.drainDeadlines.runs job).map fun _ => .ok (s.drainDeadline job)
  | .heartbeatAnswered job answer =>
    (s.heartbeats.runs job).map fun request => s.heartbeatAnswered job request answer
  | .recoverDelayed job => match s.recoveries.runs job with
    | .some point => if point.reading then .none else .some (.ok (s.recoverDelayed job point))
    | .none => .none
  | .recoverAnswered job answer => match s.recoveries.runs job with
    | .some point => if point.reading then .some (s.recoverAnswered now job point answer) else .none
    | .none => .none
  | .activityAnswered job answer => match s.activities.runs job with
    | .some (.post frozen) => .some (s.activityAnswered job frozen answer)
    | _ => .none
  | .activityRetried job => match s.activities.runs job with
    | .some .retryDelay => .some (.ok (s.activityRetried job))
    | _ => .none
  | ev => (s.cancelledResumes ev).map .ok

end Recorder

end Nexus.Playback
