/-
The command facades of `consumption/service.py`: the Lectern commands and the
consumption commands, each one serializable transaction under the viewer's
lock and behind the replay ledger.

A command works on the Lectern and on the rows each viewer has of each media;
what it is told of other tables comes in a `ConsumptionEnv`. The sealing of
completion handles, which a deployment's key decides, is a pair of functions.
A memo keeps what the command did; the Lectern, the next item and the progress
it answers with are read anew. Collection revisions are left out, and of an
item what only its title, chapters and playback rate show.
-/
import Nexus.Consumption.LecternState
import Nexus.Consumption.LecternStore
import Nexus.Consumption.Requests
import Nexus.Mutations.ReplayLedger

namespace Nexus.Consumption
open Relational Mutations

/-! ## Stores -/

/-- The rows one viewer has of one media. -/
structure ViewerMedia (R F L : Type) where
  viewerId : Uuid
  mediaId : Uuid
  rows : MediaRows R F L
  deriving DecidableEq, Repr

abbrev ViewerMedia.viewerMedia {R F L : Type} (v : ViewerMedia R F L) : Uuid × Uuid := (v.viewerId, v.mediaId)

/-- What the commands read and write. -/
structure ConsumptionStore (R F L : Type) where
  lectern : Lectern
  media : Table (ViewerMedia R F L) ViewerMedia.viewerMedia

/-- What a command is told of other tables, and the completion ids it draws. -/
structure ConsumptionEnv extends MediaView where
  /-- `can_read_media` -/
  readable : Uuid → Bool
  /-- `podcast_episodes.duration_seconds` -/
  durationSeconds : Uuid → Option Nat
  externalPlaybackUrl : Uuid → Option String
  canonicalSourceUrl : Uuid → Option String
  newCompletionId : Uuid → Uuid
  /-- `seal_completion` -/
  sealCompletion : Uuid → Text
  /-- `unseal_completion` -/
  unsealCompletion : Text → Option Uuid

/-- What a command on the media reads. -/
def ConsumptionEnv.request (env : ConsumptionEnv) (mediaId : Uuid) : RequestEnv where
  now := env.now
  canRead := env.readable mediaId
  visible := env.visible mediaId
  durationSeconds := env.durationSeconds mediaId
  lecternItem := false
  newCompletionId := env.newCompletionId mediaId

namespace ConsumptionStore

variable {R F L : Type}

def rowsOf (s : ConsumptionStore R F L) (viewerId mediaId : Uuid) : MediaRows R F L :=
  ((s.media.find? (viewerId, mediaId)).map ViewerMedia.rows).getD .empty

def putRows (s : ConsumptionStore R F L) (viewerId mediaId : Uuid) (rows : MediaRows R F L) : ConsumptionStore R F L :=
  match s.media.insert? ⟨viewerId, mediaId, rows⟩ with
  | .some media => { s with media }
  | .none => { s with
      media := s.media.updateWhere (fun v => v.viewerId == viewerId && v.mediaId == mediaId) fun v => { v with rows } }

end ConsumptionStore

/-! ## The Lectern as it is shown -/

structure LecternRow where
  itemId : Uuid
  mediaId : Uuid
  position : Nat
  visible : Bool
  kind : MediaKind
  externalPlaybackUrl : Option String
  canonicalSourceUrl : Option String
  durationSeconds : Option Nat
  deriving DecidableEq, Repr

/-- `load_rows`, an inner join with `media` -/
def loadRows (env : ConsumptionEnv) (viewerId : Uuid) (s : Lectern) : List LecternRow :=
  (s.sortedRows viewerId).filterMap fun q => (env.kind q.mediaId).map fun kind =>
    ⟨q.id, q.mediaId, q.position, env.visible q.mediaId && !env.tearingDown q.mediaId, kind,
      env.externalPlaybackUrl q.mediaId, env.canonicalSourceUrl q.mediaId, env.durationSeconds q.mediaId⟩

inductive ActivationKind
  | footerAudio
  | readable
  | openPane
  deriving DecidableEq, Repr

inductive NextCapability
  | stop
  | footerAudio
  | readable
  deriving DecidableEq, Repr

def activationKind (row : LecternRow) : ActivationKind :=
  match row.kind with
  | .video => .openPane
  | .webArticle | .epub | .pdf => .readable
  | .podcastEpisode => match podcastStreamUrl row.externalPlaybackUrl row.canonicalSourceUrl with
    | .none => .openPane
    | .some _ => .footerAudio

def capabilityMatches : ActivationKind → NextCapability → Bool
  | .footerAudio, .footerAudio => true
  | .readable, .readable => true
  | _, _ => false

/-- `_select_next`: the next visible item, behind the removed one, that the client can open. -/
def selectNext (rows : List LecternRow) (removedPosition : Nat) (capability : NextCapability) : Option Uuid :=
  if capability = .stop then .none
  else ((rows.insertionSort fun a b => a.position ≤ b.position).find? fun row =>
    row.visible && decide (removedPosition < row.position) && capabilityMatches (activationKind row) capability).map
      LecternRow.itemId

structure LecternItemOut (F : Type) where
  itemId : Uuid
  mediaId : Uuid
  activation : LecternActivation
  consumption : ConsumptionOut F
  deriving DecidableEq, Repr

/-! ## Requests -/

/-- `NaturalEndOrigin`, with the item it names. -/
inductive NaturalEndFrom
  | direct
  | lectern (itemId : Uuid)
  deriving DecidableEq, Repr

/-- The visible row a natural end removes. -/
def naturalEndTarget (rows : List LecternRow) (mediaId : Uuid) : NaturalEndFrom → Option LecternRow
  | .direct => .none
  | .lectern itemId => rows.find? fun row => row.itemId == itemId && row.mediaId == mediaId && row.visible

inductive ConsumptionCommand (F : Type)
  | ensureMediaFinished (mediaId : Uuid)
  | settleNaturalEnd (mediaId : Uuid) (origin : NaturalEndFrom) (terminalListening : ListeningWrite F)
      (expectedConsumptionOverrideRevision : Option Nat)
  | finishLecternItem (mediaId itemId : Uuid) (nextCapability : NextCapability)
  | setUnread (mediaId : Uuid)
  | resetProgress (mediaId : Uuid)
  | undoCompletion (completionHandle : Text)
  | setBatchState (mediaIds : List Uuid) (state : OverrideState)
  deriving DecidableEq, Repr

/-- `command.next_capability`, of the commands that have one. -/
def ConsumptionCommand.nextCapability {F : Type} : ConsumptionCommand F → Option NextCapability
  | .finishLecternItem _ _ capability => .some capability
  | .settleNaturalEnd .. => .some .footerAudio
  | _ => .none

inductive EffectKind
  | stateOnly
  | removed
  | completed
  | completedWithoutAdvance
  | superseded
  | targetGone
  deriving DecidableEq, Repr

/-- What `_ConsumptionEffect` memoizes. -/
structure ConsumptionEffect where
  kind : EffectKind
  removedItemId : Option Uuid := .none
  nextItemId : Option Uuid := .none
  progressMediaId : Option Uuid := .none
  completionHandle : Option Text := .none
  deriving DecidableEq, Repr

inductive ConsumptionOutcome
  | stateOnly
  | removed (itemId : Uuid) (nextItemId : Option Uuid)
  | completed
  | completedWithoutAdvance
  | superseded
  | targetGone
  deriving DecidableEq, Repr

structure ListeningStateOut (F : Type) where
  positionMs : Nat
  durationMs : Option Nat
  episodePlaybackRate : Option F
  writeRevision : Nat
  resetEpoch : Nat
  deriving DecidableEq, Repr

structure MediaProgressState (F L : Type) where
  mediaId : Uuid
  readerCursor : ReaderCursorSnapshot L
  listeningState : Option (ListeningStateOut F)
  deriving DecidableEq, Repr

structure ConsumptionResult (F L : Type) where
  outcome : ConsumptionOutcome
  lectern : List (LecternItemOut F)
  nextItem : Option (LecternItemOut F)
  progressState : Option (MediaProgressState F L)
  completionHandle : Option Text
  deriving DecidableEq, Repr

structure LecternResult (F : Type) where
  outcome : LecternOutcome
  lectern : List (LecternItemOut F)
  deriving DecidableEq, Repr

/-! ## The commands -/

section Commands

variable {R F L : Type}

def toListeningStateOut : Option (ListeningRow F) → ListeningStateOut F
  | .none => ⟨0, .none, .none, 0, 0⟩
  | .some row => ⟨row.positionMs, row.durationMs, row.playbackSpeed, row.writeRevision, row.resetEpoch⟩

def requireReadable (env : ConsumptionEnv) (mediaId : Uuid) : Except Abort Unit :=
  if env.readable mediaId then .ok () else .error (.api ⟨.notFound, "Media not found"⟩)

/-- `_visible_reader_media_kind`; every media kind has a reader. -/
def visibleReaderMediaKind (env : ConsumptionEnv) (mediaId : Uuid) : Except Abort MediaKind :=
  match env.kind mediaId with
  | .some kind => if env.visible mediaId then .ok kind else .error (.api ⟨.mediaNotFound, "Media not found"⟩)
  | .none => .error (.api ⟨.mediaNotFound, "Media not found"⟩)

def mediaKind (env : ConsumptionEnv) (mediaId : Uuid) : Except Abort MediaKind :=
  match env.kind mediaId with
  | .some kind => .ok kind
  | .none => .error .defect

def writeUnread (viewerId mediaId : Uuid) (s : ConsumptionStore R F L) : ConsumptionStore R F L :=
  s.putRows viewerId mediaId (writeUnreadState (s.rowsOf viewerId mediaId))

/-- `delete_completion_fact_in_txn`: the media whose fact it was. -/
def deleteCompletionFact (viewerId completionId : Uuid) (s : ConsumptionStore R F L) :
    Option (Uuid × ConsumptionStore R F L) :=
  match s.media.rows.find? fun v => v.viewerId == viewerId && v.rows.completion.any fun fact => fact.id == completionId with
  | .none => .none
  | .some v => .some (v.mediaId, s.putRows viewerId v.mediaId { v.rows with completion := .none })

variable [Fraction F] [SqlReal R F] (env : ConsumptionEnv) (viewerId : Uuid)

/-- `_write_finished_state`, with the id of the fact it inserted. -/
def writeFinished (mediaId : Uuid) (kind : MediaKind) (wasFinished : Option Bool) (s : ConsumptionStore R F L) :
    ConsumptionStore R F L × Option Uuid :=
  let rows := s.rowsOf viewerId mediaId
  let finished := writeFinishedState kind (env.request mediaId) rows wasFinished
  (s.putRows viewerId mediaId finished,
    if rows.completion.isSome then .none else finished.completion.map CompletionFact.id)

def applySettleNaturalEnd (mediaId : Uuid) (origin : NaturalEndFrom) (terminal : ListeningWrite F)
    (expectedOverrideRevision : Option Nat) (s : ConsumptionStore R F L) :
    Except Abort (ConsumptionStore R F L × ConsumptionEffect) :=
  let media := s.rowsOf viewerId mediaId
  if !env.readable mediaId then .ok (s, { kind := .targetGone })
  else if env.kind mediaId ≠ .some .podcastEpisode then
    .error (.api ⟨.invalidKind, "Natural-end settlement is podcast-episode only"⟩)
  else if !overrideRevisionMatches media.override expectedOverrideRevision then .ok (s, { kind := .superseded })
  else
    let wasFinished := effectiveStateIsFinished .podcastEpisode (env.durationSeconds mediaId) media.toConsumptionRows
    match recordHeartbeatInTxn media.listening env.now terminal with
    | .none => .ok (s, { kind := .superseded })
    | .some listening =>
      let s := s.putRows viewerId mediaId { media with listening := .some listening }
      let rows := loadRows env viewerId s.lectern
      let target := naturalEndTarget rows mediaId origin
      let s := (writeFinished env viewerId mediaId .podcastEpisode (.some wasFinished) s).1
      match target with
      | .none => .ok (s, { kind := .completedWithoutAdvance })
      | .some target => do
        let (lectern, _) ← s.lectern.removeItemInTxn viewerId target.itemId
        .ok ({ s with lectern }, { kind := .completed, nextItemId := selectNext rows target.position .footerAudio })

def applyFinishLecternItem (mediaId itemId : Uuid) (capability : NextCapability) (s : ConsumptionStore R F L) :
    Except Abort (ConsumptionStore R F L × ConsumptionEffect) := do
  let rows := loadRows env viewerId s.lectern
  match rows.find? fun row => row.itemId == itemId with
  | .none => .error (.api ⟨.notFound, "Lectern item not found"⟩)
  | .some target =>
    if target.mediaId ≠ mediaId then .error (.api ⟨.notFound, "Lectern item not found"⟩)
    else
      let kind ← mediaKind env mediaId
      let (s, completionId) := writeFinished env viewerId mediaId kind .none s
      let (lectern, _) ← s.lectern.removeItemInTxn viewerId itemId
      .ok ({ s with lectern },
        { kind := .removed
          removedItemId := .some itemId
          nextItemId := selectNext rows target.position capability
          completionHandle := completionId.map env.sealCompletion })

def applySetBatchState (mediaIds : List Uuid) (state : OverrideState) (s : ConsumptionStore R F L) :
    Except Abort (ConsumptionStore R F L × ConsumptionEffect) :=
  let mediaIds := dedupe [] mediaIds
  if !mediaIds.all env.readable then .error (.api ⟨.notFound, "Media not found"⟩)
  else if mediaIds.any fun m => env.kind m != .some .podcastEpisode then
    .error (.api ⟨.invalidKind, "Batch state changes are podcast-episode only"⟩)
  else .ok (mediaIds.foldl (fun s m => match state with
    | .finished => (writeFinished env viewerId m .podcastEpisode .none s).1
    | .unread => writeUnread viewerId m s) s, { kind := .stateOnly })

variable [ReaderLocator L F]

def applyConsumptionCommand (s : ConsumptionStore R F L) :
    ConsumptionCommand F → Except Abort (ConsumptionStore R F L × ConsumptionEffect)
  | .ensureMediaFinished mediaId => do
    requireReadable env mediaId
    let kind ← mediaKind env mediaId
    let (s, completionId) := writeFinished env viewerId mediaId kind .none s
    .ok (s, { kind := .stateOnly, completionHandle := completionId.map env.sealCompletion })
  | .settleNaturalEnd mediaId origin terminal expectedOverrideRevision =>
    applySettleNaturalEnd env viewerId mediaId origin terminal expectedOverrideRevision s
  | .finishLecternItem mediaId itemId capability => applyFinishLecternItem env viewerId mediaId itemId capability s
  | .setUnread mediaId => do
    requireReadable env mediaId
    .ok (writeUnread viewerId mediaId s, { kind := .stateOnly })
  | .resetProgress mediaId => do
    let kind ← visibleReaderMediaKind env mediaId
    let (rows, _) ← resetProgressOp kind (env.request mediaId) (s.rowsOf viewerId mediaId)
    .ok (s.putRows viewerId mediaId rows, { kind := .stateOnly, progressMediaId := .some mediaId })
  | .undoCompletion completionHandle => match env.unsealCompletion completionHandle with
    | .none => .error (.api ⟨.invalidRequest, "Invalid completion handle"⟩)
    | .some completionId => match deleteCompletionFact viewerId completionId s with
      | .none => .error (.api ⟨.invalidRequest, "Completion is no longer undoable"⟩)
      | .some (mediaId, s) => .ok (writeUnread viewerId mediaId s, { kind := .stateOnly })
  | .setBatchState mediaIds state => applySetBatchState env viewerId mediaIds state s

/-! ## Answers -/

def buildItem (s : ConsumptionStore R F L) (row : LecternRow) : LecternItemOut F :=
  let item : LecternItemFacts R F := ⟨row.kind, row.externalPlaybackUrl, row.canonicalSourceUrl, row.durationSeconds,
    (s.rowsOf viewerId row.mediaId).toConsumptionRows⟩
  ⟨row.itemId, row.mediaId, deriveActivation item, lecternConsumption item⟩

def getLectern (s : ConsumptionStore R F L) : List (LecternItemOut F) :=
  ((loadRows env viewerId s.lectern).filter LecternRow.visible).map (buildItem viewerId s)

def consumptionOutcome (memo : ConsumptionEffect) (resolvedNextId : Option Uuid) : Except Abort ConsumptionOutcome :=
  match memo.kind with
  | .stateOnly => .ok .stateOnly
  | .completed => .ok .completed
  | .completedWithoutAdvance => .ok .completedWithoutAdvance
  | .superseded => .ok .superseded
  | .targetGone => .ok .targetGone
  | .removed => match memo.removedItemId with
    | .some itemId => .ok (.removed itemId resolvedNextId)
    | .none => .error .defect

/-- The progress `_build_consumption_result` shows of a media. -/
def progressStateOf (mediaId : Uuid) (s : ConsumptionStore R F L) : Except Abort (MediaProgressState F L) := do
  let kind ← visibleReaderMediaKind env mediaId
  let media := s.rowsOf viewerId mediaId
  let readerCursor ← loadSnapshot kind media.cursor
  .ok ⟨mediaId, readerCursor, if kind = .podcastEpisode then .some (toListeningStateOut media.listening) else .none⟩

/-- The row the memoized next item has now, if the client can still open it. -/
def resolveNext (command : ConsumptionCommand F) (memo : ConsumptionEffect) (rows : List LecternRow) : Option LecternRow :=
  match memo.nextItemId, command.nextCapability with
  | .some nextItemId, .some capability =>
    (rows.find? fun row => row.visible && row.itemId == nextItemId).filter fun row =>
      capabilityMatches (activationKind row) capability
  | _, _ => .none

def buildConsumptionResult (command : ConsumptionCommand F) (s : ConsumptionStore R F L) (memo : ConsumptionEffect) :
    Except Abort (ConsumptionResult F L) := do
  let next := resolveNext command memo (loadRows env viewerId s.lectern)
  let outcome ← consumptionOutcome memo (next.map LecternRow.itemId)
  let progressState ← match memo.progressMediaId with
    | .none => .ok .none
    | .some mediaId => (progressStateOf env viewerId mediaId s).map Option.some
  .ok ⟨outcome, getLectern env viewerId s, next.map (buildItem viewerId s), progressState, memo.completionHandle⟩

end Commands

/-! ## Calls -/

/-- A command as its request brings it, with the canonical bytes of its dump. -/
structure CommandCall (K : Type) where
  viewerId : Uuid
  clientMutationId : Text
  requestBytes : Bytes
  env : ConsumptionEnv
  command : K

def lecternScope : Text := "Lectern.Commands".toList

def consumptionScope : Text := "Consumption.Commands".toList

section Calls

variable {R F L : Type} [Fraction F] [SqlReal R F] [ReaderLocator L F] (sha : Sha256)

/-- `_run_lectern_command_op` -/
def runLecternCommand (call : CommandCall LecternCommand) (s : ConsumptionStore R F L × Ledger LecternOutcome) :
    Except Abort ((ConsumptionStore R F L × Ledger LecternOutcome) × LecternResult F) :=
  memoized sha ⟨call.viewerId, lecternScope, call.clientMutationId⟩ call.requestBytes
    (fun store outcome => .ok ⟨outcome, getLectern call.env call.viewerId store⟩)
    (fun store => do
      let (lectern, outcome) ← store.lectern.applyLecternCommand call.env.toMediaView call.viewerId call.command
      let store := { store with lectern }
      .ok (store, outcome, ⟨outcome, getLectern call.env call.viewerId store⟩))
    s

/-- `_run_consumption_command_op` -/
def runConsumptionCommand (call : CommandCall (ConsumptionCommand F))
    (s : ConsumptionStore R F L × Ledger ConsumptionEffect) :
    Except Abort ((ConsumptionStore R F L × Ledger ConsumptionEffect) × ConsumptionResult F L) :=
  memoized sha ⟨call.viewerId, consumptionScope, call.clientMutationId⟩ call.requestBytes
    (fun store memo => buildConsumptionResult call.env call.viewerId call.command store memo)
    (fun store => do
      let (store, effect) ← applyConsumptionCommand call.env call.viewerId store call.command
      let result ← buildConsumptionResult call.env call.viewerId call.command store effect
      .ok (store, effect, result))
    s

end Calls

end Nexus.Consumption
