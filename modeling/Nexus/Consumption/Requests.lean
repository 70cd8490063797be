/-
The requests of `consumption/service.py` that read or write what one viewer
has of one media, over the stores that own the rows: `_listening_store.py`,
`_state_store.py`, `_reader_cursor_store.py`, `_reader_engagement_store.py`
and the completion facts of `_activity_store.py`.

A request is one serializable transaction under the viewer's lock, so it is
one step; `.error` is a rollback. What it reads elsewhere (visibility, the
episode's duration, whether the Lectern lists the item it names) and the id it
draws come in a `RequestEnv`. The replay memo in front of the commands answers
a repeated request without touching these rows and is left out, as are the
collection revisions and the Lectern rows themselves. A batch command is this
request for each of its media. Revisions have no upper bound here: past the
column's, a statement only fails.
-/
import Nexus.Consumption.Projection
import Nexus.Lib.Run
import Nexus.Lib.Sql

namespace Nexus.Consumption
open Transition

/-! ## Rows -/

inductive LocatorKind
  | pdf
  | epub
  | web
  | transcript
  deriving DecidableEq, Repr

def LocatorKind.value : LocatorKind → String
  | .pdf => "pdf"
  | .epub => "epub"
  | .web => "web"
  | .transcript => "transcript"

/-- What is read of a `ReaderResumeState`. -/
class ReaderLocator (L : Type) (F : outParam Type) where
  kind : L → LocatorKind
  /-- `locations.total_progression`, which a `pdf` locator does not have -/
  totalProgression : L → Option F

/-- A row of `reader_media_state`; no locator is a tombstone. -/
structure CursorRow (L : Type) where
  locator : Option L
  revision : Nat
  deriving DecidableEq, Repr

inductive ReaderCursorSnapshot (L : Type)
  | empty (revision : Nat)
  | positioned (revision : Nat) (locator : L)
  deriving DecidableEq, Repr

structure CursorWrite (L : Type) where
  locator : L
  baseRevision : Nat
  deriving DecidableEq, Repr

inductive ActivityModality
  | reading
  | listening
  | viewing
  deriving DecidableEq, Repr

/-- A row of `consumption_completion_facts`. -/
structure CompletionFact where
  id : Uuid
  modality : ActivityModality
  deriving DecidableEq, Repr

/-- All rows of one viewer and one media. -/
structure MediaRows (R F L : Type) extends ConsumptionRows R F where
  cursor : Option (CursorRow L)
  completion : Option CompletionFact
  deriving DecidableEq, Repr

def MediaRows.empty {R F L : Type} : MediaRows R F L := ⟨⟨.none, .none, .none⟩, .none, .none⟩

/-! ## Requests -/

/-- What `ListeningHeartbeatIn` and `TerminalListeningIn` share; the heartbeat's
generation and sequence are only echoed. -/
structure ListeningWrite (F : Type) where
  positionMs : Nat
  durationMs : Option Nat
  episodePlaybackRate : Option F
  expectedWriteRevision : Nat
  expectedResetEpoch : Nat
  deriving DecidableEq, Repr

inductive NaturalEndOrigin
  | direct
  | lectern
  deriving DecidableEq, Repr

inductive Request (F L : Type)
  | recordHeartbeat (heartbeat : ListeningWrite F)
  | installPreviewPosition (positionMs : Nat) (durationMs : Option Nat)
  | ensureMediaFinished
  | settleNaturalEnd (origin : NaturalEndOrigin) (terminal : ListeningWrite F)
      (expectedConsumptionOverrideRevision : Option Nat)
  | finishLecternItem
  | setUnread
  | resetProgress
  | undoCompletion (completionId : Uuid)
  | setBatchState (state : OverrideState)
  | putReaderCursor (write : CursorWrite L)
  deriving DecidableEq, Repr

/-- What a request answers: the kind of a command's effect, or the row it returns. -/
inductive Outcome (F L : Type)
  | stateOnly
  | removed
  | completed
  | completedWithoutAdvance
  | superseded
  | targetGone
  | listening (row : ListeningRow F)
  | preview (installed : Bool)
  | cursor (snapshot : ReaderCursorSnapshot L)
  deriving DecidableEq, Repr

/-- What a request reads outside the viewer's rows of the media. -/
structure RequestEnv where
  now : Instant
  /-- `can_read_media` -/
  canRead : Bool
  /-- the media is in `visible_media_ids_cte_sql` -/
  visible : Bool
  /-- `podcast_episodes.duration_seconds` -/
  durationSeconds : Option Nat
  /-- the Lectern has the item the command names, for this media (and visibly,
  where the command asks for that) -/
  lecternItem : Bool
  /-- the completion id `new_uuid7()` would draw -/
  newCompletionId : Uuid
  deriving DecidableEq, Repr

section Stores

variable {R F L : Type}

/-! ## `_listening_store` -/

/-- `record_heartbeat_in_txn`; an absent row reads as revision 0, epoch 0. -/
def recordHeartbeatInTxn (current : Option (ListeningRow F)) (now : Instant) (w : ListeningWrite F) :
    Option (ListeningRow F) :=
  match current with
  | .none =>
    if w.expectedWriteRevision ≠ 0 ∨ w.expectedResetEpoch ≠ 0 then .none
    else .some ⟨w.positionMs, w.durationMs, w.episodePlaybackRate, 1, 0, false, .some now⟩
  | .some row =>
    if w.expectedWriteRevision ≠ row.writeRevision ∨ w.expectedResetEpoch ≠ row.resetEpoch then .none
    else .some { row with
      positionMs := w.positionMs
      durationMs := w.durationMs
      playbackSpeed := w.episodePlaybackRate <|> row.playbackSpeed
      writeRevision := row.writeRevision + 1
      lastEngagedAt := .some now }

/-- `install_preview_position_if_empty_in_txn`: the row, when one was written. -/
def installPreviewPositionInTxn (current : Option (ListeningRow F)) (now : Instant) (positionMs : Nat)
    (durationMs : Option Nat) : Option (ListeningRow F) :=
  if positionMs = 0 then .none
  else match current with
    | .none => .some ⟨positionMs, durationMs, .none, 1, 0, false, .some now⟩
    | .some row =>
      if 0 < row.positionMs ∨ row.isCompleted = true then .none
      else .some { row with
        positionMs := positionMs
        durationMs := durationMs <|> row.durationMs
        writeRevision := row.writeRevision + 1
        lastEngagedAt := .some now }

def markCompletedInTxn (current : Option (ListeningRow F)) : ListeningRow F :=
  match current with
  | .none => ⟨0, .none, .none, 0, 0, true, .none⟩
  | .some row => { row with isCompleted := true }

/-- `reset_progress_in_txn`: both fences advance. -/
def resetProgressInTxn (current : Option (ListeningRow F)) : ListeningRow F :=
  match current with
  | .none => ⟨0, .none, .none, 1, 1, false, .none⟩
  | .some row => { row with
      positionMs := 0
      isCompleted := false
      writeRevision := row.writeRevision + 1
      resetEpoch := row.resetEpoch + 1
      lastEngagedAt := .none }

/-! ## `_state_store` -/

def setOverrideInTxn (current : Option OverrideRow) (state : OverrideState) : OverrideRow :=
  match current with
  | .none => ⟨state, 1⟩
  | .some row => ⟨state, row.revision + 1⟩

def overrideRevisionMatches (current : Option OverrideRow) (expectedRevision : Option Nat) : Bool :=
  current.map OverrideRow.revision == expectedRevision

/-! ## `_reader_cursor_store` -/

def ReaderCursorSnapshot.revision : ReaderCursorSnapshot L → Nat
  | .empty revision => revision
  | .positioned revision _ => revision

/-- `_cursor_conflict`, whose details carry the current snapshot. -/
def cursorConflict : Abort := .api ⟨.readerStateConflict, "Reader cursor was updated elsewhere"⟩

section Locators

variable [ReaderLocator L F]

def expectedLocatorKind : MediaKind → LocatorKind
  | .pdf => .pdf
  | .epub => .epub
  | .webArticle => .web
  | .video | .podcastEpisode => .transcript

/-- Every media kind has its locator kind, so only a mismatch is refused. -/
def validateLocatorForMedia (kind : MediaKind) (locator : L) : Except Abort Unit :=
  if ReaderLocator.kind locator = expectedLocatorKind kind then .ok ()
  else .error (.api ⟨.invalidRequest, "Reader state kind '" ++ (ReaderLocator.kind locator).value ++
    "' does not match media kind '" ++ kind.value ++ "'"⟩)

def snapshotFromRow (kind : MediaKind) (row : CursorRow L) : Except Abort (ReaderCursorSnapshot L) :=
  if row.revision < 1 then .error (.api ⟨.internal, "Stored reader state revision is invalid"⟩)
  else match row.locator with
    | .none => .ok (.empty row.revision)
    | .some locator => match validateLocatorForMedia kind locator with
      | .error _ => .error (.api ⟨.internal, "Stored reader state is invalid"⟩)
      | .ok () => .ok (.positioned row.revision locator)

/-- `load_snapshot`; no row is Empty at revision 0. -/
def loadSnapshot (kind : MediaKind) (current : Option (CursorRow L)) : Except Abort (ReaderCursorSnapshot L) :=
  match current with
  | .none => .ok (.empty 0)
  | .some row => snapshotFromRow kind row

/-- `put_in_txn` -/
def putCursorInTxn [DecidableEq L] (kind : MediaKind) (current : Option (CursorRow L)) (write : CursorWrite L) :
    Except Abort (CursorRow L × ReaderCursorSnapshot L) :=
  match validateLocatorForMedia kind write.locator with
  | .error e => .error e
  | .ok () => match current with
    | .none =>
      if write.baseRevision ≠ 0 then .error cursorConflict
      else .ok (⟨.some write.locator, 1⟩, .positioned 1 write.locator)
    | .some row => match snapshotFromRow kind row with
      | .error e => .error e
      | .ok current =>
        if current = .positioned current.revision write.locator then .ok (row, current)
        else if write.baseRevision ≠ current.revision then .error cursorConflict
        else .ok (⟨.some write.locator, row.revision + 1⟩, .positioned (current.revision + 1) write.locator)

/-- `reset_in_txn`: a tombstone, one revision up. -/
def resetCursorInTxn (kind : MediaKind) (current : Option (CursorRow L)) : Except Abort (CursorRow L) :=
  match current with
  | .none => .ok ⟨.none, 1⟩
  | .some row => match snapshotFromRow kind row with
    | .error e => .error e
    | .ok _ => .ok ⟨.none, row.revision + 1⟩

/-! ## `_reader_engagement_store` -/

/-- The whole-document progression a save carries. -/
def locatorProgression (locator : L) : Option F :=
  if ReaderLocator.kind locator = .pdf then .none else ReaderLocator.totalProgression locator

end Locators

def recordEngagementInTxn [SqlReal R F] [ReaderLocator L F] (current : Option (ReaderEngagementRow R)) (now : Instant) (locator : L) :
    ReaderEngagementRow R :=
  let progression := (locatorProgression locator).map SqlReal.store
  match current with
  | .none => ⟨now, progression⟩
  | .some row => ⟨now, Sql.greatest row.maxTotalProgression progression⟩

/-! ## Completion facts -/

def completionModalityForKind : MediaKind → ActivityModality
  | .webArticle | .epub | .pdf => .reading
  | .podcastEpisode => .listening
  | .video => .viewing

/-- `insert_completion_fact_in_txn`: the first fact stays. -/
def insertCompletionFactInTxn (current : Option CompletionFact) (id : Uuid) (modality : ActivityModality) :
    CompletionFact :=
  current.getD ⟨id, modality⟩

/-! ## The service -/

def writeUnreadState (s : MediaRows R F L) : MediaRows R F L :=
  { s with override := .some (setOverrideInTxn s.override .unread) }

def installPreviewPositionOp (kind : MediaKind) (env : RequestEnv) (s : MediaRows R F L) (positionMs : Nat)
    (durationMs : Option Nat) : Except Abort (MediaRows R F L × Outcome F L) :=
  if !env.canRead then .error (.api ⟨.mediaNotFound, "Media not found"⟩)
  else if kind ≠ .podcastEpisode then
    .error (.api ⟨.invalidRequest, "Preview position is supported only for Podcast episodes"⟩)
  else
    let positionMs := match durationMs with
      | .some durationMs => min positionMs durationMs
      | .none => positionMs
    match installPreviewPositionInTxn s.listening env.now positionMs durationMs with
    | .none => .ok (s, .preview false)
    | .some row => .ok ({ s with listening := .some row }, .preview true)

/-- `_apply_reset_progress` -/
def resetProgressOp [ReaderLocator L F] (kind : MediaKind) (env : RequestEnv) (s : MediaRows R F L) :
    Except Abort (MediaRows R F L × Outcome F L) :=
  if !env.visible then .error (.api ⟨.mediaNotFound, "Media not found"⟩)
  else match resetCursorInTxn kind s.cursor with
    | .error e => .error e
    | .ok cursor => .ok ({ s with
        cursor := .some cursor
        engagement := .none
        override := .none
        listening := if kind = .podcastEpisode then .some (resetProgressInTxn s.listening) else s.listening },
      .stateOnly)

variable [Fraction F] [SqlReal R F]

def recordCompletionIfTransitioned (kind : MediaKind) (env : RequestEnv) (s : MediaRows R F L) (wasFinished : Bool)
    (factKind : MediaKind) : MediaRows R F L :=
  if wasFinished || !effectiveStateIsFinished kind env.durationSeconds s.toConsumptionRows then s
  else { s with completion := .some (insertCompletionFactInTxn s.completion env.newCompletionId
    (completionModalityForKind factKind)) }

/-- `_write_finished_state`; the override just written makes the state finished. -/
def writeFinishedState (kind : MediaKind) (env : RequestEnv) (s : MediaRows R F L) (wasFinished : Option Bool) :
    MediaRows R F L :=
  let priorFinished := wasFinished.getD (effectiveStateIsFinished kind env.durationSeconds s.toConsumptionRows)
  let s := { s with
    override := .some (setOverrideInTxn s.override .finished)
    listening := if kind = .podcastEpisode then .some (markCompletedInTxn s.listening) else s.listening }
  if priorFinished then s
  else { s with completion := .some (insertCompletionFactInTxn s.completion env.newCompletionId
    (completionModalityForKind kind)) }

def recordHeartbeatOp (kind : MediaKind) (env : RequestEnv) (s : MediaRows R F L) (heartbeat : ListeningWrite F) :
    Except Abort (MediaRows R F L × Outcome F L) :=
  if !env.canRead then .error (.api ⟨.mediaNotFound, "Media not found"⟩)
  else match recordHeartbeatInTxn s.listening env.now heartbeat with
    | .none => .error (.api ⟨.staleListeningRevision, "Listening revision is stale"⟩)
    | .some row =>
      let wasFinished := effectiveStateIsFinished kind env.durationSeconds s.toConsumptionRows
      .ok (recordCompletionIfTransitioned kind env { s with listening := .some row } wasFinished .podcastEpisode,
        .listening row)

/-- `_apply_settle_natural_end` -/
def settleNaturalEndOp (kind : MediaKind) (env : RequestEnv) (s : MediaRows R F L) (origin : NaturalEndOrigin)
    (terminal : ListeningWrite F) (expectedOverrideRevision : Option Nat) :
    Except Abort (MediaRows R F L × Outcome F L) :=
  if !env.canRead then .ok (s, .targetGone)
  else if kind ≠ .podcastEpisode then
    .error (.api ⟨.invalidKind, "Natural-end settlement is podcast-episode only"⟩)
  else if !overrideRevisionMatches s.override expectedOverrideRevision then .ok (s, .superseded)
  else
    let wasFinished := effectiveStateIsFinished kind env.durationSeconds s.toConsumptionRows
    match recordHeartbeatInTxn s.listening env.now terminal with
    | .none => .ok (s, .superseded)
    | .some row =>
      let s := writeFinishedState kind env { s with listening := .some row } (.some wasFinished)
      if origin = .lectern ∧ env.lecternItem = true then .ok (s, .completed) else .ok (s, .completedWithoutAdvance)

variable [ReaderLocator L F]

def putReaderCursorOp [DecidableEq L] (kind : MediaKind) (env : RequestEnv) (s : MediaRows R F L)
    (write : CursorWrite L) : Except Abort (MediaRows R F L × Outcome F L) :=
  if !env.visible then .error (.api ⟨.mediaNotFound, "Media not found"⟩)
  else match putCursorInTxn kind s.cursor write with
    | .error e => .error e
    | .ok (cursor, snapshot) =>
      let wasFinished := effectiveStateIsFinished kind env.durationSeconds s.toConsumptionRows
      .ok (recordCompletionIfTransitioned kind env { s with
          cursor := .some cursor
          engagement := .some (recordEngagementInTxn s.engagement env.now write.locator) } wasFinished kind,
        .cursor snapshot)

def applyRequest [DecidableEq L] (kind : MediaKind) (env : RequestEnv) (s : MediaRows R F L) :
    Request F L → Except Abort (MediaRows R F L × Outcome F L)
  | .recordHeartbeat heartbeat => recordHeartbeatOp kind env s heartbeat
  | .installPreviewPosition positionMs durationMs => installPreviewPositionOp kind env s positionMs durationMs
  | .ensureMediaFinished =>
    if env.canRead then .ok (writeFinishedState kind env s .none, .stateOnly)
    else .error (.api ⟨.notFound, "Media not found"⟩)
  | .settleNaturalEnd origin terminal expectedOverrideRevision =>
    settleNaturalEndOp kind env s origin terminal expectedOverrideRevision
  | .finishLecternItem =>
    if env.lecternItem then .ok (writeFinishedState kind env s .none, .removed)
    else .error (.api ⟨.notFound, "Lectern item not found"⟩)
  | .setUnread =>
    if env.canRead then .ok (writeUnreadState s, .stateOnly) else .error (.api ⟨.notFound, "Media not found"⟩)
  | .resetProgress => resetProgressOp kind env s
  | .undoCompletion completionId =>
    if s.completion.map CompletionFact.id = .some completionId then
      .ok (writeUnreadState { s with completion := .none }, .stateOnly)
    else .error (.api ⟨.invalidRequest, "Completion is no longer undoable"⟩)
  | .setBatchState state =>
    if !env.canRead then .error (.api ⟨.notFound, "Media not found"⟩)
    else if kind ≠ .podcastEpisode then
      .error (.api ⟨.invalidKind, "Batch state changes are podcast-episode only"⟩)
    else match state with
      | .finished => .ok (writeFinishedState kind env s .none, .stateOnly)
      | .unread => .ok (writeUnreadState s, .stateOnly)
  | .putReaderCursor write => putReaderCursorOp kind env s write

/-! ## What an accepted request does -/

/-- What an accepted request finds and leaves, and its answer: one constructor
for each path that commits. -/
inductive Accepted [DecidableEq L] (kind : MediaKind) (env : RequestEnv) (s : MediaRows R F L) :
    Request F L → MediaRows R F L → Outcome F L → Prop
  | heartbeat {w row wasFinished} (hread : env.canRead = true)
      (hrow : recordHeartbeatInTxn s.listening env.now w = .some row) :
      Accepted kind env s (.recordHeartbeat w)
        (recordCompletionIfTransitioned kind env { s with listening := .some row } wasFinished .podcastEpisode)
        (.listening row)
  | previewKept {positionMs durationMs} :
      Accepted kind env s (.installPreviewPosition positionMs durationMs) s (.preview false)
  | preview {positionMs durationMs clampedMs row} (hread : env.canRead = true) (hkind : kind = .podcastEpisode)
      (hrow : installPreviewPositionInTxn s.listening env.now clampedMs durationMs = .some row) :
      Accepted kind env s (.installPreviewPosition positionMs durationMs) { s with listening := .some row }
        (.preview true)
  | ensureFinished (hread : env.canRead = true) :
      Accepted kind env s .ensureMediaFinished (writeFinishedState kind env s .none) .stateOnly
  | settleRefused {origin terminal expected o} (ho : o = .superseded ∨ o = .targetGone) :
      Accepted kind env s (.settleNaturalEnd origin terminal expected) s o
  | settled {origin terminal expected row wasFinished o} (hread : env.canRead = true) (hkind : kind = .podcastEpisode)
      (hmatch : s.override.map OverrideRow.revision = expected)
      (hrow : recordHeartbeatInTxn s.listening env.now terminal = .some row)
      (ho : o = .completed ∨ o = .completedWithoutAdvance) :
      Accepted kind env s (.settleNaturalEnd origin terminal expected)
        (writeFinishedState kind env { s with listening := .some row } (.some wasFinished)) o
  | itemFinished (hitem : env.lecternItem = true) :
      Accepted kind env s .finishLecternItem (writeFinishedState kind env s .none) .removed
  | unread (hread : env.canRead = true) : Accepted kind env s .setUnread (writeUnreadState s) .stateOnly
  | reset {cursor} (hvisible : env.visible = true) (hcursor : resetCursorInTxn kind s.cursor = .ok cursor) :
      Accepted kind env s .resetProgress
        { s with
          cursor := .some cursor
          engagement := .none
          override := .none
          listening := if kind = .podcastEpisode then .some (resetProgressInTxn s.listening) else s.listening }
        .stateOnly
  | undone {completionId} (hid : s.completion.map CompletionFact.id = .some completionId) :
      Accepted kind env s (.undoCompletion completionId) (writeUnreadState { s with completion := .none }) .stateOnly
  | batchFinished (hread : env.canRead = true) (hkind : kind = .podcastEpisode) :
      Accepted kind env s (.setBatchState .finished) (writeFinishedState kind env s .none) .stateOnly
  | batchUnread (hread : env.canRead = true) (hkind : kind = .podcastEpisode) :
      Accepted kind env s (.setBatchState .unread) (writeUnreadState s) .stateOnly
  | cursor {write cursor snapshot wasFinished} (hvisible : env.visible = true)
      (hput : putCursorInTxn kind s.cursor write = .ok (cursor, snapshot)) :
      Accepted kind env s (.putReaderCursor write)
        (recordCompletionIfTransitioned kind env { s with
          cursor := .some cursor
          engagement := .some (recordEngagementInTxn s.engagement env.now write.locator) } wasFinished kind)
        (.cursor snapshot)

section Accepted

theorem ok_of_guard {ε α : Type} {c : Prop} [Decidable c] {a r : α} {e : ε}
    (h : (if c then .ok a else .error e : Except ε α) = .ok r) : c ∧ a = r := by
  split at h
  · rename_i hc
    exact ⟨hc, Except.ok.inj h⟩
  · cases h

variable [DecidableEq L] {kind : MediaKind} {env : RequestEnv} {s : MediaRows R F L}

theorem settleNaturalEnd_ok {origin terminal expected res}
    (h : settleNaturalEndOp kind env s origin terminal expected = .ok res) :
    Accepted kind env s (.settleNaturalEnd origin terminal expected) res.1 res.2 := by
  unfold settleNaturalEndOp at h
  simp only at h
  split at h
  · obtain rfl := Except.ok.inj h
    exact .settleRefused (.inr rfl)
  · rename_i hread
    split at h
    · cases h
    · rename_i hkind
      split at h
      · obtain rfl := Except.ok.inj h
        exact .settleRefused (.inl rfl)
      · rename_i hmatch
        have hm : s.override.map OverrideRow.revision = expected := by simpa [overrideRevisionMatches] using hmatch
        cases hrow : recordHeartbeatInTxn s.listening env.now terminal with
        | none =>
          rw [hrow] at h
          obtain rfl := Except.ok.inj h
          exact .settleRefused (.inl rfl)
        | some row =>
          rw [hrow] at h
          simp only at h
          split at h <;> obtain rfl := Except.ok.inj h
          · exact .settled (by simpa using hread) (by simpa using hkind) hm hrow (.inl rfl)
          · exact .settled (by simpa using hread) (by simpa using hkind) hm hrow (.inr rfl)

theorem installPreviewPosition_ok {positionMs durationMs res}
    (h : installPreviewPositionOp kind env s positionMs durationMs = .ok res) :
    Accepted kind env s (.installPreviewPosition positionMs durationMs) res.1 res.2 := by
  simp only [installPreviewPositionOp] at h
  split at h
  · cases h
  · rename_i hread
    split at h
    · cases h
    · rename_i hkind
      split at h
      · obtain rfl := Except.ok.inj h
        exact .previewKept
      · rename_i row hrow
        obtain rfl := Except.ok.inj h
        exact .preview (by simpa using hread) (by simpa using hkind) hrow

theorem resetProgress_ok {res} (h : resetProgressOp kind env s = .ok res) :
    Accepted kind env s .resetProgress res.1 res.2 := by
  unfold resetProgressOp at h
  split at h
  · cases h
  · rename_i hvisible
    cases hc : resetCursorInTxn kind s.cursor with
    | error e => rw [hc] at h; cases h
    | ok cursor =>
      rw [hc] at h
      obtain rfl := Except.ok.inj h
      exact .reset (by simpa using hvisible) hc

theorem putReaderCursor_ok {write res} (h : putReaderCursorOp kind env s write = .ok res) :
    Accepted kind env s (.putReaderCursor write) res.1 res.2 := by
  unfold putReaderCursorOp at h
  split at h
  · cases h
  · rename_i hvisible
    cases hput : putCursorInTxn kind s.cursor write with
    | error e => rw [hput] at h; cases h
    | ok r =>
      rw [hput] at h
      obtain rfl := Except.ok.inj h
      exact .cursor (by simpa using hvisible) hput

theorem recordHeartbeat_ok {w res} (h : recordHeartbeatOp kind env s w = .ok res) :
    Accepted kind env s (.recordHeartbeat w) res.1 res.2 := by
  unfold recordHeartbeatOp at h
  split at h
  · cases h
  · rename_i hread
    cases hrow : recordHeartbeatInTxn s.listening env.now w with
    | none => rw [hrow] at h; cases h
    | some row =>
      rw [hrow] at h
      obtain rfl := Except.ok.inj h
      exact .heartbeat (by simpa using hread) hrow

/-- **Every accepted request took one of these paths.** -/
theorem applyRequest_ok {req : Request F L} {res} (h : applyRequest kind env s req = .ok res) :
    Accepted kind env s req res.1 res.2 := by
  cases req with
  | recordHeartbeat w => exact recordHeartbeat_ok h
  | installPreviewPosition positionMs durationMs => exact installPreviewPosition_ok h
  | settleNaturalEnd origin terminal expected => exact settleNaturalEnd_ok h
  | resetProgress => exact resetProgress_ok h
  | putReaderCursor write => exact putReaderCursor_ok h
  | ensureMediaFinished =>
    obtain ⟨hread, rfl⟩ := ok_of_guard h
    exact .ensureFinished hread
  | finishLecternItem =>
    obtain ⟨hitem, rfl⟩ := ok_of_guard h
    exact .itemFinished hitem
  | setUnread =>
    obtain ⟨hread, rfl⟩ := ok_of_guard h
    exact .unread hread
  | undoCompletion completionId =>
    obtain ⟨hid, rfl⟩ := ok_of_guard h
    exact .undone hid
  | setBatchState state =>
    simp only [applyRequest] at h
    split at h
    · cases h
    · rename_i hread
      split at h
      · cases h
      · rename_i hkind
        cases state with
        | unread =>
          obtain rfl := Except.ok.inj h
          exact .batchUnread (by simpa using hread) (by simpa using hkind)
        | finished =>
          obtain rfl := Except.ok.inj h
          exact .batchFinished (by simpa using hread) (by simpa using hkind)

end Accepted

/-! ## Runs -/

/-- Who sends what: any number of clients, told apart by a number. -/
structure ClientRequest (F L : Type) where
  client : Nat
  env : RequestEnv
  request : Request F L

variable [DecidableEq L]

def ClientRequest.outcome (kind : MediaKind) (s : MediaRows R F L) (e : ClientRequest F L) :
    Except Abort (Outcome F L) :=
  (applyRequest kind e.env s e.request).map Prod.snd

/-- The rows once the transaction is over. -/
def ClientRequest.after (kind : MediaKind) (s : MediaRows R F L) (e : ClientRequest F L) : MediaRows R F L :=
  match applyRequest kind e.env s e.request with
  | .ok r => r.1
  | .error _ => s

/-- The rows of one viewer and one media of the given kind, from none on. -/
def mediaSystem (R F L : Type) [Fraction F] [SqlReal R F] [ReaderLocator L F] [DecidableEq L] (kind : MediaKind) :
    System (MediaRows R F L) (ClientRequest F L) :=
  .ofFun (fun s => s = .empty) fun s e => .some (e.after kind s)

end Stores

/-! ## Examples -/

/-- A locator that is its kind and progression. -/
structure PlainLocator where
  kind : LocatorKind
  progression : Option Permille
  deriving DecidableEq

instance : ReaderLocator PlainLocator Permille where
  kind := PlainLocator.kind
  totalProgression := PlainLocator.progression

abbrev PlainRows := MediaRows Permille Permille PlainLocator

/-- The media is readable and not on the Lectern; the clock stands at 0. -/
def plainEnv : RequestEnv := ⟨0, true, true, .none, false, 7⟩

end Nexus.Consumption
