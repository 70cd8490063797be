/-
`consumption/_projection.py`: what is shown of the rows one viewer has of one
media.

Fractions are the floats of either language: a linear order with the quotient
of two integers, `1.0` and the policy's `0.95` (`Fraction`). The column
`max_total_progression` is a `real`; the two readers turn it into a float in
two ways (`SqlReal`), the driver by parsing the column's text, a statement by
widening it.
-/
import Mathlib.Order.Lattice
import Mathlib.Order.Defs.LinearOrder
import Nexus.Base

namespace Nexus.Consumption

/-- The fractions the projections compute with. -/
class Fraction (F : Type) extends LinearOrder F where
  /-- `n / d` -/
  ratio : Nat → Nat → F
  /-- `1.0` -/
  one : F
  /-- `_policy.FINISHED_PROGRESSION` -/
  finishedProgression : F

/-- The values of a `real` column. -/
class SqlReal (R : Type) (F : outParam Type) extends LinearOrder R where
  /-- as it is stored -/
  store : F → R
  /-- as the driver loads it -/
  load : R → F
  /-- as a statement compares and returns it, `::float8` -/
  widen : R → F

/-- `ConsumptionStateValue` -/
inductive ConsumptionState
  | unread
  | inProgress
  | finished
  deriving DecidableEq, Repr

inductive OverrideState
  | unread
  | finished
  deriving DecidableEq, Repr

def OverrideState.state : OverrideState → ConsumptionState
  | .unread => .unread
  | .finished => .finished

/-- A row of `consumption_overrides`. -/
structure OverrideRow where
  state : OverrideState
  revision : Nat
  deriving DecidableEq, Repr

/-- A row of `reader_engagement_states`. -/
structure ReaderEngagementRow (R : Type) where
  lastEngagedAt : Instant
  maxTotalProgression : Option R
  deriving DecidableEq, Repr

/-- A row of `podcast_listening_states`. -/
structure ListeningRow (F : Type) where
  positionMs : Nat
  durationMs : Option Nat
  playbackSpeed : Option F
  writeRevision : Nat
  resetEpoch : Nat
  isCompleted : Bool
  lastEngagedAt : Option Instant
  deriving DecidableEq, Repr

/-- The rows a media's state is derived from. -/
structure ConsumptionRows (R F : Type) where
  override : Option OverrideRow
  engagement : Option (ReaderEngagementRow R)
  listening : Option (ListeningRow F)
  deriving DecidableEq, Repr

structure MediaReadStateOut (F : Type) where
  state : ConsumptionState
  progressFraction : Option F
  progressResettable : Bool
  deriving DecidableEq, Repr

section Derivation

variable {R F : Type} [Fraction F] [SqlReal R F]

/-- The listening row's duration, else the episode's. -/
def audioDurationMs (listening : Option (ListeningRow F)) (durationSeconds : Option Nat) : Option Nat :=
  match listening.bind ListeningRow.durationMs with
  | .some durationMs => .some durationMs
  | .none => durationSeconds.map fun seconds => seconds * 1000

/-- The fraction of `_audio_state`. -/
def audioFraction (listening : Option (ListeningRow F)) (durationSeconds : Option Nat) : Option F :=
  match audioDurationMs listening durationSeconds with
  | .some durationMs =>
    if 0 < durationMs then
      .some (min Fraction.one (Fraction.ratio ((listening.map ListeningRow.positionMs).getD 0) durationMs))
    else .none
  | .none => .none

def audioState (listening : Option (ListeningRow F)) (durationSeconds : Option Nat) : ConsumptionState × Option F :=
  let position := (listening.map ListeningRow.positionMs).getD 0
  let isCompleted := listening.any ListeningRow.isCompleted
  let fraction := audioFraction listening durationSeconds
  if isCompleted || fraction.any fun f => decide (Fraction.finishedProgression ≤ f) then (.finished, fraction)
  else if 0 < position then (.inProgress, fraction)
  else (.unread, fraction)

def docState (engagement : Option (ReaderEngagementRow R)) : ConsumptionState × Option F :=
  match engagement with
  | .none => (.unread, .none)
  | .some row =>
    let progress := row.maxTotalProgression.map SqlReal.load
    if progress.any fun f => decide (Fraction.finishedProgression ≤ f) then (.finished, progress)
    else (.inProgress, progress)

omit [Fraction F] [SqlReal R F] in
def progressResettable (override : Option OverrideRow) (engagement : Option (ReaderEngagementRow R))
    (listening : Option (ListeningRow F)) : Bool :=
  override.isSome || engagement.isSome || listening.any fun row => decide (0 < row.positionMs) || row.isCompleted

omit [SqlReal R F] in
theorem audioState_snd (listening : Option (ListeningRow F)) (durationSeconds : Option Nat) :
    (audioState listening durationSeconds).2 = audioFraction listening durationSeconds := by
  unfold audioState
  simp only
  split
  · rfl
  · split <;> rfl

theorem docState_snd (engagement : Option (ReaderEngagementRow R)) :
    (docState engagement).2 = engagement.bind fun row => row.maxTotalProgression.map SqlReal.load := by
  unfold docState
  cases engagement with
  | none => rfl
  | some row =>
    simp only
    split <;> rfl

/-- An override wins over the derived state. -/
def withOverride (override : Option OverrideRow) (derived : ConsumptionState) : ConsumptionState :=
  match override with
  | .some row => row.state.state
  | .none => derived

/-- `media_read_states`, for one media: listening rows are loaded for podcast
episodes only, engagement rows for all other kinds only. -/
def mediaReadState (kind : MediaKind) (durationSeconds : Option Nat) (rows : ConsumptionRows R F) : MediaReadStateOut F :=
  match kind with
  | .podcastEpisode =>
    let derived := audioState rows.listening durationSeconds
    ⟨withOverride rows.override derived.1, derived.2,
      progressResettable (R := R) rows.override .none rows.listening⟩
  | _ =>
    let derived := docState rows.engagement
    ⟨withOverride rows.override derived.1, derived.2,
      progressResettable (F := F) rows.override rows.engagement .none⟩

def effectiveStateIsFinished (kind : MediaKind) (durationSeconds : Option Nat) (rows : ConsumptionRows R F) : Bool :=
  (mediaReadState kind durationSeconds rows).state == .finished

end Derivation

/-! ## Thousandths -/

/-- Fractions cut off after three decimals, to compute examples with. -/
def Permille : Type := Nat

instance : DecidableEq Permille := inferInstanceAs (DecidableEq Nat)

instance : LinearOrder Permille := inferInstanceAs (LinearOrder Nat)

instance : Fraction Permille where
  ratio n d := (1000 * n / d : Nat)
  one := (1000 : Nat)
  finishedProgression := (950 : Nat)

instance : SqlReal Permille Permille where
  store := id
  load := id
  widen := id

end Nexus.Consumption
