/-
`engagement_fact_rows_sql` and `episode_state_case_sql`: the same projection as
SQL, and where it agrees with `media_read_states`.

The two differ on rows neither side expects: a podcast episode nobody listened
to whose duration is known (`LEAST` skips the null and answers `1.0`), a podcast
episode with a reading row, a document with a listening row, a `real` the driver
and a widening read differently, and a duration whose milliseconds overflow the
`integer` product. `factRow_agrees_iff` says these are all (`Unambiguous`); the
state of an episode alone is the same on both sides (`episodeState_eq`).
-/
import Nexus.Consumption.Projection
import Nexus.Lib.Sql

namespace Nexus.Consumption

/-- A row of `engagement_fact_rows_sql`. -/
structure EngagementFactRow (F : Type) where
  readState : ConsumptionState
  progressFraction : Option F
  progressResettable : Bool
  lastEngagedAt : Option Instant
  deriving DecidableEq, Repr

/-- What `episode_state_case_sql` answers. -/
inductive EpisodeState
  | played
  | inProgress
  | unplayed
  deriving DecidableEq, Repr

def ConsumptionState.episode : ConsumptionState → EpisodeState
  | .finished => .played
  | .inProgress => .inProgress
  | .unread => .unplayed

/-- What is asked of the floats: `0 / d` is below `0.95`, and `0.95` is at most `1.0`. -/
class LawfulFraction (F : Type) [Fraction F] : Prop where
  ratio_zero_lt : ∀ d : Nat, 0 < d → Fraction.ratio 0 d < (Fraction.finishedProgression : F)
  finished_le_one : (Fraction.finishedProgression : F) ≤ Fraction.one

/-- A media gets a row when one of the three tables has one. -/
def ConsumptionRows.listed {R F : Type} (rows : ConsumptionRows R F) : Bool :=
  rows.override.isSome || rows.engagement.isSome || rows.listening.isSome

section Statement

variable {R F : Type}

/-- `COALESCE(pls.duration_ms, pe.duration_seconds * 1000)`, whose product fails
past the `integer` range. -/
def sqlDurationMs (listening : Option (ListeningRow F)) (durationSeconds : Option Nat) : Option (Option Nat) :=
  match listening.bind ListeningRow.durationMs with
  | .some durationMs => .some (.some durationMs)
  | .none => match durationSeconds with
    | .none => .some .none
    | .some seconds => (pgInteger (seconds * 1000)).map .some

/-- `COALESCE(pls.position_ms, 0) > 0 OR pls.is_completed IS TRUE` -/
def sqlListened (listening : Option (ListeningRow F)) : Bool :=
  decide (0 < (listening.map ListeningRow.positionMs).getD 0) || listening.any ListeningRow.isCompleted

theorem sqlListened_eq (listening : Option (ListeningRow F)) :
    sqlListened listening = listening.any fun row => decide (0 < row.positionMs) || row.isCompleted := by
  cases listening <;> simp [sqlListened]

variable [Fraction F] [SqlReal R F]

omit [SqlReal R F] in
/-- `pls.position_ms::float8 / duration`; an `AND` that is false already does not divide. -/
def sqlFraction (listening : Option (ListeningRow F)) (durationMs : Option Nat) : Option F :=
  Option.map₂ Fraction.ratio (listening.map ListeningRow.positionMs) durationMs

omit [SqlReal R F] in
/-- The listening branches of both `CASE`s. -/
def sqlAudioState (listening : Option (ListeningRow F)) (durationMs : Option Nat) : ConsumptionState :=
  if listening.any ListeningRow.isCompleted then .finished
  else if Sql.isTrue (Sql.conj (Sql.lt (.some 0) durationMs)
      (Sql.ge (sqlFraction listening durationMs) (.some Fraction.finishedProgression))) then .finished
  else if 0 < (listening.map ListeningRow.positionMs).getD 0 then .inProgress
  else .unread

def sqlDocState (engagement : Option (ReaderEngagementRow R)) : ConsumptionState :=
  match engagement with
  | .none => .unread
  | .some row =>
    if Sql.isTrue (Sql.ge (row.maxTotalProgression.map SqlReal.widen) (.some Fraction.finishedProgression)) then .finished
    else .inProgress

omit [Fraction F] [SqlReal R F] in
/-- `WHEN co.status = 'finished' … WHEN co.status = 'unread' …` -/
def caseOverride (override : Option OverrideRow) (otherwise : ConsumptionState) : ConsumptionState :=
  match override.map OverrideRow.state with
  | .some .finished => .finished
  | .some .unread => .unread
  | .none => otherwise

/-- The row of a listed media, unless computing it fails. -/
def engagementFactRow (kind : MediaKind) (durationSeconds : Option Nat) (rows : ConsumptionRows R F) :
    Option (EngagementFactRow F) :=
  let resettable := rows.override.isSome || rows.engagement.isSome || sqlListened rows.listening
  match kind with
  | .podcastEpisode => (sqlDurationMs rows.listening durationSeconds).map fun durationMs => {
      readState := caseOverride rows.override (sqlAudioState rows.listening durationMs)
      progressFraction :=
        if Sql.isTrue (Sql.lt (.some 0) durationMs) then
          Sql.least (.some Fraction.one) (sqlFraction rows.listening durationMs)
        else .none
      progressResettable := resettable
      lastEngagedAt := rows.listening.bind ListeningRow.lastEngagedAt }
  | _ => .some {
      readState := caseOverride rows.override (sqlDocState rows.engagement)
      progressFraction := rows.engagement.bind fun row => row.maxTotalProgression.map SqlReal.widen
      progressResettable := resettable
      lastEngagedAt := rows.engagement.map ReaderEngagementRow.lastEngagedAt }

omit [SqlReal R F] in
/-- `episode_state_case_sql`, which computes the duration in its later branches only. -/
def episodeStateCaseSql (durationSeconds : Option Nat) (rows : ConsumptionRows R F) : Option EpisodeState :=
  match rows.override.map OverrideRow.state with
  | .some .finished => .some .played
  | .some .unread => .some .unplayed
  | .none =>
    if rows.listening.any ListeningRow.isCompleted then .some .played
    else (sqlDurationMs rows.listening durationSeconds).map fun durationMs =>
      (sqlAudioState rows.listening durationMs).episode

/-- A media and what one viewer has of it. -/
structure MediaFacts (R F : Type) where
  mediaId : Uuid
  kind : MediaKind
  durationSeconds : Option Nat
  rows : ConsumptionRows R F

/-- `engagement_fact_rows_sql`: a row for each listed media. -/
def engagementFactRows (media : List (MediaFacts R F)) : Option (List (Uuid × EngagementFactRow F)) :=
  (media.filter fun m => m.rows.listed).mapM fun m =>
    (engagementFactRow m.kind m.durationSeconds m.rows).map fun row => (m.mediaId, row)

/-- The row says what `media_read_states` says. -/
def EngagementFactRow.Agrees (row : EngagementFactRow F) (out : MediaReadStateOut F) : Prop :=
  row.readState = out.state ∧ row.progressFraction = out.progressFraction ∧
    row.progressResettable = out.progressResettable

/-! ## Where they agree -/

omit [Fraction F] [SqlReal R F] in
theorem caseOverride_eq (override : Option OverrideRow) (derived : ConsumptionState) :
    caseOverride override derived = withOverride override derived := by
  cases override with
  | none => rfl
  | some row =>
    obtain ⟨state, revision⟩ := row
    cases state <;> rfl

omit [Fraction F] in
theorem sqlDurationMs_eq_some {listening : Option (ListeningRow F)} {durationSeconds : Option Nat} {durationMs} :
    sqlDurationMs listening durationSeconds = .some durationMs ↔
      durationMs = audioDurationMs listening durationSeconds ∧
        (listening.bind ListeningRow.durationMs = .none → ∀ seconds, durationSeconds = .some seconds →
          seconds * 1000 ≤ integerMax) := by
  unfold sqlDurationMs audioDurationMs
  cases listening.bind ListeningRow.durationMs with
  | some d => simp [eq_comm]
  | none =>
    cases durationSeconds with
    | none => simp [eq_comm]
    | some seconds =>
      by_cases hfit : seconds * 1000 ≤ integerMax
      · simp [pgInteger, hfit, eq_comm]
      · simp [pgInteger, hfit]

variable [LawfulFraction F]

omit [SqlReal R F] in
theorem sqlAudioState_eq (listening : Option (ListeningRow F)) (durationSeconds : Option Nat) :
    sqlAudioState listening (audioDurationMs listening durationSeconds) =
      (audioState listening durationSeconds).1 := by
  unfold sqlAudioState audioState audioFraction
  generalize audioDurationMs listening durationSeconds = durationMs
  have hone : (Fraction.finishedProgression : F) ≤ Fraction.one := LawfulFraction.finished_le_one
  cases hcompleted : listening.any ListeningRow.isCompleted with
  | true => simp
  | false =>
    cases durationMs with
    | none => simp [sqlFraction]; split <;> rfl
    | some d =>
      by_cases hd : 0 < d
      · cases listening with
        | none =>
          -- nothing was listened to: SQL's quotient is null, the other side's is `0 / d`
          have hlt : Fraction.ratio 0 d < (Fraction.finishedProgression : F) := LawfulFraction.ratio_zero_lt d hd
          simp [sqlFraction, Sql.ge, hd, not_le.2 hlt]
        | some row => simp [sqlFraction, Sql.ge, hd, hone]; split <;> [rfl; split <;> rfl]
      · simp [hd]; split <;> rfl

omit [SqlReal R F] in
/-- **An episode's state is the same on both sides**, whenever the statement
computes one. -/
theorem episodeState_eq {durationSeconds : Option Nat} {rows : ConsumptionRows R F} {state}
    (h : episodeStateCaseSql durationSeconds rows = .some state) :
    state = (withOverride rows.override (audioState rows.listening durationSeconds).1).episode := by
  unfold episodeStateCaseSql at h
  cases hov : rows.override with
  | some row =>
    obtain ⟨st, revision⟩ := row
    rw [hov] at h
    cases st <;> obtain rfl := Option.some.inj h <;> rfl
  | none =>
    rw [hov] at h
    simp only [Option.map_none] at h
    split at h
    · rename_i hcompleted
      obtain rfl := Option.some.inj h
      simp [withOverride, audioState, hcompleted, ConsumptionState.episode]
    · obtain ⟨durationMs, hd, rfl⟩ := Option.map_eq_some_iff.1 h
      obtain ⟨rfl, -⟩ := sqlDurationMs_eq_some.1 hd
      rw [sqlAudioState_eq]
      rfl

/-- The rows on which the two projections say the same. -/
def Unambiguous (kind : MediaKind) (durationSeconds : Option Nat) (rows : ConsumptionRows R F) : Prop :=
  match kind with
  | .podcastEpisode =>
    (rows.listening.bind ListeningRow.durationMs = .none → ∀ seconds, durationSeconds = .some seconds →
      seconds * 1000 ≤ integerMax) ∧
    (rows.listening = .none → ∀ seconds, durationSeconds = .some seconds → seconds = 0) ∧
    (rows.engagement.isSome = true → rows.override.isSome = true ∨ sqlListened rows.listening = true)
  | _ =>
    (∀ m, rows.engagement.bind ReaderEngagementRow.maxTotalProgression = .some m →
      (SqlReal.widen m : F) = SqlReal.load m) ∧
    (sqlListened rows.listening = true → rows.override.isSome = true ∨ rows.engagement.isSome = true)

omit [SqlReal R F] in
theorem sqlAudioFraction_eq_iff (listening : Option (ListeningRow F)) (durationSeconds : Option Nat) :
    (if Sql.isTrue (Sql.lt (.some 0) (audioDurationMs listening durationSeconds)) then
        Sql.least (.some Fraction.one) (sqlFraction listening (audioDurationMs listening durationSeconds))
      else .none) = (audioState listening durationSeconds).2 ↔
      (listening = .none → ∀ seconds, durationSeconds = .some seconds → seconds = 0) := by
  rw [audioState_snd]
  unfold audioFraction
  cases listening with
  | some row =>
    cases audioDurationMs (.some row) durationSeconds with
    | none => simp
    | some d => by_cases hd : 0 < d <;> simp [hd, sqlFraction, Sql.least]
  | none =>
    cases durationSeconds with
    | none => simp [audioDurationMs]
    | some seconds =>
      by_cases hs : seconds = 0
      · simp [audioDurationMs, hs]
      · have hpos : 0 < seconds := by omega
        have hd : 0 < seconds * 1000 := by omega
        have hlt : Fraction.ratio 0 (seconds * 1000) < (Fraction.one : F) :=
          lt_of_lt_of_le (LawfulFraction.ratio_zero_lt _ hd) LawfulFraction.finished_le_one
        have hne : (Fraction.one : F) ≠ Fraction.ratio 0 (seconds * 1000) := hlt.ne'
        simp [audioDurationMs, hs, hpos, sqlFraction, Sql.least, min_eq_right hlt.le, hne]

omit [LawfulFraction F] in
theorem sqlDocFraction_eq_iff (engagement : Option (ReaderEngagementRow R)) :
    (engagement.bind fun row => row.maxTotalProgression.map SqlReal.widen) = (docState engagement).2 ↔
      ∀ m, engagement.bind ReaderEngagementRow.maxTotalProgression = .some m →
        (SqlReal.widen m : F) = SqlReal.load m := by
  rw [docState_snd]
  cases engagement with
  | none => simp
  | some row => cases h : row.maxTotalProgression <;> simp [h]

omit [LawfulFraction F] in
theorem sqlDocState_eq {engagement : Option (ReaderEngagementRow R)}
    (h : ∀ m, engagement.bind ReaderEngagementRow.maxTotalProgression = .some m →
      (SqlReal.widen m : F) = SqlReal.load m) : sqlDocState engagement = (docState engagement).1 := by
  unfold sqlDocState docState
  cases engagement with
  | none => rfl
  | some row =>
    cases hm : row.maxTotalProgression with
    | none => simp [hm, Sql.ge]
    | some m =>
      simp only [hm, Option.map_some, h m hm, Sql.ge, Option.map₂_some_some, Sql.isTrue_some, Option.any_some]
      split <;> rfl

theorem podcastRow_agrees_iff (durationSeconds : Option Nat) (rows : ConsumptionRows R F) :
    (∃ row, engagementFactRow .podcastEpisode durationSeconds rows = .some row ∧
      row.Agrees (mediaReadState .podcastEpisode durationSeconds rows)) ↔
      Unambiguous .podcastEpisode durationSeconds rows := by
  have hreset : (rows.override.isSome || rows.engagement.isSome || sqlListened rows.listening) =
      progressResettable (R := R) rows.override .none rows.listening ↔
      (rows.engagement.isSome = true → rows.override.isSome = true ∨ sqlListened rows.listening = true) := by
    unfold progressResettable
    rw [sqlListened_eq]
    cases rows.override.isSome <;> cases rows.engagement.isSome <;>
      cases (rows.listening.any fun row => decide (0 < row.positionMs) || row.isCompleted) <;> simp
  constructor
  · rintro ⟨row, hrow, -, hfraction, hresettable⟩
    obtain ⟨durationMs, hd, rfl⟩ := Option.map_eq_some_iff.1 hrow
    obtain ⟨rfl, hfit⟩ := sqlDurationMs_eq_some.1 hd
    exact ⟨hfit, (sqlAudioFraction_eq_iff _ _).1 hfraction, hreset.1 hresettable⟩
  · rintro ⟨hfit, hfraction, hresettable⟩
    have hd : sqlDurationMs rows.listening durationSeconds = .some (audioDurationMs rows.listening durationSeconds) :=
      sqlDurationMs_eq_some.2 ⟨rfl, hfit⟩
    unfold engagementFactRow
    rw [hd]
    refine ⟨_, rfl, ?_, (sqlAudioFraction_eq_iff _ _).2 hfraction, hreset.2 hresettable⟩
    show caseOverride _ (sqlAudioState _ _) = withOverride _ _
    rw [caseOverride_eq, sqlAudioState_eq]

omit [LawfulFraction F] in
theorem documentRow_agrees_iff {kind : MediaKind} (hk : kind ≠ .podcastEpisode) (durationSeconds : Option Nat)
    (rows : ConsumptionRows R F) :
    (∃ row, engagementFactRow kind durationSeconds rows = .some row ∧
      row.Agrees (mediaReadState kind durationSeconds rows)) ↔ Unambiguous kind durationSeconds rows := by
  have hreset : (rows.override.isSome || rows.engagement.isSome || sqlListened rows.listening) =
      progressResettable (F := F) rows.override rows.engagement .none ↔
      (sqlListened rows.listening = true → rows.override.isSome = true ∨ rows.engagement.isSome = true) := by
    unfold progressResettable
    cases rows.override.isSome <;> cases rows.engagement.isSome <;> cases sqlListened rows.listening <;> simp
  have hrow : engagementFactRow kind durationSeconds rows = .some {
      readState := caseOverride rows.override (sqlDocState rows.engagement)
      progressFraction := rows.engagement.bind fun row => row.maxTotalProgression.map SqlReal.widen
      progressResettable := rows.override.isSome || rows.engagement.isSome || sqlListened rows.listening
      lastEngagedAt := rows.engagement.map ReaderEngagementRow.lastEngagedAt } := by
    cases kind <;> first | rfl | exact absurd rfl hk
  have hout : mediaReadState kind durationSeconds rows = {
      state := withOverride rows.override (docState rows.engagement).1
      progressFraction := (docState rows.engagement).2
      progressResettable := progressResettable (F := F) rows.override rows.engagement .none } := by
    cases kind <;> first | rfl | exact absurd rfl hk
  have hcond : Unambiguous kind durationSeconds rows ↔
      (∀ m, rows.engagement.bind ReaderEngagementRow.maxTotalProgression = .some m →
        (SqlReal.widen m : F) = SqlReal.load m) ∧
      (sqlListened rows.listening = true → rows.override.isSome = true ∨ rows.engagement.isSome = true) := by
    cases kind <;> first | exact Iff.rfl | exact absurd rfl hk
  rw [hrow, hout, hcond, ← hreset, ← sqlDocFraction_eq_iff]
  constructor
  · rintro ⟨row, hr, -, hfraction, hresettable⟩
    obtain rfl := Option.some.inj hr
    exact ⟨hfraction, hresettable⟩
  · rintro ⟨hfraction, hresettable⟩
    refine ⟨_, rfl, ?_, hfraction, hresettable⟩
    show caseOverride _ _ = withOverride _ _
    rw [caseOverride_eq, sqlDocState_eq ((sqlDocFraction_eq_iff _).1 hfraction)]

/-- **One media's row is produced and says what `media_read_states` says exactly
when the rows are unambiguous.** -/
theorem factRow_agrees_iff (kind : MediaKind) (durationSeconds : Option Nat) (rows : ConsumptionRows R F) :
    (∃ row, engagementFactRow kind durationSeconds rows = .some row ∧
      row.Agrees (mediaReadState kind durationSeconds rows)) ↔ Unambiguous kind durationSeconds rows := by
  by_cases hk : kind = .podcastEpisode
  · subst hk
    exact podcastRow_agrees_iff durationSeconds rows
  · exact documentRow_agrees_iff hk durationSeconds rows

/-- **The statement succeeds and says of every listed media what
`media_read_states` says, exactly when their rows are unambiguous.** -/
theorem factRows_agree_iff (media : List (MediaFacts R F)) :
    (∃ out, engagementFactRows media = .some out ∧ List.Forall₂ (fun m r => r.1 = m.mediaId ∧
        r.2.Agrees (mediaReadState m.kind m.durationSeconds m.rows)) (media.filter fun m => m.rows.listed) out) ↔
      ∀ m ∈ media, m.rows.listed = true → Unambiguous m.kind m.durationSeconds m.rows := by
  unfold engagementFactRows
  rw [Sql.forall₂_mapM]
  simp only [List.mem_filter, and_imp]
  refine forall_congr' fun m => forall_congr' fun _ => forall_congr' fun _ => ?_
  rw [← factRow_agrees_iff]
  constructor
  · rintro ⟨r, hr, -, hagrees⟩
    obtain ⟨row, hrow, rfl⟩ := Option.map_eq_some_iff.1 hr
    exact ⟨row, hrow, hagrees⟩
  · rintro ⟨row, hrow, hagrees⟩
    exact ⟨(m.mediaId, row), by rw [hrow]; rfl, rfl, hagrees⟩

end Statement

instance : LawfulFraction Permille where
  ratio_zero_lt d hd := by
    show (1000 * 0 / d : Nat) < 950
    rw [Nat.mul_zero, Nat.zero_div]
    decide
  finished_le_one := by decide

/-- A podcast episode of an hour that was marked unread and never played. -/
def neverPlayed : MediaFacts Permille Permille :=
  ⟨1, .podcastEpisode, .some 3600, ⟨.some ⟨.unread, 1⟩, .none, .none⟩⟩

/-- The statement gives it the fraction `1.0`, the other side `0.0`. -/
theorem factRows_disagree : ¬ ∃ out, engagementFactRows [neverPlayed] = .some out ∧
    List.Forall₂ (fun m r => r.1 = m.mediaId ∧ r.2.Agrees (mediaReadState m.kind m.durationSeconds m.rows))
      ([neverPlayed].filter fun m => m.rows.listed) out := by
  rintro ⟨out, hout, hagree⟩
  obtain rfl := Option.some.inj ((rfl : engagementFactRows [neverPlayed] =
    .some [(1, ⟨.unread, .some (1000 : Nat), true, .none⟩)]).symm.trans hout)
  cases hagree with
  | cons h _ =>
    have hfraction := h.2.2.1
    revert hfraction
    decide

/-- A played episode and a read article. -/
def playedAndRead : List (MediaFacts Permille Permille) :=
  [⟨1, .podcastEpisode, .some 3600, ⟨.none, .none, .some ⟨60000, .none, .none, 1, 0, false, .some 9⟩⟩⟩,
    ⟨2, .webArticle, .none, ⟨.none, .some ⟨5, .some (960 : Nat)⟩, .none⟩⟩]

theorem factRows_agree_playedAndRead : ∃ out, engagementFactRows playedAndRead = .some out ∧
    List.Forall₂ (fun m r => r.1 = m.mediaId ∧ r.2.Agrees (mediaReadState m.kind m.durationSeconds m.rows))
      (playedAndRead.filter fun m => m.rows.listed) out := by
  refine (factRows_agree_iff playedAndRead).2 fun m hm _ => ?_
  simp only [playedAndRead, List.mem_cons, List.not_mem_nil, or_false] at hm
  rcases hm with rfl | rfl
  · exact ⟨by simp [integerMax], by simp, by simp⟩
  · exact ⟨fun m _ => rfl, by simp [sqlListened]⟩

end Nexus.Consumption
