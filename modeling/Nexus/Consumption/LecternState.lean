/-
The consumption state a Lectern item shows.

The item picks its rule by activation: what plays in the footer is derived from
listening, what opens a pane from reading. `media_read_states` picks by kind. A
podcast episode without a playable stream opens a pane, so there the two take
different rules, and agree exactly when both come to the same
(`lecternState_eq_iff`).
-/
import Nexus.Consumption.Projection

namespace Nexus.Consumption

/-! ## The playback source -/

/-- `_normalize_url`: stripped, and not empty. -/
def normalizeUrl (rawValue : Option String) : Option String :=
  match rawValue with
  | .none => .none
  | .some raw =>
    let normalized := pythonStrip raw.toList
    if normalized.isEmpty then .none else .some (String.ofList normalized)

/-- The stream url `derive_playback_source` gives a podcast episode. -/
def podcastStreamUrl (externalPlaybackUrl canonicalSourceUrl : Option String) : Option String :=
  normalizeUrl externalPlaybackUrl <|> normalizeUrl canonicalSourceUrl

/-! ## The item -/

/-- What a visible Lectern row and the viewer's rows of its media say. -/
structure LecternItemFacts (R F : Type) where
  kind : MediaKind
  externalPlaybackUrl : Option String
  canonicalSourceUrl : Option String
  durationSeconds : Option Nat
  rows : ConsumptionRows R F

/-- `LecternActivation`; rates, artwork and chapters come from other tables. -/
inductive LecternActivation
  | footerAudio (streamUrl : String) (positionMs writeRevision resetEpoch : Nat)
      (consumptionOverrideRevision durationMs : Option Nat)
  | readable
  | openPane
  deriving DecidableEq, Repr

structure ConsumptionOut (F : Type) where
  state : ConsumptionState
  progress : Option F
  progressResettable : Bool
  deriving DecidableEq, Repr

section Item

variable {R F : Type}

def deriveActivation (item : LecternItemFacts R F) : LecternActivation :=
  match item.kind with
  | .video => .openPane
  | .webArticle | .epub | .pdf => .readable
  | .podcastEpisode => match podcastStreamUrl item.externalPlaybackUrl item.canonicalSourceUrl with
    | .none => .openPane
    | .some streamUrl =>
      .footerAudio streamUrl ((item.rows.listening.map ListeningRow.positionMs).getD 0)
        ((item.rows.listening.map ListeningRow.writeRevision).getD 0)
        ((item.rows.listening.map ListeningRow.resetEpoch).getD 0)
        (item.rows.override.map OverrideRow.revision) (audioDurationMs item.rows.listening item.durationSeconds)

variable [Fraction F] [SqlReal R F]

def deriveConsumption (activation : LecternActivation) (listening : Option (ListeningRow F))
    (engagement : Option (ReaderEngagementRow R)) (durationSeconds : Option Nat) (override : Option OverrideRow) :
    ConsumptionOut F :=
  let derived := match activation with
    | .footerAudio .. => audioState listening durationSeconds
    | .readable | .openPane => docState engagement
  ⟨withOverride override derived.1, derived.2, progressResettable override engagement listening⟩

/-- The item's consumption: engagement rows are loaded for what is not footer audio. -/
def lecternConsumption (item : LecternItemFacts R F) : ConsumptionOut F :=
  let activation := deriveActivation item
  let engagement := match activation with
    | .footerAudio .. => .none
    | .readable | .openPane => item.rows.engagement
  deriveConsumption activation item.rows.listening engagement item.durationSeconds item.rows.override

/-! ## Where the two states agree -/

/-- The rows say the media was listened to the end. -/
def ListenedToEnd (item : LecternItemFacts R F) : Prop :=
  (∃ row, item.rows.listening = .some row ∧ row.isCompleted = true) ∨
    ∃ durationMs, audioDurationMs item.rows.listening item.durationSeconds = .some durationMs ∧ 0 < durationMs ∧
      (Fraction.finishedProgression : F) ≤
        min Fraction.one (Fraction.ratio ((item.rows.listening.map ListeningRow.positionMs).getD 0) durationMs)

/-- The rows say the media was read to the end. -/
def ReadToEnd (item : LecternItemFacts R F) : Prop :=
  ∃ m, item.rows.engagement.bind ReaderEngagementRow.maxTotalProgression = .some m ∧
    (Fraction.finishedProgression : F) ≤ SqlReal.load m

/-- Listening and reading came equally far. -/
def SameProgress (item : LecternItemFacts R F) : Prop :=
  (ListenedToEnd item ↔ ReadToEnd item) ∧
    (ListenedToEnd item ∨ (0 < (item.rows.listening.map ListeningRow.positionMs).getD 0 ↔
      item.rows.engagement.isSome = true))

theorem docState_fst (item : LecternItemFacts R F) :
    (docState item.rows.engagement).1 = .finished ∧ ReadToEnd item ∨
      (docState item.rows.engagement).1 = (if item.rows.engagement.isSome then .inProgress else .unread) ∧
        ¬ ReadToEnd item := by
  unfold docState ReadToEnd
  cases item.rows.engagement with
  | none => simp
  | some row =>
    cases hm : row.maxTotalProgression with
    | none => simp [hm]
    | some m =>
      by_cases hle : (Fraction.finishedProgression : F) ≤ SqlReal.load m
      · simp [hm, hle]
      · simp [hm, hle]

omit [SqlReal R F] in
theorem audioState_fst (item : LecternItemFacts R F) :
    (audioState item.rows.listening item.durationSeconds).1 = .finished ∧ ListenedToEnd item ∨
      (audioState item.rows.listening item.durationSeconds).1 =
        (if 0 < (item.rows.listening.map ListeningRow.positionMs).getD 0 then .inProgress else .unread) ∧
        ¬ ListenedToEnd item := by
  have hend : (item.rows.listening.any ListeningRow.isCompleted ||
      (audioFraction item.rows.listening item.durationSeconds).any fun f => decide (Fraction.finishedProgression ≤ f)) =
        true ↔ ListenedToEnd item := by
    unfold ListenedToEnd audioFraction
    rw [Bool.or_eq_true]
    refine or_congr ?_ ?_
    · cases item.rows.listening <;> simp
    · cases audioDurationMs item.rows.listening item.durationSeconds with
      | none => simp
      | some d => by_cases hd : 0 < d <;> simp [hd]
  unfold audioState
  simp only
  split
  · rename_i h
    exact .inl ⟨rfl, hend.1 h⟩
  · rename_i h
    refine .inr ⟨?_, fun hl => h (hend.2 hl)⟩
    split <;> rfl

theorem states_eq_iff (item : LecternItemFacts R F) :
    (docState item.rows.engagement).1 = (audioState item.rows.listening item.durationSeconds).1 ↔ SameProgress item := by
  unfold SameProgress
  rcases docState_fst item with ⟨hd, hr⟩ | ⟨hd, hr⟩ <;> rcases audioState_fst item with ⟨ha, hl⟩ | ⟨ha, hl⟩
  · simp [hd, ha, hr, hl]
  · rw [hd, ha]
    simp only [hr, hl, iff_true, false_and, iff_false]
    split <;> simp
  · rw [hd, ha]
    simp only [hr, hl, iff_false]
    split <;> simp
  · rw [hd, ha]
    simp only [hr, hl, true_and, false_or]
    cases item.rows.engagement.isSome <;>
      by_cases hp : 0 < (item.rows.listening.map ListeningRow.positionMs).getD 0 <;> simp [hp]

/-- **The Lectern shows the state `media_read_states` reports exactly when the
viewer set it, the media is not a podcast episode or plays in the footer, or
listening and reading came equally far.** -/
theorem lecternState_eq_iff (item : LecternItemFacts R F) :
    (lecternConsumption item).state = (mediaReadState item.kind item.durationSeconds item.rows).state ↔
      item.rows.override.isSome = true ∨ item.kind ≠ .podcastEpisode ∨
        (podcastStreamUrl item.externalPlaybackUrl item.canonicalSourceUrl).isSome = true ∨ SameProgress item := by
  unfold lecternConsumption deriveConsumption deriveActivation
  cases hk : item.kind with
  | podcastEpisode =>
    cases hstream : podcastStreamUrl item.externalPlaybackUrl item.canonicalSourceUrl with
    | some url => simp [mediaReadState]
    | none =>
      simp only [mediaReadState, ne_eq, not_true_eq_false, Option.isSome_none, Bool.false_eq_true, false_or]
      rw [← states_eq_iff]
      cases hov : item.rows.override with
      | none => simp [withOverride]
      | some row => simp [withOverride]
  | _ => simp [mediaReadState]

end Item

/-- An episode whose feed has no audio url (any more), listened to half-way. -/
def silentEpisode : LecternItemFacts Permille Permille where
  kind := .podcastEpisode
  externalPlaybackUrl := .none
  canonicalSourceUrl := .some "  "
  durationSeconds := .some 100
  rows := ⟨.none, .none, .some ⟨50000, .none, .none, 1, 0, false, .some 3⟩⟩

/-- The Lectern shows it unread, `media_read_states` in progress. -/
theorem lecternState_ne : (lecternConsumption silentEpisode).state ≠
    (mediaReadState silentEpisode.kind silentEpisode.durationSeconds silentEpisode.rows).state := by
  decide

end Nexus.Consumption
