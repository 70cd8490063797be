/-
The fences of listening progress: who overtook whom.

What a client holds is the `ListeningBase` the Lectern item shows it: the
override's revision and the listening row's write revision and reset epoch.
`Effect` says once what an accepted request does to those three; the rest reads
only that. `(reset epoch, write revision)` is a version (`fence`) for requests
guarded by the listening row, and with the override's revision behind it
(`ListeningBase.token`) one for settlements, also while the client's own
heartbeats move its base on (`heldBase`).

A reset touches the listening row of a podcast episode only, so for any other
kind a heartbeat outlives it (`listening_not_fenced`).
-/
import Mathlib.Data.Prod.Lex
import Nexus.Consumption.Requests

namespace Nexus.Consumption
open Transition

/-- What a natural-end receipt is captured with. -/
structure ListeningBase where
  consumptionOverrideRevision : Option Nat
  writeRevision : Nat
  resetEpoch : Nat
  deriving DecidableEq, Repr

section Fence

variable {R F L : Type}

/-- An absent row reads as revision 0. -/
def writeRevision (listening : Option (ListeningRow F)) : Nat := (listening.map ListeningRow.writeRevision).getD 0

def resetEpoch (listening : Option (ListeningRow F)) : Nat := (listening.map ListeningRow.resetEpoch).getD 0

namespace MediaRows

/-- What the projection hands a player of the rows. -/
def base (s : MediaRows R F L) : ListeningBase where
  consumptionOverrideRevision := s.override.map OverrideRow.revision
  writeRevision := Consumption.writeRevision s.listening
  resetEpoch := Consumption.resetEpoch s.listening

/-- The reset epoch, then the write revision. -/
def fence (s : MediaRows R F L) : Nat ×ₗ Nat := toLex (s.base.resetEpoch, s.base.writeRevision)

end MediaRows

/-- An absent override comes before every revision. -/
def overrideRank (revision : Option Nat) : Nat := match revision with
  | .none => 0
  | .some revision => revision + 1

namespace ListeningBase

/-- The fence, then the override's rank. -/
def token (b : ListeningBase) : Nat ×ₗ Nat ×ₗ Nat :=
  toLex (b.resetEpoch, toLex (b.writeRevision, overrideRank b.consumptionOverrideRevision))

theorem token_lt {b b' : ListeningBase} : b.token < b'.token ↔ b.resetEpoch < b'.resetEpoch ∨
    b.resetEpoch = b'.resetEpoch ∧ (b.writeRevision < b'.writeRevision ∨ b.writeRevision = b'.writeRevision ∧
      overrideRank b.consumptionOverrideRevision < overrideRank b'.consumptionOverrideRevision) := by
  simp only [token, Prod.Lex.toLex_lt_toLex]

end ListeningBase

theorem MediaRows.fence_lt {s t : MediaRows R F L} : s.fence < t.fence ↔ s.base.resetEpoch < t.base.resetEpoch ∨
    s.base.resetEpoch = t.base.resetEpoch ∧ s.base.writeRevision < t.base.writeRevision := by
  simp only [fence, Prod.Lex.toLex_lt_toLex]

theorem MediaRows.fence_eq {s t : MediaRows R F L} (he : t.base.resetEpoch = s.base.resetEpoch)
    (hr : t.base.writeRevision = s.base.writeRevision) : t.fence = s.fence := by
  simp only [fence, he, hr]

/-! ## What an accepted request does -/

/-- The row with the next write revision of the same epoch. -/
def Advances (listening : Option (ListeningRow F)) (row : ListeningRow F) : Prop :=
  row.writeRevision = writeRevision listening + 1 ∧ row.resetEpoch = resetEpoch listening

/-- The fencing tokens a write carries are those of the row. -/
def ListeningWrite.Expects (w : ListeningWrite F) (listening : Option (ListeningRow F)) : Prop :=
  w.expectedWriteRevision = writeRevision listening ∧ w.expectedResetEpoch = resetEpoch listening

theorem recordHeartbeat_some {current : Option (ListeningRow F)} {now w row}
    (h : recordHeartbeatInTxn current now w = .some row) : w.Expects current ∧ Advances current row := by
  unfold recordHeartbeatInTxn at h
  cases current with
  | none =>
    simp only [Option.ite_none_left_eq_some, not_or, ne_eq, not_not] at h
    obtain ⟨⟨hw, he⟩, h⟩ := h
    obtain rfl := Option.some.inj h
    exact ⟨⟨hw, he⟩, rfl, rfl⟩
  | some cur =>
    simp only [Option.ite_none_left_eq_some, not_or, ne_eq, not_not] at h
    obtain ⟨⟨hw, he⟩, h⟩ := h
    obtain rfl := Option.some.inj h
    exact ⟨⟨hw, he⟩, rfl, rfl⟩

theorem installPreview_some {current : Option (ListeningRow F)} {now positionMs durationMs row}
    (h : installPreviewPositionInTxn current now positionMs durationMs = .some row) : Advances current row := by
  unfold installPreviewPositionInTxn at h
  split at h
  · cases h
  · cases current with
    | none =>
      obtain rfl := Option.some.inj h
      exact ⟨rfl, rfl⟩
    | some cur =>
      simp only [Option.ite_none_left_eq_some] at h
      obtain rfl := Option.some.inj h.2
      exact ⟨rfl, rfl⟩

@[simp] theorem writeRevision_markCompleted (l : Option (ListeningRow F)) :
    writeRevision (.some (markCompletedInTxn l)) = writeRevision l := by cases l <;> rfl

@[simp] theorem resetEpoch_markCompleted (l : Option (ListeningRow F)) :
    resetEpoch (.some (markCompletedInTxn l)) = resetEpoch l := by cases l <;> rfl

@[simp] theorem resetEpoch_resetProgress (l : Option (ListeningRow F)) :
    resetEpoch (.some (resetProgressInTxn l)) = resetEpoch l + 1 := by cases l <;> rfl

theorem overrideRank_setOverride (current : Option OverrideRow) (state : OverrideState) :
    overrideRank (current.map OverrideRow.revision) <
      overrideRank (.some (setOverrideInTxn current state).revision) := by
  cases current <;> simp [overrideRank, setOverrideInTxn]

/-- The requests that set the override and nothing else of the base. -/
def Request.marks : Request F L → Bool
  | .ensureMediaFinished | .finishLecternItem | .setUnread | .undoCompletion _ | .setBatchState _ => true
  | _ => false

/-- The requests that may be answered without being applied. -/
def Request.refusable : Request F L → Bool
  | .installPreviewPosition .. | .settleNaturalEnd .. => true
  | _ => false

/-- What an accepted request does to the rows a base is read from. -/
inductive Effect (kind : MediaKind) (s t : MediaRows R F L) : Request F L → Outcome F L → Prop
  | refused {req o} (hreq : Request.refusable req = true)
      (ho : o = .superseded ∨ o = .targetGone ∨ o = .preview false) (h : t = s) : Effect kind s t req o
  | cursor {write snapshot} (hov : t.override = s.override) (hl : t.listening = s.listening) :
      Effect kind s t (.putReaderCursor write) (.cursor snapshot)
  | heartbeat {w row} (hw : w.Expects s.listening) (hadv : Advances s.listening row) (hov : t.override = s.override)
      (hl : t.listening = .some row) : Effect kind s t (.recordHeartbeat w) (.listening row)
  | preview {positionMs durationMs row} (hadv : Advances s.listening row) (hov : t.override = s.override)
      (hl : t.listening = .some row) : Effect kind s t (.installPreviewPosition positionMs durationMs) (.preview true)
  | marked {req o} (hreq : Request.marks req = true) (ho : o = .stateOnly ∨ o = .removed) {state}
      (hov : t.override = .some (setOverrideInTxn s.override state))
      (hr : writeRevision t.listening = writeRevision s.listening)
      (he : resetEpoch t.listening = resetEpoch s.listening) : Effect kind s t req o
  | settled {origin w r o} (hkind : kind = .podcastEpisode) (ho : o = .completed ∨ o = .completedWithoutAdvance)
      (hmatch : s.override.map OverrideRow.revision = r) (hw : w.Expects s.listening)
      (hr : writeRevision t.listening = writeRevision s.listening + 1)
      (he : resetEpoch t.listening = resetEpoch s.listening) : Effect kind s t (.settleNaturalEnd origin w r) o
  | reset (hpodcast : kind = .podcastEpisode → resetEpoch t.listening = resetEpoch s.listening + 1)
      (hother : kind ≠ .podcastEpisode → t.listening = s.listening) : Effect kind s t .resetProgress .stateOnly

section Service

variable {kind : MediaKind} {env : RequestEnv} {s : MediaRows R F L}

variable [Fraction F] [SqlReal R F]

theorem override_recordCompletion {b factKind} :
    (recordCompletionIfTransitioned kind env s b factKind).override = s.override := by
  unfold recordCompletionIfTransitioned
  split <;> rfl

theorem listening_recordCompletion {b factKind} :
    (recordCompletionIfTransitioned kind env s b factKind).listening = s.listening := by
  unfold recordCompletionIfTransitioned
  split <;> rfl

theorem override_writeFinished {b} :
    (writeFinishedState kind env s b).override = .some (setOverrideInTxn s.override .finished) := by
  unfold writeFinishedState
  simp only
  split <;> rfl

theorem listening_writeFinished {b} : (writeFinishedState kind env s b).listening =
    if kind = .podcastEpisode then .some (markCompletedInTxn s.listening) else s.listening := by
  unfold writeFinishedState
  simp only
  split <;> rfl

theorem writeRevision_writeFinished {b} :
    writeRevision (writeFinishedState kind env s b).listening = writeRevision s.listening := by
  rw [listening_writeFinished]
  split
  · exact writeRevision_markCompleted _
  · rfl

theorem resetEpoch_writeFinished {b} :
    resetEpoch (writeFinishedState kind env s b).listening = resetEpoch s.listening := by
  rw [listening_writeFinished]
  split
  · exact resetEpoch_markCompleted _
  · rfl

theorem effect_writeFinished {req : Request F L} {o} (hreq : req.marks = true) (ho : o = .stateOnly ∨ o = .removed) :
    Effect kind s (writeFinishedState kind env s .none) req o :=
  .marked hreq ho override_writeFinished writeRevision_writeFinished resetEpoch_writeFinished

/-- **What an accepted request does to a base**, request by request. -/
theorem effect [ReaderLocator L F] [DecidableEq L] {req : Request F L} {res} (h : applyRequest kind env s req = .ok res) :
    Effect kind s res.1 req res.2 := by
  obtain ⟨t, o⟩ := res
  have hpath : Accepted kind env s req t o := applyRequest_ok h
  cases hpath with
  | heartbeat _ hrow =>
    obtain ⟨hw, hadv⟩ := recordHeartbeat_some hrow
    exact .heartbeat hw hadv override_recordCompletion listening_recordCompletion
  | previewKept => exact .refused rfl (.inr (.inr rfl)) rfl
  | preview _ _ hrow => exact .preview (installPreview_some hrow) rfl rfl
  | settleRefused ho => exact .refused rfl (ho.imp_right .inl) rfl
  | settled _ hkind hmatch hrow ho =>
    obtain ⟨hw, hrev, hep⟩ := recordHeartbeat_some hrow
    exact .settled hkind ho hmatch hw (writeRevision_writeFinished.trans hrev) (resetEpoch_writeFinished.trans hep)
  | ensureFinished | batchFinished => exact effect_writeFinished rfl (.inl rfl)
  | itemFinished => exact effect_writeFinished rfl (.inr rfl)
  | unread | undone | batchUnread => exact .marked rfl (.inl rfl) rfl rfl rfl
  | reset =>
    refine .reset (fun hk => ?_) fun hk => ?_
    · rw [if_pos hk, resetEpoch_resetProgress]
    · rw [if_neg hk]
  | cursor => exact .cursor override_recordCompletion listening_recordCompletion

end Service

/-! ## Steps -/

/-- The outcomes that say a listening position was written. -/
def Outcome.writesPosition : Outcome F L → Bool
  | .listening _ | .preview true | .completed | .completedWithoutAdvance => true
  | _ => false

/-- The outcomes of a request that was overtaken, or had nothing to write. -/
def Outcome.refused : Outcome F L → Bool
  | .superseded | .targetGone | .preview false => true
  | _ => false

/-- The write carries the fencing tokens of a base. -/
def ListeningWrite.SentFrom (w : ListeningWrite F) (b : ListeningBase) : Prop :=
  w.expectedWriteRevision = b.writeRevision ∧ w.expectedResetEpoch = b.resetEpoch

section Steps

variable [Fraction F] [SqlReal R F] [ReaderLocator L F] [DecidableEq L] (kind : MediaKind)

/-- An accepted heartbeat, preview install or settlement. -/
def PositionWrite (s : MediaRows R F L) (e : ClientRequest F L) : Prop :=
  ∃ o, e.outcome kind s = .ok o ∧ o.writesPosition = true

def ProgressReset (s : MediaRows R F L) (e : ClientRequest F L) : Prop :=
  e.request = .resetProgress ∧ ∃ o, e.outcome kind s = .ok o

/-- An accepted change of the explicit read state. -/
def Marked (s : MediaRows R F L) (e : ClientRequest F L) : Prop :=
  e.request.marks = true ∧ ∃ o, e.outcome kind s = .ok o

/-- An accepted position write, or an accepted reset of a podcast episode. -/
def MovesFence (s : MediaRows R F L) (e : ClientRequest F L) : Prop :=
  PositionWrite kind s e ∨ kind = .podcastEpisode ∧ ProgressReset kind s e

/-- A heartbeat sent from the base is accepted. -/
def AppliesHeartbeat (s : MediaRows R F L) (e : ClientRequest F L) (b : ListeningBase) : Prop :=
  ∃ w, e.request = .recordHeartbeat w ∧ w.SentFrom b ∧ PositionWrite kind s e

/-- A natural-end settlement with the base's receipt is applied. -/
def AppliesSettlement (s : MediaRows R F L) (e : ClientRequest F L) (b : ListeningBase) : Prop :=
  ∃ origin w, e.request = .settleNaturalEnd origin w b.consumptionOverrideRevision ∧ w.SentFrom b ∧
    PositionWrite kind s e

/-- A heartbeat of the client's own, sent from the base it holds and accepted. -/
def ClientRequest.ownHeartbeat (client : Nat) (b : ListeningBase) (s : MediaRows R F L) (e : ClientRequest F L) : Bool :=
  e.client == client && match e.request, e.outcome kind s with
    | .recordHeartbeat w, .ok (.listening _) =>
      w.expectedWriteRevision == b.writeRevision && w.expectedResetEpoch == b.resetEpoch
    | _, _ => false

/-- The base a client holds after one more request: its own accepted heartbeat
answers with new fencing tokens, the receipt's override revision stays. -/
def nextBase (client : Nat) (b : ListeningBase) (s : MediaRows R F L) (e : ClientRequest F L) (t : MediaRows R F L) :
    ListeningBase :=
  if e.ownHeartbeat kind client b s then
    { b with writeRevision := t.base.writeRevision, resetEpoch := t.base.resetEpoch }
  else b

/-- The base a client holds at the end of a run. -/
def heldBase (client : Nat) : ListeningBase → MediaRows R F L → List (ClientRequest F L × MediaRows R F L) → ListeningBase
  | b, _, [] => b
  | b, s, (e, t) :: tr => heldBase client (nextBase kind client b s e t) t tr

/-- What may not come between a client's receipt and its settlement. -/
def Overtakes (client : Nat) (s : MediaRows R F L) (e : ClientRequest F L) : Prop :=
  ProgressReset kind s e ∨ Marked kind s e ∨
    PositionWrite kind s e ∧ ¬ (e.client = client ∧ ∃ w, e.request = .recordHeartbeat w)

theorem step_effect (s : MediaRows R F L) (e : ClientRequest F L) :
    (∃ o, e.outcome kind s = .ok o ∧ Effect kind s (e.after kind s) e.request o) ∨
      ((∃ a, e.outcome kind s = .error a) ∧ e.after kind s = s) := by
  unfold ClientRequest.outcome ClientRequest.after
  cases h : applyRequest kind e.env s e.request with
  | ok r => exact .inl ⟨r.2, rfl, effect h⟩
  | error a => exact .inr ⟨⟨a, rfl⟩, rfl⟩

variable {kind}

theorem effect_of_outcome {s : MediaRows R F L} {e : ClientRequest F L} {o} (h : e.outcome kind s = .ok o) :
    Effect kind s (e.after kind s) e.request o := by
  rcases step_effect kind s e with ⟨o', ho', heff⟩ | ⟨⟨a, ha⟩, -⟩
  · obtain rfl := Except.ok.inj (h.symm.trans ho')
    exact heff
  · rw [h] at ha
    cases ha

omit [Fraction F] [SqlReal R F] [ReaderLocator L F] [DecidableEq L] in
theorem Effect.fence_le {s t : MediaRows R F L} {req o} (h : Effect kind s t req o) : s.fence ≤ t.fence := by
  have hsame : ∀ {t' : MediaRows R F L}, resetEpoch t'.listening = resetEpoch s.listening →
      writeRevision t'.listening = writeRevision s.listening → s.fence ≤ t'.fence := fun he hr =>
    (MediaRows.fence_eq he hr).ge
  have hnext : resetEpoch t.listening = resetEpoch s.listening →
      writeRevision t.listening = writeRevision s.listening + 1 → s.fence ≤ t.fence := fun he hr =>
    (MediaRows.fence_lt.2 (.inr ⟨he.symm, by simp only [MediaRows.base]; omega⟩)).le
  cases h with
  | refused hreq ho h => rw [h]
  | cursor hov hl => exact hsame (by rw [hl]) (by rw [hl])
  | heartbeat hw hadv hov hl => exact hnext (by rw [hl]; exact hadv.2) (by rw [hl]; exact hadv.1)
  | preview hadv hov hl => exact hnext (by rw [hl]; exact hadv.2) (by rw [hl]; exact hadv.1)
  | marked hreq ho hov hr he => exact hsame he hr
  | settled hkind ho hmatch hw hr he => exact hnext he hr
  | reset hpodcast hother =>
    by_cases hk : kind = .podcastEpisode
    · have he := hpodcast hk
      exact (MediaRows.fence_lt.2 (.inl (by simp only [MediaRows.base]; omega))).le
    · exact hsame (by rw [hother hk]) (by rw [hother hk])

theorem fence_le_after (s : MediaRows R F L) (e : ClientRequest F L) : s.fence ≤ (e.after kind s).fence := by
  rcases step_effect kind s e with ⟨o, -, heff⟩ | ⟨-, h⟩
  · exact heff.fence_le
  · rw [h]

omit [Fraction F] [SqlReal R F] [ReaderLocator L F] [DecidableEq L] in
/-- A position write takes the next revision of its epoch and leaves the
override's rank or raises it. -/
theorem Effect.of_writesPosition {s t : MediaRows R F L} {req o} (h : Effect kind s t req o)
    (ho : o.writesPosition = true) : t.base.resetEpoch = s.base.resetEpoch ∧
      t.base.writeRevision = s.base.writeRevision + 1 := by
  simp only [MediaRows.base]
  cases h with
  | refused hreq hno h => rcases hno with rfl | rfl | rfl <;> cases ho
  | cursor hov hl => cases ho
  | heartbeat hw hadv hov hl => rw [hl]; exact ⟨hadv.2, hadv.1⟩
  | preview hadv hov hl => rw [hl]; exact ⟨hadv.2, hadv.1⟩
  | marked hreq hno hov hr he => rcases hno with rfl | rfl <;> cases ho
  | settled hkind hyes hmatch hw hr he => exact ⟨he, hr⟩
  | reset hpodcast hother => cases ho

omit [Fraction F] [SqlReal R F] [ReaderLocator L F] [DecidableEq L] in
theorem Effect.of_reset {s t : MediaRows R F L} {o} (h : Effect kind s t .resetProgress o)
    (hk : kind = .podcastEpisode) : t.base.resetEpoch = s.base.resetEpoch + 1 := by
  cases h with
  | refused hreq hno h => cases hreq
  | marked hreq hno hov hr he => cases hreq
  | reset hpodcast hother => exact hpodcast hk

omit [Fraction F] [SqlReal R F] [ReaderLocator L F] [DecidableEq L] in
theorem Effect.of_marks {s t : MediaRows R F L} {req o} (h : Effect kind s t req o) (hm : req.marks = true) :
    t.base.resetEpoch = s.base.resetEpoch ∧ t.base.writeRevision = s.base.writeRevision ∧
      overrideRank s.base.consumptionOverrideRevision < overrideRank t.base.consumptionOverrideRevision := by
  cases h with
  | refused hreq hno h => cases req <;> simp_all [Request.refusable, Request.marks]
  | marked hreq hno hov hr he =>
    refine ⟨he, hr, ?_⟩
    simp only [MediaRows.base, hov]
    exact overrideRank_setOverride _ _
  | _ => cases hm

omit [Fraction F] [SqlReal R F] [ReaderLocator L F] [DecidableEq L] in
/-- A request that writes no position, marks nothing and resets nothing leaves
the base as it was. -/
theorem Effect.base_eq {s t : MediaRows R F L} {req o} (h : Effect kind s t req o) (ho : o.writesPosition = false)
    (hm : req.marks = false) (hr : req ≠ .resetProgress) : t.base = s.base := by
  cases h with
  | refused hreq hno h => rw [h]
  | cursor hov hl => simp only [MediaRows.base, hov, hl]
  | heartbeat hw hadv hov hl => cases ho
  | preview hadv hov hl => cases ho
  | marked hreq hno hov hr he => rw [hreq] at hm; cases hm
  | settled hkind hyes hmatch hw hr he => rcases hyes with rfl | rfl <;> cases ho
  | reset hpodcast hother => exact absurd rfl hr

omit [Fraction F] [SqlReal R F] [ReaderLocator L F] [DecidableEq L] in
theorem Effect.of_heartbeat {s t : MediaRows R F L} {w o} (h : Effect kind s t (.recordHeartbeat w) o) :
    w.Expects s.listening ∧ t.override = s.override := by
  cases h with
  | refused hreq hno h => cases hreq
  | heartbeat hw hadv hov hl => exact ⟨hw, hov⟩
  | marked hreq hno hov hr he => cases hreq

omit [Fraction F] [SqlReal R F] [ReaderLocator L F] [DecidableEq L] in
theorem Effect.of_settled {s t : MediaRows R F L} {origin w r o}
    (h : Effect kind s t (.settleNaturalEnd origin w r) o) (ho : o.writesPosition = true) :
    kind = .podcastEpisode ∧ s.override.map OverrideRow.revision = r ∧ w.Expects s.listening := by
  cases h with
  | refused hreq hno h => rcases hno with rfl | rfl | rfl <;> cases ho
  | marked hreq hno hov hr he => cases hreq
  | settled hkind hyes hmatch hw hr he => exact ⟨hkind, hmatch, hw⟩

/-- **Every accepted position write, and every accepted reset of a podcast
episode, raises the fence.** -/
theorem fence_lt_after {s : MediaRows R F L} {e : ClientRequest F L} (h : MovesFence kind s e) :
    s.fence < (e.after kind s).fence := by
  rcases h with ⟨o, ho, hw⟩ | ⟨hk, hreq, o, ho⟩
  · obtain ⟨he, hr⟩ := (effect_of_outcome ho).of_writesPosition hw
    exact MediaRows.fence_lt.2 (.inr ⟨he.symm, by omega⟩)
  · have heff := effect_of_outcome ho
    rw [hreq] at heff
    have he := heff.of_reset hk
    exact MediaRows.fence_lt.2 (.inl (by omega))

theorem fence_of_sentFrom {s : MediaRows R F L} {e : ClientRequest F L} {b : ListeningBase} {w : ListeningWrite F}
    (hreq : e.request = .recordHeartbeat w ∨ ∃ origin r, e.request = .settleNaturalEnd origin w r)
    (hfrom : w.SentFrom b) (h : PositionWrite kind s e) :
    s.base.resetEpoch = b.resetEpoch ∧ s.base.writeRevision = b.writeRevision := by
  obtain ⟨o, ho, hwr⟩ := h
  have heff := effect_of_outcome ho
  have hexp : w.Expects s.listening := by
    rcases hreq with hreq | ⟨origin, r, hreq⟩ <;> rw [hreq] at heff
    · exact heff.of_heartbeat.1
    · exact (heff.of_settled hwr).2.2
  exact ⟨hexp.2.symm.trans hfrom.2, hexp.1.symm.trans hfrom.1⟩

theorem settled_facts {s : MediaRows R F L} {e : ClientRequest F L} {b : ListeningBase}
    (h : AppliesSettlement kind s e b) : kind = .podcastEpisode ∧ s.base = b := by
  obtain ⟨origin, w, hreq, hfrom, hwrite⟩ := h
  obtain ⟨he, hr⟩ := fence_of_sentFrom (.inr ⟨origin, _, hreq⟩) hfrom hwrite
  obtain ⟨o, ho, hwr⟩ := hwrite
  have heff := effect_of_outcome ho
  rw [hreq] at heff
  obtain ⟨hkind, hmatch, -⟩ := heff.of_settled hwr
  refine ⟨hkind, ?_⟩
  cases b
  simp only [MediaRows.base, ListeningBase.mk.injEq] at he hr ⊢
  exact ⟨hmatch, hr, he⟩

/-! ## Runs -/

/-- **No heartbeat or settlement is applied from a base observed before another
accepted position write, or before an accepted reset of a podcast episode.** -/
theorem stale_base_refused {s : MediaRows R F L} {tr} (hr : (mediaSystem R F L kind).Run s tr) {e : ClientRequest F L}
    (h : AppliesHeartbeat kind (last s tr) e s.base ∨ AppliesSettlement kind (last s tr) e s.base) :
    Along (fun s e _ => ¬ MovesFence kind s e) s tr := by
  have htokens : (last s tr).base.resetEpoch = s.base.resetEpoch ∧
      (last s tr).base.writeRevision = s.base.writeRevision := by
    rcases h with ⟨w, hreq, hfrom, hwrite⟩ | ⟨origin, w, hreq, hfrom, hwrite⟩
    · exact fence_of_sentFrom (.inl hreq) hfrom hwrite
    · exact fence_of_sentFrom (.inr ⟨origin, _, hreq⟩) hfrom hwrite
  have hfence : (last s tr).fence = s.fence := MediaRows.fence_eq htokens.1 htokens.2
  refine hr.along_not_of_version (v := MediaRows.fence) (P := fun s e _ => MovesFence kind s e) ?_ ?_ ?_
  · intro s e t hs
    obtain rfl := Option.some.inj hs
    exact fence_le_after s e
  · intro s e t hs hm
    obtain rfl := Option.some.inj hs
    exact fence_lt_after hm
  · rw [hfence]
    exact lt_irrefl _

theorem ownHeartbeat_true {client : Nat} {b : ListeningBase} {s : MediaRows R F L} {e : ClientRequest F L}
    (h : e.ownHeartbeat kind client b s = true) : e.client = client ∧
      ∃ w row, e.request = .recordHeartbeat w ∧ w.SentFrom b ∧ e.outcome kind s = .ok (.listening row) := by
  unfold ClientRequest.ownHeartbeat at h
  rw [Bool.and_eq_true, beq_iff_eq] at h
  obtain ⟨hc, h⟩ := h
  refine ⟨hc, ?_⟩
  split at h
  next w row hreq hout =>
    rw [Bool.and_eq_true, beq_iff_eq, beq_iff_eq] at h
    exact ⟨w, row, hreq, h, hout⟩
  next => cases h

/-- A step that is accepted and writes a position, marks or resets puts the
token up. -/
theorem token_lt_after (hk : kind = .podcastEpisode) {s : MediaRows R F L} {e : ClientRequest F L} {o}
    (ho : e.outcome kind s = .ok o)
    (h : o.writesPosition = true ∨ e.request.marks = true ∨ e.request = .resetProgress) :
    s.base.token < (e.after kind s).base.token := by
  have heff := effect_of_outcome ho
  rw [ListeningBase.token_lt]
  rcases h with hw | hm | hreq
  · have := heff.of_writesPosition hw
    omega
  · have := heff.of_marks hm
    omega
  · rw [hreq] at heff
    have := heff.of_reset hk
    omega

theorem nextBase_token_own {client : Nat} {b : ListeningBase} {s : MediaRows R F L} {e : ClientRequest F L}
    (hown : e.ownHeartbeat kind client b s = true) (hle : b.token ≤ s.base.token) :
    (nextBase kind client b s e (e.after kind s)).token ≤ (e.after kind s).base.token ∧
      ((nextBase kind client b s e (e.after kind s)).token = (e.after kind s).base.token →
        b.token = s.base.token ∧ ¬ Overtakes kind client s e) := by
  obtain ⟨hc, w, row, hreq, hfrom, hout⟩ := ownHeartbeat_true hown
  have heff := effect_of_outcome hout
  rw [hreq] at heff
  obtain ⟨he, hr⟩ := fence_of_sentFrom (.inl hreq) hfrom ⟨_, hout, rfl⟩
  have hov : (e.after kind s).base.consumptionOverrideRevision = s.base.consumptionOverrideRevision := by
    simp only [MediaRows.base, heff.of_heartbeat.2]
  have hfree : ¬ Overtakes kind client s e := by
    rintro (⟨hreset, -⟩ | ⟨hmarks, -⟩ | ⟨-, hother⟩)
    · rw [hreq] at hreset; cases hreset
    · rw [hreq] at hmarks; cases hmarks
    · exact hother ⟨hc, w, hreq⟩
  have hrank : overrideRank b.consumptionOverrideRevision ≤ overrideRank s.base.consumptionOverrideRevision := by
    by_contra hgt
    exact absurd hle (not_le_of_gt (ListeningBase.token_lt.2 (.inr ⟨he, .inr ⟨hr, by omega⟩⟩)))
  unfold nextBase
  rw [if_pos hown]
  refine ⟨?_, fun heq => ⟨?_, hfree⟩⟩
  · refine not_lt.1 fun hlt => ?_
    rw [ListeningBase.token_lt, hov] at hlt
    simp only [lt_irrefl, false_or, true_and] at hlt
    omega
  · simp only [ListeningBase.token, hov, toLex_inj, Prod.mk.injEq, true_and] at heq ⊢
    exact ⟨he.symm, hr.symm, heq⟩

/-- Any other request leaves the base where it is, and puts the token up or
leaves the rows' base where it is too. -/
theorem token_of_step (hk : kind = .podcastEpisode) {client : Nat} {b : ListeningBase} {s : MediaRows R F L}
    (e : ClientRequest F L) (hle : b.token ≤ s.base.token) :
    b.token ≤ (e.after kind s).base.token ∧
      (b.token = (e.after kind s).base.token → b.token = s.base.token ∧ ¬ Overtakes kind client s e) := by
  rcases step_effect kind s e with ⟨o, ho, heff⟩ | ⟨⟨a, ha⟩, hsame⟩
  · by_cases hup : o.writesPosition = true ∨ e.request.marks = true ∨ e.request = .resetProgress
    · have hlt : b.token < (e.after kind s).base.token := lt_of_le_of_lt hle (token_lt_after hk ho hup)
      exact ⟨hlt.le, fun heq => absurd heq hlt.ne⟩
    · obtain ⟨hw, hup⟩ := not_or.1 hup
      obtain ⟨hm, hreset⟩ := not_or.1 hup
      rw [heff.base_eq (by simpa using hw) (by simpa using hm) hreset]
      refine ⟨hle, fun heq => ⟨heq, ?_⟩⟩
      rintro (⟨hreq, -⟩ | ⟨hmarks, -⟩ | ⟨⟨o', ho', hw'⟩, -⟩)
      · exact hreset hreq
      · exact hm hmarks
      · obtain rfl := Except.ok.inj (ho.symm.trans ho')
        exact hw hw'
  · rw [hsame]
    refine ⟨hle, fun heq => ⟨heq, ?_⟩⟩
    rintro (⟨-, o, ho⟩ | ⟨-, o, ho⟩ | ⟨⟨o, ho, -⟩, -⟩) <;> · rw [ha] at ho; cases ho

/-- One step of a client's base: if it is not past the rows before the step it
is not past them after, and if it is level with them after the step it was so
before and nothing overtook it. -/
theorem nextBase_token (hk : kind = .podcastEpisode) {client : Nat} {b : ListeningBase} {s : MediaRows R F L}
    (e : ClientRequest F L) (hle : b.token ≤ s.base.token) :
    (nextBase kind client b s e (e.after kind s)).token ≤ (e.after kind s).base.token ∧
      ((nextBase kind client b s e (e.after kind s)).token = (e.after kind s).base.token →
        b.token = s.base.token ∧ ¬ Overtakes kind client s e) := by
  by_cases hown : e.ownHeartbeat kind client b s = true
  · exact nextBase_token_own hown hle
  · unfold nextBase
    rw [if_neg hown]
    exact token_of_step hk e hle

theorem along_of_heldBase (hk : kind = .podcastEpisode) {client : Nat} :
    ∀ {b : ListeningBase} {s : MediaRows R F L} {tr}, (mediaSystem R F L kind).Run s tr → b.token ≤ s.base.token →
      (heldBase kind client b s tr).token = (last s tr).base.token →
      b.token = s.base.token ∧ Along (fun s e _ => ¬ Overtakes kind client s e) s tr
  | _, _, [], _, _, heq => ⟨heq, trivial⟩
  | _, s, (e, t) :: tr, hr, hle, heq => by
    obtain rfl := Option.some.inj hr.1
    obtain ⟨hle', hlevel⟩ := nextBase_token hk e hle
    obtain ⟨heq', hrest⟩ := along_of_heldBase hk hr.2 hle' heq
    obtain ⟨hb, hfree⟩ := hlevel heq'
    exact ⟨hb, hfree, hrest⟩

/-- **A natural end is settled only if nothing overtook its receipt**: since the
base was captured no reset, no change of the explicit state, and no position
write but the client's own heartbeats was committed. -/
theorem settled_not_overtaken {client : Nat} {s : MediaRows R F L} {tr} (hr : (mediaSystem R F L kind).Run s tr)
    {e : ClientRequest F L} (h : AppliesSettlement kind (last s tr) e (heldBase kind client s.base s tr)) :
    Along (fun s e _ => ¬ Overtakes kind client s e) s tr := by
  obtain ⟨hk, hbase⟩ := settled_facts h
  exact (along_of_heldBase hk hr le_rfl (by rw [hbase])).2

theorem after_eq_self {s : MediaRows R F L} {e : ClientRequest F L}
    (h : (∃ a, e.outcome kind s = .error a) ∨ ∃ o, e.outcome kind s = .ok o ∧ o.refused = true) :
    e.after kind s = s := by
  rcases step_effect kind s e with ⟨o, ho, heff⟩ | ⟨-, hsame⟩
  · rcases h with ⟨a, ha⟩ | ⟨o', ho', href⟩
    · rw [ho] at ha; cases ha
    · obtain rfl := Except.ok.inj (ho.symm.trans ho')
      generalize e.after kind s = t at heff ⊢
      generalize e.request = req at heff
      cases heff with
      | refused hreq hno h => exact h
      | marked hmarks hno hov hr he => rcases hno with rfl | rfl <;> cases href
      | settled hkind hyes hmatch hw hr he => rcases hyes with rfl | rfl <;> cases href
      | _ => cases href
  · exact hsame

/-- **The listening fence.** Accepted position writes, and accepted resets of a
podcast episode, raise the fence; what was observed before one of them is never
applied after it; a natural end is settled only from a receipt nothing
overtook; and whatever is refused changes no row. -/
theorem listening_fenced (kind : MediaKind) (s : MediaRows R F L) :
    (∀ e : ClientRequest F L, MovesFence kind s e → s.fence < (e.after kind s).fence) ∧
    (∀ tr, (mediaSystem R F L kind).Run s tr → ∀ e : ClientRequest F L,
      (AppliesHeartbeat kind (last s tr) e s.base ∨ AppliesSettlement kind (last s tr) e s.base →
        Along (fun s e _ => ¬ MovesFence kind s e) s tr) ∧
      ∀ client, AppliesSettlement kind (last s tr) e (heldBase kind client s.base s tr) →
        Along (fun s e _ => ¬ Overtakes kind client s e) s tr) ∧
    ∀ e : ClientRequest F L, ((∃ a, e.outcome kind s = .error a) ∨ ∃ o, e.outcome kind s = .ok o ∧ o.refused = true) →
      e.after kind s = s :=
  ⟨fun _ h => fence_lt_after h,
    fun _ hr _ => ⟨stale_base_refused hr, fun _ h => settled_not_overtaken hr h⟩,
    fun _ h => after_eq_self h⟩

end Steps

end Fence

/-- A write of position 10 with the given tokens. -/
def plainWrite (revision epoch : Nat) : ListeningWrite Permille := ⟨10, .none, .none, revision, epoch⟩

/-- For a video the reset is accepted, leaves the fence where it was, and a
heartbeat from the base observed before it is applied. -/
theorem listening_not_fenced : ∃ e₁ e₂ : ClientRequest Permille PlainLocator,
    let s : PlainRows := .empty
    (mediaSystem Permille Permille PlainLocator .video).init s ∧
      ProgressReset .video s e₁ ∧ ¬ s.fence < (e₁.after .video s).fence ∧
      AppliesHeartbeat .video (e₁.after .video s) e₂ s.base := by
  refine ⟨⟨2, plainEnv, .resetProgress⟩, ⟨1, plainEnv, .recordHeartbeat (plainWrite 0 0)⟩, rfl, ⟨rfl, .stateOnly, rfl⟩,
    ?_, ⟨plainWrite 0 0, rfl, ⟨rfl, rfl⟩, .listening _, rfl, rfl⟩⟩
  rw [MediaRows.fence_lt]
  decide

/-- A client's heartbeat and then its settlement, from the base that heartbeat moved on. -/
theorem listening_fenced_ownHeartbeat :
    let s : PlainRows := .empty
    let e : ClientRequest Permille PlainLocator := ⟨1, plainEnv, .recordHeartbeat (plainWrite 0 0)⟩
    Along (fun s e _ => ¬ Overtakes .podcastEpisode 1 s e) s [(e, e.after .podcastEpisode s)] := by
  intro s e
  have hsettle : AppliesSettlement .podcastEpisode (last s [(e, e.after .podcastEpisode s)])
      ⟨1, plainEnv, .settleNaturalEnd .direct (plainWrite 1 0) .none⟩
      (heldBase .podcastEpisode 1 s.base s [(e, e.after .podcastEpisode s)]) :=
    ⟨.direct, plainWrite 1 0, rfl, ⟨rfl, rfl⟩, .completedWithoutAdvance, rfl, rfl⟩
  have hrun : (mediaSystem Permille Permille PlainLocator .podcastEpisode).Run s [(e, e.after .podcastEpisode s)] :=
    ⟨rfl, trivial⟩
  exact ((listening_fenced .podcastEpisode s).2.1 _ hrun _).2 1 hsettle

end Nexus.Consumption
