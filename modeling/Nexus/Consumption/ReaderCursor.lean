/-
The reader cursor's compare-and-set.

`cursorRevision` is a version: no request lowers it, and a request that changes
the cursor raises it by one (`CursorEffect.changed`), a reset included, which
leaves a tombstone. So a write that replaces a locator was sent from the
revision it finds, and nothing changed the cursor in between.

A write of the locator that is stored already still touches the engagement
row's `last_engaged_at`, and nothing else (`resend_touches`). That it leaves the
recorded progression alone rests on an invariant of runs (`CursorInv`): a stored
locator's progression is already counted in the engagement row.
-/
import Nexus.Consumption.Requests

namespace Nexus.Consumption
open Transition

section Cursor

variable {R F L : Type}

def MediaRows.cursorRevision (s : MediaRows R F L) : Nat := (s.cursor.map CursorRow.revision).getD 0

/-! ## The store -/

variable [ReaderLocator L F]

theorem validateLocator_ok {kind : MediaKind} {l : L} :
    validateLocatorForMedia kind l = .ok () ↔ ReaderLocator.kind l = expectedLocatorKind kind := by
  unfold validateLocatorForMedia
  split
  · rename_i h; exact iff_of_true rfl h
  · rename_i h; exact iff_of_false (by simp) h

theorem snapshotFromRow_revision {kind : MediaKind} {row : CursorRow L} {snapshot}
    (h : snapshotFromRow kind row = .ok snapshot) : snapshot.revision = row.revision := by
  unfold snapshotFromRow at h
  split at h
  · cases h
  · cases hl : row.locator with
    | none =>
      rw [hl] at h
      obtain rfl := Except.ok.inj h
      rfl
    | some l =>
      rw [hl] at h
      cases hv : validateLocatorForMedia kind l with
      | error e => simp only [hv] at h; cases h
      | ok _ =>
        simp only [hv] at h
        obtain rfl := Except.ok.inj h
        rfl

theorem locator_of_snapshot {kind : MediaKind} {row : CursorRow L} {revision l}
    (h : snapshotFromRow kind row = .ok (.positioned revision l)) : row.locator = .some l := by
  unfold snapshotFromRow at h
  split at h
  · cases h
  · cases hl : row.locator with
    | none => rw [hl] at h; cases h
    | some l' =>
      rw [hl] at h
      cases hv : validateLocatorForMedia kind l' with
      | error e => simp only [hv] at h; cases h
      | ok _ =>
        simp only [hv] at h
        cases h
        rfl

/-- What an accepted cursor write finds and leaves. -/
inductive PutEffect (current : Option (CursorRow L)) (write : CursorWrite L) : CursorRow L → Prop
  | first (h : current = .none) (hbase : write.baseRevision = 0) : PutEffect current write ⟨.some write.locator, 1⟩
  | same {row} (h : current = .some row) (hl : row.locator = .some write.locator) : PutEffect current write row
  | replaced {row} (h : current = .some row) (hbase : write.baseRevision = row.revision) :
      PutEffect current write ⟨.some write.locator, row.revision + 1⟩

theorem putCursor_ok [DecidableEq L] {kind : MediaKind} {current : Option (CursorRow L)} {write r}
    (h : putCursorInTxn kind current write = .ok r) :
    ReaderLocator.kind write.locator = expectedLocatorKind kind ∧ PutEffect current write r.1 := by
  unfold putCursorInTxn at h
  cases hv : validateLocatorForMedia kind write.locator with
  | error e => rw [hv] at h; cases h
  | ok _ =>
    rw [hv] at h
    refine ⟨validateLocator_ok.1 hv, ?_⟩
    cases current with
    | none =>
      simp only at h
      split at h
      · cases h
      · rename_i hbase
        obtain rfl := Except.ok.inj h
        exact .first rfl (by omega)
    | some row =>
      simp only at h
      cases hs : snapshotFromRow kind row with
      | error e => rw [hs] at h; cases h
      | ok snapshot =>
        rw [hs] at h
        simp only at h
        have hrev : snapshot.revision = row.revision := snapshotFromRow_revision hs
        split at h
        · rename_i hsame
          rw [hsame] at hs
          obtain rfl := Except.ok.inj h
          exact .same rfl (locator_of_snapshot hs)
        · split at h
          · cases h
          · rename_i hbase
            obtain rfl := Except.ok.inj h
            exact .replaced rfl (by omega)

theorem resetCursor_ok {kind : MediaKind} {current : Option (CursorRow L)} {row}
    (h : resetCursorInTxn kind current = .ok row) :
    row = ⟨.none, (current.map CursorRow.revision).getD 0 + 1⟩ := by
  unfold resetCursorInTxn at h
  cases current with
  | none =>
    obtain rfl := Except.ok.inj h
    rfl
  | some cur =>
    simp only at h
    cases hs : snapshotFromRow kind cur with
    | error e => rw [hs] at h; cases h
    | ok _ =>
      rw [hs] at h
      obtain rfl := Except.ok.inj h
      rfl

theorem recordEngagement_counts [SqlReal R F] (current : Option (ReaderEngagementRow R)) (now : Instant) (l : L) :
    ∀ p, locatorProgression l = .some p → ∃ m, (recordEngagementInTxn current now l).maxTotalProgression = .some m ∧
      SqlReal.store p ≤ m := by
  intro p hp
  unfold recordEngagementInTxn
  simp only [hp, Option.map_some]
  cases current with
  | none => exact ⟨_, rfl, le_rfl⟩
  | some row => exact Sql.le_greatest _ _

theorem recordEngagement_again [SqlReal R F] {row : ReaderEngagementRow R} {l : L} {now : Instant}
    (h : ∀ p, locatorProgression l = .some p → ∃ m, row.maxTotalProgression = .some m ∧ SqlReal.store p ≤ m) :
    recordEngagementInTxn (.some row) now l = ⟨now, row.maxTotalProgression⟩ := by
  unfold recordEngagementInTxn
  simp only
  cases hp : locatorProgression l with
  | none => rw [Option.map_none, Sql.greatest_none]
  | some p =>
    obtain ⟨m, hm, hle⟩ := h p hp
    rw [Option.map_some, hm, Sql.greatest_of_le hle]

/-! ## What an accepted request does -/

variable [Fraction F] [SqlReal R F] {kind : MediaKind} {env : RequestEnv} {s : MediaRows R F L}

/-- What an accepted request does to the cursor and the engagement row. -/
inductive CursorEffect (kind : MediaKind) (env : RequestEnv) (s t : MediaRows R F L) : Request F L → Prop
  | other {req} (hput : ∀ write, req ≠ .putReaderCursor write) (hreset : req ≠ .resetProgress)
      (h : t.cursor = s.cursor ∧ t.engagement = s.engagement) : CursorEffect kind env s t req
  | put {write row} (hkind : ReaderLocator.kind write.locator = expectedLocatorKind kind)
      (hput : PutEffect s.cursor write row) (hc : t.cursor = .some row)
      (he : t.engagement = .some (recordEngagementInTxn s.engagement env.now write.locator)) :
      CursorEffect kind env s t (.putReaderCursor write)
  | reset (hc : t.cursor = .some ⟨.none, s.cursorRevision + 1⟩) (he : t.engagement = .none) :
      CursorEffect kind env s t .resetProgress

omit [ReaderLocator L F] in
theorem kept_recordCompletion {b factKind} :
    (recordCompletionIfTransitioned kind env s b factKind).cursor = s.cursor ∧
      (recordCompletionIfTransitioned kind env s b factKind).engagement = s.engagement := by
  unfold recordCompletionIfTransitioned
  split <;> exact ⟨rfl, rfl⟩

omit [ReaderLocator L F] in
theorem kept_writeFinished {b} : (writeFinishedState kind env s b).cursor = s.cursor ∧
    (writeFinishedState kind env s b).engagement = s.engagement := by
  unfold writeFinishedState
  simp only
  split <;> exact ⟨rfl, rfl⟩

omit [ReaderLocator L F] in
theorem isFinished_touch {rows : ConsumptionRows R F} {row : ReaderEngagementRow R} (h : rows.engagement = .some row)
    (durationSeconds : Option Nat) (now : Instant) :
    effectiveStateIsFinished kind durationSeconds { rows with engagement := .some ⟨now, row.maxTotalProgression⟩ } =
      effectiveStateIsFinished kind durationSeconds rows := by
  cases kind <;> simp only [effectiveStateIsFinished, mediaReadState, h, docState]

theorem cursorEffect [DecidableEq L] {req : Request F L} {res} (h : applyRequest kind env s req = .ok res) :
    CursorEffect kind env s res.1 req := by
  obtain ⟨t, o⟩ := res
  have hpath : Accepted kind env s req t o := applyRequest_ok h
  cases hpath with
  | heartbeat => exact .other (by simp) (by simp) kept_recordCompletion
  | previewKept | preview | settleRefused | unread | undone | batchUnread =>
    exact .other (by simp) (by simp) ⟨rfl, rfl⟩
  | settled | ensureFinished | itemFinished | batchFinished => exact .other (by simp) (by simp) kept_writeFinished
  | reset _ hcursor => exact .reset (congrArg Option.some (resetCursor_ok hcursor)) rfl
  | cursor _ hput =>
    obtain ⟨hkind, heff⟩ := putCursor_ok hput
    exact .put hkind heff kept_recordCompletion.1 kept_recordCompletion.2

/-! ## Steps -/

section Steps

variable [DecidableEq L]

theorem step_cursorEffect (kind : MediaKind) (s : MediaRows R F L) (e : ClientRequest F L) :
    (∃ o, e.outcome kind s = .ok o ∧ CursorEffect kind e.env s (e.after kind s) e.request) ∨
      ((∃ a, e.outcome kind s = .error a) ∧ e.after kind s = s) := by
  unfold ClientRequest.outcome ClientRequest.after
  cases h : applyRequest kind e.env s e.request with
  | ok r => exact .inl ⟨r.2, rfl, cursorEffect h⟩
  | error a => exact .inr ⟨⟨a, rfl⟩, rfl⟩

theorem cursor_after (kind : MediaKind) (s : MediaRows R F L) (e : ClientRequest F L) :
    (e.after kind s).cursor = s.cursor ∨ (e.after kind s).cursorRevision = s.cursorRevision + 1 := by
  rcases step_cursorEffect kind s e with ⟨o, -, heff⟩ | ⟨-, hsame⟩
  · generalize e.after kind s = t at heff ⊢
    generalize e.request = req at heff
    cases heff with
    | other hput hreset h => exact .inl h.1
    | put hkind hput hc he =>
      cases hput with
      | first h hbase =>
        right
        simp only [MediaRows.cursorRevision, hc, h, Option.map_some, Option.map_none, Option.getD_some,
          Option.getD_none]
      | same h hl => exact .inl (hc.trans h.symm)
      | replaced h hbase =>
        right
        simp only [MediaRows.cursorRevision, hc, h, Option.map_some, Option.getD_some]
    | reset hc he =>
      right
      simp only [MediaRows.cursorRevision, hc, Option.map_some, Option.getD_some]
  · exact .inl (by rw [hsame])

theorem cursorRevision_le_after (kind : MediaKind) (s : MediaRows R F L) (e : ClientRequest F L) :
    s.cursorRevision ≤ (e.after kind s).cursorRevision := by
  rcases cursor_after kind s e with h | h
  · simp only [MediaRows.cursorRevision, h, le_refl]
  · omega

/-- A request that changes the cursor raises its revision, and so does every
accepted reset. -/
theorem cursorRevision_lt_after {kind : MediaKind} {s : MediaRows R F L} {e : ClientRequest F L}
    (h : (e.after kind s).cursor ≠ s.cursor ∨ e.request = .resetProgress ∧ ∃ o, e.outcome kind s = .ok o) :
    s.cursorRevision < (e.after kind s).cursorRevision := by
  rcases h with hne | ⟨hreq, o, ho⟩
  · have := (cursor_after kind s e).resolve_left hne
    omega
  · rcases step_cursorEffect kind s e with ⟨o, -, heff⟩ | ⟨⟨a, ha⟩, -⟩
    · rw [hreq] at heff
      cases heff with
      | other hput hreset h => exact absurd rfl hreset
      | reset hc he => simp only [MediaRows.cursorRevision, hc, Option.map_some, Option.getD_some]; omega
    · rw [ho] at ha
      cases ha

theorem base_of_changed {kind : MediaKind} {s : MediaRows R F L} {e : ClientRequest F L} {write : CursorWrite L}
    (hreq : e.request = .putReaderCursor write) (h : (e.after kind s).cursor ≠ s.cursor) :
    write.baseRevision = s.cursorRevision := by
  rcases step_cursorEffect kind s e with ⟨o, -, heff⟩ | ⟨-, hsame⟩
  · rw [hreq] at heff
    cases heff with
    | other hput hreset hkept => exact absurd hkept.1 h
    | put hkind hput hc he =>
      cases hput with
      | first hn hbase => simp only [MediaRows.cursorRevision, hn, hbase, Option.map_none, Option.getD_none]
      | same hs hl => exact absurd (hc.trans hs.symm) h
      | replaced hs hbase => simp only [MediaRows.cursorRevision, hs, hbase, Option.map_some, Option.getD_some]
  · exact absurd (by rw [hsame]) h

/-! ## Runs -/

/-- A stored locator fits the media, and what it counts towards progression is
in the engagement row. -/
structure CursorInv (kind : MediaKind) (s : MediaRows R F L) : Prop where
  revision : ∀ row, s.cursor = .some row → 1 ≤ row.revision
  locator : ∀ row l, s.cursor = .some row → row.locator = .some l →
    ReaderLocator.kind l = expectedLocatorKind kind ∧ ∃ engagement, s.engagement = .some engagement ∧
      ∀ p, locatorProgression l = .some p → ∃ m, engagement.maxTotalProgression = .some m ∧ SqlReal.store p ≤ m

theorem CursorInv.after {s : MediaRows R F L} (h : CursorInv kind s) (e : ClientRequest F L) :
    CursorInv kind (e.after kind s) := by
  rcases step_cursorEffect kind s e with ⟨o, -, heff⟩ | ⟨-, hsame⟩
  · generalize e.after kind s = t at heff ⊢
    generalize e.request = req at heff
    cases heff with
    | other hput hreset hkept =>
      refine ⟨fun row hrow => h.revision row (hkept.1.symm.trans hrow), fun row l hrow hl => ?_⟩
      rw [hkept.2]
      exact h.locator row l (hkept.1.symm.trans hrow) hl
    | @put write row hkind hput hc he =>
      have hrow : row.locator = .some write.locator ∧ 1 ≤ row.revision := by
        cases hput with
        | first hn hbase => exact ⟨rfl, le_rfl⟩
        | same hs hl => exact ⟨hl, h.revision row hs⟩
        | replaced hs hbase => exact ⟨rfl, Nat.le_add_left 1 _⟩
      refine ⟨fun row' hrow' => ?_, fun row' l hrow' hl => ?_⟩
      · obtain rfl := Option.some.inj (hc.symm.trans hrow')
        exact hrow.2
      · obtain rfl := Option.some.inj (hc.symm.trans hrow')
        obtain rfl := Option.some.inj (hrow.1.symm.trans hl)
        exact ⟨hkind, _, he, recordEngagement_counts _ _ _⟩
    | reset hc he =>
      refine ⟨fun row' hrow' => ?_, fun row' l hrow' hl => ?_⟩
      · obtain rfl := Option.some.inj (hc.symm.trans hrow')
        exact Nat.le_add_left 1 _
      · obtain rfl := Option.some.inj (hc.symm.trans hrow')
        cases hl
  · rw [hsame]
    exact h

theorem CursorInv.reachable {s : MediaRows R F L} (h : (mediaSystem R F L kind).Reachable s) : CursorInv kind s := by
  refine h.invariant (fun s h0 => ?_) fun s e t hs hI => ?_
  · obtain rfl : s = .empty := h0
    exact ⟨fun row hrow => (by cases hrow), fun row l hrow => (by cases hrow)⟩
  · obtain rfl := Option.some.inj hs
    exact hI.after e

/-- **Re-sending the stored locator is accepted, whatever its base, and touches
the engagement row's clock only.** -/
theorem resend_touches {s : MediaRows R F L} (hI : CursorInv kind s) {e : ClientRequest F L} {write : CursorWrite L}
    {row : CursorRow L} (hreq : e.request = .putReaderCursor write) (hvisible : e.env.visible = true)
    (hrow : s.cursor = .some row) (hl : row.locator = .some write.locator) :
    e.outcome kind s = .ok (.cursor (.positioned row.revision write.locator)) ∧
    ∃ engagement, s.engagement = .some engagement ∧
      e.after kind s = { s with engagement := .some ⟨e.env.now, engagement.maxTotalProgression⟩ } := by
  obtain ⟨hkind, engagement, heng, hcount⟩ := hI.locator row write.locator hrow hl
  have hrev : ¬ row.revision < 1 := Nat.not_lt.2 (hI.revision row hrow)
  have hvalid : validateLocatorForMedia kind write.locator = .ok () := validateLocator_ok.2 hkind
  have hsnap : snapshotFromRow kind row = .ok (.positioned row.revision write.locator) := by
    simp only [snapshotFromRow, hrev, if_false, hl, hvalid]
  have hput : putCursorInTxn kind s.cursor write = .ok (row, .positioned row.revision write.locator) := by
    simp only [putCursorInTxn, hvalid, hrow, hsnap, ReaderCursorSnapshot.revision, if_true]
  have hcursor : ({ s with
      cursor := .some row, engagement := .some ⟨e.env.now, engagement.maxTotalProgression⟩ } : MediaRows R F L) =
      { s with engagement := .some ⟨e.env.now, engagement.maxTotalProgression⟩ } := by simp only [hrow]
  have happly : applyRequest kind e.env s e.request =
      .ok ({ s with engagement := .some ⟨e.env.now, engagement.maxTotalProgression⟩ },
        .cursor (.positioned row.revision write.locator)) := by
    rw [hreq]
    simp only [applyRequest, putReaderCursorOp, hvisible, hput, heng, Bool.not_true, Bool.false_eq_true, if_false,
      recordEngagement_again hcount, recordCompletionIfTransitioned]
    rw [isFinished_touch heng, Bool.or_not_self, if_pos rfl, hcursor]
  unfold ClientRequest.outcome ClientRequest.after
  rw [happly]
  exact ⟨rfl, engagement, heng, rfl⟩

/-- **The reader cursor's compare-and-set.** Its revision never falls along a
run, a request that changes the cursor (and every accepted reset) raises it, a
write never replaces another locator unless nothing changed the cursor since
its base was read, a re-sent locator only touches the engagement row's clock,
and a rejected request changes nothing. -/
theorem cursor_guarded (kind : MediaKind) {s : MediaRows R F L} (hs : (mediaSystem R F L kind).Reachable s) :
    (∀ tr, (mediaSystem R F L kind).Run s tr → s.cursorRevision ≤ (last s tr).cursorRevision ∧
      ∀ (e : ClientRequest F L) (write : CursorWrite L), e.request = .putReaderCursor write →
        write.baseRevision = s.cursorRevision → (e.after kind (last s tr)).cursor ≠ (last s tr).cursor →
          Along (fun s e _ => ¬ (e.after kind s).cursor ≠ s.cursor) s tr) ∧
    ∀ e : ClientRequest F L,
      ((e.after kind s).cursor ≠ s.cursor ∨ (e.request = .resetProgress ∧ ∃ o, e.outcome kind s = .ok o) →
        s.cursorRevision < (e.after kind s).cursorRevision) ∧
      (∀ write, e.request = .putReaderCursor write → write.baseRevision ≠ s.cursorRevision →
        (e.after kind s).cursor = s.cursor) ∧
      (∀ write row, e.request = .putReaderCursor write → s.cursor = .some row → row.locator = .some write.locator →
        e.env.visible = true → e.outcome kind s = .ok (.cursor (.positioned row.revision write.locator)) ∧
          ∃ engagement, s.engagement = .some engagement ∧
            e.after kind s = { s with engagement := .some ⟨e.env.now, engagement.maxTotalProgression⟩ }) ∧
      ((∃ a, e.outcome kind s = .error a) → e.after kind s = s) := by
  have hle : ∀ (s : MediaRows R F L) e t, (mediaSystem R F L kind).step s e t → s.cursorRevision ≤ t.cursorRevision := by
    intro s e t hstep
    obtain rfl := Option.some.inj hstep
    exact cursorRevision_le_after kind s e
  refine ⟨fun tr hr => ⟨hr.le_last hle, fun e write hreq hbase hch => ?_⟩, fun e => ⟨cursorRevision_lt_after, ?_, ?_, ?_⟩⟩
  · have hsame : write.baseRevision = (last s tr).cursorRevision := base_of_changed hreq hch
    refine hr.along_not_of_version (v := MediaRows.cursorRevision)
      (P := fun s e _ => (e.after kind s).cursor ≠ s.cursor) hle (fun s e t hstep hne => ?_) (by omega)
    obtain rfl := Option.some.inj hstep
    exact cursorRevision_lt_after (.inl hne)
  · intro write hreq hbase
    by_contra hne
    exact hbase (base_of_changed hreq hne)
  · intro write row hreq hrow hl hvisible
    exact resend_touches (CursorInv.reachable hs) hreq hvisible hrow hl
  · rintro ⟨a, ha⟩
    rcases step_cursorEffect kind s e with ⟨o, ho, -⟩ | ⟨-, hsame⟩
    · rw [ha] at ho
      cases ho
    · exact hsame

end Steps

end Cursor

/-- Writes a web locator at the given progression. -/
def plainPut (client : Nat) (now : Instant) (progression : Nat) (base : Nat) : ClientRequest Permille PlainLocator :=
  ⟨client, { plainEnv with now := now }, .putReaderCursor ⟨⟨.web, .some progression⟩, base⟩⟩

def writtenOnce : PlainRows := (plainPut 1 0 200 0).after .webArticle .empty

theorem reachable_writtenOnce : (mediaSystem Permille Permille PlainLocator .webArticle).Reachable writtenOnce :=
  .step (e := plainPut 1 0 200 0) (.init rfl) rfl

/-- Re-sent five microseconds later, the same write moves the engagement row's clock. -/
theorem resend_changes : ∃ (s : PlainRows) (e : ClientRequest Permille PlainLocator) (write : CursorWrite PlainLocator),
    (mediaSystem Permille Permille PlainLocator .webArticle).Reachable s ∧ e.request = .putReaderCursor write ∧
      s.cursor = .some ⟨.some write.locator, 1⟩ ∧ e.after .webArticle s ≠ s := by
  refine ⟨writtenOnce, plainPut 1 5 200 0, ⟨⟨.web, .some (200 : Nat)⟩, 0⟩, reachable_writtenOnce, rfl, rfl, ?_⟩
  decide

/-- A second client's first write loses the race. -/
theorem cursor_guarded_staleWrite : ((plainPut 2 5 700 0).after .webArticle writtenOnce).cursor = writtenOnce.cursor :=
  ((cursor_guarded .webArticle reachable_writtenOnce).2 (plainPut 2 5 700 0)).2.1 _ rfl (by decide)

end Nexus.Consumption
