/-
Steps that are billed once: how often the effect of a step is dispatched.

`Edits` says what any step does to the journal. A dispatch checkpoint needs its
step prepared on a run that goes on, and leaves it where only an accepted
`ProveNotDispatched` brings it back from (`Budgeted`); an effect is sent at
most once for a checkpoint (`Tokens`). So a step's effect is dispatched at most
once more than it was proven not to be (`billed_once`).

The job's row stays while the run goes on (`Retained`), so a completed record
stays as well, and no checkpoint of its step follows (`Edits.closed`). But the
checkpoint and the dispatch behind it are two moves, and only the first looks
at the lease: an attempt that paused in between dispatches late, when the step
may be completed (`dispatched_when_completed`).
-/
import Mathlib.Data.Finset.Card
import Nexus.Chat.Lease

namespace Nexus.Chat
open JsonCodec Jobs Relational Transition

variable {F S : Type}

namespace ChatState

variable {O : Outside F S} {runId jobId : Uuid} {s t : ChatState F S} {now : Instant}

/-- The run is terminal, or deleted. -/
def isOver (s : ChatState F S) : Bool := s.run.all (·.status.terminal)

/-- The record the job's payload keeps of a step. -/
def stored (s : ChatState F S) (jobId : Uuid) (path : StepPath) : Option StepReplayState :=
  (s.job jobId).bind fun j => j.payload.coordination path

/-- A record a step of the loop writes over what is there, other than a
dispatch checkpoint. -/
inductive Recorded : Option StepReplayState → StepReplayState → Prop
  | prepared {state} : state.dispatchPhase = .prepared → Recorded .none state
  | database {state} : state.dispatchPhase = .completed → Recorded .none state
  | completed {old state} : old.open_ → state.dispatchPhase = .completed → Recorded (.some old) state

/-- What a step does to the journal. -/
inductive Edits (jobId : Uuid) (s t : ChatState F S) : Prop
  | kept : (∀ j', t.job jobId = .some j' → ∃ j, s.job jobId = .some j ∧ j.payload = j'.payload) →
      (s.isOver = true → t.isOver = true) → t.marks = s.marks → t.proven = s.proven → Edits jobId s t
  | ended : t.isOver = true → t.marks = s.marks → t.proven = s.proven → Edits jobId s t
  | recorded {j j' path state} : s.isOver = false → s.job jobId = .some j → t.job jobId = .some j' →
      j'.payload = j.payload.withStepState path state → Recorded (j.payload.coordination path) state →
      t.isOver = s.isOver → t.marks = s.marks → t.proven = s.proven → Edits jobId s t
  | marked {j j' path c state} : s.isOver = false → s.job jobId = .some j → t.job jobId = .some j' →
      j'.payload = j.payload.withStepState path state.asUncertain → j.payload.coordination path = .some state →
      state.dispatchPhase = .prepared → t.isOver = s.isOver → t.marks = s.marks ++ [⟨path, c⟩] → t.proven = s.proven →
      Edits jobId s t
  | resolved {j j' path old state} : s.job jobId = .some j → t.job jobId = .some j' →
      j'.payload = j.payload.withStepState path state → j.payload.coordination path = .some old →
      old.dispatchPhase = .uncertain → t.isOver = s.isOver → t.marks = s.marks →
      (state.dispatchPhase = .completed ∧ t.proven = s.proven ∨
        state.dispatchPhase = .prepared ∧ t.proven = s.proven ++ [path]) → Edits jobId s t

theorem Undisturbed.isOver (h : Undisturbed runId jobId s t) (hs : s.isOver = true) : t.isOver = true := by
  cases ht : t.run with
  | none => simp [ChatState.isOver, ht]
  | some r' =>
    obtain ⟨r, hr, hstatus, -⟩ := h.run r' ht
    simp only [ChatState.isOver, hr, Option.all_some] at hs
    simp only [ChatState.isOver, ht, Option.all_some, ← hstatus, hs]

theorem over_finalized {finalize : Option (RunStatus × Text)} {run : Option ChatRun}
    (h : finalize.all (·.1.terminal) = true) (hend : finalize.isSome = true ∨ run.all (·.status.terminal) = true) :
    (finalized run finalize).all (·.status.terminal) = true := by
  cases finalize with
  | none =>
    rcases hend with hend | hend
    · cases hend
    · exact hend
  | some f =>
    obtain ⟨status, content⟩ := f
    cases run with
    | none => rfl
    | some r =>
      simp only [finalized, Option.map_some, Option.all_some]
      split
      · assumption
      · exact h

/-! ## What a step does to the journal -/

theorem isOver_eq_false (h : ∃ r, s.run = .some r ∧ r.status.terminal = false) : s.isOver = false := by
  obtain ⟨r, hr, hactive⟩ := h
  simp only [isOver, hr, Option.all_some, hactive]

section Committed

variable {worker : String} {a : Attempt F S} {payload : ChatPayload} {marks sent : List Dispatch} {pc : Pc F S}

theorem Committed.ended {finalize} (hs : Committed jobId now s t worker a payload finalize [] sent pc)
    (hterminal : finalize.all (·.1.terminal) = true) (hend : finalize.isSome = true ∨ s.isOver = true) : Edits jobId s t := by
  have hover : t.isOver = true := by
    rw [hs.rest]
    exact over_finalized hterminal hend
  refine .ended hover ?_ ?_
  · rw [hs.rest]
    exact List.append_nil _
  · rw [hs.rest]
    rfl

theorem Committed.recorded {path state} (h : Leased jobId s) (ha : s.attempts worker = .some a) (hloop : a.pc.inLoop = true)
    (hs : Committed jobId now s t worker a (a.payload.withStepState path state) .none [] sent pc)
    (hrec : Recorded (a.payload.coordination path) state) : Edits jobId s t := by
  obtain ⟨j, j', hj, -, hheld, hj', hpay, -⟩ := hs.job
  have hcopy := h.copy worker a j ha hj hheld
  rw [hcopy] at hpay hrec
  refine .recorded (isOver_eq_false (h.active worker a j ha hj hheld hloop)) hj hj' hpay hrec ?_ ?_ ?_
  · rw [hs.rest]
    rfl
  · rw [hs.rest]
    exact List.append_nil _
  · rw [hs.rest]
    rfl

theorem Committed.marked {path c state} (h : Leased jobId s) (ha : s.attempts worker = .some a) (hloop : a.pc.inLoop = true)
    (hs : Committed jobId now s t worker a (a.payload.withStepState path state.asUncertain) .none [⟨path, c⟩] sent pc)
    (hstate : a.payload.coordination path = .some state) (hprepared : state.dispatchPhase = .prepared) :
    Edits jobId s t := by
  obtain ⟨j, j', hj, -, hheld, hj', hpay, -⟩ := hs.job
  have hcopy := h.copy worker a j ha hj hheld
  rw [hcopy] at hpay hstate
  refine .marked (c := c) (isOver_eq_false (h.active worker a j ha hj hheld hloop)) hj hj' hpay hstate hprepared ?_ ?_ ?_
  · rw [hs.rest]
    rfl
  · rw [hs.rest]
  · rw [hs.rest]
    rfl

end Committed

theorem edits_unchanged (hqueue : t.queue = s.queue) (hrun : s.isOver = true → t.isOver = true) (hmarks : t.marks = s.marks)
    (hproven : t.proven = s.proven) : Edits jobId s t := by
  refine .kept (fun j' hj' => ⟨j', ?_, rfl⟩) hrun hmarks hproven
  rw [← hj', job, job, hqueue]

theorem edits_checkpoint {worker a payload finalize marks sent pc lost} (h : Leased jobId s) (ha : s.attempts worker = .some a)
    (hedit : ∀ {t}, Committed jobId now s t worker a payload finalize marks sent pc → Edits jobId s t) :
    Edits jobId s (s.move now worker a (.checkpoint payload finalize marks sent pc lost)) := by
  rcases move_checkpoint (h.ctx worker a ha) with hs | hs
  · exact hedit hs
  · rw [hs]
    exact edits_unchanged rfl id rfl rfl

theorem Leased.edits_moved {worker a input m} (h : Leased jobId s) (ha : s.attempts worker = .some a)
    (hm : a.Moves O s.run s.calls input m) : Edits jobId s (s.move now worker a m) := by
  cases hm with
  | fault | raised | changed | active | prepareResumed | checked | readied | resumed | started | refused | denied | sent
  | answered | ambiguous => exact edits_unchanged rfl id rfl rfl
  | running =>
    refine edits_unchanged rfl (fun hover => ?_) rfl rfl
    cases hr : s.run with
    | none => simp [ChatState.isOver, move, hr]
    | some r =>
      simp only [ChatState.isOver, hr, Option.all_some] at hover
      have hq : r.status ≠ .queued := fun hq => by rw [hq] at hover; cases hover
      simp only [ChatState.isOver, move, hr, Option.map_some, Option.all_some, if_neg hq, hover]
  | cleared hover => exact edits_checkpoint h ha fun hs => hs.ended rfl (.inr hover)
  | cancelledEarly | cancelled | tooLarge | failed | stopped | published =>
    exact edits_checkpoint h ha fun hs => hs.ended rfl (.inl rfl)
  | assembled hpc hnone =>
    refine edits_checkpoint h ha fun hs => hs.recorded h ha (by rw [hpc]; rfl) ?_
    rw [hnone]
    exact .database rfl
  | prepared hpc hnone =>
    refine edits_checkpoint h ha fun hs => hs.recorded h ha (by rw [hpc]; rfl) ?_
    rw [hnone]
    exact .prepared rfl
  | marked harms hstate hprepared => exact edits_checkpoint h ha fun hs => hs.marked h ha harms.inLoop hstate hprepared
  | toolCompleted hcompletes hstate hopen =>
    refine edits_checkpoint h ha fun hs => hs.recorded h ha hcompletes.inLoop ?_
    rw [hstate]
    exact .completed hopen rfl
  | generationCompleted hpc hstate hopen =>
    refine edits_checkpoint h ha fun hs => hs.recorded h ha (by rw [hpc]; rfl) ?_
    rw [hstate]
    exact .completed hopen rfl

theorem Resolved.edits {path resolution toolFacts} (hs : Resolved O runId jobId s t path resolution toolFacts) :
    Edits jobId s t := by
  obtain ⟨j, j', old, next, hj, hold, huncertain, hnext, hj', hpay, -⟩ := hs.job
  have hover : t.isOver = s.isOver := by
    rw [hs.rest]
    rfl
  have hmarks : t.marks = s.marks := by
    rw [hs.rest]
  refine .resolved hj hj' hpay hold huncertain hover hmarks ?_
  cases resolution with
  | proveNotDispatched =>
    obtain rfl := Option.some.inj hnext
    refine .inr ⟨rfl, ?_⟩
    rw [hs.rest]
    rfl
  | attachReconciledResult raw =>
    simp only [ChatState.resolved] at hnext
    split at hnext
    · obtain rfl := Option.some.inj hnext
      refine .inl ⟨rfl, ?_⟩
      rw [hs.rest]
      rfl
    · cases hnext

theorem Leased.edits {ev} (h : Leased jobId s) (hs : Steps O runId jobId s t now ev) : Edits jobId s t := by
  cases hs with
  | act ha hm ht =>
    rw [ht]
    exact h.edits_moved ha hm
  | claim hs =>
    obtain ⟨j, j', hj, hj', hpay, -⟩ := hs.job
    refine .kept (fun j'' hj'' => ⟨j, hj, ?_⟩) ?_ ?_ ?_
    · rw [hj'] at hj''
      obtain rfl := Option.some.inj hj''
      exact hpay.symm
    · rw [hs.attempts]
      exact id
    · rw [hs.attempts]
      rfl
    · rw [hs.attempts]
      rfl
  | reconcile hs => exact hs.edits
  | undisturbed hs =>
    refine .kept (fun j' hj' => ?_) hs.isOver hs.marks hs.proven
    obtain ⟨j, hj, hpay, -⟩ := hs.job.row j' hj'
    exact ⟨j, hj, hpay⟩
  | deleted hs =>
    rw [hs]
    exact .ended rfl rfl rfl

/-! ## The budget of dispatch checkpoints -/

/-- A dispatch checkpoint of the step may still come. -/
def Markable (s : ChatState F S) (jobId : Uuid) (path : StepPath) : Prop :=
  s.isOver = false ∧ ∃ j, s.job jobId = .some j ∧ ∀ state, j.payload.coordination path = .some state →
    state.dispatchPhase = .prepared

def marksOf (s : ChatState F S) (path : StepPath) : Nat := s.marks.countP fun d => d.path = path

def sentOf (s : ChatState F S) (path : StepPath) : Nat := s.sent.countP fun d => d.path = path

def provenOf (s : ChatState F S) (path : StepPath) : Nat := s.proven.count path

/-- The checkpoints of a step, with the one to come, are within its budget. -/
def Budgeted (jobId : Uuid) (s : ChatState F S) (path : StepPath) : Prop :=
  s.marksOf path ≤ 1 + s.provenOf path ∧ (s.Markable jobId path → s.marksOf path ≤ s.provenOf path)

theorem stored_eq {j path} (hj : s.job jobId = .some j) : s.stored jobId path = j.payload.coordination path := by
  rw [stored, hj, Option.bind_some]

theorem Markable.back {path} (h : t.Markable jobId path) (hover : s.isOver = true → t.isOver = true)
    (hjob : ∀ j', t.job jobId = .some j' → ∃ j, s.job jobId = .some j ∧ ∀ state,
      j.payload.coordination path = .some state → j'.payload.coordination path = .some state) : s.Markable jobId path := by
  obtain ⟨hactive, j', hj', hprepared⟩ := h
  obtain ⟨j, hj, hsame⟩ := hjob j' hj'
  refine ⟨?_, j, hj, fun state hstate => hprepared state (hsame state hstate)⟩
  cases hs : s.isOver with
  | false => rfl
  | true =>
    rw [hover hs] at hactive
    cases hactive

theorem not_markable {path j state} (hj : s.job jobId = .some j) (hstate : j.payload.coordination path = .some state)
    (hphase : state.dispatchPhase ≠ .prepared) : ¬ s.Markable jobId path := by
  rintro ⟨-, j₁, hj₁, hprepared⟩
  rw [hj] at hj₁
  obtain rfl := Option.some.inj hj₁
  exact hphase (hprepared state hstate)

theorem coordination_of_ne {j j' : JobRow ChatPayload} {path p : StepPath} {state}
    (hpay : j'.payload = j.payload.withStepState path state) (hne : p ≠ path) :
    j'.payload.coordination p = j.payload.coordination p := by
  rw [hpay, ChatPayload.withStepState_ne _ _ hne]

theorem coordination_self {j j' : JobRow ChatPayload} {path : StepPath} {state}
    (hpay : j'.payload = j.payload.withStepState path state) : j'.payload.coordination path = .some state := by
  rw [hpay, ChatPayload.withStepState_self]

theorem Markable.of_ne {j j' path p state} (hm : t.Markable jobId p) (hover : t.isOver = s.isOver)
    (hj : s.job jobId = .some j) (hj' : t.job jobId = .some j') (hpay : j'.payload = j.payload.withStepState path state)
    (hp : p ≠ path) : s.Markable jobId p := by
  refine hm.back (fun hs => by rw [hover]; exact hs) fun j₁ hj₁ => ⟨j, hj, fun st hst => ?_⟩
  rw [hj'] at hj₁
  obtain rfl := Option.some.inj hj₁
  rw [coordination_of_ne hpay hp]
  exact hst

/-- A checkpoint needs its step markable and leaves it not so; only a proof
makes a step markable again. -/
theorem Budgeted.edits {p} (h : Budgeted jobId s p) (he : Edits jobId s t) : Budgeted jobId t p := by
  obtain ⟨hle, hlt⟩ := h
  cases he with
  | kept hjob hover hmarks hproven =>
    simp only [Budgeted, marksOf, provenOf, hmarks, hproven]
    refine ⟨hle, fun hm => hlt (hm.back hover fun j' hj' => ?_)⟩
    obtain ⟨j, hj, hpay⟩ := hjob j' hj'
    exact ⟨j, hj, fun state hstate => by rw [← hpay]; exact hstate⟩
  | ended hover hmarks hproven =>
    simp only [Budgeted, marksOf, provenOf, hmarks, hproven]
    refine ⟨hle, fun hm => ?_⟩
    have hactive := hm.1
    rw [hover] at hactive
    cases hactive
  | recorded hactive hj hj' hpay hrec hover hmarks hproven =>
    rename_i j j' path state
    simp only [Budgeted, marksOf, provenOf, hmarks, hproven]
    refine ⟨hle, fun hm => hlt ?_⟩
    by_cases hp : p = path
    · subst hp
      cases hold : j.payload.coordination p with
      | none => exact ⟨hactive, j, hj, fun st hst => by rw [hold] at hst; cases hst⟩
      | some old =>
        rw [hold] at hrec
        cases hrec with
        | completed hopen hcompleted =>
          exact absurd hm (not_markable hj' (coordination_self hpay) (by rw [hcompleted]; simp))
    · exact hm.of_ne hover hj hj' hpay hp
  | marked hactive hj hj' hpay hstate hprepared hover hmarks hproven =>
    rename_i j j' path c state
    by_cases hp : p = path
    · subst hp
      have hbefore : s.Markable jobId p := ⟨hactive, j, hj, fun st hst => by
        rw [hstate] at hst
        obtain rfl := Option.some.inj hst
        exact hprepared⟩
      have hafter : ¬ t.Markable jobId p := not_markable hj' (coordination_self hpay) (by simp [StepReplayState.asUncertain])
      have hcount : t.marksOf p = s.marksOf p + 1 := by
        simp [marksOf, hmarks]
      have hsame : t.provenOf p = s.provenOf p := by simp only [provenOf, hproven]
      have hbudget := hlt hbefore
      exact ⟨by omega, fun hm => absurd hm hafter⟩
    · have hcount : t.marksOf p = s.marksOf p := by
        simp [marksOf, hmarks, Ne.symm hp]
      simp only [Budgeted, hcount, provenOf, hproven]
      exact ⟨hle, fun hm => hlt (hm.of_ne hover hj hj' hpay hp)⟩
  | resolved hj hj' hpay hold huncertain hover hmarks hproven =>
    rename_i j j' path old state
    have hcount : t.marksOf p = s.marksOf p := by simp only [marksOf, hmarks]
    have hmore : s.provenOf p ≤ t.provenOf p := by
      rcases hproven with ⟨-, hproven⟩ | ⟨-, hproven⟩
      · simp only [provenOf, hproven, le_refl]
      · simp [provenOf, hproven, List.count_append]
    refine ⟨by omega, fun hm => ?_⟩
    by_cases hp : p = path
    · subst hp
      rcases hproven with ⟨hcompleted, -⟩ | ⟨-, hproven⟩
      · exact absurd hm (not_markable hj' (coordination_self hpay) (by rw [hcompleted]; simp))
      · have hproof : t.provenOf p = s.provenOf p + 1 := by simp [provenOf, hproven]
        omega
    · have hbudget := hlt (hm.of_ne hover hj hj' hpay hp)
      omega

/-! ## Dispatches -/

/-- The attempt is past a dispatch checkpoint of the step and has not sent its
effect. -/
def ArmedAt (path : StepPath) : Pc F S → Prop
  | .armed l _ => l.path = path
  | _ => False

/-- Who is about to send the step's effect. -/
def Armed (s : ChatState F S) (path : StepPath) (worker : String) : Prop :=
  ∃ a, s.attempts worker = .some a ∧ ArmedAt path a.pc

/-- What a step does about the effects of one step path. -/
inductive Flow (s t : ChatState F S) (path : StepPath) : ChatEvent F → Prop
  | still {ev} : (∀ w, t.Armed path w → s.Armed path w) → t.sentOf path = s.sentOf path →
      t.marksOf path = s.marksOf path → Flow s t path ev
  | marked {ev} (worker : String) : (∀ w, t.Armed path w → w = worker ∨ s.Armed path w) →
      t.sentOf path = s.sentOf path → t.marksOf path = s.marksOf path + 1 → Flow s t path ev
  | sent {worker input} : s.Armed path worker → (∀ w, t.Armed path w → w ≠ worker ∧ s.Armed path w) →
      t.sentOf path = s.sentOf path + 1 → t.marksOf path = s.marksOf path → Flow s t path (.act worker input)

theorem Armed.of_undisturbed {path worker} (hs : Undisturbed runId jobId s t) (h : t.Armed path worker) :
    s.Armed path worker := by
  obtain ⟨a', ha', harmed⟩ := h
  rcases hs.attempts worker a' ha' with ha | ⟨a, -, hstart⟩
  · exact ⟨a', ha, harmed⟩
  · cases hstart <;> exact harmed.elim

theorem Armed.of_setPc {path worker w b} (ht : t.attempts = (s.setAttempt worker (.some b)).attempts)
    (h : t.Armed path w) : w = worker ∧ ArmedAt path b.pc ∨ w ≠ worker ∧ s.Armed path w := by
  obtain ⟨a', ha', harmed⟩ := h
  rw [ht] at ha'
  simp only [setAttempt] at ha'
  split at ha'
  · rename_i hw
    obtain rfl := Option.some.inj ha'
    exact .inl ⟨hw, harmed⟩
  · rename_i hw
    exact .inr ⟨hw, a', ha', harmed⟩

theorem not_armedAt_begin (path : StepPath) (prepared : PreparedChatRun F) :
    ¬ ArmedAt path (Pc.begin O prepared) := by
  unfold Pc.begin
  split <;> exact id

theorem not_armedAt_afterGeneration (path : StepPath) (v : Vars F S) (result : GenerationStepResult F) :
    ¬ ArmedAt path (Pc.afterGeneration v result) := by
  unfold Pc.afterGeneration
  split
  · split <;> exact id
  · exact id
  · exact id

theorem not_armedAt_resume (path : StepPath) (l : Loop F S) (state : StepReplayState) :
    ¬ ArmedAt path (l.resume O state) := by
  cases l with
  | turn v =>
    simp only [Loop.resume]
    split
    · exact id
    · exact not_armedAt_afterGeneration path v _
  | tool v call rest =>
    simp only [Loop.resume]
    split <;> exact id
  | publish v => exact id

theorem Flow.setPc {path worker b ev} (ht : t.attempts = (s.setAttempt worker (.some b)).attempts)
    (hb : ¬ ArmedAt path b.pc) (hsent : t.sentOf path = s.sentOf path) (hmarks : t.marksOf path = s.marksOf path) :
    Flow s t path ev := by
  refine .still (fun w hw => ?_) hsent hmarks
  rcases hw.of_setPc ht with ⟨-, harmed⟩ | ⟨-, hw⟩
  · exact absurd harmed hb
  · exact hw

theorem Flow.checkpoint {path worker a payload finalize sent pc lost input}
    (hctx : a.ctx.jobId = jobId ∧ a.ctx.workerId = worker) (hpc : ¬ ArmedAt path pc)
    (hsent : sent.countP (fun d : Dispatch => d.path = path) = 0 ∨
      sent.countP (fun d : Dispatch => d.path = path) = 1 ∧ s.Armed path worker) :
    Flow s (s.move now worker a (.checkpoint payload finalize [] sent pc lost)) path (.act worker input) := by
  have hcases : Committed jobId now s (s.move now worker a (.checkpoint payload finalize [] sent pc lost)) worker a
      payload finalize [] sent pc ∨ _ := move_checkpoint hctx
  rcases hcases with hs | hs
  · have hattempts : ∀ w, ChatState.Armed (s.move now worker a (.checkpoint payload finalize [] sent pc lost)) path w →
        w ≠ worker ∧ s.Armed path w := by
      intro w hw
      rw [hs.rest] at hw
      rcases Armed.of_setPc rfl hw with ⟨-, harmed⟩ | hw
      · exact absurd harmed hpc
      · exact hw
    have hmarks : ChatState.marksOf (s.move now worker a (.checkpoint payload finalize [] sent pc lost)) path =
        s.marksOf path := by
      rw [hs.rest, marksOf, marksOf, List.append_nil]
    have hcount : ChatState.sentOf (s.move now worker a (.checkpoint payload finalize [] sent pc lost)) path =
        s.sentOf path + sent.countP (fun d : Dispatch => d.path = path) := by
      rw [hs.rest, sentOf, sentOf, List.countP_append]
    rcases hsent with hsent | ⟨hsent, hworker⟩
    · exact .still (fun w hw => (hattempts w hw).2) (by omega) hmarks
    · exact .sent hworker hattempts (by omega) hmarks
  · rw [hs]
    exact .setPc rfl id rfl rfl

theorem Flow.mark {worker a payload finalize l c p ev}
    (hs : Committed jobId now s t worker a payload finalize [⟨l.path, c⟩] [] (.armed l c)) : Flow s t p ev := by
  have hsent : t.sentOf p = s.sentOf p := by rw [hs.rest, sentOf, sentOf, List.append_nil]
  by_cases hp : l.path = p
  · refine .marked worker (fun w hw => ?_) hsent (by rw [hs.rest]; simp [marksOf, hp])
    rw [hs.rest] at hw
    exact (Armed.of_setPc rfl hw).imp And.left And.right
  · refine .still (fun w hw => ?_) hsent (by rw [hs.rest]; simp [marksOf, hp])
    rw [hs.rest] at hw
    rcases Armed.of_setPc rfl hw with ⟨-, harmed⟩ | ⟨-, hw⟩
    · exact absurd harmed hp
    · exact hw

theorem completes_sent {v : Vars F S} {call rest sent worker a} (ha : s.attempts worker = .some a)
    (h : Pc.Completes v call rest a.pc sent) (p : StepPath) :
    sent.countP (fun d : Dispatch => d.path = p) = 0 ∨
      sent.countP (fun d : Dispatch => d.path = p) = 1 ∧ s.Armed p worker := by
  generalize hpc : a.pc = pc at h
  cases h with
  | direct => exact .inl rfl
  | external => exact .inl rfl
  | write =>
    by_cases hp : (Loop.tool v call rest).path = p
    · exact .inr ⟨by simp [hp], a, ha, by rw [hpc]; exact hp⟩
    · exact .inl (by simp [hp])

theorem flow_of_moves {worker a input m} (hl : Leased jobId s) (ha : s.attempts worker = .some a)
    (hm : a.Moves O s.run s.calls input m) (p : StepPath) : Flow s (s.move now worker a m) p (.act worker input) := by
  have hctx := hl.ctx worker a ha
  cases hm with
  | fault | raised | changed | active | checked | readied | started | refused | denied | answered | ambiguous | running =>
    exact .setPc rfl id rfl rfl
  | prepareResumed => exact .setPc rfl (not_armedAt_begin p _) rfl rfl
  | resumed => exact .setPc rfl (not_armedAt_resume p _ _) rfl rfl
  | sent hpc =>
    rename_i l c
    by_cases hp : l.path = p
    · refine .sent ⟨a, ha, by rw [hpc]; exact hp⟩ (fun w hw => ?_) (by simp [sentOf, move, hp]) rfl
      rcases Armed.of_setPc rfl hw with ⟨-, harmed⟩ | hw
      · exact harmed.elim
      · exact hw
    · exact .setPc rfl id (by simp [sentOf, move, hp, setAttempt]) rfl
  | cleared | cancelledEarly | cancelled | tooLarge | failed | stopped | published | prepared =>
    exact Flow.checkpoint hctx id (.inl rfl)
  | assembled => exact Flow.checkpoint hctx (not_armedAt_begin p _) (.inl rfl)
  | generationCompleted => exact Flow.checkpoint hctx (not_armedAt_afterGeneration p _ _) (.inl rfl)
  | toolCompleted hcompletes => exact Flow.checkpoint hctx id (completes_sent ha hcompletes p)
  | marked =>
    rename_i l c state lost harms hstate hprepared hlost
    have hcases : Committed jobId now s (s.move now worker a (.checkpoint (a.payload.withStepState l.path state.asUncertain)
        .none [⟨l.path, c⟩] [] (.armed l c) lost)) worker a _ _ _ _ _ ∨ _ := move_checkpoint hctx
    rcases hcases with hs | hs
    · exact Flow.mark hs
    · rw [hs]
      exact .setPc rfl id rfl rfl

theorem Leased.flow {ev} (hl : Leased jobId s) (hs : Steps O runId jobId s t now ev) (p : StepPath) : Flow s t p ev := by
  cases hs with
  | act ha hm ht =>
    rw [ht]
    exact flow_of_moves hl ha hm p
  | claim hs =>
    rw [hs.attempts]
    exact .setPc rfl (by rw [hs.pc]; exact id) rfl rfl
  | reconcile hs =>
    rw [hs.rest]
    exact .still (fun _ hw => hw) rfl rfl
  | deleted hs =>
    rw [hs]
    exact .still (fun _ hw => hw) rfl rfl
  | undisturbed hs =>
    exact .still (fun _ hw => hw.of_undisturbed hs) (by rw [sentOf, hs.sent, sentOf]) (by rw [marksOf, hs.marks, marksOf])

/-- Each effect of the step that was sent or is about to be has a checkpoint of
its own. -/
def Tokens (s : ChatState F S) (path : StepPath) : Prop :=
  ∃ armed : Finset String, (∀ worker, s.Armed path worker → worker ∈ armed) ∧ s.sentOf path + armed.card ≤ s.marksOf path

theorem Tokens.flow {p ev} (h : Tokens s p) (hf : Flow s t p ev) : Tokens t p := by
  obtain ⟨armed, hmem, hle⟩ := h
  cases hf with
  | still harmed hsent hmarks => exact ⟨armed, fun w hw => hmem w (harmed w hw), by omega⟩
  | marked worker harmed hsent hmarks =>
    refine ⟨insert worker armed, fun w hw => ?_, ?_⟩
    · rcases harmed w hw with rfl | hw
      · exact Finset.mem_insert_self _ _
      · exact Finset.mem_insert_of_mem (hmem w hw)
    · have hcard := Finset.card_insert_le worker armed
      omega
  | sent hworker harmed hsent hmarks =>
    rename_i worker input
    refine ⟨armed.erase worker, fun w hw => ?_, ?_⟩
    · obtain ⟨hne, hw⟩ := harmed w hw
      exact Finset.mem_erase.2 ⟨hne, hmem w hw⟩
    · have hcard := Finset.card_erase_add_one (hmem worker hworker)
      omega

theorem accounted (h : (chatSystem O runId jobId).Reachable s) (path : StepPath) :
    Leased jobId s ∧ Budgeted jobId s path ∧ Tokens s path := by
  refine h.invariant (I := fun s => Leased jobId s ∧ Budgeted jobId s path ∧ Tokens s path) (fun s hs => ?_) ?_
  · obtain ⟨-, -, -, hidle, hmarks, hsent, -⟩ := id hs
    refine ⟨Leased.reachable (.init hs), ?_, ∅, ?_, ?_⟩
    · simp [Budgeted, marksOf, hmarks]
    · rintro w ⟨a, ha, -⟩
      rw [hidle w] at ha
      cases ha
    · simp [sentOf, hsent]
  · rintro s e t hst ⟨hl, hb, ht⟩
    have hsteps := steps_of_next hst
    exact ⟨hl.step hsteps, hb.edits (hl.edits hsteps), ht.flow (hl.flow hsteps path)⟩

theorem sentOf_le (h : (chatSystem O runId jobId).Reachable s) (path : StepPath) :
    s.sentOf path ≤ 1 + s.provenOf path := by
  obtain ⟨-, ⟨hle, -⟩, armed, -, htokens⟩ := accounted h path
  omega

/-! ## While the run goes on -/

theorem Edits.isOver (he : Edits jobId s t) (h : s.isOver = true) : t.isOver = true := by
  cases he with
  | kept _ hover => exact hover h
  | ended hover => exact hover
  | recorded _ _ _ _ _ hover | marked _ _ _ _ _ _ hover | resolved _ _ _ _ _ hover =>
    rw [hover]
    exact h

theorem Edits.active (he : Edits jobId s t) (h : t.isOver = false) : s.isOver = false := by
  cases hs : s.isOver with
  | false => rfl
  | true =>
    rw [he.isOver hs] at h
    cases h

/-- The job's row stays while the run goes on. -/
structure Retained (jobId : Uuid) (s : ChatState F S) : Prop where
  job : s.isOver = false → ∃ j, s.job jobId = .some j ∧ j.kind = chatRunKind ∧ j.status ≠ .succeeded
  returned : ∀ worker a, s.attempts worker = .some a → a.pc = .returned → s.isOver = true

theorem begin_ne_returned (prepared : PreparedChatRun F) : Pc.begin O prepared ≠ (.returned : Pc F S) := by
  unfold Pc.begin
  split <;> simp

theorem afterGeneration_ne_returned (v : Vars F S) (result : GenerationStepResult F) :
    Pc.afterGeneration v result ≠ .returned := by
  unfold Pc.afterGeneration
  split
  · split <;> simp
  · simp
  · simp

theorem resume_ne_returned (l : Loop F S) (state : StepReplayState) : l.resume O state ≠ .returned := by
  cases l with
  | turn v =>
    simp only [Loop.resume]
    split
    · simp
    · exact afterGeneration_ne_returned v _
  | tool v call rest =>
    simp only [Loop.resume]
    split <;> simp
  | publish v => simp [Loop.resume]

theorem returns_of_moves {a : Attempt F S} {input m} (hm : a.Moves O s.run s.calls input m) (hreturned : m.pc = .returned) :
    ∃ payload finalize lost, m = .checkpoint payload finalize [] [] .returned lost ∧
      finalize.all (·.1.terminal) = true ∧ (finalize.isSome = true ∨ s.isOver = true) := by
  have hends : ∀ {finalize}, finalize.all (·.1.terminal) = true → finalize.isSome = true ∨ s.isOver = true →
      ∃ payload finalize' lost, a.finalizeAndClear s.calls finalize = .checkpoint payload finalize' [] [] .returned lost ∧
        finalize'.all (·.1.terminal) = true ∧ (finalize'.isSome = true ∨ s.isOver = true) :=
    fun hterminal hend => ⟨_, _, _, rfl, hterminal, hend⟩
  cases hm with
  | cleared hover => exact hends rfl (.inr hover)
  | cancelledEarly | cancelled | tooLarge | failed | stopped | published => exact hends rfl (.inl rfl)
  | prepareResumed | assembled => exact absurd hreturned (begin_ne_returned _)
  | resumed => exact absurd hreturned (resume_ne_returned _ _)
  | generationCompleted => exact absurd hreturned (afterGeneration_ne_returned _ _)
  | fault | raised | changed | running | active | checked | prepared | readied | started | refused | denied | marked | sent
  | answered | ambiguous | toolCompleted => cases hreturned

theorem Retained.attempt {worker b} (h : Retained jobId s) (he : Edits jobId s t)
    (hattempts : t.attempts = (s.setAttempt worker (.some b)).attempts) (hpc : b.pc = .returned → t.isOver = true)
    (hjob : ∀ j, s.job jobId = .some j → j.kind = chatRunKind → j.status ≠ .succeeded →
      ∃ j', t.job jobId = .some j' ∧ j'.kind = chatRunKind ∧ j'.status ≠ .succeeded) : Retained jobId t where
  job hactive := by
    obtain ⟨j, hj, hkind, hunfinished⟩ := h.job (he.active hactive)
    exact hjob j hj hkind hunfinished
  returned w b' hb' hreturned := by
    rw [hattempts] at hb'
    simp only [setAttempt] at hb'
    split at hb'
    · obtain rfl := Option.some.inj hb'
      exact hpc hreturned
    · exact he.isOver (h.returned w b' hb' hreturned)

theorem Retained.moved {worker a input m} (h : Retained jobId s) (hl : Leased jobId s)
    (ha : s.attempts worker = .some a) (hm : a.Moves O s.run s.calls input m) :
    Retained jobId (s.move now worker a m) := by
  have he : Edits jobId s (s.move now worker a m) := hl.edits_moved ha hm
  cases m with
  | go pc | markRunning pc | ledger calls pc | send effect pc =>
    refine h.attempt he rfl (fun hpc => ?_) fun j hj hkind hunfinished => ⟨j, hj, hkind, hunfinished⟩
    obtain ⟨_, _, _, heq, -⟩ := returns_of_moves hm hpc
    cases heq
  | checkpoint payload finalize marks sent pc lost =>
    have hcases : Committed jobId now s (s.move now worker a (.checkpoint payload finalize marks sent pc lost)) worker a
        payload finalize marks sent pc ∨ _ := move_checkpoint (hl.ctx worker a ha)
    rcases hcases with hs | hs
    · refine h.attempt he (by rw [hs.rest]) (fun hpc => ?_) fun j hj hkind _ => ?_
      · obtain ⟨_, _, _, heq, hterminal, hend⟩ := returns_of_moves hm hpc
        obtain ⟨-, rfl, -⟩ := Move.checkpoint.inj heq
        rw [hs.rest]
        exact over_finalized hterminal hend
      · obtain ⟨j₁, j', hj₁, -, -, hj', -, hsame, hrunning, -⟩ := hs.job
        rw [hj] at hj₁
        obtain rfl := Option.some.inj hj₁
        exact ⟨j', hj', hsame.trans hkind, by rw [hrunning]; simp⟩
    · refine h.attempt he (by rw [hs]) (fun hpc => by cases hpc) fun j hj hkind hunfinished => ⟨j, ?_, hkind, hunfinished⟩
      rw [hs]
      exact hj

theorem Retained.step {ev} (h : Retained jobId s) (hl : Leased jobId s) (hs : Steps O runId jobId s t now ev) :
    Retained jobId t := by
  have he : Edits jobId s t := hl.edits hs
  cases hs with
  | act ha hm ht =>
    rw [ht]
    exact h.moved hl ha hm
  | claim hs =>
    obtain ⟨j₁, j', hj₁, hj', -, -, hsame, hrunning, -⟩ := hs.job
    refine h.attempt he (by rw [hs.attempts]) (fun hpc => ?_) fun j hj hkind _ => ?_
    · rw [hs.pc] at hpc
      cases hpc
    · rw [hj] at hj₁
      obtain rfl := Option.some.inj hj₁
      exact ⟨j', hj', hsame.trans hkind, by rw [hrunning]; simp⟩
  | reconcile hs =>
    obtain ⟨j₁, j', -, -, hj₁, -, -, -, hj', -, hsame, hpending⟩ := hs.job
    refine ⟨fun hactive => ?_, fun w a ha hreturned => ?_⟩
    · obtain ⟨j, hj, hkind, -⟩ := h.job (he.active hactive)
      rw [hj] at hj₁
      obtain rfl := Option.some.inj hj₁
      exact ⟨j', hj', hsame.trans hkind, by rw [hpending]; simp⟩
    · rw [hs.rest] at ha
      exact he.isOver (h.returned w a ha hreturned)
  | undisturbed hs =>
    refine ⟨fun hactive => ?_, fun w a' ha' hreturned => ?_⟩
    · obtain ⟨j, hj, hkind, hunfinished⟩ := h.job (he.active hactive)
      -- nobody returned yet, as the run goes on
      have hdone : ¬ (j.status = .succeeded ∨ s.Finished) := by
        rintro (hdone | ⟨w, a, ha, hpc⟩)
        · exact hunfinished hdone
        · have hover := he.isOver (h.returned w a ha hpc)
          rw [hactive] at hover
          cases hover
      cases hj' : t.job jobId with
      | none => exact absurd (hs.job.gone hj' j hj hkind) hdone
      | some j' =>
        obtain ⟨j₁, hj₁, -, hsame, -, hback⟩ := hs.job.row j' hj'
        rw [hj] at hj₁
        obtain rfl := Option.some.inj hj₁
        exact ⟨j', rfl, hsame.symm.trans hkind, fun hdone' => hdone (hback hdone')⟩
    · rcases hs.attempts w a' ha' with ha | ⟨a, ha, hstart⟩
      · exact he.isOver (h.returned w a' ha hreturned)
      · cases hstart <;> cases hreturned
  | deleted hs =>
    have hover : t.isOver = true := by
      rw [hs]
      rfl
    refine ⟨fun hactive => ?_, fun _ _ _ _ => hover⟩
    rw [hover] at hactive
    cases hactive

theorem Retained.reachable (h : (chatSystem O runId jobId).Reachable s) : Retained jobId s := by
  have hboth : Leased jobId s ∧ Retained jobId s := by
    refine h.invariant (I := fun s => Leased jobId s ∧ Retained jobId s) (fun s hs => ⟨Leased.reachable (.init hs), ?_⟩)
      fun s e t hst hI => ?_
    · obtain ⟨⟨j, hj, hkind, hpending, -⟩, -, -, hidle, -⟩ := hs
      refine ⟨fun _ => ⟨j, hj, hkind, by rw [hpending]; simp⟩, fun w a ha => ?_⟩
      rw [hidle w] at ha
      cases ha
    · have hsteps := steps_of_next hst
      exact ⟨hI.1.step hsteps, hI.2.step hI.1 hsteps⟩
  exact hboth.2

/-! ## Completed steps -/

/-- The step's record is completed with `state`, or can no longer be written. -/
def Closed (s : ChatState F S) (jobId : Uuid) (path : StepPath) (state : StepReplayState) : Prop :=
  s.isOver = true ∨ s.stored jobId path = .some state

/-- A completed record stays until the run is over, and no checkpoint of its
step commits any more. -/
theorem Edits.closed {path state} (he : Edits jobId s t) (hr : Retained jobId t) (h : s.Closed jobId path state)
    (hcompleted : state.dispatchPhase = .completed) :
    t.Closed jobId path state ∧ t.marksOf path = s.marksOf path := by
  cases hover : s.isOver with
  | true =>
    refine ⟨.inl (he.isOver hover), ?_⟩
    cases he with
    | kept _ _ hmarks | ended _ hmarks | recorded _ _ _ _ _ _ hmarks | resolved _ _ _ _ _ _ hmarks =>
      rw [marksOf, hmarks, marksOf]
    | marked hactive =>
      rw [hactive] at hover
      cases hover
  | false =>
    obtain ⟨j, hj, hstate⟩ : ∃ j, s.job jobId = .some j ∧ j.payload.coordination path = .some state := by
      rcases h with h | h
      · rw [hover] at h
        cases h
      · exact Option.bind_eq_some_iff.1 h
    have hrow : ∀ {j'}, t.job jobId = .some j' → j'.payload.coordination path = .some state → t.Closed jobId path state :=
      fun hj' hstate' => .inr (by rw [stored_eq hj', hstate'])
    cases he with
    | kept hjob _ hmarks =>
      refine ⟨?_, by rw [marksOf, hmarks, marksOf]⟩
      cases hactive : t.isOver with
      | true => exact .inl hactive
      | false =>
        obtain ⟨j', hj', -⟩ := hr.job hactive
        obtain ⟨j₁, hj₁, hpay⟩ := hjob j' hj'
        rw [hj] at hj₁
        obtain rfl := Option.some.inj hj₁
        exact hrow hj' (by rw [← hpay, hstate])
    | ended hended hmarks => exact ⟨.inl hended, by rw [marksOf, hmarks, marksOf]⟩
    | recorded hactive hj₁ hj' hpay hrec hsame hmarks hproven =>
      rename_i j₁ j' edited new
      rw [hj] at hj₁
      obtain rfl := Option.some.inj hj₁
      refine ⟨hrow hj' ?_, by rw [marksOf, hmarks, marksOf]⟩
      by_cases hp : path = edited
      · subst hp
        rw [hstate] at hrec
        cases hrec with
        | completed hopen => simp [StepReplayState.open_, hcompleted] at hopen
      · rw [coordination_of_ne hpay hp, hstate]
    | marked hactive hj₁ hj' hpay hold hprepared hsame hmarks hproven =>
      rename_i j₁ j' edited c old
      rw [hj] at hj₁
      obtain rfl := Option.some.inj hj₁
      have hp : path ≠ edited := by
        rintro rfl
        rw [hstate] at hold
        obtain rfl := Option.some.inj hold
        rw [hcompleted] at hprepared
        cases hprepared
      refine ⟨hrow hj' (by rw [coordination_of_ne hpay hp, hstate]), ?_⟩
      simp [marksOf, hmarks, Ne.symm hp]
    | resolved hj₁ hj' hpay hold huncertain hsame hmarks hproven =>
      rename_i j₁ j' edited old next
      rw [hj] at hj₁
      obtain rfl := Option.some.inj hj₁
      have hp : path ≠ edited := by
        rintro rfl
        rw [hstate] at hold
        obtain rfl := Option.some.inj hold
        rw [hcompleted] at huncertain
        cases huncertain
      exact ⟨hrow hj' (by rw [coordination_of_ne hpay hp, hstate]), by rw [marksOf, hmarks, marksOf]⟩

/-- The only dispatches left of a step are those of attempts past its checkpoint
in `s`, each at most once. -/
def Late (s : ChatState F S) (path : StepPath) (u : ChatState F S) (e : Instant × ChatEvent F) (t : ChatState F S) : Prop :=
  t.sentOf path = u.sentOf path ∨
    ∃ now worker input, e = (now, .act worker input) ∧ s.Armed path worker ∧ u.Armed path worker ∧ ¬ t.Armed path worker ∧
      t.sentOf path = u.sentOf path + 1

theorem Flow.late {path now ev} {r : ChatState F S} (hf : Flow s t path ev) (hmarks : t.marksOf path = s.marksOf path)
    (harmed : ∀ w, s.Armed path w → r.Armed path w) :
    (∀ w, t.Armed path w → r.Armed path w) ∧ Late r path s (now, ev) t := by
  cases hf with
  | still hback hsent => exact ⟨fun w hw => harmed w (hback w hw), .inl hsent⟩
  | marked worker hback hsent hcount => omega
  | sent hworker hback hsent hsame =>
    rename_i worker input
    refine ⟨fun w hw => harmed w (hback w hw).2, .inr ⟨now, worker, input, rfl, harmed worker hworker, hworker, ?_, hsent⟩⟩
    exact fun hw => (hback worker hw).1 rfl

theorem along_closed (h : (chatSystem O runId jobId).Reachable s) {path state}
    (hstate : s.stored jobId path = .some state) (hcompleted : state.dispatchPhase = .completed) {tr}
    (hr : (chatSystem O runId jobId).Run s tr) :
    Along (fun u e t => (t.isOver = true ∨ t.stored jobId path = .some state) ∧ t.marksOf path = u.marksOf path ∧
      Late s path u e t) s tr := by
  refine hr.along_of_guarded (G := fun _ _ => True)
    (I := fun u => Leased jobId u ∧ Retained jobId u ∧ u.Closed jobId path state ∧ ∀ w, u.Armed path w → s.Armed path w)
    ?_ ⟨.reachable h, .reachable h, .inr hstate, fun _ hw => hw⟩ (hr.mono fun _ _ _ _ => trivial)
  rintro u ⟨now, ev⟩ t hst ⟨hl, hret, hclosed, harmed⟩ -
  have hsteps := steps_of_next hst
  have hret' := hret.step hl hsteps
  obtain ⟨hclosed', hmarks⟩ := (hl.edits hsteps).closed hret' hclosed hcompleted
  obtain ⟨harmed', hlate⟩ := (hl.flow hsteps path).late hmarks harmed
  exact ⟨⟨hl.step hsteps, hret', hclosed', harmed'⟩, hclosed', hmarks, hlate⟩

theorem journal_of_lost (h : Leased jobId s) {worker a input} (ha : s.attempts worker = .some a)
    (hlost : ∀ j, s.job jobId = .some j → j.ownedAttempt a.ctx now = false)
    (hst : s.next O runId jobId (now, .act worker input) = .some t) : t.queue = s.queue ∧ t.marks = s.marks := by
  simp only [next, ha, Option.bind_some, Option.map_eq_some_iff] at hst
  obtain ⟨m, -, rfl⟩ := hst
  cases m with
  | go | markRunning | ledger | send => exact ⟨rfl, rfl⟩
  | checkpoint payload finalize marks sent pc lost =>
    have hcases : Committed jobId now s (s.move now worker a (.checkpoint payload finalize marks sent pc lost)) worker a
        payload finalize marks sent pc ∨ _ := move_checkpoint (h.ctx worker a ha)
    rcases hcases with hs | hs
    · obtain ⟨j, -, hj, howned, -⟩ := hs.job
      rw [hlost j hj] at howned
      cases howned
    · rw [hs]
      exact ⟨rfl, rfl⟩

/-- **In every state a chat run reaches, the effect of a step was dispatched at
most once more than it was proven not to be. Once the step is completed its
record stays until the run is over, no dispatch checkpoint of it commits any
more, and only an attempt already past one can still dispatch, once; and an
attempt without the lease writes nothing to the journal.** -/
theorem billed_once (h : (chatSystem O runId jobId).Reachable s) (path : StepPath) :
    s.sentOf path ≤ 1 + s.provenOf path ∧
      (∀ state, s.stored jobId path = .some state → state.dispatchPhase = .completed →
        ∀ tr, (chatSystem O runId jobId).Run s tr →
          Along (fun u e t => (t.isOver = true ∨ t.stored jobId path = .some state) ∧ t.marksOf path = u.marksOf path ∧
            Late s path u e t) s tr) ∧
      ∀ now worker input a t, s.attempts worker = .some a →
        (∀ j, s.job jobId = .some j → j.ownedAttempt a.ctx now = false) →
        s.next O runId jobId (now, .act worker input) = .some t → t.queue = s.queue ∧ t.marks = s.marks :=
  ⟨sentOf_le h path, fun _ hstate hcompleted _ hr => along_closed h hstate hcompleted hr,
    fun _ _ _ _ _ ha hlost hst => journal_of_lost (.reachable h) ha hlost hst⟩

/-! ## A late dispatch -/

/-- A digest without collisions, and ids that end as their texts do. -/
def sampleOutside : Outside Empty Unit where
  models := plainText
  json := plainText
  dumpsSorted := plainText.dumps
  sha := ⟨Hex.encode⟩
  schema := ⟨fun _ => .some (), fun _ => [], fun _ => rfl⟩
  uuid5 text := .ofNat (text.foldl (fun n c => n * 256 + c.toNat) 0)

def samplePrepared : PreparedChatRun Empty where
  generateIntent := {
    target := ⟨.openai, ⟨"m".toList, by decide⟩⟩
    messages := [.user [⟨"hi".toList, .dynamic⟩]]
    maxOutputTokens := ⟨1, by decide⟩
    reasoning := .none
    tools := []
    toolChoice := .none
    output := .text }
  initialCitationOrdinal := ⟨1, by decide⟩
  initialToolCallIndex := 0

def sampleTurn : AssistantTurn Empty := ⟨"ok".toList, [], .none, .none, .none, .none⟩

def sampleJob : JobRow ChatPayload where
  id := 1
  kind := chatRunKind
  payload := .bare 1
  status := .pending
  priority := 0
  attempts := 0
  maxAttempts := 3
  availableAt := 0
  leaseExpiresAt := .none
  claimedBy := .none
  dedupeKey := .none
  errorCode := .none
  lastError := .none
  result := .none
  startedAt := .none
  finishedAt := .none
  createdAt := 0
  updatedAt := 0

def sampleCreated : ChatState Empty Unit where
  queue := ⟨[sampleJob], by decide⟩
  run := .some ⟨.queued, false, [], .ofNat 1⟩
  calls := []
  attempts _ := .none
  marks := []
  sent := []
  proven := []

theorem created_sampleCreated : ChatState.Created 1 1 sampleCreated :=
  ⟨⟨sampleJob, rfl, rfl, rfl, rfl⟩, ⟨_, rfl, rfl⟩, rfl, fun _ => rfl, rfl, rfl, rfl⟩

def atMinute (minute : Nat) (events : List (ChatEvent Empty)) : List (Instant × ChatEvent Empty) :=
  events.map fun ev => (minute * 60 * microsecondsPerSecond, ev)

/-- A worker claims the job and gets to work on the run. -/
def sampleBegins (worker : String) : List (ChatEvent Empty) :=
  [.claim worker 900 true, .heartbeat worker 900, .load worker, .act worker .go, .act worker .go]

/-- Worker `a` pauses past the checkpoint of the first generation; two more
attempts die at once, the generation is proven not dispatched, and worker `b`
completes it. -/
def lateEvents : List (Instant × ChatEvent Empty) :=
  atMinute 0 (sampleBegins "a" ++
    [.act "a" (.assembled samplePrepared), .act "a" .go, .act "a" .go, .act "a" .go, .act "a" .go]) ++
  atMinute 15 [.claim "b" 900 true, .crash "b"] ++
  atMinute 30 [.claim "b" 900 true, .crash "b"] ++
  atMinute 45 [.deadLetterExpired .none [], .reconcile (.generation 0) .proveNotDispatched false] ++
  atMinute 46 (sampleBegins "b" ++
    [.act "b" .go, .act "b" .go, .act "b" .go, .act "b" .go, .act "b" .go, .act "b" .go,
      .act "b" (.answer .succeeded .none (.some (.assistantTurn sampleTurn))), .act "b" .go])

def lateState : ChatState Empty Unit :=
  last sampleCreated (replay (ChatState.next sampleOutside 1 1) sampleCreated lateEvents)

theorem reachable_lateState : (chatSystem sampleOutside 1 1).Reachable lateState :=
  System.reachable_replay lateEvents created_sampleCreated

theorem billed_once_late :
    lateState.sentOf (.generation 0) ≤ 1 + lateState.provenOf (.generation 0) ∧
      ∀ state, lateState.stored 1 (.generation 0) = .some state → state.dispatchPhase = .completed →
        ∀ tr, (chatSystem sampleOutside 1 1).Run lateState tr →
          Along (fun u e t => (t.isOver = true ∨ t.stored 1 (.generation 0) = .some state) ∧
            t.marksOf (.generation 0) = u.marksOf (.generation 0) ∧ Late lateState (.generation 0) u e t) lateState tr := by
  obtain ⟨hle, hkept, -⟩ := billed_once reachable_lateState (.generation 0)
  exact ⟨hle, hkept⟩

/-- The generation is completed, and worker `a` dispatches it. -/
theorem dispatched_when_completed :
    (chatSystem sampleOutside 1 1).Reachable lateState ∧
      (lateState.stored 1 (.generation 0)).map (·.dispatchPhase) = .some .completed ∧
      (lateState.next sampleOutside 1 1 (47 * 60 * microsecondsPerSecond, .act "a" .go)).map
        (·.sentOf (.generation 0)) = .some (lateState.sentOf (.generation 0) + 1) :=
  ⟨reachable_lateState, by decide +kernel⟩

end ChatState

end Nexus.Chat
