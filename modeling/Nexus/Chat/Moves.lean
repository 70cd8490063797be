/-
What an attempt may do next, one case for each move `Attempt.plan` makes, with
everything the case rests on: where the attempt stands, what its payload says
of the step, what it was told. The proofs about runs go by these cases.
-/
import Nexus.Chat.Execution

namespace Nexus.Chat
open JsonCodec Jobs

variable {F S : Type}

/-- A record that may still be completed. -/
def StepReplayState.open_ (state : StepReplayState) : Prop :=
  state.dispatchPhase = .prepared ∨ state.dispatchPhase = .uncertain

section Runtime

variable {O : Outside F S} {payload payload' : ChatPayload} {path : StepPath}

theorem ChatPayload.read_eq_ok_none {policy} (h : payload.read O path policy = .ok .none) :
    payload.coordination path = .none := by
  unfold read at h
  split at h
  · assumption
  · split at h
    · cases h
    · split at h
      · cases h
      · cases h

theorem ChatPayload.read_eq_ok_some {policy state} (h : payload.read O path policy = .ok (.some state)) :
    payload.coordination path = .some state ∧ ¬ (state.dispatchPhase = .uncertain ∧ policy = .billedOnce) := by
  unfold read at h
  split at h
  · cases h
  · rename_i st hst
    split at h
    · cases h
    · split at h
      · cases h
      · rename_i hun
        obtain rfl := Option.some.inj (Except.ok.inj h)
        exact ⟨hst, hun⟩

theorem ChatPayload.read_eq_error {policy fault} (h : payload.read O path policy = .error fault) :
    fault = .noncanonicalGenerationId ∨ fault = .uncertainStep := by
  unfold read at h
  split at h
  · cases h
  · split at h
    · exact .inl (Except.error.inj h).symm
    · split at h
      · exact .inr (Except.error.inj h).symm
      · cases h

theorem ChatPayload.markUncertain_cases (payload : ChatPayload) (path : StepPath) :
    payload.markUncertain path = .error .wrongPhase ∨ ∃ state, payload.coordination path = .some state ∧
      state.dispatchPhase = .prepared ∧ payload.markUncertain path = .ok (payload.withStepState path state.asUncertain) := by
  unfold markUncertain
  split
  · rename_i state hstate
    by_cases hp : state.dispatchPhase = .prepared
    · exact .inr ⟨state, hstate, hp, if_pos hp⟩
    · exact .inl (if_neg hp)
  · exact .inl rfl

theorem ChatPayload.complete_cases (payload : ChatPayload) (path : StepPath) (result : Text) :
    payload.complete path result = .error .wrongPhase ∨ ∃ state, payload.coordination path = .some state ∧ state.open_ ∧
      payload.complete path result = .ok (payload.withStepState path (state.asCompleted result)) := by
  unfold complete
  split
  · rename_i state hstate
    by_cases hp : state.dispatchPhase = .prepared ∨ state.dispatchPhase = .uncertain
    · exact .inr ⟨state, hstate, hp, if_pos hp⟩
    · exact .inl (if_neg hp)
  · exact .inl rfl

theorem ChatPayload.completePublication_cases (payload : ChatPayload) :
    payload.completePublication = .error .wrongPhase ∨ payload.completePublication = .ok (.bare payload.runId) := by
  unfold completePublication
  split
  · rename_i state _
    by_cases hp : state.dispatchPhase = .prepared
    · exact .inr (if_pos hp)
    · exact .inl (if_neg hp)
  · exact .inl rfl

end Runtime

/-- Faults an attempt may meet on a journal that agrees with what it asks. -/
def StepFault.expected (fault : StepFault) : Prop :=
  fault ≠ .alreadyPrepared ∧ fault ≠ .fingerprintChanged

/-- A dispatch checkpoint may follow: the call is started, or the tool has an
effect of its own. -/
inductive Pc.Arms : Pc F S → Loop F S → Option Nat → Prop
  | turn {v call} : Arms (.started v call) (.turn v) (.some call)
  | tool {v call rest} : Arms (.ready (.tool v call rest)) (.tool v call rest) .none

/-- Where a tool's result may arrive, with the effect made in the transaction
that completes it. -/
inductive Pc.Completes (v : Vars F S) (call : ToolCall F) (rest : List (ToolCall F)) : Pc F S → List Dispatch → Prop
  | direct : Completes v call rest (.ready (.tool v call rest)) []
  | write {c} : Completes v call rest (.armed (.tool v call rest) c) [⟨(Loop.tool v call rest).path, c⟩]
  | external {c} : Completes v call rest (.inFlight (.tool v call rest) c) []

inductive Attempt.Moves (O : Outside F S) (run : Option ChatRun) (calls : List LlmCall) (a : Attempt F S) :
    Input F → Move F S → Prop
  | fault {errorCode} : Moves O run calls a (.fault errorCode) (.ledger (a.pc.settle calls errorCode) (.raised .other))
  | raised {input fault} : fault.expected → Moves O run calls a input (.go (.raised fault))
  | changed {l state} : a.pc = .step l → a.payload.coordination l.path = .some state →
      state.requestFingerprint ≠ l.fingerprint O → Moves O run calls a .go (.go (.raised .fingerprintChanged))
  | cleared : run.all (·.status.terminal) = true → Moves O run calls a .go (a.finalizeAndClear calls .none)
  | cancelledEarly : a.pc = .entered → Moves O run calls a .go (a.finalizeAndClear calls (.some (.cancelled, [])))
  | cancelled {l} : a.pc = .check l →
      Moves O run calls a .go (a.finalizeAndClear calls (.some (.cancelled, l.vars.fullContent)))
  | tooLarge : a.pc = .preparing →
      Moves O run calls a .contextTooLarge (a.finalizeAndClear calls (.some (.error, [])))
  | failed {failure} : a.pc = .folding (.inl failure) →
      Moves O run calls a .go (a.finalizeAndClear calls (.some (.error, failure.assistantContent)))
  | stopped {generation} : a.pc = .folding (.inr generation) →
      Moves O run calls a .go (a.finalizeAndClear calls (.some (.cancelled, generation.assistantContent)))
  | published {v content} : a.pc = .ready (.publish v) →
      Moves O run calls a (.published content) (a.finalizeAndClear calls (.some (.complete, content)))
  | running : a.pc = .loaded → Moves O run calls a .go (.markRunning .entered)
  | active {r} : a.pc = .entered → run = .some r → r.status.terminal = false → Moves O run calls a .go (.go .preparing)
  | prepareResumed {state prepared} : a.pc = .preparing → a.payload.coordination .prepare = .some state →
      decodeCompleted O preparedCodec state = .some prepared → Moves O run calls a .go (.go (.begin O prepared))
  | assembled {prepared} : a.pc = .preparing → a.payload.coordination .prepare = .none →
      Moves O run calls a (.assembled prepared) (.checkpoint (a.payload.withStepState .prepare
        ((preparedState O a.payload.runId .prepare (O.stepFingerprint (preparedCodec.encode prepared))).asCompleted
          (preparedCodec.dumps O.models prepared))) .none [] [] (.begin O prepared) calls)
  | checked {l} : a.pc = .check l → Moves O run calls a .go (.go (.step l))
  | prepared {l} : a.pc = .step l → a.payload.coordination l.path = .none →
      Moves O run calls a .go (.checkpoint (a.payload.withStepState l.path
        (preparedState O a.payload.runId l.path (l.fingerprint O))) .none [] [] (.ready l) calls)
  | readied {l state} : a.pc = .step l → a.payload.coordination l.path = .some state →
      state.requestFingerprint = l.fingerprint O → state.dispatchPhase = .prepared →
      Moves O run calls a .go (.go (.ready l))
  | resumed {l state} : a.pc = .step l → a.payload.coordination l.path = .some state →
      state.requestFingerprint = l.fingerprint O → Moves O run calls a .go (.go (l.resume O state))
  | started {v} : a.pc = .ready (.turn v) →
      Moves O run calls a .go (.ledger (startCall calls) (.started v (nextCallSeq calls)))
  | refused {v errorCode failure} : a.pc = .ready (.turn v) →
      Moves O run calls a (.notDispatched errorCode failure) (.go (.answered v (.expectedFailure failure)))
  | denied {v call errorCode failure} : a.pc = .started v call →
      Moves O run calls a (.notDispatched errorCode failure)
        (.ledger (terminalize calls call .failed (.some errorCode)) (.answered v (.expectedFailure failure)))
  | marked {l c state lost} : a.pc.Arms l c → a.payload.coordination l.path = .some state →
      state.dispatchPhase = .prepared → lost.map LlmCall.callSeq = calls.map LlmCall.callSeq →
      Moves O run calls a .go
        (.checkpoint (a.payload.withStepState l.path state.asUncertain) .none [⟨l.path, c⟩] [] (.armed l c) lost)
  | sent {l c} : a.pc = .armed l c → Moves O run calls a .go (.send ⟨l.path, c⟩ (.inFlight l c))
  | answered {v call outcome errorCode result} : a.pc = .inFlight (.turn v) (.some call) →
      Moves O run calls a (.answer outcome errorCode (.some result))
        (.ledger (terminalize calls call outcome errorCode) (.answered v result))
  | ambiguous {v call outcome errorCode} : a.pc = .inFlight (.turn v) (.some call) →
      Moves O run calls a (.answer outcome errorCode .none)
        (.ledger (terminalize calls call outcome errorCode) (.raised .uncertainStep))
  | toolCompleted {v call rest result sent state} : Pc.Completes v call rest a.pc sent →
      a.payload.coordination (Loop.tool v call rest).path = .some state → state.open_ →
      Moves O run calls a (.toolDone result) (.checkpoint (a.payload.withStepState (Loop.tool v call rest).path
        (state.asCompleted (toolStepResultCodec.dumps O.models result))) .none [] sent
        (.check (.afterTool v rest result)) calls)
  | generationCompleted {v result state} : a.pc = .answered v result →
      a.payload.coordination (Loop.turn v).path = .some state → state.open_ →
      Moves O run calls a .go (.checkpoint (a.payload.withStepState (Loop.turn v).path
        (state.asCompleted (generationCodec.dumps O.models result))) .none [] [] (.afterGeneration v result) calls)

theorem terminalize_callSeq (calls : List LlmCall) (callSeq outcome errorCode) :
    (terminalize calls callSeq outcome errorCode).map LlmCall.callSeq = calls.map LlmCall.callSeq := by
  rw [terminalize, List.map_map]
  refine List.map_congr_left fun call _ => ?_
  simp only [Function.comp_apply]
  split <;> rfl

section Plan

variable {O : Outside F S} {run : Option ChatRun} {calls : List LlmCall} {a : Attempt F S}

theorem StepFault.expected_wrongPhase : StepFault.wrongPhase.expected := by simp [expected]

theorem Attempt.moves_mark {l : Loop F S} {c lost} (hpc : a.pc.Arms l c)
    (hlost : lost.map LlmCall.callSeq = calls.map LlmCall.callSeq) :
    a.Moves O run calls .go (checkpointOr (a.payload.markUncertain l.path) [⟨l.path, c⟩] [] (.armed l c) lost) := by
  rcases a.payload.markUncertain_cases l.path with he | ⟨state, hstate, hp, he⟩
  · rw [he]
    exact .raised StepFault.expected_wrongPhase
  · rw [he]
    exact .marked hpc hstate hp hlost

theorem Attempt.moves_completeTool {v : Vars F S} {call rest result sent} (hpc : Pc.Completes v call rest a.pc sent) :
    a.Moves O run calls (.toolDone result) (a.completeTool O calls v rest (Loop.tool v call rest).path result sent) := by
  rcases a.payload.complete_cases (Loop.tool v call rest).path (toolStepResultCodec.dumps O.models result) with
    he | ⟨state, hstate, hp, he⟩
  · rw [Attempt.completeTool, he]
    exact .raised StepFault.expected_wrongPhase
  · rw [Attempt.completeTool, he]
    exact .toolCompleted hpc hstate hp

theorem Attempt.moves_completeGeneration {v : Vars F S} {result} (hpc : a.pc = .answered v result) :
    a.Moves O run calls .go (checkpointOr (a.payload.complete (Loop.turn v).path (generationCodec.dumps O.models result))
      [] [] (.afterGeneration v result) calls) := by
  rcases a.payload.complete_cases (Loop.turn v).path (generationCodec.dumps O.models result) with
    he | ⟨state, hstate, hp, he⟩
  · rw [he]
    exact .raised StepFault.expected_wrongPhase
  · rw [he]
    exact .generationCompleted hpc hstate hp

theorem Attempt.moves_resume {l : Loop F S} {state} (hpc : a.pc = .step l)
    (hstate : a.payload.coordination l.path = .some state) : a.Moves O run calls .go (.go (l.resumeFrom O state)) := by
  unfold Loop.resumeFrom
  by_cases hfp : state.requestFingerprint = l.fingerprint O
  · rw [if_neg (not_not.2 hfp)]
    cases hp : state.dispatchPhase with
    | prepared => exact .readied hpc hstate hfp hp
    | uncertain => exact .raised StepFault.expected_wrongPhase
    | completed => exact .resumed hpc hstate hfp
  · rw [if_pos hfp]
    exact .changed hpc hstate hfp

theorem Attempt.moves_read_error {path policy fault} (h : a.payload.read O path policy = .error fault) :
    a.Moves O run calls .go (.go (.raised fault)) := by
  refine .raised ?_
  rcases ChatPayload.read_eq_error h with rfl | rfl
  · simp [StepFault.expected]
  · simp [StepFault.expected]

theorem Attempt.plan_fault {errorCode m} (h : a.plan O run calls (.fault errorCode) = .some m) :
    a.Moves O run calls (.fault errorCode) m := by
  simp only [plan] at h
  split at h
  · cases h
  · cases h
  · cases h
  · cases h
  · obtain rfl := Option.some.inj h
    exact .fault

/-- **Whatever an attempt plans is one of the moves above.** -/
theorem Attempt.plan_moves {input m} (h : a.plan O run calls input = .some m) : a.Moves O run calls input m := by
  cases hpc : a.pc with
  | claimed => cases input <;> simp [plan, hpc] at h
  | held => cases input <;> simp [plan, hpc] at h
  | returned => cases input <;> simp [plan, hpc] at h
  | raised fault => cases input <;> simp [plan, hpc] at h
  | loaded =>
    cases input with
    | go =>
      simp only [plan, hpc] at h
      split at h
      · rename_i hover
        obtain rfl := Option.some.inj h
        exact .cleared hover
      · obtain rfl := Option.some.inj h
        exact .running hpc
    | fault errorCode => exact Attempt.plan_fault h
    | assembled | contextTooLarge | notDispatched | answer | toolDone | published => simp [plan, hpc] at h
  | entered =>
    cases input with
    | go =>
      simp only [plan, hpc] at h
      split at h
      · obtain rfl := Option.some.inj h
        exact .raised (by simp [StepFault.expected])
      · rename_i r
        split at h
        · rename_i hover
          obtain rfl := Option.some.inj h
          exact .cleared (by simpa using hover)
        · rename_i hactive
          split at h
          · obtain rfl := Option.some.inj h
            exact .cancelledEarly hpc
          · obtain rfl := Option.some.inj h
            exact .active hpc rfl (by simpa using hactive)
    | fault errorCode => exact Attempt.plan_fault h
    | assembled | contextTooLarge | notDispatched | answer | toolDone | published => simp [plan, hpc] at h
  | preparing =>
    cases hread : a.payload.read O .prepare .reDispatchable with
    | error fault =>
      cases input with
      | go =>
        simp only [plan, hpc, hread] at h
        obtain rfl := Option.some.inj h
        exact moves_read_error hread
      | fault errorCode => exact Attempt.plan_fault h
      | assembled | contextTooLarge | notDispatched | answer | toolDone | published => simp [plan, hpc, hread] at h
    | ok found =>
      cases found with
      | some state =>
        obtain ⟨hstate, -⟩ := ChatPayload.read_eq_ok_some hread
        cases input with
        | go =>
          simp only [plan, hpc, hread] at h
          split at h
          · obtain rfl := Option.some.inj h
            exact .raised StepFault.expected_wrongPhase
          · split at h
            · obtain rfl := Option.some.inj h
              exact .raised (by simp [StepFault.expected])
            · rename_i hdecode
              obtain rfl := Option.some.inj h
              exact .prepareResumed hpc hstate hdecode
        | fault errorCode => exact Attempt.plan_fault h
        | assembled | contextTooLarge | notDispatched | answer | toolDone | published => simp [plan, hpc, hread] at h
      | none =>
        have hnone := ChatPayload.read_eq_ok_none hread
        cases input with
        | assembled prepared =>
          simp only [plan, hpc, hread, ChatPayload.completeDatabaseStep, hnone, checkpointOr] at h
          obtain rfl := Option.some.inj h
          exact .assembled hpc hnone
        | contextTooLarge =>
          simp only [plan, hpc, hread] at h
          obtain rfl := Option.some.inj h
          exact .tooLarge hpc
        | fault errorCode => exact Attempt.plan_fault h
        | go | notDispatched | answer | toolDone | published => simp [plan, hpc, hread] at h
  | check l =>
    cases input with
    | go =>
      simp only [plan, hpc] at h
      split at h
      · obtain rfl := Option.some.inj h
        exact .cancelled hpc
      · obtain rfl := Option.some.inj h
        exact .checked hpc
    | fault errorCode => exact Attempt.plan_fault h
    | assembled | contextTooLarge | notDispatched | answer | toolDone | published => simp [plan, hpc] at h
  | step l =>
    cases input with
    | go =>
      simp only [plan, hpc] at h
      split at h
      · rename_i hread
        obtain rfl := Option.some.inj h
        exact moves_read_error hread
      · rename_i hread
        have hnone := ChatPayload.read_eq_ok_none hread
        simp only [ChatPayload.prepare, hnone, checkpointOr] at h
        obtain rfl := Option.some.inj h
        exact .prepared hpc hnone
      · rename_i hread
        obtain ⟨hstate, -⟩ := ChatPayload.read_eq_ok_some hread
        obtain rfl := Option.some.inj h
        exact moves_resume hpc hstate
    | fault errorCode => exact Attempt.plan_fault h
    | assembled | contextTooLarge | notDispatched | answer | toolDone | published => simp [plan, hpc] at h
  | ready l =>
    cases l with
    | turn v =>
      cases input with
      | go =>
        simp only [plan, hpc] at h
        obtain rfl := Option.some.inj h
        exact .started hpc
      | notDispatched errorCode failure =>
        simp only [plan, hpc] at h
        split at h
        · obtain rfl := Option.some.inj h
          exact .refused hpc
        · cases h
      | fault errorCode => exact Attempt.plan_fault h
      | assembled | contextTooLarge | answer | toolDone | published => simp [plan, hpc] at h
    | tool v call rest =>
      cases input with
      | go =>
        simp only [plan, hpc] at h
        split at h
        · cases h
        · obtain rfl := Option.some.inj h
          exact moves_mark (by rw [hpc]; exact .tool) rfl
      | toolDone result =>
        simp only [plan, hpc] at h
        split at h
        · obtain rfl := Option.some.inj h
          exact moves_completeTool (by rw [hpc]; exact .direct)
        · cases h
      | fault errorCode => exact Attempt.plan_fault h
      | assembled | contextTooLarge | notDispatched | answer | published => simp [plan, hpc] at h
    | publish v =>
      cases input with
      | published content =>
        rcases a.payload.completePublication_cases with he | he
        · simp only [plan, hpc, he] at h
          obtain rfl := Option.some.inj h
          exact .raised StepFault.expected_wrongPhase
        · simp only [plan, hpc, he] at h
          obtain rfl := Option.some.inj h
          exact .published hpc
      | fault errorCode => exact Attempt.plan_fault h
      | go | assembled | contextTooLarge | notDispatched | answer | toolDone => simp [plan, hpc] at h
  | started v call =>
    cases input with
    | go =>
      simp only [plan, hpc] at h
      obtain rfl := Option.some.inj h
      exact moves_mark (by rw [hpc]; exact .turn) (terminalize_callSeq _ _ _ _)
    | notDispatched errorCode failure =>
      simp only [plan, hpc] at h
      obtain rfl := Option.some.inj h
      exact .denied hpc
    | fault errorCode => exact Attempt.plan_fault h
    | assembled | contextTooLarge | answer | toolDone | published => simp [plan, hpc] at h
  | armed l c =>
    cases l with
    | turn v =>
      cases input with
      | go =>
        simp only [plan, hpc] at h
        obtain rfl := Option.some.inj h
        exact .sent hpc
      | fault errorCode => exact Attempt.plan_fault h
      | assembled | contextTooLarge | notDispatched | answer | toolDone | published => simp [plan, hpc] at h
    | tool v call rest =>
      cases input with
      | go =>
        simp only [plan, hpc] at h
        split at h
        · obtain rfl := Option.some.inj h
          exact .sent hpc
        · cases h
      | toolDone result =>
        simp only [plan, hpc] at h
        split at h
        · obtain rfl := Option.some.inj h
          exact moves_completeTool (by rw [hpc]; exact .write)
        · cases h
      | fault errorCode => exact Attempt.plan_fault h
      | assembled | contextTooLarge | notDispatched | answer | published => simp [plan, hpc] at h
    | publish v =>
      cases input with
      | fault errorCode => exact Attempt.plan_fault h
      | go | assembled | contextTooLarge | notDispatched | answer | toolDone | published => simp [plan, hpc] at h
  | inFlight l c =>
    cases l with
    | turn v =>
      cases c with
      | none =>
        cases input with
        | fault errorCode => exact Attempt.plan_fault h
        | go | assembled | contextTooLarge | notDispatched | answer | toolDone | published => simp [plan, hpc] at h
      | some call =>
        cases input with
        | answer outcome errorCode result =>
          simp only [plan, hpc] at h
          split at h
          · obtain rfl := Option.some.inj h
            cases result with
            | none => exact .ambiguous hpc
            | some result => exact .answered hpc
          · cases h
        | fault errorCode => exact Attempt.plan_fault h
        | go | assembled | contextTooLarge | notDispatched | toolDone | published => simp [plan, hpc] at h
    | tool v call rest =>
      cases input with
      | toolDone result =>
        simp only [plan, hpc] at h
        obtain rfl := Option.some.inj h
        exact moves_completeTool (by rw [hpc]; exact .external)
      | fault errorCode => exact Attempt.plan_fault h
      | go | assembled | contextTooLarge | notDispatched | answer | published => simp [plan, hpc] at h
    | publish v =>
      cases input with
      | fault errorCode => exact Attempt.plan_fault h
      | go | assembled | contextTooLarge | notDispatched | answer | toolDone | published => simp [plan, hpc] at h
  | answered v result =>
    cases input with
    | go =>
      simp only [plan, hpc] at h
      obtain rfl := Option.some.inj h
      exact moves_completeGeneration hpc
    | fault errorCode => exact Attempt.plan_fault h
    | assembled | contextTooLarge | notDispatched | answer | toolDone | published => simp [plan, hpc] at h
  | folding result =>
    cases input with
    | go =>
      cases result with
      | inl failure =>
        simp only [plan, hpc] at h
        obtain rfl := Option.some.inj h
        exact .failed hpc
      | inr generation =>
        simp only [plan, hpc] at h
        obtain rfl := Option.some.inj h
        exact .stopped hpc
    | fault errorCode => exact Attempt.plan_fault h
    | assembled | contextTooLarge | notDispatched | answer | toolDone | published => simp [plan, hpc] at h

end Plan

end Nexus.Chat
