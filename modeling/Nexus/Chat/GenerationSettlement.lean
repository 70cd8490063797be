/-
What one execution of a generation leaves behind: an accepted reservation is
settled once and as its outcome says, nothing else is settled, and the row it
started has one terminal outcome, written once (`Settles`).

Both executions are followed by the state they end in, on whatever exit. Past
the reservation the region's `finally` settles exactly what the body did not:
the body sets `settled` with the first outcome it closes, so a stream that
delivers one terminal event, or none, is settled once. A second terminal event
closes the call again, and a planner's exception of a class that `_plan` does
not name leaves the row open: these are the two ways out (`Settles` fails).
-/
import Nexus.Chat.GenerationExecution
import Nexus.Lib.TryFinally

namespace Nexus.Generation
open Raising

variable {I K E : Type}

/-! ## What is to hold -/

def Effect.settlement? : Effect E → Option Settlement
  | .settled settlement => .some settlement
  | _ => .none

def Effect.terminal? : Effect E → Option Terminal
  | .terminalized terminal => .some terminal
  | _ => .none

def Effect.outcome? : Effect E → Option ProviderCallOutcome
  | .received outcome => .some outcome
  | _ => .none

def Effect.isDispatch : Effect E → Bool
  | .dispatched => true
  | _ => false

def settlements (log : List (Effect E)) : List Settlement := log.filterMap Effect.settlement?

def terminals (log : List (Effect E)) : List Terminal := log.filterMap Effect.terminal?

def outcomes (log : List (Effect E)) : List ProviderCallOutcome := log.filterMap Effect.outcome?

/-- What an outcome costs: nothing where it was not dispatched or is confirmed
not to be billed, else the usage it reports, else the whole reservation. -/
def settlementOf (reservation : Nat) (outcome : ProviderCallOutcome) : Settlement :=
  match outcome.callMeta.billability, outcome.callMeta.usage with
  | .notDispatched, _ => .released
  | .confirmedNonBillable, _ => .released
  | .possiblyBillable, .some usage => .committed usage.totalTokens
  | .possiblyBillable, .none => .committed reservation

/-- The settlement an execution owes: without a dispatch the reservation is released. -/
def due (log : List (Effect E)) (reservation : Nat) : Settlement :=
  if log.any Effect.isDispatch then
    match (outcomes log).head? with
    | .some outcome => settlementOf reservation outcome
    | .none => .committed reservation
  else .released

structure Settles (s : Execution E) : Prop where
  settledOnce : ∀ n, .reserved n ∈ s.log → settlements s.log = [due s.log n]
  reservedFirst : ∀ done e rest, s.log = done ++ e :: rest → e.settlement?.isSome → ∃ n, .reserved n ∈ done
  terminalOnce : ∀ id, .started id ∈ s.log →
    ∃ t, terminals s.log = [t] ∧ ∃ call ∈ s.llmCalls, call.id = id ∧ call.terminal = .some t

/-! ## The row -/

/-- The started row is the last one, and says what was written to it last. -/
def RowKept (before : List LLMCall) (id : Uuid) (calls : List LLMCall) (log : List (Effect E)) : Prop :=
  ∃ call, calls = before ++ [call] ∧ call.id = id ∧ (∀ c ∈ before, c.id ≠ id) ∧
    call.terminal = (terminals log).getLast?

@[simp] theorem terminals_append (l m : List (Effect E)) : terminals (l ++ m) = terminals l ++ terminals m :=
  List.filterMap_append ..

@[simp] theorem settlements_append (l m : List (Effect E)) : settlements (l ++ m) = settlements l ++ settlements m :=
  List.filterMap_append ..

@[simp] theorem outcomes_append (l m : List (Effect E)) : outcomes (l ++ m) = outcomes l ++ outcomes m :=
  List.filterMap_append ..

theorem RowKept.append {before id calls} {log : List (Effect E)} (h : RowKept before id calls log)
    (es : List (Effect E)) (hes : terminals es = []) : RowKept before id calls (log ++ es) := by
  obtain ⟨call, hcalls, hid, hfresh, hterm⟩ := h
  refine ⟨call, hcalls, hid, hfresh, ?_⟩
  rw [terminals_append, hes, List.append_nil, hterm]

theorem map_row {before : List LLMCall} {id : Uuid} {call : LLMCall} (hfresh : ∀ c ∈ before, c.id ≠ id)
    (hid : call.id = id) (f : LLMCall → LLMCall) :
    (before ++ [call]).map (fun c => if c.id = id then f c else c) = before ++ [f call] := by
  have hbefore : before.map (fun c => if c.id = id then f c else c) = before :=
    (List.map_congr_left fun c hc => if_neg (hfresh c hc)).trans (List.map_id' before)
  rw [List.map_append, hbefore]
  simp [hid]

theorem run_note (e : Effect E) (s : Execution E) : (note e).run s = .ok () { s with log := s.log ++ [e] } := rfl

theorem run_updateCall {before id} {s : Execution E} (h : RowKept before id s.llmCalls s.log) (f : LLMCall → LLMCall) :
    ∃ call, s.llmCalls = before ++ [call] ∧ call.id = id ∧
      (updateCall id f).run s = .ok () { s with llmCalls := before ++ [f call] } := by
  obtain ⟨call, hcalls, hid, hfresh, _⟩ := h
  refine ⟨call, hcalls, hid, ?_⟩
  have hany : s.llmCalls.any (·.id = id) = true := by
    rw [hcalls]
    simp [hid]
  rw [← map_row hfresh hid, ← hcalls]
  unfold updateCall
  simp only [EStateM.run_bind, EStateM.run_get, hany, Bool.not_true, Bool.false_eq_true, if_false,
    EStateM.run_modify]

theorem run_terminalWrite {before id} {s : Execution E} (h : RowKept before id s.llmCalls s.log)
    {f : LLMCall → LLMCall} {t : Terminal} (hid : ∀ c, (f c).id = c.id) (hterm : ∀ c, (f c).terminal = .some t) :
    ∃ rows, RowKept before id rows (s.log ++ [.terminalized t]) ∧
      (do updateCall id f; note (.terminalized t)).run s =
        .ok () { s with llmCalls := rows, log := s.log ++ [.terminalized t] } := by
  obtain ⟨call, hcalls, hcall, hrun⟩ := run_updateCall h f
  refine ⟨before ++ [f call], ⟨f call, rfl, (hid call).trans hcall, ?_, ?_⟩, ?_⟩
  · obtain ⟨_, _, _, hfresh, _⟩ := h
    exact hfresh
  · rw [hterm, terminals_append]
    simp [terminals, Effect.terminal?]
  · rw [EStateM.run_bind, hrun]
    rfl

theorem withUsage_id (P usage accounting c) : (withUsage P usage accounting c).id = c.id := by
  unfold withUsage
  split
  · rfl
  · dsimp only
    split
    · rfl
    · rfl

theorem withUsage_terminal (P usage accounting c) : (withUsage P usage accounting c).terminal = c.terminal := by
  unfold withUsage
  split
  · rfl
  · dsimp only
    split
    · rfl
    · rfl

theorem withAttemptFields_id (P trace tag c) : (withAttemptFields P trace tag c).id = c.id := by
  unfold withAttemptFields
  split
  · rfl
  · rfl

theorem withAttemptFields_terminal (P trace tag c) : (withAttemptFields P trace tag c).terminal = c.terminal := by
  unfold withAttemptFields
  split
  · rfl
  · rfl

theorem run_terminalizeDefect {before id} {s : Execution E} (h : RowKept before id s.llmCalls s.log)
    (origin code detail : Text) :
    ∃ rows, RowKept before id rows (s.log ++ [.terminalized (defectTerminal origin code detail)]) ∧
      (terminalizeDefect id origin code detail).run s =
        .ok () { s with llmCalls := rows, log := s.log ++ [.terminalized (defectTerminal origin code detail)] } :=
  run_terminalWrite h (fun _ => rfl) fun _ => rfl

theorem run_terminalize {before id} {s : Execution E} (h : RowKept before id s.llmCalls s.log) (P : RuntimePackage)
    (outcome : ProviderCallOutcome) (accounting : Option Accounting) (latencyMs : Option Nat) :
    ∃ rows, RowKept before id rows (s.log ++ [.terminalized (outcomeTagFacts P outcome)]) ∧
      (terminalize P id outcome accounting latencyMs).run s =
        .ok (terminalFacts P id outcome)
          { s with llmCalls := rows, log := s.log ++ [.terminalized (outcomeTagFacts P outcome)] } := by
  obtain ⟨rows, hrows, hrun⟩ := run_terminalWrite h
    (f := fun c => withUsage P outcome.callMeta.usage accounting
      (withAttemptFields P outcome.callMeta.attemptTrace (outcomeTagFacts P outcome).outcome
        { c with
          terminal := .some (outcomeTagFacts P outcome)
          providerRequestId := outcome.callMeta.providerRequestId
          upstreamProvider := outcome.callMeta.upstreamProvider
          latencyMs := latencyMs }))
    (t := outcomeTagFacts P outcome)
    (fun c => by rw [withUsage_id, withAttemptFields_id])
    (fun c => by rw [withUsage_terminal, withAttemptFields_terminal])
  refine ⟨rows, hrows, ?_⟩
  unfold terminalize
  dsimp only
  rw [← bind_assoc, EStateM.run_bind, hrun]
  rfl

theorem run_commitPlanFacts {before id} {s : Execution E} (h : RowKept before id s.llmCalls s.log)
    (profile : LlmProfile) (plan : FinalizedProviderCall) :
    ∃ rows, RowKept before id rows (s.log ++ [.planCommitted]) ∧
      (commitPlanFacts id profile plan).run s =
        .ok () { s with llmCalls := rows, log := s.log ++ [.planCommitted] } := by
  unfold commitPlanFacts
  obtain ⟨call, hcalls, hcall, hrun⟩ := run_updateCall h fun c =>
    { c with
      provider := profile.provider
      modelName := profile.model
      reasoningEffort := plan.nativeReasoning
      catalogRevision := .some plan.catalogRevision
      requestFingerprint := .some plan.requestFingerprint
      cacheStrategy := plan.cacheStrategy
      cacheTtl := plan.cacheTtl
      pricingSnapshot := .some plan.accounting }
  refine ⟨_, ?_, by rw [EStateM.run_bind, hrun]; rfl⟩
  obtain ⟨call', hcalls', _, hfresh, hterm⟩ := h
  obtain rfl : call' = call := by simpa [hcalls] using hcalls'.symm
  refine RowKept.append ?_ [.planCommitted] rfl
  exact ⟨_, rfl, hcall, hfresh, hterm⟩

/-! ## The steps of the region -/

def callLog (P : RuntimePackage) (reservation : Nat) (outcome : ProviderCallOutcome) : List (Effect E) :=
  [.received outcome, .terminalized (outcomeTagFacts P outcome), .settled (settlementOf reservation outcome)]

theorem run_settleSuccess (reservation : Nat) (outcome : ProviderCallOutcome) (s : Execution E) :
    (settleSuccess reservation outcome.callMeta.billability outcome.callMeta.usage).run s =
      .ok () { s with log := s.log ++ [.settled (settlementOf reservation outcome)] } := by
  unfold settleSuccess settlementOf
  cases outcome.callMeta.billability with
  | notDispatched => rfl
  | confirmedNonBillable => rfl
  | possiblyBillable =>
    cases outcome.callMeta.usage with
    | none => rfl
    | some usage => rfl

theorem run_closeCall {before : List LLMCall} (P : RuntimePackage) (O : Outside I K E) (plan : FinalizedProviderCall)
    (outcome : ProviderCallOutcome) {s : Execution E} (h : RowKept before O.generationId s.llmCalls s.log) :
    ∃ rows, RowKept before O.generationId rows (s.log ++ callLog P plan.accounting.platformTokenReservation outcome) ∧
      (closeCall P O plan outcome).run s = .ok (terminalFacts P O.generationId outcome)
        { s with
          llmCalls := rows
          log := s.log ++ callLog P plan.accounting.platformTokenReservation outcome
          settled := true } := by
  have hreceived : RowKept before O.generationId s.llmCalls (s.log ++ [.received outcome]) := h.append _ rfl
  obtain ⟨rows, hrows, hrun⟩ := run_terminalize (s := { s with log := s.log ++ [.received outcome] }) hreceived P outcome
    (.some plan.accounting) (.some O.latencyMs)
  refine ⟨rows, ?_, ?_⟩
  · simpa [callLog] using hrows.append [.settled (settlementOf plan.accounting.platformTokenReservation outcome)] rfl
  · unfold closeCall
    simp only [EStateM.run_bind, run_note, hrun, EStateM.run_modify]
    rw [show (terminalFacts P O.generationId outcome).billability = outcome.callMeta.billability from rfl,
      show (terminalFacts P O.generationId outcome).usage = outcome.callMeta.usage from rfl, run_settleSuccess]
    simp [callLog]

/-- The credential and the owner's callback, before the dispatch. -/
def Outside.ready (O : Outside I K E) (req : GenerationRequest I) : Except PyException K := do
  let credential ← O.generationCredential req.profile.provider
  match O.beforeDispatch with
  | .some answer => answer
  | .none => pure ()
  return credential

theorem run_ask_ok {α : Type} (a : α) (s : Execution E) : (ask (.ok a)).run s = .ok a s := rfl

theorem run_ask_error {α : Type} (e : PyException) (s : Execution E) :
    (ask (.error e : Except PyException α)).run s = .error e s := rfl

theorem run_prepareDispatch {before : List LLMCall} (O : Outside I K E) (req : GenerationRequest I)
    (plan : FinalizedProviderCall) {s : Execution E} (h : RowKept before O.generationId s.llmCalls s.log) :
    ∃ rows, RowKept before O.generationId rows (s.log ++ [.planCommitted]) ∧
      (prepareDispatch O req plan).run s =
        match O.ready req with
        | .ok credential => .ok credential
          { s with llmCalls := rows, log := s.log ++ [.planCommitted, .dispatched], dispatchAttempted := true }
        | .error exc => .error exc { s with llmCalls := rows, log := s.log ++ [.planCommitted] } := by
  obtain ⟨rows, hrows, hrun⟩ := run_commitPlanFacts h req.profile plan
  refine ⟨rows, hrows, ?_⟩
  have hlog : s.log ++ [.planCommitted, .dispatched] = s.log ++ [.planCommitted] ++ [.dispatched] := by simp
  unfold prepareDispatch Outside.ready
  rw [EStateM.run_bind, hrun, hlog]
  cases O.generationCredential req.profile.provider with
  | error exc => rfl
  | ok credential =>
    cases O.beforeDispatch with
    | none => rfl
    | some answer =>
      cases answer with
      | error exc => rfl
      | ok => rfl

/-! ## The events of a stream -/

/-- The events the consumer gets: it is the last one at which it does not ask for more. -/
def Outside.taken (O : Outside I K E) : List (StreamEvent E) → List (StreamEvent E) → List (StreamEvent E)
  | _, [] => []
  | got, event :: events =>
    event ::
      match O.resume (got ++ [event]) with
      | .some _ => []
      | .none => O.taken (got ++ [event]) events

def StreamEvent.outcome? : StreamEvent E → Option ProviderCallOutcome
  | .terminal _ outcome => .some outcome
  | .other _ _ => .none

/-- The outcomes of the terminal events among the first ones. -/
def terminalOutcomes (events : List (StreamEvent E)) : List ProviderCallOutcome :=
  events.filterMap StreamEvent.outcome?

/-- What an event writes before it is handed over. -/
def closeLog (P : RuntimePackage) (reservation : Nat) : StreamEvent E → List (Effect E)
  | .terminal _ outcome => callLog P reservation outcome
  | .other _ _ => []

def eventLog (P : RuntimePackage) (reservation : Nat) (event : StreamEvent E) : List (Effect E) :=
  closeLog P reservation event ++ [.yielded event]

theorem run_closeEvent {before : List LLMCall} (P : RuntimePackage) (O : Outside I K E) (plan : FinalizedProviderCall)
    (event : StreamEvent E) {s : Execution E} (h : RowKept before O.generationId s.llmCalls s.log) :
    ∃ rows,
      RowKept before O.generationId rows (s.log ++ closeLog P plan.accounting.platformTokenReservation event) ∧
      (closeEvent P O plan event).run s = .ok ()
        { s with
          llmCalls := rows
          log := s.log ++ closeLog P plan.accounting.platformTokenReservation event
          settled := s.settled || event.outcome?.isSome } := by
  cases event with
  | terminal seq outcome =>
    obtain ⟨rows, hrows, hrun⟩ := run_closeCall P O plan outcome h
    refine ⟨rows, hrows, ?_⟩
    rw [closeEvent, run_discard_of_ok hrun]
    simp [closeLog, StreamEvent.outcome?]
  | other seq event =>
    refine ⟨s.llmCalls, by simpa [closeLog] using h, ?_⟩
    simp [closeEvent, closeLog, StreamEvent.outcome?]

theorem run_yieldEvent (O : Outside I K E) (event : StreamEvent E) (s : Execution E) :
    (yieldEvent O event).run s =
      match O.resume (s.log.filterMap Effect.event? ++ [event]) with
      | .some exc => .error exc { s with log := s.log ++ [.yielded event] }
      | .none => .ok () { s with log := s.log ++ [.yielded event] } := by
  have hgot : (s.log ++ [Effect.yielded event]).filterMap Effect.event? = s.log.filterMap Effect.event? ++ [event] := by
    simp [Effect.event?]
  unfold yieldEvent
  rw [EStateM.run_bind, run_note]
  dsimp only
  rw [EStateM.run_bind, EStateM.run_get]
  dsimp only
  rw [hgot]
  cases O.resume (s.log.filterMap Effect.event? ++ [event]) with
  | some exc => rfl
  | none => rfl

theorem final_yieldEvent (O : Outside I K E) (event : StreamEvent E) (s : Execution E) :
    final ((yieldEvent O event).run s) = { s with log := s.log ++ [.yielded event] } := by
  rw [run_yieldEvent]
  cases O.resume (s.log.filterMap Effect.event? ++ [event]) with
  | some exc => rfl
  | none => rfl

theorem events_closeLog (P : RuntimePackage) (reservation : Nat) (event : StreamEvent E) :
    (closeLog P reservation event).filterMap Effect.event? = [] := by
  cases event with
  | terminal seq outcome => rfl
  | other seq event => rfl

theorem final_forwardEvents {before : List LLMCall} (P : RuntimePackage) (O : Outside I K E)
    (plan : FinalizedProviderCall) (ending : Option PyException) (events : List (StreamEvent E)) :
    ∀ {s : Execution E} {got : List (StreamEvent E)}, s.log.filterMap Effect.event? = got →
      RowKept before O.generationId s.llmCalls s.log →
      ∃ rows,
        let log := s.log ++ (O.taken got events).flatMap (eventLog P plan.accounting.platformTokenReservation)
        RowKept before O.generationId rows log ∧
        final ((forwardEvents P O plan ending events).run s) =
          { s with llmCalls := rows, log := log, settled := s.settled || (O.taken got events).any (·.outcome?.isSome) } := by
  induction events with
  | nil =>
    intro s got _ h
    refine ⟨s.llmCalls, by simpa [Outside.taken] using h, ?_⟩
    cases ending with
    | none => simp [forwardEvents, Outside.taken]
    | some exc => simp [forwardEvents, Outside.taken, run_throw]
  | cons event events ih =>
    intro s got hgot h
    obtain ⟨rows, hrows, hclose⟩ := run_closeEvent P O plan event h
    have hgot' : (s.log ++ closeLog P plan.accounting.platformTokenReservation event).filterMap Effect.event? = got := by
      rw [List.filterMap_append, hgot, events_closeLog, List.append_nil]
    rw [forwardEvents, final_bind_of_ok hclose, final_bind, run_yieldEvent]
    dsimp only
    rw [hgot']
    unfold Outside.taken
    cases hresume : O.resume (got ++ [event]) with
    | some exc =>
      refine ⟨rows, by simpa [eventLog] using hrows.append [.yielded event] rfl, ?_⟩
      simp [eventLog]
    | none =>
      have hseen : (s.log ++ closeLog P plan.accounting.platformTokenReservation event ++
          [Effect.yielded event]).filterMap Effect.event? = got ++ [event] := by
        rw [List.filterMap_append, hgot']
        rfl
      obtain ⟨rows', hrows', hrest⟩ := @ih { s with
        llmCalls := rows
        log := s.log ++ closeLog P plan.accounting.platformTokenReservation event ++ [.yielded event]
        settled := s.settled || event.outcome?.isSome } (got ++ [event]) hseen (hrows.append _ rfl)
      refine ⟨rows', by simpa [eventLog] using hrows', ?_⟩
      dsimp only
      rw [hrest]
      simp [eventLog, Bool.or_assoc]

/-! ## The `finally` -/

theorem run_settleDefect {before : List LLMCall} {id : Uuid} (P : RuntimePackage) (reservation : Nat)
    (fallback : Text × Text × Text) {s : Execution E} (h : RowKept before id s.llmCalls s.log) :
    ∃ rows t,
      let log := s.log ++
        [.settled (if s.dispatchAttempted then .committed reservation else .released), .terminalized t]
      RowKept before id rows log ∧
        (settleDefect P id reservation fallback).run s = .ok () { s with llmCalls := rows, log := log } := by
  unfold settleDefect
  set settlement : Settlement := if s.dispatchAttempted then .committed reservation else .released with hsettlement
  set facts : Text × Text × Text :=
    match s.defect with
    | .some defect => defectFacts P defect
    | .none => fallback with hfacts
  have hsettled : RowKept before id s.llmCalls (s.log ++ [.settled settlement]) := h.append _ rfl
  obtain ⟨rows, hrows, hrun⟩ := run_terminalizeDefect (s := { s with log := s.log ++ [.settled settlement] }) hsettled
    facts.1 facts.2.1 facts.2.2
  refine ⟨rows, defectTerminal facts.1 facts.2.1 facts.2.2, by simpa using hrows, ?_⟩
  rw [EStateM.run_bind, EStateM.run_get]
  dsimp only
  have hboth : (note (.settled settlement) >>= fun _ => terminalizeDefect id facts.1 facts.2.1 facts.2.2).run s =
      .ok ()
        { s with
          llmCalls := rows
          log := s.log ++
            [.settled settlement, .terminalized (defectTerminal facts.1 facts.2.1 facts.2.2)] } := by
    rw [EStateM.run_bind, run_note]
    dsimp only
    rw [hrun]
    simp
  rw [← hboth, hsettlement, hfacts]
  by_cases hd : s.dispatchAttempted = true
  · rw [if_pos hd, if_pos hd] <;> rfl
  · rw [if_neg hd, if_neg hd] <;> rfl

/-- **The region leaves nothing open**: what its body did not settle, the `finally` settles and writes to the row. -/
theorem final_region {α : Type} {before : List LLMCall} {id : Uuid} (P : RuntimePackage) (reservation : Nat)
    (fallback : Text × Text × Text) (body : Exec E α) (noting : PyException → Execution E → Execution E)
    (hnoting : ∀ e t, ∃ d, noting e t = { t with defect := d }) {s : Execution E} {rows : List LLMCall}
    {log : List (Effect E)} {attempted done : Bool}
    (hbody : ∃ d, final (body.run s) =
      { llmCalls := rows, log := log, dispatchAttempted := attempted, settled := done, defect := d })
    (hrows : RowKept before id rows log) :
    ∃ es,
      let t := final (EStateM.run (tryFinally (tryCatch body fun e => do modify (noting e); throw e)
        (do if !(← get).settled then settleDefect P id reservation fallback)) s)
      t.log = log ++ es ∧ RowKept before id t.llmCalls t.log ∧ (done = true → es = []) ∧
        (done = false → ∃ t, es = [.settled (if attempted then .committed reservation else .released), .terminalized t]) := by
  obtain ⟨d, hbody⟩ := hbody
  have hcaught : ∃ d, final (EStateM.run (tryCatch body fun e => do modify (noting e); throw e) s) =
      { llmCalls := rows, log := log, dispatchAttempted := attempted, settled := done, defect := d } := by
    rw [final_reraise]
    cases hrun : body.run s with
    | ok a t =>
      rw [hrun] at hbody
      exact ⟨d, hbody⟩
    | error e t =>
      rw [hrun] at hbody
      obtain ⟨d', hd⟩ := hnoting e t
      exact ⟨d', by rw [show t = _ from hbody] at hd ⊢; exact hd⟩
  obtain ⟨d, hcaught⟩ := hcaught
  rw [final_tryFinally, hcaught, final_unless Execution.settled]
  cases done with
  | true => exact ⟨[], by simp, hrows, fun _ => rfl, by simp⟩
  | false =>
    obtain ⟨rows', t, hrows', hrun⟩ := run_settleDefect (s := ⟨rows, log, attempted, false, d⟩) P reservation fallback hrows
    refine ⟨_, ?_, ?_, by simp, fun _ => ⟨t, rfl⟩⟩
    · simp [hrun]
    · simpa [hrun] using hrows'

/-! ## What a log amounts to -/

/-- Neither the beginning of an execution nor its dispatch. -/
def Effect.inner : Effect E → Bool
  | .started _ => false
  | .reserved _ => false
  | .dispatched => false
  | _ => true

theorem reservedFirst_of {log rest : List (Effect E)} {id : Uuid} {n : Nat}
    (hlog : log = .started id :: .reserved n :: rest) {done : List (Effect E)} {e : Effect E} {after : List (Effect E)}
    (h : log = done ++ e :: after) (he : e.settlement?.isSome) : ∃ m, .reserved m ∈ done := by
  rw [hlog] at h
  rcases done with - | ⟨x, - | ⟨y, done⟩⟩
  · obtain ⟨rfl, _⟩ := List.cons.inj h
    simp [Effect.settlement?] at he
  · obtain ⟨_, h⟩ := List.cons.inj h
    obtain ⟨rfl, _⟩ := List.cons.inj h
    simp [Effect.settlement?] at he
  · obtain ⟨_, h⟩ := List.cons.inj h
    obtain ⟨rfl, _⟩ := List.cons.inj h
    exact ⟨n, by simp⟩

theorem settles_unreserved {before : List LLMCall} {id : Uuid} {s : Execution E} {t : Terminal}
    (hrow : RowKept before id s.llmCalls s.log) (hterm : terminals s.log = [t]) (hset : settlements s.log = [])
    (hstart : ∀ i, .started i ∈ s.log → i = id) (hres : ∀ n, .reserved n ∉ s.log) : Settles s := by
  obtain ⟨call, hcalls, hid, _, hcall⟩ := hrow
  refine ⟨fun n hn => absurd hn (hres n), ?_, ?_⟩
  · intro done e after h he
    have hempty : settlements (done ++ e :: after) = [] := h ▸ hset
    have hnone := List.filterMap_eq_nil_iff.1 hempty e (by simp)
    rw [hnone] at he
    simp at he
  · intro i hi
    refine ⟨t, hterm, call, by simp [hcalls], hid.trans (hstart i hi).symm, ?_⟩
    rw [hcall, hterm]
    rfl

theorem any_isDispatch_of_inner {es : List (Effect E)} (h : ∀ e ∈ es, e.inner = true) :
    es.any Effect.isDispatch = false := by
  refine List.any_eq_false.2 fun e he => ?_
  have := h e he
  cases e with
  | dispatched => simp [Effect.inner] at this
  | started | planCommitted | terminalized | reserved | denied | received | settled | yielded =>
    simp [Effect.isDispatch]

theorem settles_reserved_iff {before : List LLMCall} {id : Uuid} {n : Nat} {s : Execution E} {attempted : Bool}
    {rest : List (Effect E)}
    (hlog : s.log = .started id :: .reserved n :: .planCommitted :: (if attempted then [.dispatched] else []) ++ rest)
    (hrow : RowKept before id s.llmCalls s.log) (hinner : ∀ e ∈ rest, e.inner = true) :
    Settles s ↔ settlements rest = [if attempted then
        match (outcomes rest).head? with
        | .some outcome => settlementOf n outcome
        | .none => .committed n
      else .released] ∧ ∃ t, terminals rest = [t] := by
  have hset : settlements s.log = settlements rest := by
    rw [hlog]
    cases attempted with
    | true => rfl
    | false => rfl
  have hterm : terminals s.log = terminals rest := by
    rw [hlog]
    cases attempted with
    | true => rfl
    | false => rfl
  have hout : outcomes s.log = outcomes rest := by
    rw [hlog]
    cases attempted with
    | true => rfl
    | false => rfl
  have hany : s.log.any Effect.isDispatch = attempted := by
    have hrest := any_isDispatch_of_inner hinner
    rw [hlog]
    cases attempted with
    | true => simp [Effect.isDispatch]
    | false => simp [Effect.isDispatch, hrest]
  have hdue : ∀ m, due s.log m = if attempted then
        match (outcomes rest).head? with
        | .some outcome => settlementOf m outcome
        | .none => .committed m
      else .released := by
    intro m
    rw [due, hany, hout]
  have hresMem : ∀ m, .reserved m ∈ s.log → m = n := by
    intro m hm
    rw [hlog] at hm
    have hnot : Effect.reserved m ∉ rest := fun h => by simpa [Effect.inner] using hinner _ h
    cases attempted with
    | true => simpa [hnot] using hm
    | false => simpa [hnot] using hm
  have hstartMem : ∀ i, .started i ∈ s.log → i = id := by
    intro i hi
    rw [hlog] at hi
    have hnot : Effect.started i ∉ rest := fun h => by simpa [Effect.inner] using hinner _ h
    cases attempted with
    | true => simpa [hnot] using hi
    | false => simpa [hnot] using hi
  obtain ⟨call, hcalls, hid, _, hcall⟩ := hrow
  constructor
  · intro h
    have honce := h.settledOnce n (by simp [hlog])
    rw [hset, hdue] at honce
    obtain ⟨t, ht, _⟩ := h.terminalOnce id (by simp [hlog])
    exact ⟨honce, t, hterm ▸ ht⟩
  · rintro ⟨honce, t, ht⟩
    refine ⟨?_, fun done e after h he => reservedFirst_of hlog h he, ?_⟩
    · intro m hm
      obtain rfl := hresMem m hm
      rw [hset, hdue, honce]
    · intro i hi
      refine ⟨t, hterm.trans ht, call, by simp [hcalls], hid.trans (hstartMem i hi).symm, ?_⟩
      rw [hcall, hterm, ht]
      rfl

theorem settles_region_iff {before : List LLMCall} {id : Uuid} {n : Nat} {s : Execution E} {attempted : Bool}
    {outs : List ProviderCallOutcome} {mid es : List (Effect E)}
    (hlog : s.log =
      .started id :: .reserved n :: .planCommitted :: (if attempted then [.dispatched] else []) ++ (mid ++ es))
    (hrow : RowKept before id s.llmCalls s.log) (hinner : ∀ e ∈ mid, e.inner = true)
    (hset : settlements mid = outs.map (settlementOf n)) (hterm : (terminals mid).length = outs.length)
    (hout : outcomes mid = outs) (hattempted : outs ≠ [] → attempted = true) (hdone : outs ≠ [] → es = [])
    (hopen : outs = [] → ∃ t, es = [.settled (if attempted then .committed n else .released), .terminalized t]) :
    Settles s ↔ outs.length ≤ 1 := by
  cases outs with
  | nil =>
    obtain ⟨t, rfl⟩ := hopen rfl
    have hrest : ∀ e ∈ mid ++ [.settled (if attempted then .committed n else .released), .terminalized t],
        e.inner = true := by
      intro e he
      rcases List.mem_append.1 he with he | he
      · exact hinner e he
      · rcases List.mem_pair.1 he with rfl | rfl
        · rfl
        · rfl
    rw [settles_reserved_iff hlog hrow hrest]
    have hnoTerm : terminals mid = [] := List.length_eq_zero_iff.1 hterm
    simp only [settlements_append, outcomes_append, terminals_append, hset, hout, hnoTerm, List.map_nil,
      List.nil_append, List.length_nil, Nat.zero_le, iff_true]
    exact ⟨rfl, t, rfl⟩
  | cons outcome outs =>
    obtain rfl := hdone (by simp)
    obtain rfl := hattempted (by simp)
    rw [List.append_nil] at hlog
    rw [settles_reserved_iff hlog hrow hinner, hset, hout]
    constructor
    · rintro ⟨honce, _⟩
      have hlen := congrArg List.length honce
      simpa using hlen
    · intro hlen
      obtain rfl : outs = [] := by simpa using hlen
      obtain ⟨t, ht⟩ := List.length_eq_one_iff.1 hterm
      exact ⟨by simp, t, ht⟩

/-! ## Up to the reservation -/

/-- The state an execution begins in. -/
def Execution.fresh (calls : List LLMCall) : Execution E := ⟨calls, [], false, false, .none⟩

/-- The execution gets a row: the user is entitled, and the id is new. -/
def Outside.Starts (O : Outside I K E) (calls : List LLMCall) : Prop :=
  O.entitlement = .ok true ∧ ∀ c ∈ calls, c.id ≠ O.generationId

/-- The classes `_plan` catches: `PlanningDefect` and `RuntimeDefect`. -/
def PyException.isRuntimeDefect : PyException → Bool
  | .planningDefect _ => true
  | .runtimeDefect _ => true
  | _ => false

/-- Planning raises no other exception than these. -/
def Outside.PlansOrDefects (O : Outside I K E) (req : GenerationRequest I) : Prop :=
  ∀ exc, O.planGenerate req.intent = .error exc → exc.isRuntimeDefect = true

/-- The execution reserves the budget of this plan. -/
def Outside.Reserves (O : Outside I K E) (calls : List LLMCall) (req : GenerationRequest I) (singleDispatch : Bool)
    (plan : FinalizedProviderCall) : Prop :=
  O.Starts calls ∧
    (∃ planned, O.planGenerate req.intent = .ok (.finalized planned) ∧
      plan = if singleDispatch then singleDispatchPlan planned else planned) ∧
    O.reserveTokenBudget plan.accounting.platformTokenReservation = .ok ()

theorem run_checkEntitlement {O : Outside I K E} (h : O.entitlement = .ok true) (s : Execution E) :
    (checkEntitlement O).run s = .ok () s := by
  unfold checkEntitlement
  rw [h]
  rfl

theorem run_checkEntitlement_of_ne {O : Outside I K E} (h : O.entitlement ≠ .ok true) (s : Execution E) :
    ∃ exc, (checkEntitlement O).run s = .error exc s := by
  unfold checkEntitlement
  cases hentitled : O.entitlement with
  | error exc => exact ⟨exc, rfl⟩
  | ok allowed =>
    cases allowed with
    | true => exact absurd hentitled h
    | false => exact ⟨_, rfl⟩

theorem run_startCall {id : Uuid} {s : Execution E} (h : ∀ c ∈ s.llmCalls, c.id ≠ id) (owner : LlmCallOwner)
    (operation : Text) (profile : LlmProfile) (streaming : Bool) :
    (startCall id owner operation profile streaming).run s = .ok ()
      { s with
        llmCalls := s.llmCalls ++ [startRow s.llmCalls id owner operation profile streaming]
        log := s.log ++ [.started id] } := by
  have hany : s.llmCalls.any (·.id = id) = false := List.any_eq_false.2 fun c hc => by simpa using h c hc
  unfold startCall
  simp only [EStateM.run_bind, EStateM.run_get, hany, Bool.false_eq_true, if_false, EStateM.run_modify, run_note]

theorem run_startCall_of_taken {id : Uuid} {s : Execution E} (h : ¬ ∀ c ∈ s.llmCalls, c.id ≠ id) (owner : LlmCallOwner)
    (operation : Text) (profile : LlmProfile) (streaming : Bool) :
    ∃ exc, (startCall id owner operation profile streaming).run s = .error exc s := by
  have hany : s.llmCalls.any (·.id = id) = true := by
    by_contra hnone
    refine h fun c hc hid => hnone (List.any_eq_true.2 ⟨c, hc, by simpa using hid⟩)
  refine ⟨.other "llm_calls_pkey".toList, ?_⟩
  unfold startCall
  rw [EStateM.run_bind, EStateM.run_get]
  dsimp only
  rw [if_pos hany]
  rfl

theorem log_of_not_starts {α : Type} {O : Outside I K E} {calls : List LLMCall} (h : ¬ O.Starts calls)
    (owner : LlmCallOwner) (operation : Text) (profile : LlmProfile) (streaming : Bool) (k : Exec E α) :
    (final ((do
      checkEntitlement O
      startCall O.generationId owner operation profile streaming
      k).run (.fresh calls))).log = [] := by
  by_cases hentitled : O.entitlement = .ok true
  · have htaken : ¬ ∀ c ∈ (Execution.fresh (E := E) calls).llmCalls, c.id ≠ O.generationId := fun hfresh =>
      h ⟨hentitled, hfresh⟩
    obtain ⟨exc, hrun⟩ := run_startCall_of_taken htaken owner operation profile streaming
    rw [final_bind_of_ok (run_checkEntitlement hentitled _), final_bind_of_error hrun]
    rfl
  · obtain ⟨exc, hrun⟩ := run_checkEntitlement_of_ne hentitled (Execution.fresh (E := E) calls)
    rw [final_bind_of_error hrun]
    rfl

theorem final_of_starts {α : Type} {O : Outside I K E} {calls : List LLMCall} (h : O.Starts calls)
    (owner : LlmCallOwner) (operation : Text) (profile : LlmProfile) (streaming : Bool) (k : Exec E α) :
    ∃ rows, RowKept calls O.generationId rows [Effect.started (E := E) O.generationId] ∧
      final ((do
        checkEntitlement O
        startCall O.generationId owner operation profile streaming
        k).run (.fresh calls)) = final (k.run ⟨rows, [.started O.generationId], false, false, .none⟩) := by
  obtain ⟨hentitled, hfresh⟩ := h
  refine ⟨calls ++ [startRow calls O.generationId owner operation profile streaming], ⟨_, rfl, rfl, hfresh, rfl⟩, ?_⟩
  rw [final_bind_of_ok (run_checkEntitlement hentitled _),
    final_bind_of_ok (run_startCall (s := Execution.fresh calls) hfresh owner operation profile streaming)]
  rfl

theorem run_planRequest_error {before : List LLMCall} {O : Outside I K E} {req : GenerationRequest I} {exc : PyException}
    (hplan : O.planGenerate req.intent = .error exc) {s : Execution E}
    (h : RowKept before O.generationId s.llmCalls s.log) :
    (exc.isRuntimeDefect = false ∧ (planRequest O O.generationId req).run s = .error exc s) ∨
      (exc.isRuntimeDefect = true ∧ ∃ rows t, RowKept before O.generationId rows (s.log ++ [.terminalized t]) ∧
        (planRequest O O.generationId req).run s =
          .error exc { s with llmCalls := rows, log := s.log ++ [.terminalized t] }) := by
  unfold planRequest
  rw [hplan]
  cases exc with
  | planningDefect d =>
    obtain ⟨rows, hrows, hrun⟩ := run_terminalizeDefect h d.origin d.code d.message
    refine .inr ⟨rfl, rows, _, hrows, ?_⟩
    dsimp only
    rw [EStateM.run_bind, hrun]
    rfl
  | runtimeDefect d =>
    obtain ⟨rows, hrows, hrun⟩ := run_terminalizeDefect h d.origin d.code d.message
    refine .inr ⟨rfl, rows, _, hrows, ?_⟩
    dsimp only
    rw [EStateM.run_bind, hrun]
    rfl
  | apiError e => exact .inl ⟨rfl, rfl⟩
  | generatorExit => exact .inl ⟨rfl, rfl⟩
  | other message => exact .inl ⟨rfl, rfl⟩

theorem run_reserve_error {before : List LLMCall} {P : RuntimePackage} {O : Outside I K E} {plan : FinalizedProviderCall}
    {exc : ApiError} (hres : O.reserveTokenBudget plan.accounting.platformTokenReservation = .error exc)
    {s : Execution E} (h : RowKept before O.generationId s.llmCalls s.log) :
    ∃ rows t, RowKept before O.generationId rows (s.log ++ [.denied exc, .terminalized t]) ∧
      (reserve P O O.generationId plan).run s =
        .error (.apiError exc) { s with llmCalls := rows, log := s.log ++ [.denied exc, .terminalized t] } := by
  have hdenied : RowKept before O.generationId s.llmCalls (s.log ++ [.denied exc]) := h.append _ rfl
  obtain ⟨rows, hrows, hrun⟩ := run_terminalizeDefect (s := { s with log := s.log ++ [.denied exc] }) hdenied
    (reservationDefectFacts P exc).1 (reservationDefectFacts P exc).2.1 (reservationDefectFacts P exc).2.2
  refine ⟨rows, _, by simpa using hrows, ?_⟩
  unfold reserve
  rw [hres]
  dsimp only
  rw [EStateM.run_bind, run_note]
  dsimp only
  rw [EStateM.run_bind, hrun]
  simp [run_throw]

/-- What both executions do around their own regions. -/
def generationAround {α : Type} (P : RuntimePackage) (O : Outside I K E) (req : GenerationRequest I)
    (singleDispatch streaming : Bool) (onRejected : Failure → Exec E α) (region : FinalizedProviderCall → Exec E α) :
    Exec E α := do
  checkEntitlement O
  startCall O.generationId req.owner req.operation req.profile streaming
  match ← planRequest O O.generationId req with
  | .rejected failure => onRejected failure
  | .finalized plan =>
    let plan := if singleDispatch then singleDispatchPlan plan else plan
    reserve P O O.generationId plan
    clearFlags
    region plan

theorem settles_started {before : List LLMCall} {id : Uuid} {rows : List LLMCall} {t : Terminal}
    {attempted done : Bool} {d : Option PyException}
    (h : RowKept before id rows [Effect.started (E := E) id, .terminalized t]) :
    Settles (E := E) ⟨rows, [.started id, .terminalized t], attempted, done, d⟩ :=
  settles_unreserved (t := t) h rfl rfl (by simp) (by simp)

theorem settles_of_not_starts {α : Type} {O : Outside I K E} {calls : List LLMCall} (h : ¬ O.Starts calls)
    (owner : LlmCallOwner) (operation : Text) (profile : LlmProfile) (streaming : Bool) (k : Exec E α) :
    Settles (final ((do
      checkEntitlement O
      startCall O.generationId owner operation profile streaming
      k).run (.fresh calls))) := by
  have hlog := log_of_not_starts h owner operation profile streaming k
  refine ⟨?_, ?_, ?_⟩
  · intro n hn
    rw [hlog] at hn
    exact absurd hn List.not_mem_nil
  · intro done e rest hsplit
    rw [hlog] at hsplit
    simp at hsplit
  · intro id hid
    rw [hlog] at hid
    exact absurd hid List.not_mem_nil

/-- The state of an execution that has its row and no more. -/
def Execution.begun (rows : List LLMCall) (id : Uuid) : Execution E := ⟨rows, [.started id], false, false, .none⟩

theorem settles_planError_iff {α : Type} {O : Outside I K E} {req : GenerationRequest I} {calls rows : List LLMCall}
    {exc : PyException} (hplan : O.planGenerate req.intent = .error exc)
    (hrows : RowKept calls O.generationId rows [Effect.started (E := E) O.generationId]) (k : Planned → Exec E α) :
    Settles (final ((planRequest O O.generationId req >>= k).run (.begun rows O.generationId))) ↔
      exc.isRuntimeDefect = true := by
  rcases run_planRequest_error hplan (s := .begun rows O.generationId) hrows with
    ⟨hclass, hrun⟩ | ⟨hclass, rows', t, hrows', hrun⟩
  · rw [final_bind_of_error hrun]
    refine iff_of_false ?_ (by simp [hclass])
    intro h
    obtain ⟨t, ht, _⟩ := h.terminalOnce O.generationId (List.mem_singleton.2 rfl)
    cases (show ([] : List Terminal) = [t] from ht)
  · rw [final_bind_of_error hrun]
    exact iff_of_true (settles_started hrows') hclass

theorem settles_reserve_iff {α : Type} {P : RuntimePackage} {O : Outside I K E} {calls rows : List LLMCall}
    {plan : FinalizedProviderCall} {region : Exec E α} {C : Prop}
    (hrows : RowKept calls O.generationId rows [Effect.started (E := E) O.generationId])
    (hregion : ∀ rows,
      RowKept calls O.generationId rows
        [Effect.started (E := E) O.generationId, .reserved plan.accounting.platformTokenReservation] →
      (Settles (final (region.run
        ⟨rows, [.started O.generationId, .reserved plan.accounting.platformTokenReservation], false, false, .none⟩)) ↔
        C)) :
    Settles (final ((do
      reserve P O O.generationId plan
      clearFlags
      region).run (.begun rows O.generationId))) ↔
      (O.reserveTokenBudget plan.accounting.platformTokenReservation = .ok () → C) := by
  cases hres : O.reserveTokenBudget plan.accounting.platformTokenReservation with
  | error exc =>
    obtain ⟨rows', t, hrows', hdenied⟩ := run_reserve_error (P := P) hres (s := .begun rows O.generationId) hrows
    rw [final_bind_of_error hdenied]
    exact iff_of_true (settles_unreserved hrows' rfl rfl (by simp [Execution.begun]) (by simp [Execution.begun]))
      (by simp)
  | ok =>
    have hreserve : (reserve P O O.generationId plan).run (.begun rows O.generationId : Execution E) = .ok ()
        ⟨rows, [.started O.generationId, .reserved plan.accounting.platformTokenReservation], false, false, .none⟩ := by
      unfold reserve
      rw [hres]
      rfl
    rw [final_bind_of_ok hreserve, final_bind_of_ok (a := ()) (x := clearFlags) rfl,
      hregion rows (by simpa using hrows.append [.reserved _] rfl)]
    simp

/-- **Around the region**: the row is closed by whatever ends the execution
early, unless the planner raises an exception `_plan` does not catch. -/
theorem settles_around_iff {α : Type} (P : RuntimePackage) (O : Outside I K E) (req : GenerationRequest I)
    (calls : List LLMCall) (singleDispatch streaming : Bool) (onRejected : Failure → Exec E α)
    (region : FinalizedProviderCall → Exec E α) (C : FinalizedProviderCall → Prop)
    (hrejected : ∀ failure rows, RowKept calls O.generationId rows [Effect.started (E := E) O.generationId] →
      Settles (final ((onRejected failure).run (.begun rows O.generationId))))
    (hregion : ∀ plan rows,
      RowKept calls O.generationId rows
        [Effect.started (E := E) O.generationId, .reserved plan.accounting.platformTokenReservation] →
      (Settles (final ((region plan).run
        ⟨rows, [.started O.generationId, .reserved plan.accounting.platformTokenReservation], false, false, .none⟩)) ↔
        C plan)) :
    Settles (final ((generationAround P O req singleDispatch streaming onRejected region).run (.fresh calls))) ↔
      (O.Starts calls → O.PlansOrDefects req) ∧ ∀ plan, O.Reserves calls req singleDispatch plan → C plan := by
  unfold generationAround
  by_cases hstarts : O.Starts calls
  swap
  · exact iff_of_true (settles_of_not_starts hstarts ..) ⟨fun h => absurd h hstarts, fun plan h => absurd h.1 hstarts⟩
  obtain ⟨rows, hrows, hstate⟩ := final_of_starts hstarts req.owner req.operation req.profile streaming (do
    match ← planRequest O O.generationId req with
    | .rejected failure => onRejected failure
    | .finalized plan =>
      let plan := if singleDispatch then singleDispatchPlan plan else plan
      reserve P O O.generationId plan
      clearFlags
      region plan)
  rw [hstate]
  cases hplan : O.planGenerate req.intent with
  | error exc =>
    refine (settles_planError_iff hplan hrows _).trans ⟨fun hclass => ⟨fun _ exc' hexc => ?_, ?_⟩, fun h => ?_⟩
    · rw [hplan] at hexc
      cases hexc
      exact hclass
    · rintro plan ⟨_, ⟨planned, hplanned, _⟩, _⟩
      rw [hplan] at hplanned
      cases hplanned
    · exact h.1 hstarts exc hplan
  | ok planned =>
    have hplans : O.PlansOrDefects req := by
      intro exc hexc
      rw [hplan] at hexc
      cases hexc
    have hrun : (planRequest O O.generationId req).run (.begun rows O.generationId : Execution E) =
        .ok planned (.begun rows O.generationId) := by
      unfold planRequest
      rw [hplan]
      rfl
    rw [show (⟨rows, [.started O.generationId], false, false, .none⟩ : Execution E) = .begun rows O.generationId from rfl,
      final_bind_of_ok hrun]
    cases planned with
    | rejected failure =>
      refine iff_of_true (hrejected failure rows hrows) ⟨fun _ => hplans, ?_⟩
      rintro plan ⟨_, ⟨planned, hplanned, _⟩, _⟩
      rw [hplan] at hplanned
      cases hplanned
    | finalized planned =>
      refine (settles_reserve_iff hrows (hregion _)).trans ⟨fun h => ⟨fun _ => hplans, ?_⟩, fun h hres => ?_⟩
      · rintro plan ⟨_, ⟨planned', hplanned, rfl⟩, hres⟩
        rw [hplan] at hplanned
        cases hplanned
        exact h hres
      · exact h.2 _ ⟨hstarts, ⟨planned, hplan, rfl⟩, hres⟩

/-! ## The regions -/

theorem inner_callLog (P : RuntimePackage) (n : Nat) (outcome : ProviderCallOutcome) :
    ∀ e ∈ callLog (E := E) P n outcome, e.inner = true := by
  simp [callLog, Effect.inner]

theorem final_generateOnce {before : List LLMCall} (P : RuntimePackage) (O : Outside I K E) (req : GenerationRequest I)
    (plan : FinalizedProviderCall) {s : Execution E} (h : RowKept before O.generationId s.llmCalls s.log)
    (hfresh : s.settled = false) (hidle : s.dispatchAttempted = false) :
    ∃ (outcome : Option ProviderCallOutcome) (attempted : Bool) (rows : List LLMCall),
      (outcome.isSome → attempted = true) ∧
      let log := s.log ++ .planCommitted :: (if attempted then [.dispatched] else []) ++
        outcome.toList.flatMap (callLog P plan.accounting.platformTokenReservation)
      RowKept before O.generationId rows log ∧
        ∃ d, final ((generateOnce P O req plan).run s) = ⟨rows, log, attempted, outcome.isSome, d⟩ := by
  obtain ⟨rows, hrows, hprepare⟩ := run_prepareDispatch O req plan h
  unfold generateOnce
  rw [final_bind, hprepare]
  cases hready : O.ready req with
  | error exc =>
    refine ⟨.none, false, rows, by simp, by simpa using hrows, s.defect, ?_⟩
    simp [hfresh, hidle]
  | ok credential =>
    have hdispatched : RowKept before O.generationId rows (s.log ++ [.planCommitted, .dispatched]) := by
      simpa using hrows.append [.dispatched] rfl
    dsimp only
    rw [final_bind]
    cases hanswer : O.generate req.intent plan credential with
    | error exc =>
      refine ⟨.none, true, rows, by simp, by simpa using hdispatched, s.defect, ?_⟩
      simp [run_ask_error, hfresh]
    | ok outcome =>
      obtain ⟨rows', hrows', hclose⟩ := run_closeCall P O plan outcome
        (s := { s with llmCalls := rows, log := s.log ++ [.planCommitted, .dispatched], dispatchAttempted := true })
        hdispatched
      refine ⟨.some outcome, true, rows', by simp, by simpa using hrows', s.defect, ?_⟩
      rw [run_ask_ok]
      dsimp only
      rw [final_bind_of_ok hclose]
      simp

theorem logs_of_outcome (P : RuntimePackage) (n : Nat) (outcome : Option ProviderCallOutcome) :
    let log := outcome.toList.flatMap (callLog (E := E) P n)
    settlements log = outcome.toList.map (settlementOf n) ∧ (terminals log).length = outcome.toList.length ∧
      outcomes log = outcome.toList ∧ ∀ e ∈ log, e.inner = true := by
  cases outcome with
  | none => simp [settlements, terminals, outcomes]
  | some outcome =>
    refine ⟨rfl, rfl, rfl, ?_⟩
    simpa using inner_callLog P n outcome

theorem logs_of_taken (P : RuntimePackage) (n : Nat) (events : List (StreamEvent E)) :
    settlements (events.flatMap (eventLog P n)) = (terminalOutcomes events).map (settlementOf n) ∧
      (terminals (events.flatMap (eventLog P n))).length = (terminalOutcomes events).length ∧
      outcomes (events.flatMap (eventLog P n)) = terminalOutcomes events ∧
      ∀ e ∈ events.flatMap (eventLog P n), e.inner = true := by
  induction events with
  | nil => simp [settlements, terminals, outcomes, terminalOutcomes]
  | cons event events ih =>
    obtain ⟨hset, hterm, hout, hinner⟩ := ih
    rw [List.flatMap_cons, settlements_append, terminals_append, outcomes_append, List.length_append, hset, hterm, hout]
    cases event with
    | terminal seq outcome =>
      refine ⟨rfl, ?_, rfl, ?_⟩
      · rw [Nat.add_comm]
        rfl
      · intro e he
        rcases List.mem_append.1 he with he | he
        · rcases List.mem_append.1 he with he | he
          · exact inner_callLog P n outcome e he
          · obtain rfl := List.mem_singleton.1 he
            rfl
        · exact hinner e he
    | other seq payload =>
      refine ⟨rfl, ?_, rfl, ?_⟩
      · exact Nat.zero_add _
      · intro e he
        rcases List.mem_cons.1 he with rfl | he
        · rfl
        · exact hinner e he

/-- The events the loop hands over, if it is reached. -/
def Outside.handedOver (O : Outside I K E) (req : GenerationRequest I) (plan : FinalizedProviderCall) :
    List (StreamEvent E) :=
  match O.ready req with
  | .ok credential => O.taken [] (O.stream req.intent plan credential).1
  | .error _ => []

theorem final_streamOnce {before : List LLMCall} (P : RuntimePackage) (O : Outside I K E) (req : GenerationRequest I)
    (plan : FinalizedProviderCall) {s : Execution E} (h : RowKept before O.generationId s.llmCalls s.log)
    (hgot : s.log.filterMap Effect.event? = []) (hfresh : s.settled = false) (hidle : s.dispatchAttempted = false) :
    ∃ (attempted : Bool) (rows : List LLMCall),
      (O.handedOver req plan ≠ [] → attempted = true) ∧
      let log := s.log ++ .planCommitted :: (if attempted then [.dispatched] else []) ++
        (O.handedOver req plan).flatMap (eventLog P plan.accounting.platformTokenReservation)
      RowKept before O.generationId rows log ∧
        ∃ d, final ((streamOnce P O req plan).run s) =
          ⟨rows, log, attempted, (O.handedOver req plan).any (·.outcome?.isSome), d⟩ := by
  obtain ⟨rows, hrows, hprepare⟩ := run_prepareDispatch O req plan h
  unfold streamOnce Outside.handedOver
  rw [final_bind, hprepare]
  cases hready : O.ready req with
  | error exc =>
    refine ⟨false, rows, by simp, by simpa using hrows, s.defect, ?_⟩
    simp [hfresh, hidle]
  | ok credential =>
    have hdispatched : RowKept before O.generationId rows (s.log ++ [.planCommitted, .dispatched]) := by
      simpa using hrows.append [.dispatched] rfl
    have hnone : (s.log ++ [Effect.planCommitted, Effect.dispatched]).filterMap Effect.event? = [] := by
      rw [List.filterMap_append, hgot]
      rfl
    obtain ⟨rows', hrows', hloop⟩ := final_forwardEvents P O plan (O.stream req.intent plan credential).2
      (O.stream req.intent plan credential).1
      (s := { s with llmCalls := rows, log := s.log ++ [.planCommitted, .dispatched], dispatchAttempted := true })
      hnone hdispatched
    refine ⟨true, rows', by simp, by simpa using hrows', s.defect, ?_⟩
    dsimp only
    rw [hloop]
    simp [hfresh]

theorem any_outcome_eq (events : List (StreamEvent E)) :
    events.any (·.outcome?.isSome) = !(terminalOutcomes events).isEmpty := by
  induction events with
  | nil => rfl
  | cons event events ih =>
    cases event with
    | terminal seq outcome => rfl
    | other seq payload =>
      rw [List.any_cons, ih]
      rfl

theorem settles_generateOnce {before : List LLMCall} (P : RuntimePackage) (O : Outside I K E) (req : GenerationRequest I)
    (plan : FinalizedProviderCall) {s : Execution E} (h : RowKept before O.generationId s.llmCalls s.log)
    (hlog : s.log = [.started O.generationId, .reserved plan.accounting.platformTokenReservation])
    (hfresh : s.settled = false) (hidle : s.dispatchAttempted = false) :
    Settles (final (EStateM.run (tryFinally
      (tryCatch (generateOnce P O req plan) fun exc => do modify fun s => { s with defect := .some exc }; throw exc)
      (do if !(← get).settled then
            settleDefect P O.generationId plan.accounting.platformTokenReservation unclassified)) s)) := by
  obtain ⟨outcome, attempted, rows, hattempted, hrows, hbody⟩ := final_generateOnce P O req plan h hfresh hidle
  obtain ⟨es, hend, hkept, hdone, hopen⟩ := final_region P plan.accounting.platformTokenReservation unclassified
    (generateOnce P O req plan) (fun exc s => { s with defect := .some exc }) (fun exc t => ⟨_, rfl⟩) hbody hrows
  rw [hlog] at hend
  obtain ⟨hset, hterm, hout, hinner⟩ := logs_of_outcome (E := E) P plan.accounting.platformTokenReservation outcome
  refine (settles_region_iff (by simpa using hend) hkept hinner hset hterm hout ?_ ?_ ?_).2 ?_
  · intro hne
    exact hattempted (by simpa [Option.isSome_iff_ne_none] using hne)
  · intro hne
    exact hdone (by simpa [Option.isSome_iff_ne_none] using hne)
  · intro hnil
    exact hopen (by simpa using hnil)
  · cases outcome with
    | none => simp
    | some outcome => simp

theorem settles_streamOnce_iff {before : List LLMCall} (P : RuntimePackage) (O : Outside I K E) (req : GenerationRequest I)
    (plan : FinalizedProviderCall) {s : Execution E} (h : RowKept before O.generationId s.llmCalls s.log)
    (hlog : s.log = [.started O.generationId, .reserved plan.accounting.platformTokenReservation])
    (hfresh : s.settled = false) (hidle : s.dispatchAttempted = false) :
    Settles (final (EStateM.run (tryFinally
      (tryCatch (streamOnce P O req plan) fun exc => do modify (noteDefect exc); throw exc)
      (do if !(← get).settled then
            settleDefect P O.generationId plan.accounting.platformTokenReservation streamInterrupted)) s)) ↔
      (terminalOutcomes (O.handedOver req plan)).length ≤ 1 := by
  obtain ⟨attempted, rows, hattempted, hrows, hbody⟩ := final_streamOnce P O req plan h (by rw [hlog]; rfl) hfresh hidle
  have hnoting : ∀ (exc : PyException) (t : Execution E), ∃ d, noteDefect exc t = { t with defect := d } := by
    intro exc t
    cases exc with
    | generatorExit => exact ⟨t.defect, rfl⟩
    | planningDefect | runtimeDefect | apiError | other => exact ⟨_, rfl⟩
  obtain ⟨es, hend, hkept, hdone, hopen⟩ := final_region P plan.accounting.platformTokenReservation streamInterrupted
    (streamOnce P O req plan) noteDefect hnoting hbody hrows
  rw [hlog] at hend
  obtain ⟨hset, hterm, hout, hinner⟩ :=
    logs_of_taken P plan.accounting.platformTokenReservation (O.handedOver req plan)
  have hany := any_outcome_eq (O.handedOver req plan)
  refine settles_region_iff (by simpa using hend) hkept hinner hset hterm hout ?_ ?_ ?_
  · intro hne
    refine hattempted fun hnil => hne ?_
    rw [hnil]
    rfl
  · intro hne
    exact hdone (by simpa [hany] using hne)
  · intro hnil
    exact hopen (by simp [hany, hnil])

/-! ## Both executions -/

/-- **An execution that planned without an unknown exception settles**: its
reservation once and as the outcome says, its row with one terminal outcome.
Of a stream this asks in addition that the loop hands over at most one
terminal event; otherwise neither holds. -/
theorem settles_iff (P : RuntimePackage) (O : Outside I K E) (req : GenerationRequest I) (calls : List LLMCall)
    (singleDispatch : Bool) :
    (Settles (final ((executeGeneration P O req singleDispatch).run (.fresh calls))) ↔
      (O.Starts calls → O.PlansOrDefects req)) ∧
    (Settles (final ((executeGenerationStream P O req singleDispatch).run (.fresh calls))) ↔
      (O.Starts calls → O.PlansOrDefects req) ∧
        ∀ plan, O.Reserves calls req singleDispatch plan → (terminalOutcomes (O.handedOver req plan)).length ≤ 1) := by
  constructor
  · have haround := settles_around_iff P O req calls singleDispatch false
      (fun failure => do
        let outcome := ProviderCallOutcome.failed (syntheticMeta req.profile) failure
        let facts ← terminalize P O.generationId outcome .none .none
        return (⟨O.generationId, outcome, facts.supportId⟩ : CallOutcome))
      (fun plan => tryFinally
        (tryCatch (generateOnce P O req plan) fun exc => do modify fun s => { s with defect := .some exc }; throw exc)
        (do if !(← get).settled then
              settleDefect P O.generationId plan.accounting.platformTokenReservation unclassified))
      (fun _ => True)
      (fun failure rows hrows => by
        obtain ⟨rows', hrows', hrun⟩ := run_terminalize (s := .begun rows O.generationId)
          hrows P (.failed (syntheticMeta req.profile) failure) .none .none
        rw [final_bind_of_ok hrun]
        exact settles_started hrows')
      (fun plan rows hrows => iff_true_intro (settles_generateOnce P O req plan hrows rfl rfl rfl))
    rw [show executeGeneration P O req singleDispatch = _ from rfl]
    exact haround.trans (by simp)
  · exact settles_around_iff P O req calls singleDispatch true
      (fun failure => do
        let _ ← terminalize P O.generationId (.failed (syntheticMeta req.profile) failure) .none .none
        yieldEvent O (.terminal 1 (.failed (syntheticMeta req.profile) failure)))
      (fun plan => tryFinally
        (tryCatch (streamOnce P O req plan) fun exc => do modify (noteDefect exc); throw exc)
        (do if !(← get).settled then
              settleDefect P O.generationId plan.accounting.platformTokenReservation streamInterrupted))
      (fun plan => (terminalOutcomes (O.handedOver req plan)).length ≤ 1)
      (fun failure rows hrows => by
        obtain ⟨rows', hrows', hrun⟩ := run_terminalize (s := .begun rows O.generationId)
          hrows P (.failed (syntheticMeta req.profile) failure) .none .none
        rw [final_bind_of_ok hrun, final_yieldEvent]
        exact settles_unreserved (hrows'.append _ rfl) rfl rfl (by simp [Execution.begun]) (by simp [Execution.begun]))
      (fun plan rows hrows => settles_streamOnce_iff P O req plan hrows rfl rfl rfl)

/-! ## The two ways out -/

/-- Surroundings in which everything succeeds: the stream ends after these events. -/
def willing (plan : Except PyException Planned) (events : List (StreamEvent Unit)) : Outside Unit Unit Unit where
  entitlement := .ok true
  generationId := 7
  planGenerate := fun _ => plan
  reserveTokenBudget := fun _ => .ok ()
  generationCredential := fun _ => .ok ()
  beforeDispatch := .none
  generate := fun _ _ _ => .error (.other [])
  stream := fun _ _ _ => (events, .none)
  resume := fun _ => .none
  latencyMs := 3

def plainPackage : RuntimePackage where
  failureOrigin := fun _ => []
  failureCode := fun _ => []
  costFromAccounting := fun _ _ => ⟨0, 0, 0, 0, 0, 0⟩
  sanitizeProviderText := id

def plainRequest : GenerationRequest Unit := ⟨⟨[], 1, 2⟩, [], ⟨[], [], []⟩, ()⟩

def plainPlan : FinalizedProviderCall := ⟨[], [], [], .none, .none, ⟨[], 0, 0, 0, 0, false, 50, 0⟩, 3⟩

def plainOutcome : ProviderCallOutcome := .succeeded ⟨[], [], .none, .none, .none, [], .possiblyBillable⟩

/-- A planner that raises a `KeyError` leaves the row open in both executions,
and a stream of two terminal events commits its reservation twice. -/
theorem open_row_and_two_settlements :
    ¬ Settles (final ((executeGeneration plainPackage (willing (.error (.other "KeyError".toList)) []) plainRequest
      false).run (.fresh []))) ∧
    ¬ Settles (final ((executeGenerationStream plainPackage (willing (.error (.other "KeyError".toList)) [])
      plainRequest false).run (.fresh []))) ∧
    ¬ Settles (final ((executeGenerationStream plainPackage
      (willing (.ok (.finalized plainPlan)) [.terminal 1 plainOutcome, .terminal 2 plainOutcome])
      plainRequest false).run (.fresh []))) := by
  refine ⟨fun h => ?_, fun h => ?_, fun h => ?_⟩
  · obtain ⟨t, ht, _⟩ := h.terminalOnce 7 (List.mem_singleton.2 rfl)
    cases (show ([] : List Terminal) = [t] from ht)
  · obtain ⟨t, ht, _⟩ := h.terminalOnce 7 (List.mem_singleton.2 rfl)
    cases (show ([] : List Terminal) = [t] from ht)
  · have honce := h.settledOnce 50 (List.mem_cons_of_mem _ (List.mem_cons_self ..))
    cases (show [Settlement.committed 50, .committed 50] = [_] from honce)

end Nexus.Generation
