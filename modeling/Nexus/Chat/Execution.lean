/-
One chat run, from its job's first claim to its end: `_execute_chat_run` and
what it calls in `services/chat_runs.py`, `tasks/chat_run.py`, the worker
around them, the ledger of `services/llm_ledger.py`, and what a user or an
operator does to the run meanwhile.

An attempt is one claim of the job. It holds the payload it loaded and stands
at a `Pc`; `Attempt.plan` is what it does next, a `Move`: nothing a row sees, a
commit of the ledger, an effect sent outside, or one transaction under the
lease (`Move.checkpoint`), which rolls back when the lease is lost. Between any
two moves the worker may die and every other party may act, at any time.

Where the code looks at the cancel flag twice with nothing between, one look
is modelled. Rate-limiter slots, event rows and message rows, which the journal
does not read, are left out, and so are the claims of other jobs. `marks`,
`sent` and `proven` are logs that nothing reads: the dispatch checkpoints that
committed, the effects that left, and the resolutions `ProveNotDispatched` that
were accepted.
-/
import Nexus.Jobs.Fencing
import Nexus.Chat.Journal

namespace Nexus.Chat
open JsonCodec Jobs Relational Transition

/-! ## The run and its ledger -/

inductive RunStatus
  | queued
  | running
  | complete
  | error
  | cancelled
  deriving DecidableEq, Repr

/-- `status in TERMINAL_RUN_STATUSES` -/
def RunStatus.terminal : RunStatus → Bool
  | .queued | .running => false
  | .complete | .error | .cancelled => true

/-- A row of `chat_runs`, with the content of its assistant message. -/
structure ChatRun where
  status : RunStatus
  cancelRequested : Bool
  assistantContent : Text
  assistantMessageId : UuidBytes

inductive CallOutcome
  | succeeded
  | refused
  | incomplete
  | cancelled
  | failed
  deriving DecidableEq, Repr

/-- A row of `llm_calls`, of the run; `call_seq` is unique for an owner. -/
structure LlmCall where
  callSeq : Nat
  outcome : Option CallOutcome
  errorCode : Option Text
  deriving DecidableEq, Repr

/-- `_next_call_seq`: `COALESCE(MAX(call_seq), 0) + 1`. -/
def nextCallSeq (calls : List LlmCall) : Nat := (calls.map LlmCall.callSeq).foldr max 0 + 1

def startCall (calls : List LlmCall) : List LlmCall := calls ++ [⟨nextCallSeq calls, .none, .none⟩]

/-- `terminalize` and `terminalize_defect` -/
def terminalize (calls : List LlmCall) (callSeq : Nat) (outcome : CallOutcome) (errorCode : Option Text) : List LlmCall :=
  calls.map fun call => if call.callSeq = callSeq then { call with outcome := .some outcome, errorCode } else call

/-- `SELECT error_code … ORDER BY call_seq DESC LIMIT 1` -/
def latestErrorCode (calls : List LlmCall) : Option Text :=
  (Table.firstBy (fun a b : LlmCall => decide (b.callSeq ≤ a.callSeq)) calls).bind LlmCall.errorCode

/-- The call a row of the ledger is of. -/
def findCall (calls : List LlmCall) (callSeq : Nat) : Option LlmCall := calls.find? fun call => call.callSeq = callSeq

/-! ## The loop -/

/-- The variables of `_execute_chat_run`. -/
structure Vars (F S : Type) where
  baseIntent : GenerateIntent F S
  messages : List (PromptMessage F)
  fullContent : Text
  finalUsage : Option (Object F)
  lastProviderEventSeq : Option Int
  citationNNext : Positive
  toolCallIndexNext : Nat
  turnIndex : Nat

/-- Where the loop stands: at a turn's generation, at a tool call with those
after it (`tool_call_index_next` not yet raised for it), or past the loop. -/
inductive Loop (F S : Type)
  | turn (v : Vars F S)
  | tool (v : Vars F S) (call : ToolCall F) (rest : List (ToolCall F))
  | publish (v : Vars F S)

variable {F S : Type}

def maxToolIterations : Nat := 8

def Loop.vars : Loop F S → Vars F S
  | .turn v | .tool v _ _ | .publish v => v

def Loop.path : Loop F S → StepPath
  | .turn v => .generation v.turnIndex
  | .tool v _ _ => .tool v.turnIndex (v.toolCallIndexNext + 1)
  | .publish _ => .publication

def appSearchToolName : Text := "app_search".toList

def webSearchToolName : Text := "web_search".toList

def readResourceToolName : Text := "read_resource".toList

def inspectResourceToolName : Text := "inspect_resource".toList

def writeToolNames : List Text :=
  ["add_to_library".toList, "jot_note".toList, "create_highlight".toList, "mint_edge".toList, "queue_add".toList]

def toolReplayPolicy (toolName : Text) : ReplayPolicy :=
  if [appSearchToolName, readResourceToolName, inspectResourceToolName].contains toolName then .reDispatchable
  else .billedOnce

def Loop.policy : Loop F S → ReplayPolicy
  | .turn _ => .billedOnce
  | .tool _ call _ => toolReplayPolicy call.name.1
  | .publish _ => .reDispatchable

/-- How `_execute_tool_step` makes a tool's effect: in the transaction that
completes the step, or after a dispatch checkpoint, outside or in that
transaction. -/
inductive ToolEffect
  | direct
  | external
  | write
  deriving DecidableEq, Repr

def toolEffect (webSearch : Bool) (toolName : Text) : ToolEffect :=
  if toolName = webSearchToolName then (if webSearch then .external else .direct)
  else if writeToolNames.contains toolName then .write
  else .direct

/-- The intent of a turn: `dataclasses.replace(base_intent, messages=…)`. -/
def Vars.intent (v : Vars F S) : GenerateIntent F S := { v.baseIntent with messages := v.messages }

def Vars.toolRequest (v : Vars F S) (call : ToolCall F) : ToolStepRequest F :=
  ⟨call.id, call.name, ⟨v.toolCallIndexNext + 1, Nat.succ_pos _⟩, call.arguments⟩

def Vars.publicationRequest (v : Vars F S) : PublicationRequest F :=
  ⟨v.fullContent, v.finalUsage, v.lastProviderEventSeq⟩

def Loop.fingerprint (O : Outside F S) : Loop F S → Text
  | .turn v => O.stepFingerprint (generateIntentCodec.encode (.fromIntent O.json O.schema v.intent))
  | .tool v call _ => O.stepFingerprint (toolStepRequestCodec.encode (v.toolRequest call))
  | .publish v => O.stepFingerprint (publicationRequestCodec.encode v.publicationRequest)

def assistantMessageFromTurn (turn : AssistantTurn F) : PromptMessage F :=
  .assistant turn.text (turn.toolCalls.map toolCallFromState) (turn.continuation.map continuation)

def toolResultMessage (result : ToolStepResult F) : PromptMessage F :=
  .toolResult result.modelOutput.callId result.modelOutput.output result.modelOutput.isError

/-- The variables before the first turn. -/
def Vars.start (base : GenerateIntent F S) (prepared : PreparedChatRun F) : Vars F S where
  baseIntent := base
  messages := base.messages
  fullContent := []
  finalUsage := .none
  lastProviderEventSeq := .none
  citationNNext := prepared.initialCitationOrdinal
  toolCallIndexNext := prepared.initialToolCallIndex
  turnIndex := 0

/-- The variables after a turn's text, before its tool calls. -/
def Vars.withTurn (v : Vars F S) (turn : AssistantTurn F) : Vars F S :=
  { v with
    fullContent := v.fullContent ++ turn.text
    finalUsage := turn.usage
    lastProviderEventSeq := turn.lastProviderEventSeq
    messages := if turn.toolCalls.isEmpty then v.messages else v.messages ++ [assistantMessageFromTurn turn] }

def Vars.withTool (v : Vars F S) (result : ToolStepResult F) : Vars F S :=
  { v with
    citationNNext := result.nextCitationOrdinal
    messages := v.messages ++ [toolResultMessage result]
    toolCallIndexNext := v.toolCallIndexNext + 1 }

/-- After the last tool call of a turn. -/
def Vars.nextTurn (v : Vars F S) : Loop F S :=
  if v.turnIndex + 1 < maxToolIterations then .turn { v with turnIndex := v.turnIndex + 1 } else .publish v

/-- Where a turn's reply leads: `break`, or its first tool call. -/
def Loop.afterTurn (v : Vars F S) (turn : AssistantTurn F) : Loop F S :=
  match turn.toolCalls.map toolCallFromState with
  | [] => .publish (v.withTurn turn)
  | call :: rest => .tool (v.withTurn turn) call rest

def Loop.afterTool (v : Vars F S) (rest : List (ToolCall F)) (result : ToolStepResult F) : Loop F S :=
  match rest with
  | [] => (v.withTool result).nextTurn
  | call :: rest => .tool (v.withTool result) call rest

/-! ## Attempts -/

/-- An external effect, with the ledger's call when it is a generation. -/
structure Dispatch where
  path : StepPath
  call : Option Nat
  deriving DecidableEq, Repr

inductive Pc (F S : Type)
  | claimed
  | held
  | loaded
  | entered
  | preparing
  /-- looks at the cancel flag before going on -/
  | check (l : Loop F S)
  | step (l : Loop F S)
  /-- the step is prepared, nothing is dispatched -/
  | ready (l : Loop F S)
  /-- a generation whose ledger row is committed -/
  | started (v : Vars F S) (call : Nat)
  /-- past the dispatch checkpoint -/
  | armed (l : Loop F S) (call : Option Nat)
  | inFlight (l : Loop F S) (call : Option Nat)
  | answered (v : Vars F S) (result : GenerationStepResult F)
  | folding (result : ExpectedFailure F ⊕ CancelledGeneration F)
  | returned
  | raised (fault : StepFault)

structure Attempt (F S : Type) where
  ctx : JobExecutionContext
  payload : ChatPayload
  /-- `steps.web_search_provider` is present -/
  webSearch : Bool
  pc : Pc F S

/-- What an attempt learns from outside as it moves on. -/
inductive Input (F : Type)
  | go
  | assembled (prepared : PreparedChatRun F)
  | contextTooLarge
  /-- the plan is rejected or the budget denied: the call ends without a dispatch -/
  | notDispatched (errorCode : Text) (failure : ExpectedFailure F)
  /-- the terminal event, and the step result it is given unless it is ambiguous -/
  | answer (outcome : CallOutcome) (errorCode : Option Text) (result : Option (GenerationStepResult F))
  | toolDone (result : ToolStepResult F)
  | published (content : Text)
  /-- raises; a ledger row still open is closed with the code, if that commits -/
  | fault (errorCode : Option Text)

inductive Move (F S : Type)
  | go (pc : Pc F S)
  | markRunning (pc : Pc F S)
  | ledger (calls : List LlmCall) (pc : Pc F S)
  | send (effect : Dispatch) (pc : Pc F S)
  /-- one transaction under the lease: the payload, the run's end, what is
  dispatched; `lost` is the ledger when the lease is lost -/
  | checkpoint (payload : ChatPayload) (finalize : Option (RunStatus × Text)) (marks sent : List Dispatch)
      (pc : Pc F S) (lost : List LlmCall)

section Plan

variable (O : Outside F S)

/-- The `finalize_run` and `clear` of one transaction. -/
def Attempt.finalizeAndClear (a : Attempt F S) (calls : List LlmCall) (finalize : Option (RunStatus × Text)) : Move F S :=
  .checkpoint (.bare a.payload.runId) finalize [] [] .returned calls

/-- A checkpoint of a payload, unless building it raises. -/
def checkpointOr (payload : Except StepFault ChatPayload) (marks sent : List Dispatch) (pc : Pc F S)
    (calls : List LlmCall) : Move F S :=
  match payload with
  | .error fault => .go (.raised fault)
  | .ok payload => .checkpoint payload .none marks sent pc calls

/-- After `_prepare_chat_run`. -/
def Pc.begin (prepared : PreparedChatRun F) : Pc F S :=
  match prepared.generateIntent.toIntent O.schema with
  | .none => .raised .other
  | .some base => .check (.turn (.start base prepared))

/-- After a generation's result: `_fold_generation_terminal`, then the turn. -/
def Pc.afterGeneration (v : Vars F S) : GenerationStepResult F → Pc F S
  | .assistantTurn turn => match Loop.afterTurn v turn with
    | .publish v => .check (.publish v)
    | l => .step l
  | .expectedFailure failure => .folding (.inl failure)
  | .cancelled generation => .folding (.inr generation)

/-- `_decode_completed`, with the schema of the record's step. -/
def decodeCompleted {α : Type} (c : Codec F α) (state : StepReplayState) : Option α :=
  state.terminalResult.bind (c.loads O.models)

/-- **An attempt that finds the prepare step done goes on with the intent that was built**,
through the models, their JSON text and the journal. -/
theorem prepared_resumed (payload : ChatPayload) (policy : ReplayPolicy) (fingerprint : Text) (intent : GenerateIntent F S)
    (ordinal : Positive) (index : Nat) :
    ∃ state prepared, (payload.withStepState .prepare ((preparedState O payload.runId .prepare fingerprint).asCompleted
        (preparedCodec.dumps O.models ⟨.fromIntent O.json O.schema intent, ordinal, index⟩))).read O .prepare policy = .ok (.some state) ∧
      state.dispatchPhase = .completed ∧ decodeCompleted O preparedCodec state = .some prepared ∧
      prepared.generateIntent.toIntent O.schema = .some intent ∧ prepared.initialCitationOrdinal = ordinal ∧
      prepared.initialToolCallIndex = index := by
  refine ⟨(preparedState O payload.runId .prepare fingerprint).asCompleted
    (preparedCodec.dumps O.models ⟨.fromIntent O.json O.schema intent, ordinal, index⟩),
    ⟨.fromIntent O.json O.schema intent, ordinal, index⟩, ?_, rfl, ?_, ?_, rfl, rfl⟩
  · rw [ChatPayload.read, ChatPayload.withStepState_self]
    simp [preparedState, StepReplayState.asCompleted, ChatPayload.withStepState]
  · exact preparedCodec.loads_dumps O.models _
  · exact GenerateIntentState.toIntent_fromIntent O.json O.schema intent

/-- Goes on from a step whose record is completed. -/
def Loop.resume (state : StepReplayState) : Loop F S → Pc F S
  | .turn v => match decodeCompleted O generationCodec state with
    | .none => .raised .malformedResult
    | .some result => .afterGeneration v result
  | .tool v _ rest => match decodeCompleted O toolStepResultCodec state with
    | .none => .raised .malformedResult
    | .some result => .check (.afterTool v rest result)
  | .publish _ => .raised .wrongPhase

/-- Goes on from a record that is there. -/
def Loop.resumeFrom (l : Loop F S) (state : StepReplayState) : Pc F S :=
  if state.requestFingerprint ≠ l.fingerprint O then .raised .fingerprintChanged
  else match state.dispatchPhase with
    | .prepared => .ready l
    | .uncertain => .raised .wrongPhase
    | .completed => l.resume O state

/-- `steps.complete` with a tool's result, and the effect made in that
transaction. -/
def Attempt.completeTool (a : Attempt F S) (calls : List LlmCall) (v : Vars F S) (rest : List (ToolCall F))
    (path : StepPath) (result : ToolStepResult F) (sent : List Dispatch) : Move F S :=
  checkpointOr (a.payload.complete path (toolStepResultCodec.dumps O.models result)) [] sent
    (.check (.afterTool v rest result)) calls

/-- The results a terminal event is given: none if what was billed is unknown. -/
def CallOutcome.gives : CallOutcome → Option (GenerationStepResult F) → Bool
  | .succeeded, .some (.assistantTurn _) => true
  | .refused, .some (.expectedFailure _) | .incomplete, .some (.expectedFailure _) => true
  | .cancelled, .some (.expectedFailure _) | .cancelled, .some (.cancelled _) => true
  | .failed, .some (.expectedFailure _) | .failed, .none => true
  | _, _ => false

/-- The ledger when an attempt raises: a call still open is closed. -/
def Pc.settle (calls : List LlmCall) (errorCode : Option Text) : Pc F S → List LlmCall
  | .started _ call | .armed _ (.some call) | .inFlight _ (.some call) =>
    if errorCode.isSome then terminalize calls call .failed errorCode else calls
  | _ => calls

def budgetExceeded : Text := "budget_exceeded".toList

def Attempt.plan (run : Option ChatRun) (calls : List LlmCall) (a : Attempt F S) : Input F → Option (Move F S)
  | .fault errorCode => match a.pc with
    | .claimed | .held | .returned | .raised _ => .none
    | pc => .some (.ledger (pc.settle calls errorCode) (.raised .other))
  | input => match a.pc, input with
    | .loaded, .go =>
      if run.all (·.status.terminal) then .some (a.finalizeAndClear calls .none) else .some (.markRunning .entered)
    | .entered, .go => match run with
      | .none => .some (.go (.raised .other))
      | .some r =>
        if r.status.terminal then .some (a.finalizeAndClear calls .none)
        else if r.cancelRequested then .some (a.finalizeAndClear calls (.some (.cancelled, [])))
        else .some (.go .preparing)
    | .preparing, input => match a.payload.read O .prepare .reDispatchable, input with
      | .error fault, .go => .some (.go (.raised fault))
      | .ok (.some state), .go =>
        if state.dispatchPhase ≠ .completed then .some (.go (.raised .wrongPhase))
        else match decodeCompleted O preparedCodec state with
          | .none => .some (.go (.raised .malformedResult))
          | .some prepared => .some (.go (.begin O prepared))
      | .ok .none, .assembled prepared =>
        .some (checkpointOr (a.payload.completeDatabaseStep O .prepare (O.stepFingerprint (preparedCodec.encode prepared))
          (preparedCodec.dumps O.models prepared)) [] [] (.begin O prepared) calls)
      | .ok .none, .contextTooLarge => .some (a.finalizeAndClear calls (.some (.error, [])))
      | _, _ => .none
    | .check l, .go =>
      if run.any (·.cancelRequested) then .some (a.finalizeAndClear calls (.some (.cancelled, l.vars.fullContent)))
      else .some (.go (.step l))
    | .step l, .go => match a.payload.read O l.path l.policy with
      | .error fault => .some (.go (.raised fault))
      | .ok .none => .some (checkpointOr (a.payload.prepare O l.path (l.fingerprint O)) [] [] (.ready l) calls)
      | .ok (.some state) => .some (.go (l.resumeFrom O state))
    | .ready (.turn v), .go => .some (.ledger (startCall calls) (.started v (nextCallSeq calls)))
    | .ready (.turn v), .notDispatched _ failure =>
      -- the entitlement check raised, after an earlier call ran out of budget
      if latestErrorCode calls = .some budgetExceeded then .some (.go (.answered v (.expectedFailure failure))) else .none
    | .started v call, .notDispatched errorCode failure =>
      .some (.ledger (terminalize calls call .failed (.some errorCode)) (.answered v (.expectedFailure failure)))
    | .started v call, .go =>
      .some (checkpointOr (a.payload.markUncertain (Loop.turn v).path) [⟨(Loop.turn v).path, .some call⟩] []
        (.armed (.turn v) (.some call)) (terminalize calls call .failed (.some "unclassified_defect".toList)))
    | .ready (.tool v call rest), .toolDone result =>
      if toolEffect a.webSearch call.name.1 = .direct then
        .some (a.completeTool O calls v rest (Loop.tool v call rest).path result [])
      else .none
    | .ready (.tool v call rest), .go =>
      if toolEffect a.webSearch call.name.1 = .direct then .none
      else .some (checkpointOr (a.payload.markUncertain (Loop.tool v call rest).path)
        [⟨(Loop.tool v call rest).path, .none⟩] [] (.armed (.tool v call rest) .none) calls)
    | .armed (.turn v) call, .go => .some (.send ⟨(Loop.turn v).path, call⟩ (.inFlight (.turn v) call))
    | .armed (.tool v call rest) c, .go =>
      if toolEffect a.webSearch call.name.1 = .external then
        .some (.send ⟨(Loop.tool v call rest).path, c⟩ (.inFlight (.tool v call rest) c))
      else .none
    | .armed (.tool v call rest) c, .toolDone result =>
      if toolEffect a.webSearch call.name.1 = .write then
        .some (a.completeTool O calls v rest (Loop.tool v call rest).path result [⟨(Loop.tool v call rest).path, c⟩])
      else .none
    | .inFlight (.turn v) (.some call), .answer outcome errorCode result =>
      if outcome.gives result then
        .some (.ledger (terminalize calls call outcome errorCode)
          (match result with | .some r => .answered v r | .none => .raised .uncertainStep))
      else .none
    | .inFlight (.tool v call rest) _, .toolDone result =>
      .some (a.completeTool O calls v rest (Loop.tool v call rest).path result [])
    | .answered v result, .go =>
      .some (checkpointOr (a.payload.complete (Loop.turn v).path (generationCodec.dumps O.models result)) [] []
        (.afterGeneration v result) calls)
    | .folding (.inl failure), .go => .some (a.finalizeAndClear calls (.some (.error, failure.assistantContent)))
    | .folding (.inr generation), .go =>
      .some (a.finalizeAndClear calls (.some (.cancelled, generation.assistantContent)))
    | .ready (.publish _), .published content => match a.payload.completePublication with
      | .error fault => .some (.go (.raised fault))
      | .ok payload => .some (.checkpoint payload (.some (.complete, content)) [] [] .returned calls)
    | _, _ => .none

end Plan

/-! ## The system -/

structure ChatState (F S : Type) where
  queue : Queue ChatPayload
  run : Option ChatRun
  calls : List LlmCall
  attempts : String → Option (Attempt F S)
  marks : List Dispatch
  sent : List Dispatch
  proven : List StepPath

inductive Resolution
  | proveNotDispatched
  | attachReconciledResult (terminalResult : Text)
  deriving DecidableEq, Repr

inductive ChatEvent (F : Type)
  /-- `claim_job`, or `claim_next_job` when this job is its candidate -/
  | claim (worker : String) (leaseSeconds : Int) (webSearch : Bool)
  | heartbeat (worker : String) (leaseSeconds : Int)
  /-- the handler's `get_job` -/
  | load (worker : String)
  | act (worker : String) (input : Input F)
  /-- the worker settles the job, and is free -/
  | settle (worker : String)
  /-- the worker dies -/
  | crash (worker : String)
  | deadLetterExpired (allowedKinds : Option (List String)) (locked : List Uuid)
  /-- `otherKinds`: the other kinds with `never_prune_dead` -/
  | prune (succeededAfterDays deadAfterDays limit : Int) (otherKinds : List String) (locked : List Uuid)
  | cancelChatRun
  /-- `toolFacts`: the tool's row and event are stored as the result says -/
  | reconcile (path : StepPath) (resolution : Resolution) (toolFacts : Bool)
  | deleteConversation

def chatRunKind : String := "chat_run"

namespace ChatState

variable (O : Outside F S) (runId jobId : Uuid)

/-- `finalize_run`, which leaves a run that is over as it is. -/
def finalized (run : Option ChatRun) : Option (RunStatus × Text) → Option ChatRun
  | .none => run
  | .some (status, content) => run.map fun r =>
    if r.status.terminal then r else { r with status, assistantContent := content }

def setAttempt (s : ChatState F S) (worker : String) (a : Option (Attempt F S)) : ChatState F S :=
  { s with attempts := fun w => if w = worker then a else s.attempts w }

/-- Makes an attempt's move, at `now`. -/
def move (s : ChatState F S) (now : Instant) (worker : String) (a : Attempt F S) : Move F S → ChatState F S
  | .go pc => s.setAttempt worker (.some { a with pc })
  | .markRunning pc =>
    { s.setAttempt worker (.some { a with pc }) with
      run := s.run.map fun r => if r.status = .queued then { r with status := .running } else r }
  | .ledger calls pc => { s.setAttempt worker (.some { a with pc }) with calls }
  | .send effect pc => { s.setAttempt worker (.some { a with pc }) with sent := s.sent ++ [effect] }
  | .checkpoint payload finalize marks sent pc lost =>
    match s.queue.updateRunningJobPayload now a.ctx payload with
    | .none => { s.setAttempt worker (.some { a with pc := .raised .lostLease }) with calls := lost }
    | .some (_, queue) =>
      { s.setAttempt worker (.some { a with payload, pc }) with
        queue
        run := finalized s.run finalize
        marks := s.marks ++ marks
        sent := s.sent ++ sent }

/-- `record_dead_lettered_chat_run`, in the transaction that made the job dead. -/
def deadLettered (s : ChatState F S) (now : Instant) : ChatState F S :=
  if s.run.any fun r => !r.status.terminal && r.cancelRequested then
    match s.queue.requeueDeadJob now jobId with
    | .none => s
    | .some (_, queue) => { s with queue }
  else s

/-- `current_dead_job_for_payload`: the run's job, if it is suspended. -/
def deadJob (s : ChatState F S) : Option (JobRow ChatPayload) :=
  (s.queue.find? jobId).filter fun j => j.status = .dead

/-- `_validate_reconciled_domain_facts`, with what the tool tables say. -/
def validates (s : ChatState F S) (path : StepPath) (raw : Text) (toolFacts : Bool) : Bool :=
  match s.run with
  | .none => false
  | .some run =>
    !run.status.terminal &&
      match path with
      | .generation turn =>
        (generationCodec.loads O.models raw).any fun result =>
          match findCall s.calls (turn + 1) with
          | .none => false
          | .some call => match call.outcome, result with
            | .none, _ => false
            | .some outcome, .assistantTurn _ => outcome == .succeeded
            | .some _, _ => true
      | .tool _ _ =>
        (toolStepResultCodec.loads O.models raw).any fun result =>
          result.resultEvent.toolCallId == .some result.toolCallId &&
          result.resultEvent.assistantMessageId == run.assistantMessageId &&
          result.resultEvent.toolName == result.toolName &&
          result.resultEvent.toolCallIndex == result.toolCallIndex.1 && toolFacts
      | .prepare | .publication => false

/-- The record an accepted resolution writes. -/
def resolved (s : ChatState F S) (path : StepPath) (state : StepReplayState) (toolFacts : Bool) :
    Resolution → Option StepReplayState
  | .proveNotDispatched => .some state.asPrepared
  | .attachReconciledResult raw => if s.validates O path raw toolFacts then .some (state.asCompleted raw) else .none

/-- `reconcile_uncertain_chat_step`, when it raises nothing. -/
def reconcile (s : ChatState F S) (now : Instant) (path : StepPath) (resolution : Resolution) (toolFacts : Bool) :
    Option (ChatState F S) := do
  let job ← s.deadJob jobId
  let state ← job.payload.coordination path
  if state.dispatchPhase ≠ .uncertain ∨ state.generationId ≠ O.stableGenerationId runId path then .none
  else
    let next ← s.resolved O path state toolFacts resolution
    let (_, queue) ← s.queue.replaceDeadJobPayload now jobId (job.payload.withStepState path next)
    let (_, queue) ← queue.requeueDeadJob now jobId
    return { s with
      queue
      proven := if resolution = .proveNotDispatched then s.proven ++ [path] else s.proven }

def cancelChatRun (s : ChatState F S) (now : Instant) : ChatState F S :=
  if s.run.any fun r => !r.status.terminal then
    let s : ChatState F S := { s with run := s.run.map fun r => { r with cancelRequested := true } }
    match (s.deadJob jobId).bind fun _ => s.queue.requeueDeadJob now jobId with
    | .none => s
    | .some (_, queue) => { s with queue }
  else s

/-- `retry_delays_seconds` of the job's kind. -/
def retryDelaysSeconds : List Int := [30, 120, 300]

def next (s : ChatState F S) : Instant × ChatEvent F → Option (ChatState F S)
  | (now, .claim worker leaseSeconds webSearch) =>
    match s.attempts worker with
    | .some _ => .none
    | .none => (s.queue.claimJob now jobId worker leaseSeconds .none).map fun (row, queue) =>
      { s.setAttempt worker (.some ⟨⟨jobId, worker, row.attempts⟩, row.payload, webSearch, .claimed⟩) with queue }
  | (now, .heartbeat worker leaseSeconds) =>
    (s.attempts worker).map fun a =>
      match a.pc, s.queue.heartbeatJob now jobId worker leaseSeconds with
      | .claimed, .none => s.setAttempt worker .none
      | .claimed, .some (_, queue) => { s.setAttempt worker (.some { a with pc := .held }) with queue }
      | _, .none => s
      | _, .some (_, queue) => { s with queue }
  | (_, .load worker) =>
    match s.attempts worker with
    | .none => .none
    | .some a => match a.pc with
      | .held => .some <| s.setAttempt worker <| .some <| match s.queue.find? jobId with
        | .none => { a with pc := .raised .other }
        | .some job =>
          if job.payload.runId = runId then { a with payload := job.payload, pc := .loaded }
          else { a with pc := .raised .other }
      | _ => .none
  | (now, .act worker input) =>
    (s.attempts worker).bind fun a => (a.plan O s.run s.calls input).map (s.move now worker a)
  | (now, .settle worker) =>
    match s.attempts worker with
    | .none => .none
    | .some a => match a.pc with
      | .returned =>
        let free := s.setAttempt worker .none
        .some <| match s.queue.completeJob now jobId worker .none with
          | .none => free
          | .some (_, queue) => { free with queue }
      | .raised _ =>
        let free := s.setAttempt worker .none
        .some <| match s.queue.failJob now jobId worker "E_WORKER_TASK_FAILED" "" retryDelaysSeconds .none with
          | .none => free
          | .some (row, queue) =>
            if row.status = .dead then deadLettered jobId { free with queue } now else { free with queue }
      | _ => .none
  | (_, .crash worker) => .some (s.setAttempt worker .none)
  | (now, .deadLetterExpired allowedKinds locked) =>
    (s.queue.deadLetterExpiredJob now allowedKinds locked).map fun (row, queue) =>
      if row.id = jobId then deadLettered jobId { s with queue } now else { s with queue }
  | (now, .prune succeededAfterDays deadAfterDays limit otherKinds locked) =>
    .some { s with
      queue := (s.queue.pruneTerminalJobs now succeededAfterDays deadAfterDays limit (chatRunKind :: otherKinds) locked).2 }
  | (now, .cancelChatRun) => .some (s.cancelChatRun jobId now)
  | (now, .reconcile path resolution toolFacts) => s.reconcile O runId jobId now path resolution toolFacts
  | (_, .deleteConversation) => .some { s with queue := s.queue.deleteWhere fun j => j.id = jobId, run := .none }

/-- A run just created: its job waits with a bare payload. -/
def Created (s : ChatState F S) : Prop :=
  (∃ job, s.queue.find? jobId = .some job ∧ job.kind = chatRunKind ∧ job.status = .pending ∧ job.payload = .bare runId) ∧
    (∃ run, s.run = .some run ∧ run.status = .queued) ∧
    s.calls = [] ∧ (∀ worker, s.attempts worker = .none) ∧ s.marks = [] ∧ s.sent = [] ∧ s.proven = []

end ChatState

def chatSystem (O : Outside F S) (runId jobId : Uuid) : System (ChatState F S) (Instant × ChatEvent F) :=
  .ofFun (ChatState.Created runId jobId) (ChatState.next O runId jobId)

end Nexus.Chat
