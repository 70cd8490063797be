/-
The `llm_calls` row of one generation (`services/llm_ledger.py`): the insert
before any dispatch, the plan's facts, and the two writes of a terminal
outcome, each committed at once.

An execution is a state the calls pass on: the ledger's rows, what was done so
far (`log`), and the flags and the defect `execute_generation` keeps as local
variables. What `provider_runtime` computes is a parameter.
-/
import Nexus.Primitives

namespace Nexus.Generation

/-! ## What the runtime reports -/

structure TokenUsage where
  inputTokens : Nat
  outputTokens : Nat
  totalTokens : Nat
  reasoningTokens : Option Nat
  cacheWriteInputTokens : Option Nat
  cacheReadInputTokens : Option Nat
  deriving DecidableEq, Repr

inductive Billability
  | notDispatched
  | confirmedNonBillable
  | possiblyBillable
  deriving DecidableEq, Repr

inductive TransientCause
  | providerRateLimit (retryAfter : Option Nat)
  | other (kind : Text)
  deriving DecidableEq, Repr

inductive Failure
  | invalidToolArguments (safeDetail : Option Text)
  | transientExhausted (attempts : Nat) (cause : TransientCause)
  | other (kind : Text)
  deriving DecidableEq, Repr

/-- `AttemptRecord`: no cause is the signal `FinalAttempt`. -/
structure AttemptRecord where
  attempt : Nat
  startedAtMs : Nat
  endedAtMs : Nat
  statusCode : Option Nat
  cause : Option TransientCause
  deriving DecidableEq, Repr

structure CallMeta where
  provider : Text
  model : Text
  providerRequestId : Option Text
  upstreamProvider : Option Text
  usage : Option TokenUsage
  attemptTrace : List AttemptRecord
  billability : Billability
  deriving DecidableEq, Repr

/-- `provider_runtime.CallOutcome` -/
inductive ProviderCallOutcome
  | succeeded (callMeta : CallMeta)
  | refused (callMeta : CallMeta) (safeDetail : Option Text)
  | incomplete (callMeta : CallMeta) (status : Text) (safeDetail : Option Text)
  | cancelled (callMeta : CallMeta)
  | failed (callMeta : CallMeta) (failure : Failure)
  deriving DecidableEq, Repr

def ProviderCallOutcome.callMeta : ProviderCallOutcome → CallMeta
  | .succeeded m => m
  | .refused m _ => m
  | .incomplete m _ _ => m
  | .cancelled m => m
  | .failed m _ => m

structure Accounting where
  currency : Text
  inputRate : Nat
  outputRate : Nat
  cacheWriteRate : Nat
  cacheReadRate : Nat
  reasoningBilledOutsideOutput : Bool
  platformTokenReservation : Nat
  maximumCostEstimateUsdMicros : Nat
  deriving DecidableEq, Repr

structure CostBreakdown where
  inputCostUsdMicros : Nat
  outputCostUsdMicros : Nat
  cacheWriteCostUsdMicros : Nat
  cacheReadCostUsdMicros : Nat
  reasoningCostUsdMicros : Nat
  totalCostUsdMicros : Nat
  deriving DecidableEq, Repr

/-- `FinalizedProviderCall`, as far as the ledger and the executions read it:
`cacheStrategy` and `cacheTtl` are `plan_cache_strategy` and `plan_cache_ttl` of its cache plan. -/
structure FinalizedProviderCall where
  nativeReasoning : Text
  catalogRevision : Text
  requestFingerprint : Text
  cacheStrategy : Option Text
  cacheTtl : Option Text
  accounting : Accounting
  maxAttempts : Nat
  deriving DecidableEq, Repr

/-- The functions of `provider_runtime` the ledger calls. -/
structure RuntimePackage where
  failureOrigin : Failure → Text
  failureCode : Failure → Text
  costFromAccounting : Accounting → TokenUsage → CostBreakdown
  sanitizeProviderText : Text → Text

/-! ## The row -/

inductive OutcomeTag
  | succeeded
  | refused
  | incomplete
  | cancelled
  | failed
  deriving DecidableEq, Repr

inductive CostStatus
  | missingUsage
  | missingPricing
  | estimated
  deriving DecidableEq, Repr

inductive AttemptStatus
  | success
  | abandoned
  | terminalError
  deriving DecidableEq, Repr

structure LlmCallOwner where
  kind : Text
  id : Uuid
  userId : Uuid
  deriving DecidableEq, Repr

structure LlmProfile where
  provider : Text
  model : Text
  defaultReasoningOptionId : Text
  deriving DecidableEq, Repr

/-- One object of the `provider_attempts` array. -/
structure AttemptEntry where
  attempt : Nat
  startedAtMs : Nat
  endedAtMs : Nat
  statusCode : Option Nat
  /-- `"signal": "final"` -/
  final : Bool
  origin : Option Text
  code : Option Text
  retryAfter : Option Nat
  deriving DecidableEq, Repr

/-- What a row says of the end of its call. -/
structure Terminal where
  outcome : OutcomeTag
  errorOrigin : Option Text
  errorCode : Option Text
  errorDetail : Option Text
  deriving DecidableEq, Repr

structure LLMCall where
  id : Uuid
  ownerKind : Text
  ownerId : Uuid
  callSeq : Nat
  provider : Text
  modelName : Text
  llmOperation : Text
  streaming : Bool
  reasoningEffort : Text
  catalogRevision : Option Text
  requestFingerprint : Option Text
  cacheStrategy : Option Text
  cacheTtl : Option Text
  pricingSnapshot : Option Accounting
  /-- `outcome`, `error_origin`, `error_code` and `error_detail`. -/
  terminal : Option Terminal
  providerRequestId : Option Text
  upstreamProvider : Option Text
  latencyMs : Option Nat
  attemptCount : Nat
  retryCount : Nat
  terminalAttemptStatus : AttemptStatus
  providerAttempts : Option (List AttemptEntry)
  usage : Option TokenUsage
  cost : Option CostBreakdown
  costStatus : CostStatus
  deriving DecidableEq, Repr

/-! ## An execution -/

/-- `RuntimeDefect` and its subclass `PlanningDefect` carry these. -/
structure Defect where
  origin : Text
  code : Text
  message : Text
  deriving DecidableEq, Repr

inductive ApiErrorCode
  | tokenBudgetExceeded
  | rateLimiterUnavailable
  | billingRequired
  | other (name : Text)
  deriving DecidableEq, Repr

structure ApiError where
  code : ApiErrorCode
  message : Text
  deriving DecidableEq, Repr

/-- An exception of any class: `other` is every class these services do not name,
`asyncio.CancelledError` and `KeyboardInterrupt` among them. -/
inductive PyException
  | planningDefect (defect : Defect)
  | runtimeDefect (defect : Defect)
  | apiError (error : ApiError)
  | generatorExit
  | other (message : Text)
  deriving DecidableEq, Repr

/-- `str(exc)` -/
def PyException.str : PyException → Text
  | .planningDefect d => d.message
  | .runtimeDefect d => d.message
  | .apiError e => e.message
  | .generatorExit => []
  | .other message => message

/-- `RuntimeStreamEvent`: a terminal event, or another one with a payload. -/
inductive StreamEvent (E : Type)
  | terminal (seq : Nat) (outcome : ProviderCallOutcome)
  | other (seq : Nat) (event : E)
  deriving DecidableEq, Repr

/-- What the limiter is told of a reservation. -/
inductive Settlement
  | released
  | committed (tokens : Nat)
  deriving DecidableEq, Repr

/-- What an execution has done: ledger commits, limiter calls, the dispatch and
what came of it, and the events handed to the consumer. -/
inductive Effect (E : Type)
  | started (id : Uuid)
  | planCommitted
  | terminalized (terminal : Terminal)
  | reserved (tokens : Nat)
  | denied (error : ApiError)
  | dispatched
  | received (outcome : ProviderCallOutcome)
  | settled (settlement : Settlement)
  | yielded (event : StreamEvent E)
  deriving DecidableEq, Repr

/-- `dispatchAttempted`, `settled` and `defect` are the local variables. -/
structure Execution (E : Type) where
  llmCalls : List LLMCall
  log : List (Effect E)
  dispatchAttempted : Bool
  settled : Bool
  defect : Option PyException
  deriving DecidableEq, Repr

/-- Code of an execution: it may raise, and what it wrote stays written. -/
abbrev Exec (E : Type) := EStateM PyException (Execution E)

variable {E : Type}

def Execution.note (s : Execution E) (e : Effect E) : Execution E := { s with log := s.log ++ [e] }

def note (e : Effect E) : Exec E Unit := modify fun s => s.note e

/-! ## The writes -/

/-- `_next_call_seq`: `COALESCE(MAX(call_seq), 0) + 1` over the calls of the owner. -/
def nextCallSeq (calls : List LLMCall) (owner : LlmCallOwner) : Nat :=
  ((calls.filter fun c => c.ownerKind = owner.kind ∧ c.ownerId = owner.id).map LLMCall.callSeq).foldr max 0 + 1

def startRow (calls : List LLMCall) (id : Uuid) (owner : LlmCallOwner) (operation : Text) (profile : LlmProfile)
    (streaming : Bool) : LLMCall where
  id := id
  ownerKind := owner.kind
  ownerId := owner.id
  callSeq := nextCallSeq calls owner
  provider := profile.provider
  modelName := profile.model
  llmOperation := operation
  streaming := streaming
  reasoningEffort := profile.defaultReasoningOptionId
  catalogRevision := .none
  requestFingerprint := .none
  cacheStrategy := .none
  cacheTtl := .none
  pricingSnapshot := .none
  terminal := .none
  providerRequestId := .none
  upstreamProvider := .none
  latencyMs := .none
  attemptCount := 1
  retryCount := 0
  terminalAttemptStatus := .success
  providerAttempts := .none
  usage := .none
  cost := .none
  costStatus := .missingUsage

/-- `start_call`; the primary key refuses an id that is taken. -/
def startCall (id : Uuid) (owner : LlmCallOwner) (operation : Text) (profile : LlmProfile) (streaming : Bool) :
    Exec E Unit := do
  let s ← get
  if s.llmCalls.any (·.id = id) then
    throw (.other "llm_calls_pkey".toList)
  modify fun s => { s with llmCalls := s.llmCalls ++ [startRow s.llmCalls id owner operation profile streaming] }
  note (.started id)

/-- `db.get(LLMCall, generation_id)`, an update of its columns, and the commit. -/
def updateCall (id : Uuid) (f : LLMCall → LLMCall) : Exec E Unit := do
  let s ← get
  if !s.llmCalls.any (·.id = id) then
    throw (.other "llm_calls row missing for generation_id".toList)
  modify fun s => { s with llmCalls := s.llmCalls.map fun c => if c.id = id then f c else c }

/-- `commit_plan_facts`; `_accounting_snapshot` has every field of the accounting. -/
def commitPlanFacts (id : Uuid) (profile : LlmProfile) (plan : FinalizedProviderCall) : Exec E Unit := do
  updateCall id fun c =>
    { c with
      provider := profile.provider
      modelName := profile.model
      reasoningEffort := plan.nativeReasoning
      catalogRevision := .some plan.catalogRevision
      requestFingerprint := .some plan.requestFingerprint
      cacheStrategy := plan.cacheStrategy
      cacheTtl := plan.cacheTtl
      pricingSnapshot := .some plan.accounting }
  note .planCommitted

/-- `_support_id`: the first twelve of the id's thirty-two hexadecimal digits. -/
def supportId (id : Uuid) : Text :=
  let digits := Nat.toDigits 16 id
  (List.replicate (32 - digits.length) '0' ++ digits).take 12

def failureDetail : Failure → Option Text
  | .invalidToolArguments detail => detail
  | _ => .none

def outcomeTagFacts (P : RuntimePackage) : ProviderCallOutcome → Terminal
  | .succeeded _ => ⟨.succeeded, .none, .none, .none⟩
  | .refused _ detail => ⟨.refused, .some "provider_http".toList, .some "refused".toList, detail⟩
  | .incomplete _ status detail =>
    if status = "refused".toList then
      ⟨.refused, .some "provider_stream".toList, .some "refused".toList, detail⟩
    else
      ⟨.incomplete, .some "provider_response".toList, .some "incomplete".toList, detail⟩
  | .cancelled _ => ⟨.cancelled, .none, .none, .none⟩
  | .failed _ failure =>
    ⟨.failed, .some (P.failureOrigin failure), .some (P.failureCode failure), failureDetail failure⟩

def attemptJson (P : RuntimePackage) (record : AttemptRecord) : AttemptEntry :=
  match record.cause with
  | .none =>
    ⟨record.attempt, record.startedAtMs, record.endedAtMs, record.statusCode, true, .none, .none, .none⟩
  | .some cause =>
    let transient := Failure.transientExhausted record.attempt cause
    let retryAfter :=
      match cause with
      | .providerRateLimit retryAfter => retryAfter
      | .other _ => .none
    ⟨record.attempt, record.startedAtMs, record.endedAtMs, record.statusCode, false,
      .some (P.failureOrigin transient), .some (P.failureCode transient), retryAfter⟩

def terminalAttemptStatus : OutcomeTag → AttemptStatus
  | .succeeded => .success
  | .cancelled => .abandoned
  | _ => .terminalError

/-- `_attempt_fields` -/
def withAttemptFields (P : RuntimePackage) (trace : List AttemptRecord) (tag : OutcomeTag) (c : LLMCall) : LLMCall :=
  if trace.isEmpty then
    { c with attemptCount := 1, retryCount := 0, terminalAttemptStatus := terminalAttemptStatus tag,
             providerAttempts := .none }
  else
    { c with attemptCount := trace.length, retryCount := trace.length - 1,
             terminalAttemptStatus := terminalAttemptStatus tag,
             providerAttempts := .some (trace.map (attemptJson P)) }

/-- The token and cost columns of `terminalize`: they keep their values without a usage. -/
def withUsage (P : RuntimePackage) (usage : Option TokenUsage) (accounting : Option Accounting) (c : LLMCall) : LLMCall :=
  match usage with
  | .none => { c with costStatus := .missingUsage }
  | .some u =>
    let c := { c with usage := .some { u with
      reasoningTokens := .some (u.reasoningTokens.getD 0)
      cacheWriteInputTokens := .some (u.cacheWriteInputTokens.getD 0)
      cacheReadInputTokens := .some (u.cacheReadInputTokens.getD 0) } }
    match accounting with
    | .none => { c with costStatus := .missingPricing }
    | .some a => { c with cost := .some (P.costFromAccounting a u), costStatus := .estimated }

structure TerminalFacts where
  outcomeTag : OutcomeTag
  billability : Billability
  usage : Option TokenUsage
  supportId : Option Text
  deriving DecidableEq, Repr

def terminalFacts (P : RuntimePackage) (id : Uuid) (outcome : ProviderCallOutcome) : TerminalFacts where
  outcomeTag := (outcomeTagFacts P outcome).outcome
  billability := outcome.callMeta.billability
  usage := outcome.callMeta.usage
  supportId :=
    match (outcomeTagFacts P outcome).outcome with
    | .refused | .incomplete | .failed => .some (supportId id)
    | .succeeded | .cancelled => .none

def terminalize (P : RuntimePackage) (id : Uuid) (outcome : ProviderCallOutcome) (accounting : Option Accounting)
    (latencyMs : Option Nat) : Exec E TerminalFacts := do
  let facts := outcomeTagFacts P outcome
  let m := outcome.callMeta
  updateCall id fun c =>
    let c := { c with
      terminal := .some facts
      providerRequestId := m.providerRequestId
      upstreamProvider := m.upstreamProvider
      latencyMs := latencyMs }
    withUsage P m.usage accounting (withAttemptFields P m.attemptTrace facts.outcome c)
  note (.terminalized facts)
  return terminalFacts P id outcome

/-- The facts of a defect: `error_detail` holds 1000 characters. -/
def defectTerminal (origin code detail : Text) : Terminal :=
  ⟨.failed, .some origin, .some code, .some (detail.take 1000)⟩

def terminalizeDefect (id : Uuid) (origin code detail : Text) : Exec E Unit := do
  updateCall id fun c =>
    { c with
      terminal := .some (defectTerminal origin code detail)
      attemptCount := 1
      retryCount := 0
      terminalAttemptStatus := .terminalError
      costStatus := .missingUsage }
  note (.terminalized (defectTerminal origin code detail))

end Nexus.Generation
