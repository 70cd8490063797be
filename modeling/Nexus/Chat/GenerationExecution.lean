/-
One generation (`services/llm_execution.py`): the entitlement check, the
ledger's start row, the plan, the reservation, and then a guarded region in
which the call is dispatched, its outcome written and its reservation settled.

What the surroundings answer is a parameter (`Outside`): the entitlement, the
plan, the limiter's verdict, the credential, the runtime's outcome or events,
an exception in place of any of these, and what the consumer of a stream does
at each event it gets: ask for the next one, close the generator, or throw
into it. Ledger writes and the limiter's settlements succeed.
-/
import Nexus.Chat.GenerationLedger

namespace Nexus.Generation

variable {I K E : Type}

/-- `plan_generate`: `FinalizedProviderCall | PlanRejected`. -/
inductive Planned
  | finalized (plan : FinalizedProviderCall)
  | rejected (failure : Failure)
  deriving DecidableEq, Repr

structure GenerationRequest (I : Type) where
  owner : LlmCallOwner
  operation : Text
  profile : LlmProfile
  intent : I

/-- `llm_execution.CallOutcome` -/
structure CallOutcome where
  generationId : Uuid
  outcome : ProviderCallOutcome
  supportId : Option Text
  deriving DecidableEq, Repr

structure Outside (I K E : Type) where
  /-- `get_effective_entitlements(…).can_use_platform_llm` -/
  entitlement : Except PyException Bool
  /-- `uuid4()` -/
  generationId : Uuid
  planGenerate : I → Except PyException Planned
  reserveTokenBudget : Nat → Except ApiError Unit
  generationCredential : Text → Except PyException K
  /-- the owner's callback, where it has one -/
  beforeDispatch : Option (Except PyException Unit)
  generate : I → FinalizedProviderCall → K → Except PyException ProviderCallOutcome
  /-- the events of a stream, and the exception it breaks off with -/
  stream : I → FinalizedProviderCall → K → List (StreamEvent E) × Option PyException
  /-- what the consumer throws after the events it has got: `GeneratorExit` if it closes -/
  resume : List (StreamEvent E) → Option PyException
  /-- `int((time.monotonic() - started) * 1000)` -/
  latencyMs : Nat

def ask {α : Type} : Except PyException α → Exec E α
  | .ok a => pure a
  | .error e => throw e

/-! ## The steps -/

def checkEntitlement (O : Outside I K E) : Exec E Unit := do
  let canUsePlatformLlm ← ask O.entitlement
  if !canUsePlatformLlm then
    throw (.apiError ⟨.billingRequired, "Platform LLM access requires an AI tier.".toList⟩)

/-- `_plan`: the two classes it catches are written to the row. -/
def planRequest (O : Outside I K E) (id : Uuid) (req : GenerationRequest I) : Exec E Planned := do
  match O.planGenerate req.intent with
  | .ok planned => pure planned
  | .error exc =>
    match exc with
    | .planningDefect d => terminalizeDefect id d.origin d.code d.message
    | .runtimeDefect d => terminalizeDefect id d.origin d.code d.message
    | _ => pure ()
    throw exc

def singleDispatchPlan (plan : FinalizedProviderCall) : FinalizedProviderCall := { plan with maxAttempts := 1 }

def reservationDefectFacts (P : RuntimePackage) (exc : ApiError) : Text × Text × Text :=
  match exc.code with
  | .tokenBudgetExceeded => ("budget".toList, "budget_exceeded".toList, "token budget reservation denied".toList)
  | .rateLimiterUnavailable =>
    ("budget".toList, "rate_limiter_unavailable".toList, "token-budget limiter unavailable".toList)
  | .billingRequired => ("budget".toList, "billing_required".toList, "platform LLM billing required".toList)
  | .other _ => ("budget".toList, "reservation_denied".toList, P.sanitizeProviderText exc.message)

def reserve (P : RuntimePackage) (O : Outside I K E) (id : Uuid) (plan : FinalizedProviderCall) : Exec E Unit :=
  match O.reserveTokenBudget plan.accounting.platformTokenReservation with
  | .ok () => note (.reserved plan.accounting.platformTokenReservation)
  | .error exc => do
    note (.denied exc)
    let (origin, code, detail) := reservationDefectFacts P exc
    terminalizeDefect id origin code detail
    throw (.apiError exc)

def settleSuccess (reservationAmount : Nat) (billability : Billability) (usage : Option TokenUsage) : Exec E Unit :=
  match billability with
  | .notDispatched => note (.settled .released)
  | .confirmedNonBillable => note (.settled .released)
  | .possiblyBillable =>
    match usage with
    | .some usage => note (.settled (.committed usage.totalTokens))
    | .none => note (.settled (.committed reservationAmount))

def defectFacts (P : RuntimePackage) : PyException → Text × Text × Text
  | .planningDefect d => (d.origin, d.code, d.message)
  | .runtimeDefect d => (d.origin, d.code, d.message)
  | exc => ("provider_response".toList, "unclassified_defect".toList, P.sanitizeProviderText exc.str)

/-- `_settle_defect`, of the flags as the region left them. -/
def settleDefect (P : RuntimePackage) (id : Uuid) (reservationAmount : Nat) (fallback : Text × Text × Text) :
    Exec E Unit := do
  let s ← get
  if s.dispatchAttempted then
    note (.settled (.committed reservationAmount))
  else
    note (.settled .released)
  let (origin, code, detail) :=
    match s.defect with
    | .some defect => defectFacts P defect
    | .none => fallback
  terminalizeDefect id origin code detail

def syntheticMeta (profile : LlmProfile) : CallMeta where
  provider := profile.provider
  model := profile.model
  providerRequestId := .none
  upstreamProvider := .none
  usage := .none
  attemptTrace := []
  billability := .notDispatched

/-- `dispatch_attempted = False`, `settled = False`, `defect = None` -/
def clearFlags : Exec E Unit :=
  modify fun s => { s with dispatchAttempted := false, settled := false, defect := .none }

/-- The lines both regions begin with, up to `dispatch_attempted = True`. -/
def prepareDispatch (O : Outside I K E) (req : GenerationRequest I) (plan : FinalizedProviderCall) : Exec E K := do
  commitPlanFacts O.generationId req.profile plan
  let credential ← ask (O.generationCredential req.profile.provider)
  match O.beforeDispatch with
  | .some answer => ask answer
  | .none => pure ()
  modify fun s => { s with dispatchAttempted := true }
  note .dispatched
  return credential

/-- The outcome is written and then settled; `settled` is set in between. -/
def closeCall (P : RuntimePackage) (O : Outside I K E) (plan : FinalizedProviderCall) (outcome : ProviderCallOutcome) :
    Exec E TerminalFacts := do
  note (.received outcome)
  let facts ← terminalize P O.generationId outcome (.some plan.accounting) (.some O.latencyMs)
  modify fun s => { s with settled := true }
  settleSuccess plan.accounting.platformTokenReservation facts.billability facts.usage
  return facts

/-! ## `execute_generation` -/

/-- The `try` of `execute_generation`. -/
def generateOnce (P : RuntimePackage) (O : Outside I K E) (req : GenerationRequest I) (plan : FinalizedProviderCall) :
    Exec E CallOutcome := do
  let credential ← prepareDispatch O req plan
  let outcome ← ask (O.generate req.intent plan credential)
  let facts ← closeCall P O plan outcome
  return ⟨O.generationId, outcome, facts.supportId⟩

/-- The fallback of `_settle_defect`. -/
def unclassified : Text × Text × Text :=
  ("provider_response".toList, "unclassified_defect".toList, "generation ended without a terminal outcome".toList)

def executeGeneration (P : RuntimePackage) (O : Outside I K E) (req : GenerationRequest I) (singleDispatch : Bool) :
    Exec E CallOutcome := do
  checkEntitlement O
  startCall O.generationId req.owner req.operation req.profile false
  match ← planRequest O O.generationId req with
  | .rejected failure =>
    let outcome := ProviderCallOutcome.failed (syntheticMeta req.profile) failure
    let facts ← terminalize P O.generationId outcome .none .none
    return ⟨O.generationId, outcome, facts.supportId⟩
  | .finalized plan =>
    let plan := if singleDispatch then singleDispatchPlan plan else plan
    reserve P O O.generationId plan
    clearFlags
    try
      generateOnce P O req plan
    catch exc =>
      modify fun s => { s with defect := .some exc }
      throw exc
    finally
      if !(← get).settled then
        settleDefect P O.generationId plan.accounting.platformTokenReservation unclassified

/-! ## `execute_generation_stream` -/

def Effect.event? : Effect E → Option (StreamEvent E)
  | .yielded event => .some event
  | _ => .none

/-- `yield event`: the consumer gets it, and answers. -/
def yieldEvent (O : Outside I K E) (event : StreamEvent E) : Exec E Unit := do
  note (.yielded event)
  let s ← get
  match O.resume (s.log.filterMap Effect.event?) with
  | .some exc => throw exc
  | .none => pure ()

/-- A terminal event closes the call before the consumer gets it. -/
def closeEvent (P : RuntimePackage) (O : Outside I K E) (plan : FinalizedProviderCall) :
    StreamEvent E → Exec E Unit
  | .terminal _ outcome => discard (closeCall P O plan outcome)
  | .other _ _ => pure ()

/-- `async for event in runtime.stream(…)` -/
def forwardEvents (P : RuntimePackage) (O : Outside I K E) (plan : FinalizedProviderCall) (ending : Option PyException) :
    List (StreamEvent E) → Exec E Unit
  | [] =>
    match ending with
    | .some exc => throw exc
    | .none => pure ()
  | event :: events => do
    closeEvent P O plan event
    yieldEvent O event
    forwardEvents P O plan ending events

/-- The `try` of `execute_generation_stream`. -/
def streamOnce (P : RuntimePackage) (O : Outside I K E) (req : GenerationRequest I) (plan : FinalizedProviderCall) :
    Exec E Unit := do
  let credential ← prepareDispatch O req plan
  let (events, ending) := O.stream req.intent plan credential
  forwardEvents P O plan ending events

/-- `fallback_origin`, `fallback_code` and `fallback_detail` -/
def streamInterrupted : Text × Text × Text :=
  ("provider_stream".toList, "stream_interrupted".toList, "stream closed before a terminal event was observed".toList)

/-- A closure of the generator leaves the defect empty. -/
def noteDefect (exc : PyException) (s : Execution E) : Execution E :=
  match exc with
  | .generatorExit => s
  | _ => { s with defect := .some exc }

def executeGenerationStream (P : RuntimePackage) (O : Outside I K E) (req : GenerationRequest I) (singleDispatch : Bool) :
    Exec E Unit := do
  checkEntitlement O
  startCall O.generationId req.owner req.operation req.profile true
  match ← planRequest O O.generationId req with
  | .rejected failure =>
    let synthetic := ProviderCallOutcome.failed (syntheticMeta req.profile) failure
    let _ ← terminalize P O.generationId synthetic .none .none
    yieldEvent O (.terminal 1 synthetic)
  | .finalized plan =>
    let plan := if singleDispatch then singleDispatchPlan plan else plan
    reserve P O O.generationId plan
    clearFlags
    try
      streamOnce P O req plan
    catch exc =>
      modify (noteDefect exc)
      throw exc
    finally
      if !(← get).settled then
        settleDefect P O.generationId plan.accounting.platformTokenReservation streamInterrupted

end Nexus.Generation
