/-
The journal of a chat run's steps: `services/durable_step_journal.py` and the
`ChatStepRuntime` of `services/chat_run_steps.py`.

The journal is the `coordination` map in the payload of the run's job. A step's
record carries its validator as a field, so none stands in a phase its result
contradicts. The runtime works on the copy of the payload an attempt holds:
each operation below gives the payload its checkpoint writes, or the defect it
raises, and the checkpoint itself is a statement of the queue.

What is outside the repository, or is a digest, stands in `Outside`.
-/
import Nexus.Mutations.ReplayLedger
import Nexus.Chat.StepCodecs

namespace Nexus.Chat
open JsonCodec

/-! ## Step paths -/

/-- The paths `_execute_chat_run` journals under. -/
inductive StepPath
  | prepare
  | generation (turn : Nat)
  | tool (turn index : Nat)
  | publication
  deriving DecidableEq, Repr

def StepPath.text : StepPath → Text
  | .prepare => "prepare".toList
  | .generation turn => "turn/".toList ++ (Nat.toDigits 10 turn ++ '/' :: "generation".toList)
  | .tool turn index => "turn/".toList ++ (Nat.toDigits 10 turn ++ '/' :: ("tool/".toList ++ Nat.toDigits 10 index))
  | .publication => "publication".toList

/-! ## Records -/

inductive DispatchPhase
  | prepared
  | uncertain
  | completed
  deriving DecidableEq, Repr

inductive ReplayPolicy
  | billedOnce
  | reDispatchable
  deriving DecidableEq, Repr

structure StepReplayState where
  generationId : UuidBytes
  dispatchPhase : DispatchPhase
  requestFingerprint : Text
  terminalResult : Option Text
  /-- `validate_phase_fields` -/
  valid : dispatchPhase = .completed ↔ terminalResult.isSome = true

/-- The payload of a `chat_run` job. -/
structure ChatPayload where
  runId : Uuid
  coordination : StepPath → Option StepReplayState

/-- `{"run_id": …}` -/
def ChatPayload.bare (runId : Uuid) : ChatPayload := ⟨runId, fun _ => .none⟩

/-- `payload_with_step_state` -/
def ChatPayload.withStepState (payload : ChatPayload) (path : StepPath) (state : StepReplayState) : ChatPayload :=
  { payload with coordination := fun p => if p = path then .some state else payload.coordination p }

@[simp] theorem ChatPayload.withStepState_self (payload : ChatPayload) (path : StepPath) (state : StepReplayState) :
    (payload.withStepState path state).coordination path = .some state := if_pos rfl

theorem ChatPayload.withStepState_ne (payload : ChatPayload) {path p : StepPath} (state : StepReplayState) (h : p ≠ path) :
    (payload.withStepState path state).coordination p = payload.coordination p := if_neg h

@[simp] theorem ChatPayload.bare_coordination (runId : Uuid) (p : StepPath) :
    (ChatPayload.bare runId).coordination p = .none := rfl

/-- What the journal's code takes from elsewhere. -/
structure Outside (F S : Type) where
  /-- How models are written and read as JSON texts. -/
  models : TextFormat F
  /-- `json.dumps` and `json.loads`. -/
  json : TextFormat F
  /-- `json.dumps` with sorted keys and no blanks. -/
  dumpsSorted : Doc F → Text
  sha : Mutations.Sha256
  schema : SchemaFormat F S
  /-- `uuid5` under the namespace of generation ids. -/
  uuid5 : Text → UuidBytes

variable {F S : Type}

def Outside.stableGenerationId (O : Outside F S) (runId : Uuid) (path : StepPath) : UuidBytes :=
  O.uuid5 (uuidStr runId ++ ':' :: path.text)

/-- `step_fingerprint`, of what the model dumps. -/
def Outside.stepFingerprint (O : Outside F S) (dumped : Doc F) : Text :=
  O.sha.hexdigest (encodeUtf8 (O.dumpsSorted dumped))

inductive StepFault
  | uncertainStep
  | lostLease
  | noncanonicalGenerationId
  | alreadyPrepared
  | fingerprintChanged
  | wrongPhase
  | malformedResult
  | other
  deriving DecidableEq, Repr

/-! ## The runtime of one attempt -/

section Runtime

variable (O : Outside F S)

/-- `ChatStepRuntime.read` -/
def ChatPayload.read (payload : ChatPayload) (path : StepPath) (policy : ReplayPolicy) :
    Except StepFault (Option StepReplayState) :=
  match payload.coordination path with
  | .none => .ok .none
  | .some state =>
    if state.generationId ≠ O.stableGenerationId payload.runId path then .error .noncanonicalGenerationId
    else if state.dispatchPhase = .uncertain ∧ policy = .billedOnce then .error .uncertainStep
    else .ok (.some state)

/-- A step nothing was dispatched for yet. -/
def preparedState (runId : Uuid) (path : StepPath) (fingerprint : Text) : StepReplayState where
  generationId := O.stableGenerationId runId path
  dispatchPhase := .prepared
  requestFingerprint := fingerprint
  terminalResult := .none
  valid := by simp

/-- `ChatStepRuntime.prepare` -/
def ChatPayload.prepare (payload : ChatPayload) (path : StepPath) (fingerprint : Text) : Except StepFault ChatPayload :=
  match payload.coordination path with
  | .some _ => .error .alreadyPrepared
  | .none => .ok (payload.withStepState path (preparedState O payload.runId path fingerprint))

def StepReplayState.asUncertain (state : StepReplayState) : StepReplayState :=
  { state with
    dispatchPhase := .uncertain
    terminalResult := .none
    valid := by simp }

def StepReplayState.asPrepared (state : StepReplayState) : StepReplayState :=
  { state with
    dispatchPhase := .prepared
    terminalResult := .none
    valid := by simp }

def StepReplayState.asCompleted (state : StepReplayState) (result : Text) : StepReplayState :=
  { state with
    dispatchPhase := .completed
    terminalResult := .some result
    valid := by simp }

/-- `ChatStepRuntime.mark_uncertain` -/
def ChatPayload.markUncertain (payload : ChatPayload) (path : StepPath) : Except StepFault ChatPayload :=
  match payload.coordination path with
  | .some state =>
    if state.dispatchPhase = .prepared then .ok (payload.withStepState path state.asUncertain) else .error .wrongPhase
  | .none => .error .wrongPhase

/-- `ChatStepRuntime.complete` -/
def ChatPayload.complete (payload : ChatPayload) (path : StepPath) (result : Text) : Except StepFault ChatPayload :=
  match payload.coordination path with
  | .some state =>
    if state.dispatchPhase = .prepared ∨ state.dispatchPhase = .uncertain then
      .ok (payload.withStepState path (state.asCompleted result))
    else .error .wrongPhase
  | .none => .error .wrongPhase

/-- `ChatStepRuntime.complete_database_step` -/
def ChatPayload.completeDatabaseStep (payload : ChatPayload) (path : StepPath) (fingerprint result : Text) :
    Except StepFault ChatPayload :=
  match payload.coordination path with
  | .some _ => .error .wrongPhase
  | .none => .ok (payload.withStepState path ((preparedState O payload.runId path fingerprint).asCompleted result))

/-- `ChatStepRuntime.complete_publication`: it writes the completed record and
then, in one transaction with it, the bare payload. -/
def ChatPayload.completePublication (payload : ChatPayload) : Except StepFault ChatPayload :=
  match payload.coordination .publication with
  | .some state => if state.dispatchPhase = .prepared then .ok (.bare payload.runId) else .error .wrongPhase
  | .none => .error .wrongPhase

end Runtime

end Nexus.Chat
