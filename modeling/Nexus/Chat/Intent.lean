/-
The prompt a chat run sends: the runtime's types, the state models the journal
stores them as, and the functions of `services/chat_run_steps.py` between them.

The two families have the same fields. They differ where the runtime holds a
parsed schema and the journal its JSON (`CanonicalTool`, `StrictJsonOutput`),
and a continuation's payload is put through a JSON text on its way in. Texts
that must not be empty are a subtype: one that is empty raises before it
reaches either family. `Presence[T]` is an `Option`.

The schema parser and printer are outside the repository; `SchemaFormat` is
what the service relies on.
-/
import Nexus.Primitives
import Nexus.Lib.JsonCodec

namespace Nexus.Chat
open JsonCodec

/-- `Field(min_length=1)` -/
abbrev Name := {s : Text // s ≠ []}

/-- `Field(gt=0)`, `Field(ge=1)` -/
abbrev Positive := {n : Nat // 0 < n}

inductive Provider
  | openai
  | anthropic
  | gemini
  | moonshot
  | openrouter
  deriving DecidableEq, Repr

inductive Reasoning
  | none
  | minimal
  | low
  | medium
  | high
  | xhigh
  | max
  deriving DecidableEq, Repr

inductive ToolChoice
  | auto
  | none
  deriving DecidableEq, Repr

/-! ## The runtime's types -/

structure ProviderTarget where
  provider : Provider
  model : Name

inductive CacheScope
  | global
  | owner (ownerId : UuidBytes)
  | conversation (conversationId : UuidBytes)

inductive BlockStability
  | dynamic
  | stable (scope : CacheScope)

structure PromptBlock where
  text : Text
  stability : BlockStability

structure ContinuationArtifact (F : Type) where
  target : ProviderTarget
  codecId : Name
  opaquePayload : Object F

structure ToolCall (F : Type) where
  id : Name
  name : Name
  arguments : Object F

inductive PromptMessage (F : Type)
  | system (blocks : List PromptBlock)
  | user (blocks : List PromptBlock)
  | assistant (text : Text) (toolCalls : List (ToolCall F)) (continuation : Option (ContinuationArtifact F))
  | toolResult (callId : Name) (output : Text) (isError : Bool)

structure CanonicalTool (S : Type) where
  name : Name
  description : Text
  parameters : S

inductive Output (S : Type)
  | text
  | strictJson (name : Name) (schema : S)

structure GenerateIntent (F S : Type) where
  target : ProviderTarget
  messages : List (PromptMessage F)
  maxOutputTokens : Positive
  reasoning : Reasoning
  tools : List (CanonicalTool S)
  toolChoice : ToolChoice
  output : Output S

/-! ## The state models -/

structure ProviderTargetState where
  provider : Provider
  model : Name

inductive CacheScopeState
  | global
  | owner (ownerId : UuidBytes)
  | conversation (conversationId : UuidBytes)

inductive BlockStabilityState
  | dynamic
  | stable (scope : CacheScopeState)

structure PromptBlockState where
  text : Text
  stability : BlockStabilityState

structure ContinuationState (F : Type) where
  target : ProviderTargetState
  codecId : Name
  opaquePayload : Object F

structure ToolCallState (F : Type) where
  id : Name
  name : Name
  arguments : Object F

inductive PromptMessageState (F : Type)
  | system (blocks : List PromptBlockState)
  | user (blocks : List PromptBlockState)
  | assistant (text : Text) (toolCalls : List (ToolCallState F)) (continuation : Option (ContinuationState F))
  | toolResult (callId : Name) (output : Text) (isError : Bool)

structure CanonicalToolState (F : Type) where
  name : Name
  description : Text
  parameters : Object F

inductive OutputState (F : Type)
  | text
  | strictJson (name : Name) (jsonSchema : Object F)

structure GenerateIntentState (F : Type) where
  target : ProviderTargetState
  messages : List (PromptMessageState F)
  maxOutputTokens : Positive
  reasoning : Reasoning
  tools : List (CanonicalToolState F)
  toolChoice : ToolChoice
  output : OutputState F

/-! ## Between the two -/

/-- `parse_canonical_schema` and `to_json_schema`: a printed schema parses back. -/
structure SchemaFormat (F S : Type) where
  parse : Object F → Option S
  print : S → Object F
  parse_print : ∀ s, parse (print s) = .some s

variable {F S : Type}

def targetState (target : ProviderTarget) : ProviderTargetState := ⟨target.provider, target.model⟩

def target (state : ProviderTargetState) : ProviderTarget := ⟨state.provider, state.model⟩

def scopeState : CacheScope → CacheScopeState
  | .global => .global
  | .owner ownerId => .owner ownerId
  | .conversation conversationId => .conversation conversationId

def scope : CacheScopeState → CacheScope
  | .global => .global
  | .owner ownerId => .owner ownerId
  | .conversation conversationId => .conversation conversationId

def blockState (block : PromptBlock) : PromptBlockState where
  text := block.text
  stability := match block.stability with
    | .dynamic => .dynamic
    | .stable s => .stable (scopeState s)

def block (state : PromptBlockState) : PromptBlock where
  text := state.text
  stability := match state.stability with
    | .dynamic => .dynamic
    | .stable s => .stable (scope s)

/-- `json.loads(json.dumps(opaque_payload, ensure_ascii=False))`; what is read
back of an object is an object. -/
def throughText (text : TextFormat F) (payload : Object F) : Object F :=
  match text.loads (text.dumps (.obj payload)) with
  | .some (.obj entries) => entries
  | _ => payload

def continuationState (text : TextFormat F) (value : ContinuationArtifact F) : ContinuationState F :=
  ⟨targetState value.target, value.codecId, throughText text value.opaquePayload⟩

def continuation (value : ContinuationState F) : ContinuationArtifact F :=
  ⟨target value.target, value.codecId, value.opaquePayload⟩

def toolCallState (value : ToolCall F) : ToolCallState F := ⟨value.id, value.name, value.arguments⟩

def toolCallFromState (value : ToolCallState F) : ToolCall F := ⟨value.id, value.name, value.arguments⟩

def messageState (text : TextFormat F) : PromptMessage F → PromptMessageState F
  | .system blocks => .system (blocks.map blockState)
  | .user blocks => .user (blocks.map blockState)
  | .assistant content toolCalls artifact =>
    .assistant content (toolCalls.map toolCallState) (artifact.map (continuationState text))
  | .toolResult callId output isError => .toolResult callId output isError

def message : PromptMessageState F → PromptMessage F
  | .system blocks => .system (blocks.map block)
  | .user blocks => .user (blocks.map block)
  | .assistant content toolCalls artifact =>
    .assistant content (toolCalls.map toolCallFromState) (artifact.map continuation)
  | .toolResult callId output isError => .toolResult callId output isError

def outputState (schema : SchemaFormat F S) : Output S → OutputState F
  | .text => .text
  | .strictJson name s => .strictJson name (schema.print s)

/-- The output of `to_intent`, which raises on a schema that does not parse. -/
def output (schema : SchemaFormat F S) : OutputState F → Option (Output S)
  | .text => .some .text
  | .strictJson name jsonSchema => (schema.parse jsonSchema).map (.strictJson name)

def toolState (schema : SchemaFormat F S) (tool : CanonicalTool S) : CanonicalToolState F :=
  ⟨tool.name, tool.description, schema.print tool.parameters⟩

def tool (schema : SchemaFormat F S) (state : CanonicalToolState F) : Option (CanonicalTool S) :=
  (schema.parse state.parameters).map fun parameters => ⟨state.name, state.description, parameters⟩

def GenerateIntentState.fromIntent (text : TextFormat F) (schema : SchemaFormat F S) (intent : GenerateIntent F S) :
    GenerateIntentState F where
  target := targetState intent.target
  messages := intent.messages.map (messageState text)
  maxOutputTokens := intent.maxOutputTokens
  reasoning := intent.reasoning
  tools := intent.tools.map (toolState schema)
  toolChoice := intent.toolChoice
  output := outputState schema intent.output

def GenerateIntentState.toIntent (schema : SchemaFormat F S) (state : GenerateIntentState F) :
    Option (GenerateIntent F S) := do
  let output ← Chat.output schema state.output
  let tools ← state.tools.mapM (tool schema)
  return ⟨Chat.target state.target, state.messages.map message, state.maxOutputTokens, state.reasoning, tools,
    state.toolChoice, output⟩

/-! ## Round trips -/

@[simp] theorem target_targetState (t : ProviderTarget) : target (targetState t) = t := rfl

@[simp] theorem targetState_target (t : ProviderTargetState) : targetState (target t) = t := rfl

@[simp] theorem scope_scopeState (s : CacheScope) : scope (scopeState s) = s := by
  cases s <;> rfl

@[simp] theorem scopeState_scope (s : CacheScopeState) : scopeState (scope s) = s := by
  cases s <;> rfl

@[simp] theorem block_blockState (b : PromptBlock) : block (blockState b) = b := by
  obtain ⟨content, stability⟩ := b
  cases stability with
  | dynamic => rfl
  | stable s => simp only [blockState, block, scope_scopeState]

@[simp] theorem throughText_eq (text : TextFormat F) (payload : Object F) : throughText text payload = payload := by
  rw [throughText, text.loads_dumps]

@[simp] theorem continuation_continuationState (text : TextFormat F) (value : ContinuationArtifact F) :
    continuation (continuationState text value) = value := by
  simp only [continuation, continuationState, target_targetState, throughText_eq]

@[simp] theorem continuationState_continuation (text : TextFormat F) (value : ContinuationState F) :
    continuationState text (continuation value) = value := by
  simp only [continuation, continuationState, targetState_target, throughText_eq]

@[simp] theorem toolCallFromState_toolCallState (c : ToolCall F) : toolCallFromState (toolCallState c) = c := rfl

@[simp] theorem toolCallState_toolCallFromState (c : ToolCallState F) : toolCallState (toolCallFromState c) = c := rfl

theorem message_messageState (text : TextFormat F) (m : PromptMessage F) : message (messageState text m) = m := by
  cases m with
  | system blocks => simp [message, messageState, Function.comp_def]
  | user blocks => simp [message, messageState, Function.comp_def]
  | assistant content toolCalls artifact => simp [message, messageState, Function.comp_def]
  | toolResult callId output isError => rfl

theorem output_outputState (schema : SchemaFormat F S) (o : Output S) :
    output schema (outputState schema o) = .some o := by
  cases o with
  | text => rfl
  | strictJson name s => rw [outputState, output, schema.parse_print, Option.map_some]

theorem mapM_tool_toolState (schema : SchemaFormat F S) (tools : List (CanonicalTool S)) :
    (tools.map (toolState schema)).mapM (tool schema) = .some tools := by
  induction tools with
  | nil => rfl
  | cons t tools ih =>
    have ht : tool schema (toolState schema t) = .some t := by
      rw [tool, toolState, schema.parse_print, Option.map_some]
    rw [List.map_cons, List.mapM_cons, ht, ih]
    rfl

/-- **Reading back a stored intent gives the intent that was stored.** -/
theorem GenerateIntentState.toIntent_fromIntent (text : TextFormat F) (schema : SchemaFormat F S)
    (intent : GenerateIntent F S) : (fromIntent text schema intent).toIntent schema = .some intent := by
  have hmessages : (intent.messages.map (messageState text)).map message = intent.messages := by
    rw [List.map_map]
    exact (List.map_congr_left fun m _ => message_messageState text m).trans (List.map_id _)
  simp only [fromIntent, toIntent, output_outputState, mapM_tool_toolState, hmessages, Option.bind_eq_bind,
    Option.bind_some, target_targetState]
  rfl

end Nexus.Chat
