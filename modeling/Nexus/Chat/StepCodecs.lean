/-
The results and requests of a chat run's steps, and the JSON the journal keeps
of them (`services/chat_run_steps.py`, `schemas/presence.py`).

Every codec names the fields of its model in the model's order and refuses any
other. The conversions a schema also accepts when it reads (a number written as
a text, say) are left out: no step writes them. The `results` of a tool event
stay documents, which is how the journal and the event store keep them.
-/
import Nexus.Chat.Intent

namespace Nexus.Chat
open JsonCodec

/-! ## Results and requests -/

/-- The payload of a `prepare` step. -/
structure PreparedChatRun (F : Type) where
  generateIntent : GenerateIntentState F
  initialCitationOrdinal : Positive
  initialToolCallIndex : Nat

structure AssistantTurn (F : Type) where
  text : Text
  toolCalls : List (ToolCallState F)
  continuation : Option (ContinuationState F)
  usage : Option (Object F)
  supportId : Option Text
  lastProviderEventSeq : Option Int

structure ExpectedFailure (F : Type) where
  assistantContent : Text
  errorCode : Name
  errorOrigin : Name
  usage : Option (Object F)
  supportId : Option Text
  lastProviderEventSeq : Option Int

structure CancelledGeneration (F : Type) where
  assistantContent : Text
  usage : Option (Object F)
  lastProviderEventSeq : Option Int

inductive GenerationStepResult (F : Type)
  | assistantTurn (turn : AssistantTurn F)
  | expectedFailure (failure : ExpectedFailure F)
  | cancelled (generation : CancelledGeneration F)

structure ToolModelOutput where
  callId : Name
  output : Text
  isError : Bool

/-- `MESSAGE_TOOL_STATUSES` -/
inductive ToolStatus
  | pending
  | running
  | complete
  | error
  | cancelled
  deriving DecidableEq, Repr

/-- `ChatRunToolResultEventPayload` -/
structure ToolResultEvent (F : Type) where
  toolCallId : Option UuidBytes
  assistantMessageId : UuidBytes
  toolName : Name
  toolCallIndex : Nat
  status : ToolStatus
  scope : Name
  types : List Text
  filters : Object F
  errorCode : Option Text
  resultCount : Option Nat
  selectedCount : Option Nat
  latencyMs : Option Nat
  providerRequestIds : List Text
  results : List (Doc F)

structure ToolStepResult (F : Type) where
  toolCallId : UuidBytes
  toolName : Name
  toolCallIndex : Positive
  modelOutput : ToolModelOutput
  nextCitationOrdinal : Positive
  resultEvent : ToolResultEvent F

inductive PublicationOutcome
  | published
  | degraded
  | failed
  | cancelled
  deriving DecidableEq, Repr

structure PublicationStepResult where
  outcome : PublicationOutcome
  messageId : UuidBytes
  terminalEventSeq : Positive

structure PublicationRequest (F : Type) where
  generatedMarkdown : Text
  usage : Option (Object F)
  lastProviderEventSeq : Option Int

structure ToolStepRequest (F : Type) where
  providerCallId : Name
  toolName : Name
  toolCallIndex : Positive
  arguments : Object F

/-! ## Codecs -/

variable {F α : Type}

def entry (name : String) (c : Codec F α) : Fields F α := .field name.toList c

def entryOr (name : String) (c : Codec F α) (default : α) : Fields F α := .fieldOr name.toList c default

abbrev kind : Text := "kind".toList

def nameCodec : Codec F Name := Codec.str.subtype _

def positiveCodec : Codec F Positive := Codec.nat.subtype _

def uuidCodec : Codec F UuidBytes := .spelled UuidBytes.str UuidBytes.parse UuidBytes.parse_str

/-- A `Literal` of texts. -/
def literal (values : List α) (spelling : α → String)
    (h : ∀ a, values.find? (fun b => (spelling b).toList = (spelling a).toList) = .some a) : Codec F α :=
  .spelled (fun a => (spelling a).toList) (fun s => values.find? fun b => (spelling b).toList = s) h

/-- `Presence[T]` -/
def presence (c : Codec F α) : Codec F (Option α) :=
  .tagged kind <|
    ((Variants.one "Absent".toList .empty (show [kind].Nodup by decide)).or
      (.one "Present".toList (entry "value" c) (show [kind, "value".toList].Nodup by decide))
      (show ∀ t ∈ ["Present".toList], t ∉ ["Absent".toList] by decide)).map
      (Sum.elim (fun _ => .none) .some) (fun | .none => .inl () | .some a => .inr a) fun | .none => rfl | .some _ => rfl

def Provider.value : Provider → String
  | .openai => "openai"
  | .anthropic => "anthropic"
  | .gemini => "gemini"
  | .moonshot => "moonshot"
  | .openrouter => "openrouter"

def providerCodec : Codec F Provider :=
  literal [.openai, .anthropic, .gemini, .moonshot, .openrouter] Provider.value
    fun a => by cases a <;> decide +kernel

def Reasoning.value : Reasoning → String
  | .none => "none"
  | .minimal => "minimal"
  | .low => "low"
  | .medium => "medium"
  | .high => "high"
  | .xhigh => "xhigh"
  | .max => "max"

def reasoningCodec : Codec F Reasoning :=
  literal [.none, .minimal, .low, .medium, .high, .xhigh, .max] Reasoning.value fun a => by cases a <;> decide +kernel

def ToolChoice.value : ToolChoice → String
  | .auto => "auto"
  | .none => "none"

def toolChoiceCodec : Codec F ToolChoice :=
  literal [.auto, .none] ToolChoice.value fun a => by cases a <;> decide +kernel

def ToolStatus.value : ToolStatus → String
  | .pending => "pending"
  | .running => "running"
  | .complete => "complete"
  | .error => "error"
  | .cancelled => "cancelled"

def toolStatusCodec : Codec F ToolStatus :=
  literal [.pending, .running, .complete, .error, .cancelled] ToolStatus.value fun a => by cases a <;> decide +kernel

def PublicationOutcome.value : PublicationOutcome → String
  | .published => "Published"
  | .degraded => "Degraded"
  | .failed => "Failed"
  | .cancelled => "Cancelled"

def publicationOutcomeCodec : Codec F PublicationOutcome :=
  literal [.published, .degraded, .failed, .cancelled] PublicationOutcome.value fun a => by cases a <;> decide +kernel

/-! ### Intents -/

def targetCodec : Codec F ProviderTargetState :=
  .record (((entry "provider" providerCodec).and (entry "model" nameCodec)).map
      (fun x => ⟨x.1, x.2⟩) (fun t => (t.provider, t.model)) fun _ => rfl)
    (show ["provider".toList, "model".toList].Nodup by decide)

def scopeCodec : Codec F CacheScopeState :=
  .tagged kind <|
    ((Variants.one "Global".toList .empty (show [kind].Nodup by decide)).or
      ((Variants.one "Owner".toList (entry "owner_id" uuidCodec) (show [kind, "owner_id".toList].Nodup by decide)).or
        (.one "Conversation".toList (entry "conversation_id" uuidCodec)
          (show [kind, "conversation_id".toList].Nodup by decide))
        (show ∀ t ∈ ["Conversation".toList], t ∉ ["Owner".toList] by decide))
      (show ∀ t ∈ ["Owner".toList, "Conversation".toList], t ∉ ["Global".toList] by decide)).map
      (fun | .inl _ => .global | .inr (.inl id) => .owner id | .inr (.inr id) => .conversation id)
      (fun | .global => .inl () | .owner id => .inr (.inl id) | .conversation id => .inr (.inr id))
      fun | .global => rfl | .owner _ => rfl | .conversation _ => rfl

def stabilityCodec : Codec F BlockStabilityState :=
  .tagged kind <|
    ((Variants.one "Dynamic".toList .empty (show [kind].Nodup by decide)).or
      (.one "Stable".toList (entry "scope" scopeCodec) (show [kind, "scope".toList].Nodup by decide))
      (show ∀ t ∈ ["Stable".toList], t ∉ ["Dynamic".toList] by decide)).map
      (fun | .inl _ => .dynamic | .inr s => .stable s) (fun | .dynamic => .inl () | .stable s => .inr s)
      fun | .dynamic => rfl | .stable _ => rfl

def blockCodec : Codec F PromptBlockState :=
  .record (((entry "text" .str).and (entry "stability" stabilityCodec)).map
      (fun x => ⟨x.1, x.2⟩) (fun b => (b.text, b.stability)) fun _ => rfl)
    (show ["text".toList, "stability".toList].Nodup by decide)

def continuationCodec : Codec F (ContinuationState F) :=
  .record (((entry "target" targetCodec).and ((entry "codec_id" nameCodec).and (entry "opaque_payload" .object))).map
      (fun x => ⟨x.1, x.2.1, x.2.2⟩) (fun c => (c.target, c.codecId, c.opaquePayload)) fun _ => rfl)
    (show ["target".toList, "codec_id".toList, "opaque_payload".toList].Nodup by decide)

def toolCallCodec : Codec F (ToolCallState F) :=
  .record (((entry "id" nameCodec).and ((entry "name" nameCodec).and (entry "arguments" .object))).map
      (fun x => ⟨x.1, x.2.1, x.2.2⟩) (fun c => (c.id, c.name, c.arguments)) fun _ => rfl)
    (show ["id".toList, "name".toList, "arguments".toList].Nodup by decide)

def messageCodec : Codec F (PromptMessageState F) :=
  .tagged kind <|
    ((Variants.one "System".toList (entry "blocks" (.list blockCodec)) (show [kind, "blocks".toList].Nodup by decide)).or
      ((Variants.one "User".toList (entry "blocks" (.list blockCodec)) (show [kind, "blocks".toList].Nodup by decide)).or
        ((Variants.one "Assistant".toList
            ((entry "text" .str).and ((entry "tool_calls" (.list toolCallCodec)).and
              (entry "continuation" (presence continuationCodec))))
            (show [kind, "text".toList, "tool_calls".toList, "continuation".toList].Nodup by decide)).or
          (.one "ToolResult".toList
            ((entry "call_id" nameCodec).and ((entry "output" .str).and (entry "is_error" .bool)))
            (show [kind, "call_id".toList, "output".toList, "is_error".toList].Nodup by decide))
          (show ∀ t ∈ ["ToolResult".toList], t ∉ ["Assistant".toList] by decide))
        (show ∀ t ∈ ["Assistant".toList, "ToolResult".toList], t ∉ ["User".toList] by decide))
      (show ∀ t ∈ ["User".toList, "Assistant".toList, "ToolResult".toList], t ∉ ["System".toList] by decide)).map
      (fun
        | .inl blocks => .system blocks
        | .inr (.inl blocks) => .user blocks
        | .inr (.inr (.inl (content, toolCalls, artifact))) => .assistant content toolCalls artifact
        | .inr (.inr (.inr (callId, output, isError))) => .toolResult callId output isError)
      (fun
        | .system blocks => .inl blocks
        | .user blocks => .inr (.inl blocks)
        | .assistant content toolCalls artifact => .inr (.inr (.inl (content, toolCalls, artifact)))
        | .toolResult callId output isError => .inr (.inr (.inr (callId, output, isError))))
      fun | .system _ => rfl | .user _ => rfl | .assistant _ _ _ => rfl | .toolResult _ _ _ => rfl

def toolCodec : Codec F (CanonicalToolState F) :=
  .record (((entry "name" nameCodec).and ((entry "description" .str).and (entry "parameters" .object))).map
      (fun x => ⟨x.1, x.2.1, x.2.2⟩) (fun t => (t.name, t.description, t.parameters)) fun _ => rfl)
    (show ["name".toList, "description".toList, "parameters".toList].Nodup by decide)

def outputCodec : Codec F (OutputState F) :=
  .tagged kind <|
    ((Variants.one "Text".toList .empty (show [kind].Nodup by decide)).or
      (.one "StrictJson".toList ((entry "name" nameCodec).and (entry "json_schema" .object))
        (show [kind, "name".toList, "json_schema".toList].Nodup by decide))
      (show ∀ t ∈ ["StrictJson".toList], t ∉ ["Text".toList] by decide)).map
      (fun | .inl _ => .text | .inr (name, schema) => .strictJson name schema)
      (fun | .text => .inl () | .strictJson name schema => .inr (name, schema))
      fun | .text => rfl | .strictJson _ _ => rfl

def generateIntentCodec : Codec F (GenerateIntentState F) :=
  .record (((entry "target" targetCodec).and ((entry "messages" (.list messageCodec)).and
      ((entry "max_output_tokens" positiveCodec).and ((entry "reasoning" reasoningCodec).and
        ((entry "tools" (.list toolCodec)).and ((entry "tool_choice" toolChoiceCodec).and
          (entry "output" outputCodec))))))).map
      (fun (target, messages, tokens, reasoning, tools, choice, output) =>
        ⟨target, messages, tokens, reasoning, tools, choice, output⟩)
      (fun i => (i.target, i.messages, i.maxOutputTokens, i.reasoning, i.tools, i.toolChoice, i.output)) fun _ => rfl)
    (show ["target".toList, "messages".toList, "max_output_tokens".toList, "reasoning".toList, "tools".toList,
      "tool_choice".toList, "output".toList].Nodup by decide)

/-! ### Step results -/

/-- `PreparedChatRun` -/
def preparedCodec : Codec F (PreparedChatRun F) :=
  .record (((entry "generate_intent" generateIntentCodec).and
      ((entry "initial_citation_ordinal" positiveCodec).and (entry "initial_tool_call_index" .nat))).map
      (fun x => ⟨x.1, x.2.1, x.2.2⟩)
      (fun p => (p.generateIntent, p.initialCitationOrdinal, p.initialToolCallIndex)) fun _ => rfl)
    (show ["generate_intent".toList, "initial_citation_ordinal".toList, "initial_tool_call_index".toList].Nodup
      by decide)

def assistantTurnFields : Fields F (AssistantTurn F) :=
  ((entry "text" .str).and ((entry "tool_calls" (.list toolCallCodec)).and
    ((entry "continuation" (presence continuationCodec)).and ((entry "usage" (presence .object)).and
      ((entry "support_id" (presence .str)).and (entry "last_provider_event_seq" (presence .int))))))).map
    (fun (content, toolCalls, artifact, usage, supportId, seq) => ⟨content, toolCalls, artifact, usage, supportId, seq⟩)
    (fun t => (t.text, t.toolCalls, t.continuation, t.usage, t.supportId, t.lastProviderEventSeq)) fun _ => rfl

def expectedFailureFields : Fields F (ExpectedFailure F) :=
  ((entry "assistant_content" .str).and ((entry "error_code" nameCodec).and ((entry "error_origin" nameCodec).and
    ((entry "usage" (presence .object)).and ((entry "support_id" (presence .str)).and
      (entry "last_provider_event_seq" (presence .int))))))).map
    (fun (content, code, origin, usage, supportId, seq) => ⟨content, code, origin, usage, supportId, seq⟩)
    (fun f => (f.assistantContent, f.errorCode, f.errorOrigin, f.usage, f.supportId, f.lastProviderEventSeq))
    fun _ => rfl

def cancelledGenerationFields : Fields F (CancelledGeneration F) :=
  ((entry "assistant_content" .str).and ((entry "usage" (presence .object)).and
    (entry "last_provider_event_seq" (presence .int)))).map
    (fun x => ⟨x.1, x.2.1, x.2.2⟩) (fun g => (g.assistantContent, g.usage, g.lastProviderEventSeq)) fun _ => rfl

/-- `GenerationStepResultEnvelope` -/
def generationCodec : Codec F (GenerationStepResult F) :=
  .tagged kind <|
    ((Variants.one "AssistantTurn".toList assistantTurnFields
        (show [kind, "text".toList, "tool_calls".toList, "continuation".toList, "usage".toList, "support_id".toList,
          "last_provider_event_seq".toList].Nodup by decide)).or
      ((Variants.one "ExpectedFailure".toList expectedFailureFields
          (show [kind, "assistant_content".toList, "error_code".toList, "error_origin".toList, "usage".toList,
            "support_id".toList, "last_provider_event_seq".toList].Nodup by decide)).or
        (.one "Cancelled".toList cancelledGenerationFields
          (show [kind, "assistant_content".toList, "usage".toList, "last_provider_event_seq".toList].Nodup by decide))
        (show ∀ t ∈ ["Cancelled".toList], t ∉ ["ExpectedFailure".toList] by decide))
      (show ∀ t ∈ ["ExpectedFailure".toList, "Cancelled".toList], t ∉ ["AssistantTurn".toList] by decide)).map
      (fun | .inl t => .assistantTurn t | .inr (.inl f) => .expectedFailure f | .inr (.inr g) => .cancelled g)
      (fun | .assistantTurn t => .inl t | .expectedFailure f => .inr (.inl f) | .cancelled g => .inr (.inr g))
      fun | .assistantTurn _ => rfl | .expectedFailure _ => rfl | .cancelled _ => rfl

def toolModelOutputCodec : Codec F ToolModelOutput :=
  .record (((entry "call_id" nameCodec).and ((entry "output" .str).and (entry "is_error" .bool))).map
      (fun x => ⟨x.1, x.2.1, x.2.2⟩) (fun o => (o.callId, o.output, o.isError)) fun _ => rfl)
    (show ["call_id".toList, "output".toList, "is_error".toList].Nodup by decide)

def toolResultEventCodec : Codec F (ToolResultEvent F) :=
  .record (((entryOr "tool_call_id" (.nullable uuidCodec fun _ => by simp [uuidCodec, Codec.spelled]) .none).and
      ((entry "assistant_message_id" uuidCodec).and ((entry "tool_name" nameCodec).and
      ((entry "tool_call_index" .nat).and ((entry "status" toolStatusCodec).and ((entry "scope" nameCodec).and
      ((entry "types" (.list .str)).and ((entry "filters" .object).and
      ((entryOr "error_code" (.nullable .str fun _ => by simp [Codec.str]) .none).and
      ((entryOr "result_count" (.nullable .nat fun _ => by simp [Codec.nat]) .none).and
      ((entryOr "selected_count" (.nullable .nat fun _ => by simp [Codec.nat]) .none).and
      ((entryOr "latency_ms" (.nullable .nat fun _ => by simp [Codec.nat]) .none).and
      ((entryOr "provider_request_ids" (.list .str) []).and (entryOr "results" (.list .doc) [])))))))))))))).map
      (fun (toolCallId, messageId, name, index, status, scope, types, filters, code, count, selected, latency, ids,
          results) =>
        ⟨toolCallId, messageId, name, index, status, scope, types, filters, code, count, selected, latency, ids, results⟩)
      (fun e => (e.toolCallId, e.assistantMessageId, e.toolName, e.toolCallIndex, e.status, e.scope, e.types, e.filters,
        e.errorCode, e.resultCount, e.selectedCount, e.latencyMs, e.providerRequestIds, e.results)) fun _ => rfl)
    (show ["tool_call_id".toList, "assistant_message_id".toList, "tool_name".toList, "tool_call_index".toList,
      "status".toList, "scope".toList, "types".toList, "filters".toList, "error_code".toList, "result_count".toList,
      "selected_count".toList, "latency_ms".toList, "provider_request_ids".toList, "results".toList].Nodup by decide)

def toolStepResultCodec : Codec F (ToolStepResult F) :=
  .record (((entry "tool_call_id" uuidCodec).and ((entry "tool_name" nameCodec).and
      ((entry "tool_call_index" positiveCodec).and ((entry "model_output" toolModelOutputCodec).and
      ((entry "next_citation_ordinal" positiveCodec).and (entry "result_event" toolResultEventCodec)))))).map
      (fun (id, name, index, output, ordinal, event) => ⟨id, name, index, output, ordinal, event⟩)
      (fun r => (r.toolCallId, r.toolName, r.toolCallIndex, r.modelOutput, r.nextCitationOrdinal, r.resultEvent))
      fun _ => rfl)
    (show ["tool_call_id".toList, "tool_name".toList, "tool_call_index".toList, "model_output".toList,
      "next_citation_ordinal".toList, "result_event".toList].Nodup by decide)

def publicationResultCodec : Codec F PublicationStepResult :=
  .record (((entry "outcome" publicationOutcomeCodec).and ((entry "message_id" uuidCodec).and
      (entry "terminal_event_seq" positiveCodec))).map
      (fun x => ⟨x.1, x.2.1, x.2.2⟩) (fun r => (r.outcome, r.messageId, r.terminalEventSeq)) fun _ => rfl)
    (show ["outcome".toList, "message_id".toList, "terminal_event_seq".toList].Nodup by decide)

/-! ### Requests, which are fingerprinted and never stored -/

def publicationRequestCodec : Codec F (PublicationRequest F) :=
  .record (((entry "generated_markdown" .str).and ((entry "usage" (presence .object)).and
      (entry "last_provider_event_seq" (presence .int)))).map
      (fun x => ⟨x.1, x.2.1, x.2.2⟩) (fun r => (r.generatedMarkdown, r.usage, r.lastProviderEventSeq)) fun _ => rfl)
    (show ["generated_markdown".toList, "usage".toList, "last_provider_event_seq".toList].Nodup by decide)

def toolStepRequestCodec : Codec F (ToolStepRequest F) :=
  .record (((entry "provider_call_id" nameCodec).and ((entry "tool_name" nameCodec).and
      ((entry "tool_call_index" positiveCodec).and (entry "arguments" .object)))).map
      (fun x => ⟨x.1, x.2.1, x.2.2.1, x.2.2.2⟩)
      (fun r => (r.providerCallId, r.toolName, r.toolCallIndex, r.arguments)) fun _ => rfl)
    (show ["provider_call_id".toList, "tool_name".toList, "tool_call_index".toList, "arguments".toList].Nodup by decide)

end Nexus.Chat
