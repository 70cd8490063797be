/-
The numbers of a chat run's tool calls: the tool events of
`_dispatch_generation_step` and the tool loop of `_execute_chat_run` in
`services/chat_runs.py`.

The stream numbers a turn's calls as they first appear, the loop numbers them
as they are done, and `bind_provider_tool_call_events` later takes the one
number for the other. They are the same when the calls are done in the order
they appeared in, none left out (`toolIndices_agree_iff`).

One pass of the loop is modelled; a later attempt reads the turns it finds in
the journal and numbers the same calls in the same order.
-/
import Nexus.Chat.Execution

namespace Nexus.Chat
open JsonCodec Jobs

/-! ## One generation -/

/-- What the provider's stream says before it ends. An empty argument delta
would not pass the payload's schema. -/
inductive RuntimeEvent (F : Type)
  | streamStart
  | textDelta (text : Text)
  | toolCallStart (callId name : Name)
  | toolCallDelta (callId argumentsDelta : Name)
  | toolCallDone (toolCall : ToolCall F)
  | continuationDelta (artifact : ContinuationArtifact F)
  | usage

inductive TerminalOutcome
  | succeeded
  | cancelled
  | incomplete
  | failed
  deriving DecidableEq, Repr

/-- The events with their sequence numbers, and the outcome of the terminal
event, if one came. -/
structure ProviderStream (F : Type) where
  events : List (Nat × RuntimeEvent F)
  outcome : Option TerminalOutcome

inductive ToolEventKind (F : Type)
  | start
  | delta (input : Name)
  | done (input : Object F)

structure ToolEvent (F : Type) where
  kind : ToolEventKind F
  toolName : Name
  toolCallIndex : Nat
  providerToolCallId : Name
  providerEventSeq : Nat

/-- The variables of `_dispatch_generation_step` that the tool events use. -/
structure DispatchState (F : Type) where
  toolNamesByCallId : List (Name × Name)
  providerToolIndices : List (Name × Nat)
  pendingToolCalls : List (ToolCall F)
  emitted : List (ToolEvent F)

variable {F : Type}

/-- `dict.setdefault`, with the value that is there afterwards. -/
def setdefault (d : List (Name × Nat)) (key : Name) (value : Nat) : List (Name × Nat) × Nat :=
  match d.lookup key with
  | .some value => (d, value)
  | .none => (d ++ [(key, value)], value)

/-- The number of a call: the one it has, or the next one. -/
def DispatchState.number (s : DispatchState F) (toolCallIndexNext : Nat) (callId : Name) : List (Name × Nat) × Nat :=
  setdefault s.providerToolIndices callId (toolCallIndexNext + s.providerToolIndices.length + 1)

/-- One event of the stream; `none` is the `AssertionError` of a delta before its start. -/
def DispatchState.step (toolCallIndexNext : Nat) (s : DispatchState F) (event : Nat × RuntimeEvent F) :
    Option (DispatchState F) :=
  match event.2 with
  | .toolCallStart callId name =>
    let (indices, index) := s.number toolCallIndexNext callId
    .some
      { s with
        toolNamesByCallId := (callId, name) :: s.toolNamesByCallId
        providerToolIndices := indices
        emitted := s.emitted ++ [⟨.start, name, index, callId, event.1⟩] }
  | .toolCallDelta callId argumentsDelta =>
    match s.toolNamesByCallId.lookup callId with
    | .none => .none
    | .some name =>
      let (indices, index) := s.number toolCallIndexNext callId
      .some
        { s with
          providerToolIndices := indices
          emitted := s.emitted ++ [⟨.delta argumentsDelta, name, index, callId, event.1⟩] }
  | .toolCallDone toolCall =>
    let (indices, index) := s.number toolCallIndexNext toolCall.id
    .some
      { toolNamesByCallId := (toolCall.id, toolCall.name) :: s.toolNamesByCallId
        providerToolIndices := indices
        pendingToolCalls := s.pendingToolCalls ++ [toolCall]
        emitted := s.emitted ++ [⟨.done toolCall.arguments, toolCall.name, index, toolCall.id, event.1⟩] }
  | .streamStart | .textDelta _ | .continuationDelta _ | .usage => .some s

/-- The loop over the events, and whether it raised. -/
def dispatchEvents (toolCallIndexNext : Nat) : DispatchState F → List (Nat × RuntimeEvent F) → DispatchState F × Bool
  | s, [] => (s, false)
  | s, event :: events =>
    match s.step toolCallIndexNext event with
    | .some s' => dispatchEvents toolCallIndexNext s' events
    | .none => (s, true)

/-- What the run does with a generation. -/
inductive Generation (F : Type)
  | assistantTurn (toolCalls : List (ToolCall F))
  | ended
  | raised

/-- `_dispatch_generation_step`: the tool events it emits, and its end. -/
def dispatchGenerationStep (toolCallIndexNext : Nat) (stream : ProviderStream F) : List (ToolEvent F) × Generation F :=
  let (s, raised) := dispatchEvents toolCallIndexNext ⟨[], [], [], []⟩ stream.events
  (s.emitted,
    if raised then .raised
    else
      match stream.outcome with
      | .none => .raised
      | .some .succeeded => .assistantTurn s.pendingToolCalls
      | .some _ => .ended)

/-! ## The tool loop -/

/-- Where the loop asks whether the run is to be cancelled. -/
inductive CancelLook
  | beforeTurn (turnIndex : Nat)
  | afterTool (toolCallIndex : Nat)

/-- What becomes of a call: an event of the stream, or its step under its path,
whose request is journaled and whose number is the tool row's. -/
inductive Entry (F : Type)
  | streamed (turnIndex : Nat) (event : ToolEvent F)
  | executed (turnIndex : Nat) (request : ToolStepRequest F)

def Entry.turnIndex : Entry F → Nat
  | .streamed turnIndex _ | .executed turnIndex _ => turnIndex

def Entry.callId : Entry F → Name
  | .streamed _ event => event.providerToolCallId
  | .executed _ request => request.providerCallId

def Entry.toolCallIndex : Entry F → Nat
  | .streamed _ event => event.toolCallIndex
  | .executed _ request => request.toolCallIndex.1

/-- The index of a step, `none` for an event. -/
def Entry.executedIndex : Entry F → Option Nat
  | .streamed _ _ => .none
  | .executed _ request => .some request.toolCallIndex.1

/-- The calls of a turn one after the other, and the number to go on from unless the run was cancelled. -/
def runToolCalls (isCancelRequested : CancelLook → Bool) (turnIndex : Nat) :
    Nat → List (ToolCall F) → List (Entry F) × Option Nat
  | toolCallIndexNext, [] => ([], .some toolCallIndexNext)
  | toolCallIndexNext, toolCall :: toolCalls =>
    let step := .executed turnIndex
      ⟨toolCall.id, toolCall.name, ⟨toolCallIndexNext + 1, Nat.succ_pos _⟩, toolCall.arguments⟩
    if isCancelRequested (.afterTool (toolCallIndexNext + 1)) then ([step], .none)
    else
      let (steps, next) := runToolCalls isCancelRequested turnIndex (toolCallIndexNext + 1) toolCalls
      (step :: steps, next)

/-- `for turn_index in range(MAX_TOOL_ITERATIONS)`, with the streams the provider answers with. -/
def runTurns (isCancelRequested : CancelLook → Bool) : Nat → Nat → List (ProviderStream F) → List (Entry F)
  | _, _, [] => []
  | turnIndex, toolCallIndexNext, stream :: streams =>
    if maxToolIterations ≤ turnIndex ∨ isCancelRequested (.beforeTurn turnIndex) then []
    else
      let (emitted, generation) := dispatchGenerationStep toolCallIndexNext stream
      emitted.map (.streamed turnIndex) ++
        match generation with
        | .assistantTurn toolCalls =>
          if toolCalls.isEmpty then []
          else
            let (steps, next) := runToolCalls isCancelRequested turnIndex toolCallIndexNext toolCalls
            steps ++
              match next with
              | .some next => runTurns isCancelRequested (turnIndex + 1) next streams
              | .none => []
        | .ended | .raised => []

/-! ## What the numbers should be -/

/-- The call that an event is about. -/
def RuntimeEvent.callId : RuntimeEvent F → Option Name
  | .toolCallStart callId _ | .toolCallDelta callId _ => .some callId
  | .toolCallDone toolCall => .some toolCall.id
  | .streamStart | .textDelta _ | .continuationDelta _ | .usage => .none

def RuntimeEvent.doneId : RuntimeEvent F → Option Name
  | .toolCallDone toolCall => .some toolCall.id
  | _ => .none

def noteId (ids : List Name) : Option Name → List Name
  | .some id => if id ∈ ids then ids else ids ++ [id]
  | .none => ids

/-- The calls of the stream in the order of their first events. -/
def ProviderStream.appearances (s : ProviderStream F) : List Name := (s.events.map (·.2.callId)).foldl noteId []

/-- The calls of the stream in the order they are done. -/
def ProviderStream.doneIds (s : ProviderStream F) : List Name := s.events.filterMap (·.2.doneId)

/-- Each delta follows its call's start. -/
def ProviderStream.DeltasFollowStarts (s : ProviderStream F) : Prop :=
  ∀ before seq callId argumentsDelta after, s.events = before ++ (seq, .toolCallDelta callId argumentsDelta) :: after →
    ∃ seq name, (seq, .toolCallStart callId name) ∈ before

/-- The calls of a turn are done in the order they appeared in, all of them or none. -/
def ProviderStream.Orderly (s : ProviderStream F) : Prop :=
  s.outcome = .some .succeeded → s.doneIds = [] ∨ s.doneIds = s.appearances

/-- The stream's numbers are the loop's, and these go on without a gap and without reuse. -/
structure IndicesAgree (initial : Nat) (log : List (Entry F)) : Prop where
  agree : ∀ turnIndex event request, .streamed turnIndex event ∈ log → .executed turnIndex request ∈ log →
    event.providerToolCallId = request.providerCallId → event.toolCallIndex = request.toolCallIndex.1
  consecutive : ∃ n, log.filterMap (·.executedIndex) = List.range' (initial + 1) n
  noReuse : ∀ e ∈ log, ∀ e' ∈ log, e.toolCallIndex = e'.toolCallIndex → e.turnIndex = e'.turnIndex ∧ e.callId = e'.callId

/-! ## The numbers of the stream -/

theorem noteId_some (ids : List Name) (id : Name) : noteId ids (.some id) = if id ∈ ids then ids else ids ++ [id] := rfl

theorem noteId_nodup {ids : List Name} (h : ids.Nodup) (id : Option Name) : (noteId ids id).Nodup := by
  cases id with
  | none => exact h
  | some id =>
    rw [noteId_some]
    split
    · exact h
    · rename_i hid
      refine List.nodup_append.2 ⟨h, List.nodup_singleton _, ?_⟩
      rintro a ha _ hb rfl
      exact hid (List.mem_singleton.1 hb ▸ ha)

theorem prefix_noteId (ids : List Name) (id : Option Name) : ids <+: noteId ids id := by
  cases id with
  | none => exact List.prefix_refl _
  | some id =>
    rw [noteId_some]
    split
    · exact List.prefix_refl _
    · exact List.prefix_append _ _

theorem zipIdx_mono {α : Type} {l l' : List α} (h : l <+: l') (n : Nat) : l.zipIdx n <+: l'.zipIdx n := by
  obtain ⟨t, rfl⟩ := h
  rw [List.zipIdx_append]
  exact List.prefix_append _ _

theorem number_unique {ids : List Name} (h : ids.Nodup) {n i j : Nat} {id : Name} (hi : (id, i) ∈ ids.zipIdx n)
    (hj : (id, j) ∈ ids.zipIdx n) : i = j := by
  obtain ⟨hni, hi⟩ := List.mk_mem_zipIdx_iff_le_and_getElem?_sub.1 hi
  obtain ⟨hnj, hj⟩ := List.mk_mem_zipIdx_iff_le_and_getElem?_sub.1 hj
  have hlt : i - n < ids.length := (List.getElem?_eq_some_iff.1 hi).1
  have := (List.getElem?_inj hlt h).1 (hi.trans hj.symm)
  omega

theorem callId_unique {ids : List Name} {n i : Nat} {id id' : Name} (h : (id, i) ∈ ids.zipIdx n)
    (h' : (id', i) ∈ ids.zipIdx n) : id = id' := by
  obtain ⟨-, h⟩ := List.mk_mem_zipIdx_iff_le_and_getElem?_sub.1 h
  obtain ⟨-, h'⟩ := List.mk_mem_zipIdx_iff_le_and_getElem?_sub.1 h'
  exact Option.some.inj (h.symm.trans h')

/-- The calls numbered so far are `ids`, from `next + 1` on, and every event bears the number of its call. -/
structure Numbered (next : Nat) (s : DispatchState F) (ids : List Name) : Prop where
  nodup : ids.Nodup
  indices : s.providerToolIndices = ids.zipIdx (next + 1)
  emitted : ∀ e ∈ s.emitted, (e.providerToolCallId, e.toolCallIndex) ∈ ids.zipIdx (next + 1)
  announced : ∀ p ∈ ids.zipIdx (next + 1), ∃ e ∈ s.emitted, (e.providerToolCallId, e.toolCallIndex) = p

section numbered
variable {next : Nat} {s s' : DispatchState F} {ids : List Name}

theorem Numbered.number (h : Numbered next s ids) (callId : Name) :
    (s.number next callId).1 = (noteId ids (.some callId)).zipIdx (next + 1) ∧
      (callId, (s.number next callId).2) ∈ (noteId ids (.some callId)).zipIdx (next + 1) := by
  unfold DispatchState.number setdefault
  rw [h.indices, noteId_some]
  cases hl : (ids.zipIdx (next + 1)).lookup callId with
  | some value =>
    obtain ⟨l₁, l₂, heq, -⟩ := List.lookup_eq_some_iff.1 hl
    have hmem : (callId, value) ∈ ids.zipIdx (next + 1) := by simp [heq]
    rw [if_pos (List.fst_mem_of_mem_zipIdx hmem)]
    exact ⟨rfl, hmem⟩
  | none =>
    have hnot : callId ∉ ids := by
      intro hid
      obtain ⟨i, hi⟩ := List.getElem?_of_mem hid
      have hmem : (callId, next + 1 + i) ∈ ids.zipIdx (next + 1) := List.mk_add_mem_zipIdx_iff_getElem?.2 hi
      have := List.lookup_eq_none_iff.1 hl _ hmem
      simp at this
    rw [if_neg hnot, List.zipIdx_append, List.zipIdx_singleton, List.length_zipIdx]
    have hindex : next + ids.length + 1 = next + 1 + ids.length := by omega
    rw [hindex]
    exact ⟨rfl, by simp⟩

theorem Numbered.emit (h : Numbered next s ids) (e : ToolEvent F)
    (hindices : s'.providerToolIndices = (s.number next e.providerToolCallId).1)
    (hindex : e.toolCallIndex = (s.number next e.providerToolCallId).2) (hemitted : s'.emitted = s.emitted ++ [e]) :
    Numbered next s' (noteId ids (.some e.providerToolCallId)) := by
  obtain ⟨hnumber, hmem⟩ := h.number e.providerToolCallId
  rw [← hindex] at hmem
  have hsub := (zipIdx_mono (prefix_noteId ids (.some e.providerToolCallId)) (next + 1)).subset
  refine ⟨noteId_nodup h.nodup _, hindices.trans hnumber, fun a ha => ?_, fun p hp => ?_⟩
  · rw [hemitted] at ha
    rcases List.mem_append.1 ha with ha | ha
    · exact hsub (h.emitted a ha)
    · rwa [List.mem_singleton.1 ha]
  · by_cases hold : p ∈ ids.zipIdx (next + 1)
    · obtain ⟨a, ha, heq⟩ := h.announced p hold
      exact ⟨a, by simp [hemitted, ha], heq⟩
    · refine ⟨e, by simp [hemitted], ?_⟩
      have hid : p.1 = e.providerToolCallId := by
        by_contra hne
        have hfst := List.fst_mem_of_mem_zipIdx hp
        rw [noteId_some] at hp hfst
        split at hp
        · exact hold hp
        · rename_i hnew
          rw [List.zipIdx_append, List.zipIdx_singleton, List.mem_append, List.mem_singleton] at hp
          rcases hp with hp | hp
          · exact hold hp
          · exact hne (by rw [hp])
      have hp' : (e.providerToolCallId, p.2) ∈ (noteId ids (.some e.providerToolCallId)).zipIdx (next + 1) := hid ▸ hp
      rw [number_unique (noteId_nodup h.nodup _) hmem hp', ← hid]

theorem Numbered.step (h : Numbered next s ids) {event : Nat × RuntimeEvent F} (hstep : s.step next event = .some s') :
    Numbered next s' (noteId ids event.2.callId) ∧
      s'.pendingToolCalls.map (·.id) = s.pendingToolCalls.map (·.id) ++ event.2.doneId.toList := by
  obtain ⟨seq, event⟩ := event
  cases event with
  | toolCallStart callId name =>
    obtain rfl := Option.some.inj hstep
    exact ⟨h.emit ⟨.start, name, (s.number next callId).2, callId, seq⟩ rfl rfl rfl, by simp [RuntimeEvent.doneId]⟩
  | toolCallDelta callId argumentsDelta =>
    simp only [DispatchState.step] at hstep
    split at hstep
    · cases hstep
    · rename_i name _
      obtain rfl := Option.some.inj hstep
      exact ⟨h.emit ⟨.delta argumentsDelta, name, (s.number next callId).2, callId, seq⟩ rfl rfl rfl,
        by simp [RuntimeEvent.doneId]⟩
  | toolCallDone toolCall =>
    obtain rfl := Option.some.inj hstep
    exact ⟨h.emit ⟨.done toolCall.arguments, toolCall.name, (s.number next toolCall.id).2, toolCall.id, seq⟩ rfl rfl rfl,
      by simp [RuntimeEvent.doneId]⟩
  | streamStart | textDelta | continuationDelta | usage =>
    obtain rfl := Option.some.inj hstep
    exact ⟨h, by simp [RuntimeEvent.doneId]⟩

theorem Numbered.run (h : Numbered next s ids) (events : List (Nat × RuntimeEvent F)) :
    ∃ ids', Numbered next (dispatchEvents next s events).1 ids' ∧
      ((dispatchEvents next s events).2 = false →
        ids' = (events.map (·.2.callId)).foldl noteId ids ∧
          (dispatchEvents next s events).1.pendingToolCalls.map (·.id) =
            s.pendingToolCalls.map (·.id) ++ events.filterMap (·.2.doneId)) := by
  induction events generalizing s ids with
  | nil => exact ⟨ids, h, fun _ => ⟨rfl, by simp [dispatchEvents]⟩⟩
  | cons event events ih =>
    unfold dispatchEvents
    cases hstep : s.step next event with
    | none => exact ⟨ids, h, fun hfalse => by cases hfalse⟩
    | some s' =>
      obtain ⟨hnumbered, hpending⟩ := h.step hstep
      obtain ⟨ids', h', hdone⟩ := ih hnumbered
      refine ⟨ids', h', fun hfalse => ?_⟩
      obtain ⟨hids, hcalls⟩ := hdone hfalse
      refine ⟨hids, ?_⟩
      rw [hcalls, hpending, List.append_assoc, List.filterMap_cons]
      cases event.2.doneId <;> rfl

end numbered

theorem Numbered.init (next : Nat) : Numbered next (⟨[], [], [], []⟩ : DispatchState F) [] :=
  ⟨List.nodup_nil, rfl, by simp, by simp⟩

theorem dispatchEvents_not_raised {next : Nat} {s : DispatchState F} (seen : List (Nat × RuntimeEvent F))
    {events : List (Nat × RuntimeEvent F)}
    (hknown : ∀ seq callId name, (seq, .toolCallStart callId name) ∈ seen →
      (s.toolNamesByCallId.lookup callId).isSome = true)
    (hdeltas : ∀ before seq callId argumentsDelta after,
      seen ++ events = before ++ (seq, .toolCallDelta callId argumentsDelta) :: after →
        ∃ seq name, (seq, .toolCallStart callId name) ∈ before) :
    (dispatchEvents next s events).2 = false := by
  induction events generalizing s seen with
  | nil => rfl
  | cons event events ih =>
    obtain ⟨s', hstep, hsub⟩ : ∃ s', s.step next event = .some s' ∧
        ∀ seq callId name, (seq, .toolCallStart callId name) ∈ seen ++ [event] →
          (s'.toolNamesByCallId.lookup callId).isSome = true := by
      obtain ⟨seq, event⟩ := event
      cases event with
      | toolCallStart callId name =>
        refine ⟨_, rfl, fun seq' callId' name' hmem => ?_⟩
        simp only [List.mem_append, List.mem_singleton, Prod.mk.injEq, RuntimeEvent.toolCallStart.injEq] at hmem
        dsimp only
        rw [List.lookup_cons]
        split
        · rfl
        · rename_i hne
          rcases hmem with hmem | hmem
          · exact hknown _ _ _ hmem
          · exact absurd (beq_iff_eq.2 hmem.2.1) (by simpa using hne)
      | toolCallDelta callId argumentsDelta =>
        obtain ⟨seq', name', hmem⟩ := hdeltas seen seq callId argumentsDelta events rfl
        obtain ⟨name, hname⟩ := Option.isSome_iff_exists.1 (hknown _ _ _ hmem)
        refine ⟨_, by simp only [DispatchState.step, hname]; rfl, fun seq' callId' name' hmem => ?_⟩
        exact hknown seq' callId' name' (by simpa using hmem)
      | toolCallDone toolCall =>
        refine ⟨_, rfl, fun seq' callId' name' hmem => ?_⟩
        dsimp only
        rw [List.lookup_cons]
        split
        · rfl
        · exact hknown seq' callId' name' (by simpa using hmem)
      | streamStart | textDelta | continuationDelta | usage =>
        exact ⟨s, rfl, fun seq' callId' name' hmem => hknown seq' callId' name' (by simpa using hmem)⟩
    unfold dispatchEvents
    rw [hstep]
    exact ih _ hsub (by simpa using hdeltas)

/-- **What a generation gives the run**: its events bear the numbers of `ids`, and a turn's calls are those done. -/
theorem dispatchGenerationStep_spec (next : Nat) (stream : ProviderStream F) :
    ∃ ids : List Name, ids.Nodup ∧
      (∀ e ∈ (dispatchGenerationStep next stream).1, (e.providerToolCallId, e.toolCallIndex) ∈ ids.zipIdx (next + 1)) ∧
      (∀ p ∈ ids.zipIdx (next + 1), ∃ e ∈ (dispatchGenerationStep next stream).1,
        (e.providerToolCallId, e.toolCallIndex) = p) ∧
      ∀ toolCalls, (dispatchGenerationStep next stream).2 = .assistantTurn toolCalls →
        stream.outcome = .some .succeeded ∧ ids = stream.appearances ∧ toolCalls.map (·.id) = stream.doneIds := by
  obtain ⟨ids, h, hdone⟩ := (Numbered.init (F := F) next).run stream.events
  refine ⟨ids, h.nodup, h.emitted, h.announced, fun toolCalls hturn => ?_⟩
  unfold dispatchGenerationStep at hturn
  dsimp only at hturn
  split at hturn
  · cases hturn
  · rename_i hraised
    obtain ⟨hids, hcalls⟩ := hdone (by simpa using hraised)
    split at hturn
    · cases hturn
    · rename_i houtcome
      obtain rfl := Generation.assistantTurn.inj hturn
      exact ⟨houtcome, hids, hcalls⟩
    · cases hturn

theorem dispatchGenerationStep_succeeded (next : Nat) {stream : ProviderStream F} (h : stream.DeltasFollowStarts)
    (houtcome : stream.outcome = .some .succeeded) :
    ∃ toolCalls, (dispatchGenerationStep next stream).2 = .assistantTurn toolCalls := by
  have hraised : (dispatchEvents next ⟨[], [], [], []⟩ stream.events).2 = false :=
    dispatchEvents_not_raised [] (by simp) h
  refine ⟨(dispatchEvents next ⟨[], [], [], []⟩ stream.events).1.pendingToolCalls, ?_⟩
  simp [dispatchGenerationStep, hraised, houtcome]

/-! ## The numbers of the loop -/

theorem runToolCalls_spec (isCancelRequested : CancelLook → Bool) (turnIndex next : Nat) (toolCalls : List (ToolCall F)) :
    ∃ ran, ran <+: toolCalls ∧
      (runToolCalls isCancelRequested turnIndex next toolCalls).1.map (fun e => (e.callId, e.toolCallIndex)) =
        (ran.map (·.id)).zipIdx (next + 1) ∧
      (∀ e ∈ (runToolCalls isCancelRequested turnIndex next toolCalls).1, ∃ request, e = .executed turnIndex request) ∧
      (runToolCalls isCancelRequested turnIndex next toolCalls).1.filterMap (·.executedIndex) =
        List.range' (next + 1) ran.length ∧
      ∀ n, (runToolCalls isCancelRequested turnIndex next toolCalls).2 = .some n →
        ran = toolCalls ∧ n = next + toolCalls.length := by
  induction toolCalls generalizing next with
  | nil => exact ⟨[], List.prefix_refl _, rfl, by simp [runToolCalls], rfl, by simp [runToolCalls, eq_comm]⟩
  | cons toolCall toolCalls ih =>
    unfold runToolCalls
    dsimp only
    split
    · exact ⟨[toolCall], by simp, rfl, by simp, rfl, by simp⟩
    · obtain ⟨ran, hran, hpairs, hexecuted, hindices, hnext⟩ := ih (next + 1)
      refine ⟨toolCall :: ran, List.cons_prefix_cons.2 ⟨rfl, hran⟩, ?_, ?_, ?_, fun n hn => ?_⟩
      · rw [List.map_cons, hpairs]
        rfl
      · intro e he
        rcases List.mem_cons.1 he with rfl | he
        · exact ⟨_, rfl⟩
        · exact hexecuted e he
      · have htail := congrArg (List.cons (next + 1)) hindices
        exact htail
      · obtain ⟨rfl, rfl⟩ := hnext n hn
        exact ⟨rfl, by simp; omega⟩

/-- A number stands for one call of one turn. -/
def OneToOne (log : List (Entry F)) : Prop :=
  ∀ e ∈ log, ∀ e' ∈ log, e.toolCallIndex = e'.toolCallIndex ↔ e.turnIndex = e'.turnIndex ∧ e.callId = e'.callId

/-- The entries of one turn, numbered by `ids`. -/
def OfTurn (turnIndex next : Nat) (ids : List Name) (log : List (Entry F)) : Prop :=
  ∀ e ∈ log, e.turnIndex = turnIndex ∧ (e.callId, e.toolCallIndex) ∈ ids.zipIdx (next + 1)

theorem OfTurn.oneToOne {turnIndex next : Nat} {ids : List Name} {log : List (Entry F)} (hids : ids.Nodup)
    (h : OfTurn turnIndex next ids log) : OneToOne log := by
  intro e he e' he'
  obtain ⟨hturn, hmem⟩ := h e he
  obtain ⟨hturn', hmem'⟩ := h e' he'
  constructor
  · intro hindex
    exact ⟨hturn.trans hturn'.symm, callId_unique (hindex ▸ hmem) hmem'⟩
  · rintro ⟨-, hid⟩
    exact number_unique hids (hid ▸ hmem) hmem'

theorem OfTurn.append {turnIndex next : Nat} {ids : List Name} {log rest : List (Entry F)} (hids : ids.Nodup)
    (h : OfTurn turnIndex next ids log) (hrest : OneToOne rest)
    (hlater : ∀ e ∈ rest, turnIndex < e.turnIndex ∧ next + ids.length < e.toolCallIndex) : OneToOne (log ++ rest) := by
  have hcross : ∀ e ∈ log, ∀ e' ∈ rest, e.toolCallIndex < e'.toolCallIndex ∧ e.turnIndex < e'.turnIndex := by
    intro e he e' he'
    obtain ⟨hturn, hmem⟩ := h e he
    have hlt := List.snd_lt_add_of_mem_zipIdx hmem
    have hl := hlater e' he'
    dsimp only at hlt
    omega
  intro e he e' he'
  rcases List.mem_append.1 he with he | he <;> rcases List.mem_append.1 he' with he' | he'
  · exact h.oneToOne hids e he e' he'
  · have := hcross e he e' he'
    omega
  · have := hcross e' he' e he
    omega
  · exact hrest e he e' he'

/-! ## The numbers of a run -/

section run
variable {isCancelRequested : CancelLook → Bool} {stream : ProviderStream F} {streams : List (ProviderStream F)}

theorem runTurns_cons (isCancelRequested : CancelLook → Bool) (turnIndex next : Nat) (stream : ProviderStream F)
    (streams : List (ProviderStream F)) :
    runTurns isCancelRequested turnIndex next (stream :: streams) = [] ∨
      ∃ ids ran : List Name, ∃ log rest : List (Entry F),
        runTurns isCancelRequested turnIndex next (stream :: streams) =
            (dispatchGenerationStep next stream).1.map (.streamed turnIndex) ++ log ++ rest ∧
          ids.Nodup ∧
          (∀ e ∈ (dispatchGenerationStep next stream).1,
            (e.providerToolCallId, e.toolCallIndex) ∈ ids.zipIdx (next + 1)) ∧
          log.map (fun e => (e.callId, e.toolCallIndex)) = ran.zipIdx (next + 1) ∧
          (∀ e ∈ log, e.turnIndex = turnIndex) ∧
          log.filterMap (·.executedIndex) = List.range' (next + 1) ran.length ∧
          (ran ≠ [] → stream.outcome = .some .succeeded ∧ ids = stream.appearances ∧ ran <+: stream.doneIds) ∧
          (rest = [] ∨ ran ≠ [] ∧ ran = stream.doneIds ∧
            rest = runTurns isCancelRequested (turnIndex + 1) (next + ran.length) streams) := by
  obtain ⟨ids, hids, hemitted, -, hturn⟩ := dispatchGenerationStep_spec next stream
  rw [runTurns]
  split
  · exact .inl rfl
  · refine .inr ?_
    dsimp only
    cases hgeneration : (dispatchGenerationStep next stream).2 with
    | ended | raised =>
      exact ⟨ids, [], [], [], by simp, hids, hemitted, rfl, by simp, rfl, by simp, .inl rfl⟩
    | assistantTurn toolCalls =>
      obtain ⟨houtcome, happear, hdone⟩ := hturn toolCalls hgeneration
      dsimp only
      by_cases hempty : toolCalls.isEmpty = true
      · rw [if_pos hempty]
        exact ⟨ids, [], [], [], by simp, hids, hemitted, rfl, by simp, rfl, by simp, .inl rfl⟩
      · rw [if_neg hempty]
        obtain ⟨ran, hran, hpairs, hexecuted, hindices, hnext⟩ :=
          runToolCalls_spec isCancelRequested turnIndex next toolCalls
        have hturns : ∀ e ∈ (runToolCalls isCancelRequested turnIndex next toolCalls).1, e.turnIndex = turnIndex := by
          intro e he
          obtain ⟨request, rfl⟩ := hexecuted e he
          rfl
        have hprefix : ran.map (·.id) <+: stream.doneIds := hdone ▸ hran.map _
        refine ⟨ids, ran.map (·.id), _, _, (List.append_assoc _ _ _).symm, hids, hemitted, hpairs, hturns,
          by rw [hindices, List.length_map], fun _ => ⟨houtcome, happear, hprefix⟩, ?_⟩
        cases hn : (runToolCalls isCancelRequested turnIndex next toolCalls).2 with
        | none => exact .inl rfl
        | some n =>
          obtain ⟨rfl, rfl⟩ := hnext n hn
          refine .inr ⟨fun hnil => hempty ?_, hdone, by rw [List.length_map]⟩
          rw [List.isEmpty_iff, ← List.map_eq_nil_iff, hnil]

theorem runTurns_consecutive (isCancelRequested : CancelLook → Bool) (turnIndex next : Nat)
    (streams : List (ProviderStream F)) :
    ∃ n, (runTurns isCancelRequested turnIndex next streams).filterMap (·.executedIndex) = List.range' (next + 1) n := by
  induction streams generalizing turnIndex next with
  | nil => exact ⟨0, rfl⟩
  | cons stream streams ih =>
    rcases runTurns_cons isCancelRequested turnIndex next stream streams with
      hnil | ⟨ids, ran, log, rest, heq, -, -, -, -, hindices, -, hrest⟩
    · exact ⟨0, by rw [hnil]; rfl⟩
    · have hstreamed : ((dispatchGenerationStep next stream).1.map (Entry.streamed turnIndex)).filterMap
          (·.executedIndex) = [] := by
        rw [List.filterMap_eq_nil_iff]
        intro e he
        obtain ⟨event, -, rfl⟩ := List.mem_map.1 he
        rfl
      rw [heq, List.filterMap_append, List.filterMap_append, hstreamed, hindices, List.nil_append]
      rcases hrest with rfl | ⟨-, -, rfl⟩
      · exact ⟨ran.length, by simp⟩
      · obtain ⟨n, hn⟩ := ih (turnIndex + 1) (next + ran.length)
        refine ⟨ran.length + n, ?_⟩
        have hstart : next + ran.length + 1 = next + 1 + ran.length := by omega
        rw [hn, hstart, List.range'_append_1]

/-- **In a run whose generations are orderly a number stands for one call.** -/
theorem runTurns_oneToOne (turnIndex next : Nat) (horderly : ∀ stream ∈ streams, stream.Orderly) :
    OneToOne (runTurns isCancelRequested turnIndex next streams) ∧
      ∀ e ∈ runTurns isCancelRequested turnIndex next streams, turnIndex ≤ e.turnIndex ∧ next < e.toolCallIndex := by
  induction streams generalizing turnIndex next with
  | nil => exact ⟨fun e he => absurd he List.not_mem_nil, fun e he => absurd he List.not_mem_nil⟩
  | cons stream streams ih =>
    rcases runTurns_cons isCancelRequested turnIndex next stream streams with
      hnil | ⟨ids, ran, log, rest, heq, hids, hemitted, hpairs, hturns, -, hran, hrest⟩
    · rw [hnil]
      exact ⟨fun e he => absurd he List.not_mem_nil, fun e he => absurd he List.not_mem_nil⟩
    · have hprefix : ran <+: ids := by
        by_cases hnil : ran = []
        · exact hnil ▸ List.nil_prefix
        · obtain ⟨houtcome, happear, hdone⟩ := hran hnil
          rcases horderly stream (by simp) houtcome with hnone | hall
          · exact absurd (List.prefix_nil.1 (hnone ▸ hdone)) hnil
          · rwa [happear, ← hall]
      have hofTurn : OfTurn turnIndex next ids
          ((dispatchGenerationStep next stream).1.map (.streamed turnIndex) ++ log) := by
        intro e he
        rcases List.mem_append.1 he with he | he
        · obtain ⟨event, hevent, rfl⟩ := List.mem_map.1 he
          exact ⟨rfl, hemitted event hevent⟩
        · refine ⟨hturns e he, (zipIdx_mono hprefix (next + 1)).subset ?_⟩
          rw [← hpairs]
          exact List.mem_map.2 ⟨e, he, rfl⟩
      have hnow : ∀ e ∈ (dispatchGenerationStep next stream).1.map (.streamed turnIndex) ++ log,
          turnIndex ≤ e.turnIndex ∧ next < e.toolCallIndex := by
        intro e he
        obtain ⟨hturn, hmem⟩ := hofTurn e he
        have hle := List.le_snd_of_mem_zipIdx hmem
        exact ⟨hturn.ge, hle⟩
      rw [heq]
      rcases hrest with rfl | ⟨hne, hall, rfl⟩
      · rw [List.append_nil]
        exact ⟨hofTurn.oneToOne hids, hnow⟩
      · obtain ⟨houtcome, happear, -⟩ := hran hne
        have hlength : ran.length = ids.length := by
          rcases horderly stream (by simp) houtcome with hnone | happears
          · exact absurd (hall.trans hnone) hne
          · rw [hall, happears, happear]
        obtain ⟨hlater, hbounds⟩ := ih (turnIndex + 1) (next + ran.length) fun t ht => horderly t (by simp [ht])
        refine ⟨hofTurn.append hids hlater fun e he => ?_, fun e he => ?_⟩
        · obtain ⟨hturn, hindex⟩ := hbounds e he
          exact ⟨hturn, hlength ▸ hindex⟩
        · rcases List.mem_append.1 he with he | he
          · exact hnow e he
          · have := hbounds e he
            omega

theorem runTurns_indicesAgree (initial : Nat) (horderly : ∀ stream ∈ streams, stream.Orderly) :
    IndicesAgree initial (runTurns isCancelRequested 0 initial streams) where
  agree _ _ _ hevent hrequest hid :=
    ((runTurns_oneToOne 0 initial horderly).1 _ hevent _ hrequest).2 ⟨rfl, hid⟩
  consecutive := runTurns_consecutive isCancelRequested 0 initial streams
  noReuse e he e' he' := ((runTurns_oneToOne 0 initial horderly).1 e he e' he').1

/-- A turn with one call, done as it appeared. -/
def oneCall (toolCall : ToolCall F) : ProviderStream F :=
  ⟨[(1, .toolCallStart toolCall.id toolCall.name), (2, .toolCallDone toolCall)], .some .succeeded⟩

theorem oneCall_orderly (toolCall : ToolCall F) : (oneCall toolCall).Orderly := by
  refine fun _ => .inr ?_
  simp [ProviderStream.doneIds, ProviderStream.appearances, oneCall, RuntimeEvent.doneId, RuntimeEvent.callId, noteId]

theorem mem_foldl_noteId {l : List (Option Name)} {ids : List Name} {id : Name} :
    id ∈ l.foldl noteId ids ↔ id ∈ ids ∨ .some id ∈ l := by
  induction l generalizing ids with
  | nil => simp
  | cons a l ih =>
    rw [List.foldl_cons, ih, List.mem_cons]
    cases a with
    | none => simp [noteId]
    | some b =>
      rw [noteId_some]
      split
      · rename_i hb
        refine ⟨fun h => by tauto, ?_⟩
        rintro (h | h | h)
        · exact .inl h
        · exact .inl (Option.some.inj h ▸ hb)
        · exact .inr h
      · simp only [List.mem_append, List.mem_singleton, Option.some.injEq]
        tauto

theorem ProviderStream.doneIds_subset (s : ProviderStream F) : s.doneIds ⊆ s.appearances := by
  intro id hid
  obtain ⟨event, hevent, hdone⟩ := List.mem_filterMap.1 hid
  refine mem_foldl_noteId.2 (.inr (List.mem_map.2 ⟨event, hevent, ?_⟩))
  obtain ⟨seq, event⟩ := event
  cases event with
  | toolCallDone toolCall => exact hdone
  | _ => cases hdone

theorem runToolCalls_never (turnIndex next : Nat) (toolCalls : List (ToolCall F)) :
    (runToolCalls (fun _ => false) turnIndex next toolCalls).2 = .some (next + toolCalls.length) := by
  induction toolCalls generalizing next with
  | nil => rfl
  | cons toolCall toolCalls ih =>
    have hlength : next + (toolCall :: toolCalls).length = next + 1 + toolCalls.length := by
      rw [List.length_cons]
      omega
    rw [hlength, ← ih (next + 1)]
    rfl

theorem runTurns_oneCall (turnIndex next : Nat) (toolCall : ToolCall F) (hturn : turnIndex < maxToolIterations) :
    ∃ e ∈ runTurns (fun _ => false) turnIndex next [oneCall toolCall],
      e.turnIndex = turnIndex ∧ e.toolCallIndex = next + 1 := by
  refine ⟨.streamed turnIndex ⟨.start, toolCall.name, next + 1, toolCall.id, 1⟩, ?_, rfl, rfl⟩
  rw [runTurns, if_neg (by simpa using hturn)]
  refine List.mem_append_left _ (List.mem_map.2 ⟨_, ?_, rfl⟩)
  simp [oneCall, dispatchEvents, DispatchState.step, DispatchState.number, setdefault]

theorem orderly_of_indicesAgree (hdeltas : stream.DeltasFollowStarts)
    (h : ∀ toolCall, IndicesAgree 0 (runTurns (fun _ => false) 0 0 [stream, oneCall toolCall])) : stream.Orderly := by
  intro houtcome
  obtain ⟨toolCalls, hgeneration⟩ := dispatchGenerationStep_succeeded 0 hdeltas houtcome
  obtain ⟨ids, hids, hemitted, hannounced, hturn⟩ := dispatchGenerationStep_spec 0 stream
  obtain ⟨-, rfl, hdone⟩ := hturn toolCalls hgeneration
  cases hcalls : toolCalls with
  | nil => exact .inl (by rw [← hdone, hcalls]; rfl)
  | cons toolCall tail =>
    refine .inr ?_
    have hnonempty : toolCalls.isEmpty = false := by rw [hcalls]; rfl
    obtain ⟨ran, -, hpairs, hexecuted, -, hnext⟩ := runToolCalls_spec (fun _ => false) 0 0 toolCalls
    obtain ⟨rfl, -⟩ := hnext _ (runToolCalls_never 0 0 toolCalls)
    -- the log of the run: what the turn streamed, what it ran, and the turn after it
    have hlog : runTurns (fun _ => false) 0 0 [stream, oneCall toolCall] =
        (dispatchGenerationStep 0 stream).1.map (.streamed 0) ++
          ((runToolCalls (fun _ => false) 0 0 ran).1 ++
            runTurns (fun _ => false) 1 (0 + ran.length) [oneCall toolCall]) := by
      rw [runTurns, if_neg (by simp [maxToolIterations])]
      simp only [hgeneration, hnonempty, Bool.false_eq_true, if_false, runToolCalls_never]
    have hagree := h toolCall
    rw [hlog] at hagree
    have hstreamed : ∀ (i : Nat) id, stream.appearances[i]? = .some id → ∃ event : ToolEvent F,
        Entry.streamed 0 event ∈ (dispatchGenerationStep 0 stream).1.map (Entry.streamed 0) ∧
          event.providerToolCallId = id ∧ event.toolCallIndex = 1 + i := by
      intro i id hi
      obtain ⟨event, hevent, heq⟩ := hannounced _ (List.mk_add_mem_zipIdx_iff_getElem?.2 hi)
      obtain ⟨hid, hindex⟩ := Prod.mk.inj heq
      exact ⟨event, List.mem_map.2 ⟨event, hevent, rfl⟩, hid, by omega⟩
    -- the call done as the i-th one is the one that appeared as the i-th one
    have hsame : ∀ (i : Nat) id, stream.doneIds[i]? = .some id → stream.appearances[i]? = .some id := by
      intro i id hi
      obtain ⟨j, hj⟩ := List.getElem?_of_mem (stream.doneIds_subset (List.mem_of_getElem? hi))
      obtain ⟨event, hevent, hid, hindex⟩ := hstreamed j id hj
      have hmem : (id, 0 + 1 + i) ∈ (ran.map (·.id)).zipIdx (0 + 1) :=
        List.mk_add_mem_zipIdx_iff_getElem?.2 (hdone ▸ hi)
      rw [← hpairs] at hmem
      obtain ⟨e, he, heq⟩ := List.mem_map.1 hmem
      obtain ⟨hid', hindex'⟩ := Prod.mk.inj heq
      obtain ⟨request, rfl⟩ := hexecuted e he
      have hequal := hagree.agree 0 event request (List.mem_append_left _ hevent)
        (List.mem_append_right _ (List.mem_append_left _ he)) (hid.trans hid'.symm)
      have hrequest : request.toolCallIndex.1 = 0 + 1 + i := hindex'
      have hij : j = i := by omega
      exact hij ▸ hj
    have hprefix : stream.doneIds <+: stream.appearances := by
      rw [List.prefix_iff_getElem?]
      intro i hi
      exact hsame i _ (List.getElem?_eq_getElem hi)
    -- and none is left over whose number the next turn takes
    refine hprefix.eq_of_length (le_antisymm hprefix.length_le (Nat.not_lt.1 fun hlt => ?_))
    obtain ⟨event, hevent, -, hindex⟩ := hstreamed _ _ (List.getElem?_eq_getElem hlt)
    obtain ⟨e, he, hturn', hindex'⟩ := runTurns_oneCall 1 (0 + ran.length) toolCall (by decide)
    have hlength : ran.length = stream.doneIds.length := by rw [← hdone, List.length_map]
    have hreuse := hagree.noReuse _ (List.mem_append_left _ hevent) e
      (List.mem_append_right _ (List.mem_append_right _ he)) (hindex.trans (by omega))
    exact absurd (hreuse.1.trans hturn') (by simp [Entry.turnIndex])

/-- **When the stream's numbers are the loop's.** A stream whose deltas follow their starts keeps them equal, without
reuse, in every run whose other generations are orderly, exactly when it is orderly itself. -/
theorem toolIndices_agree_iff (hdeltas : stream.DeltasFollowStarts) :
    (∀ (isCancelRequested : CancelLook → Bool) (initial : Nat) (before after : List (ProviderStream F)),
        (∀ other ∈ before ++ after, other.Orderly) →
          IndicesAgree initial (runTurns isCancelRequested 0 initial (before ++ stream :: after))) ↔
      stream.Orderly := by
  constructor
  · intro h
    refine orderly_of_indicesAgree hdeltas fun toolCall => h (fun _ => false) 0 [] [oneCall toolCall] ?_
    intro other hother
    rw [List.mem_singleton.1 hother]
    exact oneCall_orderly toolCall
  · intro horderly isCancelRequested initial before after hothers
    refine runTurns_indicesAgree initial fun other hother => ?_
    rcases List.mem_append.1 hother with hother | hother
    · exact hothers other (List.mem_append_left _ hother)
    · rcases List.mem_cons.1 hother with rfl | hother
      · exact horderly
      · exact hothers other (List.mem_append_right _ hother)

end run

/-! ## Two calls done in the other order -/

def callNamed (c : Char) : ToolCall Nat := ⟨⟨[c], by simp⟩, ⟨['f'], by simp⟩, []⟩

def crossed : ProviderStream Nat :=
  ⟨[(1, .toolCallStart (callNamed 'a').id (callNamed 'a').name), (2, .toolCallStart (callNamed 'b').id (callNamed 'b').name),
      (3, .toolCallDone (callNamed 'b')), (4, .toolCallDone (callNamed 'a'))], .some .succeeded⟩

theorem oneCall_deltas (toolCall : ToolCall F) : (oneCall toolCall).DeltasFollowStarts := by
  intro before seq callId argumentsDelta after h
  have hmem : (seq, .toolCallDelta callId argumentsDelta) ∈ (oneCall toolCall).events := h ▸ by simp
  simp [oneCall] at hmem

theorem toolIndices_agree_iff_oneCall :
    (∀ (isCancelRequested : CancelLook → Bool) (initial : Nat) (before after : List (ProviderStream Nat)),
        (∀ other ∈ before ++ after, other.Orderly) →
          IndicesAgree initial (runTurns isCancelRequested 0 initial (before ++ oneCall (callNamed 'a') :: after))) ↔
      (oneCall (callNamed 'a')).Orderly :=
  toolIndices_agree_iff (oneCall_deltas _)

/-- The stream says `1` of the call that is run as `2`. -/
theorem crossed_disagrees :
    crossed.DeltasFollowStarts ∧ ¬IndicesAgree 0 (runTurns (fun _ => false) 0 0 [crossed]) := by
  constructor
  · intro before seq callId argumentsDelta after h
    have hmem : (seq, .toolCallDelta callId argumentsDelta) ∈ crossed.events := h ▸ by simp
    simp [crossed] at hmem
  · intro h
    have hevent : Entry.streamed 0 ⟨.start, (callNamed 'a').name, 1, (callNamed 'a').id, 1⟩ ∈
        runTurns (fun _ => false) 0 0 [crossed] := .head _
    have hrequest : Entry.executed 0 ⟨(callNamed 'a').id, (callNamed 'a').name, ⟨2, by decide⟩, []⟩ ∈
        runTurns (fun _ => false) 0 0 [crossed] := .tail _ (.tail _ (.tail _ (.tail _ (.tail _ (.head _)))))
    have := h.agree 0 _ _ hevent hrequest rfl
    simp at this

end Nexus.Chat
