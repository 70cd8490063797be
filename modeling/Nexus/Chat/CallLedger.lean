/-
Whose call the reconciler looks at: `start_call` numbers the calls of a run one
after the other, and `_validate_reconciled_domain_facts` takes the call of
number `turn + 1` for the one its generation was dispatched with.

The numbers are `1..n` without a gap (`Numbered`), so a call is number
`turn + 1` exactly if `turn` calls were started before it. A turn that starts
two calls, since the first attempt died before its dispatch checkpoint or was
proven not to have dispatched, breaks this for itself and every turn after it.
-/
import Nexus.Chat.BilledOnce

namespace Nexus.Chat
open JsonCodec Jobs Relational Transition

variable {F S : Type}

theorem nextCallSeq_eq {calls : List LlmCall} (h : calls.map LlmCall.callSeq = List.range' 1 calls.length) :
    nextCallSeq calls = calls.length + 1 := by
  have hmax : ∀ n m, (List.range' m n).foldr max 0 = if n = 0 then 0 else m + n - 1 := by
    intro n
    induction n with
    | zero => intro m; rfl
    | succ n ih =>
      intro m
      rw [List.range'_succ, List.foldr_cons, ih]
      split
      · simp
        omega
      · simp only [Nat.add_eq_zero_iff, one_ne_zero, and_false, if_false]
        omega
  rw [nextCallSeq, h, hmax]
  split
  · omega
  · omega

theorem length_filter_lt {n c : Nat} (h : 1 ≤ c) (hn : c ≤ n) : ((List.range' 1 n).filter (· < c)).length = c - 1 := by
  obtain ⟨m, rfl⟩ := Nat.exists_eq_add_of_le hn
  obtain ⟨k, rfl⟩ := Nat.exists_eq_add_of_le h
  have hsplit : List.range' 1 (1 + k + m) = List.range' 1 k ++ List.range' (1 + k) (1 + m) := by
    rw [show 1 + k + m = k + (1 + m) by omega, List.range'_append_1]
  have hlow : (List.range' 1 k).filter (· < 1 + k) = List.range' 1 k := by
    refine List.filter_eq_self.2 fun i hi => ?_
    have hi := (List.mem_range'_1.1 hi).2
    simpa using hi
  have hhigh : (List.range' (1 + k) (1 + m)).filter (· < 1 + k) = [] := by
    refine List.filter_eq_nil_iff.2 fun i hi => ?_
    have hi := (List.mem_range'_1.1 hi).1
    simp
    omega
  rw [hsplit, List.filter_append, hlow, hhigh]
  simp

theorem findCall_callSeq {calls : List LlmCall} {seq call} (h : findCall calls seq = .some call) : call.callSeq = seq := by
  simpa using List.find?_some h

theorem exists_findCall {calls : List LlmCall} {seq} (h : seq ∈ calls.map LlmCall.callSeq) :
    ∃ call, findCall calls seq = .some call := by
  obtain ⟨call, hmem, hseq⟩ := List.mem_map.1 h
  refine Option.isSome_iff_exists.1 (List.find?_isSome.2 ⟨call, hmem, ?_⟩)
  simpa using hseq

namespace ChatState

variable {O : Outside F S} {runId jobId : Uuid} {s t : ChatState F S} {now : Instant}

/-! ## The ledger's numbers -/

theorem ledger_of_moves {a : Attempt F S} {input calls pc} (h : a.Moves O s.run s.calls input (.ledger calls pc)) :
    calls.map LlmCall.callSeq = s.calls.map LlmCall.callSeq ∨ calls = startCall s.calls := by
  cases h with
  | fault =>
    refine .inl ?_
    unfold Pc.settle
    split
    all_goals
      first
      | rfl
      | (split
         · exact terminalize_callSeq _ _ _ _
         · rfl)
  | started => exact .inr rfl
  | denied | answered | ambiguous => exact .inl (terminalize_callSeq _ _ _ _)

theorem begin_ne_started (prepared : PreparedChatRun F) (v : Vars F S) (c : Nat) : Pc.begin O prepared ≠ .started v c := by
  unfold Pc.begin
  split <;> simp

theorem afterGeneration_ne_started (v : Vars F S) (result : GenerationStepResult F) (v' : Vars F S) (c : Nat) :
    Pc.afterGeneration v result ≠ .started v' c := by
  unfold Pc.afterGeneration
  split
  · split <;> simp
  · simp
  · simp

theorem resume_ne_started (l : Loop F S) (state : StepReplayState) (v' : Vars F S) (c : Nat) :
    l.resume O state ≠ .started v' c := by
  cases l with
  | turn v =>
    simp only [Loop.resume]
    split
    · simp
    · exact afterGeneration_ne_started v _ v' c
  | tool v call rest =>
    simp only [Loop.resume]
    split <;> simp
  | publish v => simp [Loop.resume]

theorem started_of_moves {a : Attempt F S} {input m v c} (h : a.Moves O s.run s.calls input m) (hpc : m.pc = .started v c) :
    m = .ledger (startCall s.calls) (.started v c) ∧ c = nextCallSeq s.calls := by
  cases h with
  | started =>
    obtain ⟨rfl, rfl⟩ := Pc.started.inj hpc
    exact ⟨rfl, rfl⟩
  | prepareResumed | assembled => exact absurd hpc (begin_ne_started _ _ _)
  | resumed => exact absurd hpc (resume_ne_started _ _ _ _)
  | generationCompleted => exact absurd hpc (afterGeneration_ne_started _ _ _ _)
  | fault | raised | changed | cleared | cancelledEarly | cancelled | tooLarge | failed | stopped | published | running
  | active | checked | prepared | readied | refused | denied | marked | sent | answered | ambiguous | toolCompleted =>
    cases hpc

/-- The calls of a run are numbered from one on, and the call an attempt
carries is one of them. -/
structure Numbered (s : ChatState F S) : Prop where
  seqs : s.calls.map LlmCall.callSeq = List.range' 1 s.calls.length
  started : ∀ worker a v c, s.attempts worker = .some a → a.pc = .started v c → 1 ≤ c ∧ c ≤ s.calls.length

theorem Numbered.mem {c : Nat} (h : Numbered s) (hc : 1 ≤ c ∧ c ≤ s.calls.length) : c ∈ s.calls.map LlmCall.callSeq := by
  rw [h.seqs, List.mem_range'_1]
  omega

theorem numbers_of_moves {worker a input m} (hl : Leased jobId s) (ha : s.attempts worker = .some a)
    (hm : a.Moves O s.run s.calls input m) :
    (s.move now worker a m).calls.map LlmCall.callSeq = s.calls.map LlmCall.callSeq ∨
      (s.move now worker a m).calls = startCall s.calls := by
  cases m with
  | go | markRunning | send => exact .inl rfl
  | ledger calls pc => exact ledger_of_moves hm
  | checkpoint payload finalize marks sent pc lost =>
    have hcases : Committed jobId now s (s.move now worker a (.checkpoint payload finalize marks sent pc lost)) worker a
        payload finalize marks sent pc ∨ _ := move_checkpoint (hl.ctx worker a ha)
    rcases hcases with hs | hs
    · refine .inl ?_
      rw [hs.rest]
      rfl
    · refine .inl ?_
      rw [hs]
      cases hm with
      | marked _ _ _ hlost => exact hlost
      | _ => rfl

theorem attempts_of_move {worker a w b} {m : Move F S} (hctx : a.ctx.jobId = jobId ∧ a.ctx.workerId = worker)
    (hb : (s.move now worker a m).attempts w = .some b) :
    s.attempts w = .some b ∨ b.pc = m.pc ∨ b.pc = .raised .lostLease := by
  have hset : ∀ {b'}, (s.setAttempt worker (.some b')).attempts w = .some b → s.attempts w = .some b ∨ b = b' := by
    intro b' hb
    simp only [setAttempt] at hb
    split at hb
    · exact .inr (Option.some.inj hb).symm
    · exact .inl hb
  cases m with
  | go | markRunning | ledger | send =>
    rcases hset hb with hb | rfl
    · exact .inl hb
    · exact .inr (.inl rfl)
  | checkpoint payload finalize marks sent pc lost =>
    have hcases : Committed jobId now s (s.move now worker a (.checkpoint payload finalize marks sent pc lost)) worker a
        payload finalize marks sent pc ∨ _ := move_checkpoint hctx
    rcases hcases with hs | hs
    · rw [hs.rest] at hb
      rcases hset hb with hb | rfl
      · exact .inl hb
      · exact .inr (.inl rfl)
    · rw [hs] at hb
      rcases hset hb with hb | rfl
      · exact .inl hb
      · exact .inr (.inr rfl)

theorem seqs_of_steps {ev} (hl : Leased jobId s) (hs : Steps O runId jobId s t now ev) :
    t.calls.map LlmCall.callSeq = s.calls.map LlmCall.callSeq ∨ t.calls = startCall s.calls := by
  cases hs with
  | act ha hm ht =>
    rw [ht]
    exact numbers_of_moves hl ha hm
  | claim hs =>
    rw [hs.attempts]
    exact .inl rfl
  | reconcile hs =>
    rw [hs.rest]
    exact .inl rfl
  | undisturbed hs =>
    rw [hs.calls]
    exact .inl rfl
  | deleted hs =>
    rw [hs]
    exact .inl rfl

theorem started_of_steps {ev w b v c} (hl : Leased jobId s) (hs : Steps O runId jobId s t now ev)
    (hb : t.attempts w = .some b) (hpc : b.pc = .started v c) :
    (∃ b', s.attempts w = .some b' ∧ b'.pc = .started v c) ∨ c = nextCallSeq s.calls ∧ t.calls = startCall s.calls := by
  cases hs with
  | act ha hm ht =>
    rw [ht] at hb
    rcases attempts_of_move (hl.ctx _ _ ha) hb with hb | hb | hb
    · exact .inl ⟨b, hb, hpc⟩
    · obtain ⟨rfl, rfl⟩ := started_of_moves hm (hb.symm.trans hpc)
      rw [ht]
      exact .inr ⟨rfl, rfl⟩
    · rw [hb] at hpc
      cases hpc
  | claim hs =>
    rw [hs.attempts] at hb
    simp only [setAttempt] at hb
    split at hb
    · obtain rfl := Option.some.inj hb
      rw [hs.pc] at hpc
      cases hpc
    · exact .inl ⟨b, hb, hpc⟩
  | reconcile hs =>
    rw [hs.rest] at hb
    exact .inl ⟨b, hb, hpc⟩
  | undisturbed hs =>
    rcases hs.attempts w b hb with hb | ⟨b', hb', hstart⟩
    · exact .inl ⟨b, hb, hpc⟩
    · cases hstart <;> cases hpc
  | deleted hs =>
    rw [hs] at hb
    exact .inl ⟨b, hb, hpc⟩

theorem length_calls_le {ev} (hl : Leased jobId s) (hs : Steps O runId jobId s t now ev) : s.calls.length ≤ t.calls.length := by
  rcases seqs_of_steps hl hs with hseqs | hcalls
  · have hlength := congrArg List.length hseqs
    simp only [List.length_map] at hlength
    omega
  · simp [hcalls, startCall]

theorem Numbered.step {ev} (h : Numbered s) (hl : Leased jobId s) (hs : Steps O runId jobId s t now ev) : Numbered t where
  seqs := by
    rcases seqs_of_steps hl hs with hseqs | hcalls
    · have hlength := congrArg List.length hseqs
      simp only [List.length_map] at hlength
      rw [hseqs, h.seqs, hlength]
    · rw [hcalls, startCall, List.map_append, h.seqs, List.length_append, List.length_singleton, List.range'_1_concat]
      simp [nextCallSeq_eq h.seqs, Nat.add_comm]
  started w b v c hb hpc := by
    rcases started_of_steps hl hs hb hpc with ⟨b', hb', hpc'⟩ | ⟨rfl, hcalls⟩
    · have hc := h.started w b' v c hb' hpc'
      have hle := length_calls_le hl hs
      omega
    · rw [nextCallSeq_eq h.seqs, hcalls]
      simp [startCall]

/-! ## The call of the latest dispatch -/

/-- The call the latest dispatch checkpoint of a turn's generation carries. -/
def latestCall (s : ChatState F S) (turn : Nat) : Option Nat :=
  (s.marks.filter fun d => d.path = .generation turn).getLast?.bind Dispatch.call

/-- The ledger's row of the latest dispatch of a turn. -/
def dispatched (s : ChatState F S) (turn : Nat) : Option LlmCall := (s.latestCall turn).bind (findCall s.calls)

/-- The row `_validate_reconciled_domain_facts` looks at. -/
def consulted (s : ChatState F S) (turn : Nat) : Option LlmCall := findCall s.calls (turn + 1)

/-- Its check of an attached generation, against a row of the ledger. -/
def agrees (O : Outside F S) (call : Option LlmCall) (raw : Text) : Bool :=
  (generationCodec.loads O.models raw).any fun result =>
    match call with
    | .none => false
    | .some call => match call.outcome, result with
      | .none, _ => false
      | .some outcome, .assistantTurn _ => outcome == .succeeded
      | .some _, _ => true

theorem validates_generation (turn : Nat) (raw : Text) (toolFacts : Bool) :
    s.validates O (.generation turn) raw toolFacts = (!s.isOver && agrees O (s.consulted turn) raw) := by
  unfold validates isOver
  cases s.run with
  | none => rfl
  | some run => rfl

/-- An uncertain generation has a dispatch whose call has the property. -/
def Carries (jobId : Uuid) (Q : Nat → Nat → Prop) (s : ChatState F S) : Prop :=
  s.isOver = false → ∀ turn state, s.stored jobId (.generation turn) = .some state → state.dispatchPhase = .uncertain →
    ∃ c, s.latestCall turn = .some c ∧ Q turn c

theorem latestCall_of_marks (h : t.marks = s.marks) (turn : Nat) : t.latestCall turn = s.latestCall turn := by
  rw [latestCall, h, latestCall]

theorem latestCall_self {turn c} (h : t.marks = s.marks ++ [⟨.generation turn, c⟩]) : t.latestCall turn = c := by
  simp [latestCall, h]

theorem latestCall_of_ne {path c turn} (h : t.marks = s.marks ++ [⟨path, c⟩]) (hne : path ≠ .generation turn) :
    t.latestCall turn = s.latestCall turn := by
  simp [latestCall, h, hne]

/-- Only a dispatch checkpoint makes a generation uncertain, and its call is
then the latest. -/
theorem Carries.edits {Q} (h : Carries jobId Q s) (he : Edits jobId s t)
    (hcall : ∀ turn c, t.marks = s.marks ++ [⟨.generation turn, c⟩] → ∃ call, c = .some call ∧ Q turn call) :
    Carries jobId Q t := by
  intro hactive turn state' hstate' huncertain
  have hbefore := he.active hactive
  have hsame : ∀ {j}, s.job jobId = .some j → j.payload.coordination (.generation turn) = .some state' →
      t.latestCall turn = s.latestCall turn → ∃ c, t.latestCall turn = .some c ∧ Q turn c := by
    intro j hj hstate hlatest
    rw [hlatest]
    exact h hbefore turn state' (by rw [stored_eq hj, hstate]) huncertain
  obtain ⟨j', hj', hstate'⟩ := Option.bind_eq_some_iff.1 hstate'
  cases he with
  | kept hjob hover hmarks =>
    obtain ⟨j, hj, hpay⟩ := hjob j' hj'
    exact hsame hj (by rw [hpay, hstate']) (latestCall_of_marks hmarks turn)
  | ended hended =>
    rw [hactive] at hended
    cases hended
  | recorded hgoing hj hj₁ hpay hrec hover hmarks hproven =>
    rename_i j j₁ path state
    rw [hj'] at hj₁
    obtain rfl := Option.some.inj hj₁
    by_cases hp : .generation turn = path
    · subst hp
      rw [coordination_self hpay] at hstate'
      obtain rfl := Option.some.inj hstate'
      have hphase : state.dispatchPhase = .prepared ∨ state.dispatchPhase = .completed := by
        generalize j.payload.coordination (.generation turn) = old at hrec
        cases hrec with
        | prepared hphase => exact .inl hphase
        | database hphase | completed _ hphase => exact .inr hphase
      rcases hphase with hphase | hphase <;> rw [hphase] at huncertain <;> cases huncertain
    · rw [coordination_of_ne hpay hp] at hstate'
      exact hsame hj hstate' (latestCall_of_marks hmarks turn)
  | marked hgoing hj hj₁ hpay hstate hprepared hover hmarks hproven =>
    rename_i j j₁ path c state
    rw [hj'] at hj₁
    obtain rfl := Option.some.inj hj₁
    by_cases hp : .generation turn = path
    · subst hp
      obtain ⟨call, rfl, hq⟩ := hcall turn c hmarks
      exact ⟨call, latestCall_self hmarks, hq⟩
    · rw [coordination_of_ne hpay hp] at hstate'
      exact hsame hj hstate' (latestCall_of_ne hmarks (Ne.symm hp))
  | resolved hj hj₁ hpay hold hwas hover hmarks hphase =>
    rename_i j j₁ path old state
    rw [hj'] at hj₁
    obtain rfl := Option.some.inj hj₁
    by_cases hp : .generation turn = path
    · subst hp
      rw [coordination_self hpay] at hstate'
      obtain rfl := Option.some.inj hstate'
      rcases hphase with ⟨hphase, -⟩ | ⟨hphase, -⟩ <;> rw [hphase] at huncertain <;> cases huncertain
    · rw [coordination_of_ne hpay hp] at hstate'
      exact hsame hj hstate' (latestCall_of_marks hmarks turn)

theorem mark_origin {ev turn c} (hl : Leased jobId s) (hs : Steps O runId jobId s t now ev)
    (hmarks : t.marks = s.marks ++ [⟨.generation turn, c⟩]) :
    ∃ worker a v call, s.attempts worker = .some a ∧ a.pc = .started v call ∧ c = .some call := by
  have hgrows : t.marks ≠ s.marks := by
    rw [hmarks]
    simp
  cases hs with
  | act ha hm ht =>
    rename_i worker a input m
    cases m with
    | go | markRunning | ledger | send =>
      rw [ht] at hgrows
      exact absurd rfl hgrows
    | checkpoint payload finalize marks sent pc lost =>
      have hcases : Committed jobId now s (s.move now worker a (.checkpoint payload finalize marks sent pc lost)) worker a
          payload finalize marks sent pc ∨ _ := move_checkpoint (hl.ctx worker a ha)
      rw [ht] at hmarks hgrows
      rcases hcases with hs | hs
      · rw [hs.rest] at hmarks
        have hmark : marks = [⟨.generation turn, c⟩] := List.append_cancel_left hmarks
        cases hm with
        | marked harms =>
          have hpath := congrArg (List.map Dispatch.path) hmark
          have hcall := congrArg (List.map Dispatch.call) hmark
          simp only [List.map_cons, List.map_nil, List.cons.injEq, and_true] at hpath hcall
          subst hcall
          generalize hpc : a.pc = pc at harms
          cases harms with
          | turn => exact ⟨worker, a, _, _, ha, hpc, rfl⟩
          | tool => cases hpath
        | _ => cases hmark
      · rw [hs] at hgrows
        exact absurd rfl hgrows
  | claim hs =>
    rw [hs.attempts] at hgrows
    exact absurd rfl hgrows
  | reconcile hs =>
    rw [hs.rest] at hgrows
    exact absurd rfl hgrows
  | undisturbed hs => exact absurd hs.marks hgrows
  | deleted hs =>
    rw [hs] at hgrows
    exact absurd rfl hgrows

theorem uncertain_of_mark {path c} (he : Edits jobId s t) (hmarks : t.marks = s.marks ++ [⟨path, c⟩]) :
    t.isOver = false ∧ ∃ state, t.stored jobId path = .some state ∧ state.dispatchPhase = .uncertain := by
  have hgrows : t.marks ≠ s.marks := by
    rw [hmarks]
    simp
  cases he with
  | kept _ _ hsame | ended _ hsame | recorded _ _ _ _ _ _ hsame | resolved _ _ _ _ _ _ hsame => exact absurd hsame hgrows
  | marked hgoing hj hj' hpay hstate hprepared hover hmarks' =>
    rw [hmarks'] at hmarks
    have hpath := congrArg (List.map Dispatch.path) (List.append_cancel_left hmarks)
    simp only [List.map_cons, List.map_nil, List.cons.injEq, and_true] at hpath
    subst hpath
    exact ⟨hover.trans hgoing, _, by rw [stored_eq hj', coordination_self hpay], rfl⟩

/-- What every reachable state keeps about the ledger. -/
structure Ledgered (jobId : Uuid) (s : ChatState F S) : Prop where
  leased : Leased jobId s
  numbered : Numbered s
  carries : Carries jobId (fun _ c => 1 ≤ c ∧ c ≤ s.calls.length) s

theorem Carries.mono {Q Q' : Nat → Nat → Prop} (h : Carries jobId Q s) (hQ : ∀ turn c, Q turn c → Q' turn c) :
    Carries jobId Q' s := by
  intro hactive turn state hstate huncertain
  obtain ⟨c, hlatest, hq⟩ := h hactive turn state hstate huncertain
  exact ⟨c, hlatest, hQ turn c hq⟩

theorem Ledgered.step {ev} (h : Ledgered jobId s) (hs : Steps O runId jobId s t now ev) : Ledgered jobId t where
  leased := h.leased.step hs
  numbered := h.numbered.step h.leased hs
  carries := by
    have hle := length_calls_le h.leased hs
    refine (h.carries.mono fun _ c hc => ?_).edits (h.leased.edits hs) fun turn c hmarks => ?_
    · omega
    · obtain ⟨worker, a, v, call, ha, hpc, rfl⟩ := mark_origin h.leased hs hmarks
      have hcall := h.numbered.started worker a v call ha hpc
      exact ⟨call, rfl, by omega⟩

theorem Ledgered.reachable (h : (chatSystem O runId jobId).Reachable s) : Ledgered jobId s := by
  refine h.invariant (fun s hs => ⟨.reachable (.init hs), ?_, ?_⟩) fun s e t hst hI => hI.step (steps_of_next hst)
  · obtain ⟨-, -, hcalls, hidle, -⟩ := id hs
    refine ⟨by rw [hcalls]; rfl, fun w a v c ha => ?_⟩
    rw [hidle w] at ha
    cases ha
  · obtain ⟨⟨j, hj, -, -, hpay⟩, -⟩ := hs
    intro hactive turn state hstate
    rw [stored_eq (show s.job jobId = .some j from hj), hpay] at hstate
    cases hstate

/-! ## The reconciler's row -/

/-- For every uncertain generation, the row the reconciler looks at is that of
its latest dispatch, and decides about every result as that one does. -/
def ChecksOwnCall (O : Outside F S) (jobId : Uuid) (s : ChatState F S) : Prop :=
  s.isOver = false → ∀ turn state, s.stored jobId (.generation turn) = .some state → state.dispatchPhase = .uncertain →
    s.consulted turn = s.dispatched turn ∧
      ∀ raw toolFacts, s.validates O (.generation turn) raw toolFacts = agrees O (s.dispatched turn) raw

theorem consulted_eq_dispatched {turn c} (h : Numbered s) (hlatest : s.latestCall turn = .some c)
    (hc : 1 ≤ c ∧ c ≤ s.calls.length) : s.consulted turn = s.dispatched turn ↔ c = turn + 1 := by
  obtain ⟨call, hcall⟩ := exists_findCall (h.mem hc)
  rw [consulted, dispatched, hlatest, Option.bind_some]
  constructor
  · intro heq
    rw [hcall] at heq
    rw [← findCall_callSeq hcall, findCall_callSeq heq]
  · rintro rfl
    rfl

theorem checksOwnCall_iff (h : Ledgered jobId s) :
    ChecksOwnCall O jobId s ↔ Carries jobId (fun turn c => c = turn + 1) s := by
  constructor
  · intro hchecks hactive turn state hstate huncertain
    obtain ⟨c, hlatest, hc⟩ := h.carries hactive turn state hstate huncertain
    have hrow := (hchecks hactive turn state hstate huncertain).1
    exact ⟨c, hlatest, (consulted_eq_dispatched h.numbered hlatest hc).1 hrow⟩
  · intro hcarries hactive turn state hstate huncertain
    obtain ⟨c, hlatest, hc⟩ := h.carries hactive turn state hstate huncertain
    obtain ⟨c', hlatest', hturn⟩ := hcarries hactive turn state hstate huncertain
    rw [hlatest] at hlatest'
    obtain rfl := Option.some.inj hlatest'
    have hrow := (consulted_eq_dispatched h.numbered hlatest hc).2 hturn
    refine ⟨hrow, fun raw toolFacts => ?_⟩
    rw [validates_generation, hactive, hrow, Bool.not_false, Bool.true_and]

/-- The dispatch checkpoint of a generation that commits, if one does, is for a
call before which the run started as many calls as it finished turns. -/
def CallsInTurn (O : Outside F S) (runId jobId : Uuid) (s : ChatState F S) (e : Instant × ChatEvent F) : Prop :=
  ∀ t turn c, s.next O runId jobId e = .some t → t.marks = s.marks ++ [⟨.generation turn, .some c⟩] →
    (s.calls.filter fun call => call.callSeq < c).length = turn

theorem length_calls_before {c : Nat} (h : Numbered s) (hc : 1 ≤ c ∧ c ≤ s.calls.length) :
    (s.calls.filter fun call => call.callSeq < c).length = c - 1 := by
  rw [← length_filter_lt hc.1 hc.2, ← h.seqs, List.filter_map, List.length_map]
  rfl

theorem carries_iff_callsInTurn {ev} (h : Ledgered jobId s) (hst : s.next O runId jobId (now, ev) = .some t)
    (hs : Carries jobId (fun turn c => c = turn + 1) s) :
    Carries jobId (fun turn c => c = turn + 1) t ↔ CallsInTurn O runId jobId s (now, ev) := by
  have hsteps := steps_of_next hst
  have he := h.leased.edits hsteps
  constructor
  · intro ht t' turn c hst' hmarks
    obtain rfl := Option.some.inj (hst.symm.trans hst')
    obtain ⟨worker, a, v, call, ha, hpc, hcall⟩ := mark_origin h.leased hsteps hmarks
    obtain rfl := Option.some.inj hcall
    have hc := h.numbered.started worker a v c ha hpc
    rw [length_calls_before h.numbered hc]
    obtain ⟨hactive, state, hstate, huncertain⟩ := uncertain_of_mark he hmarks
    obtain ⟨c', hlatest, hturn⟩ := ht hactive turn state hstate huncertain
    rw [latestCall_self hmarks] at hlatest
    obtain rfl := Option.some.inj hlatest
    omega
  · intro hturn
    refine hs.edits he fun turn c hmarks => ?_
    obtain ⟨worker, a, v, call, ha, hpc, rfl⟩ := mark_origin h.leased hsteps hmarks
    have hc := h.numbered.started worker a v call ha hpc
    have hbefore := hturn t turn call hst hmarks
    rw [length_calls_before h.numbered hc] at hbefore
    exact ⟨call, rfl, by omega⟩

/-- **Along a run of a chat, attaching a result to an uncertain generation looks
at the call of its latest dispatch in every state if and only if every dispatch
checkpoint of a turn's generation was committed for a call before which as many
calls had been started as there are turns before it.** -/
theorem checks_own_call_iff (hs : ChatState.Created runId jobId s) {tr} (hr : (chatSystem O runId jobId).Run s tr) :
    (∀ x ∈ tr, ChecksOwnCall O jobId x.2) ↔ Along (fun s e _ => CallsInTurn O runId jobId s e) s tr := by
  have hreach : (chatSystem O runId jobId).Reachable s := .init hs
  -- the steps, with what every reachable state keeps
  let sys : System (ChatState F S) (Instant × ChatEvent F) :=
    ⟨fun _ => True, fun s e t => s.next O runId jobId e = .some t ∧ Ledgered jobId s ∧ Ledgered jobId t⟩
  have hrun : sys.Run s tr := hr.along_of_guarded (G := fun _ _ => True) (I := Ledgered jobId)
    (fun s e t hst hI _ => ⟨hI.step (steps_of_next hst), hst, hI, hI.step (steps_of_next hst)⟩)
    (Ledgered.reachable hreach) (hr.mono fun _ _ _ _ => trivial)
  have hstart : Carries jobId (fun turn c => c = turn + 1) s := by
    obtain ⟨⟨j, hj, -, -, hpay⟩, -⟩ := hs
    intro hactive turn state hstate
    rw [stored_eq (show s.job jobId = .some j from hj), hpay] at hstate
    cases hstate
  have hiff := System.Run.invariant_iff_guarded (S := sys) (I := Carries jobId fun turn c => c = turn + 1)
    (G := CallsInTurn O runId jobId) (fun s e t hst hI => carries_iff_callsInTurn hst.2.1 hst.1 hI) hrun hstart
  rw [← hiff]
  have hledgered : ∀ x ∈ tr, Ledgered jobId x.2 :=
    hr.invariant (fun s e t hst hI => hI.step (steps_of_next hst)) (Ledgered.reachable hreach)
  exact forall₂_congr fun x hx => checksOwnCall_iff (hledgered x hx)

/-- Worker `a` starts a call and dies; worker `b` starts the next, dispatches the
first generation, has its answer in the ledger, and dies; and the job dies. -/
def twoStartsEvents : List (Instant × ChatEvent Empty) :=
  atMinute 0 (sampleBegins "a" ++
    [.act "a" (.assembled samplePrepared), .act "a" .go, .act "a" .go, .act "a" .go, .crash "a"]) ++
  atMinute 15 (sampleBegins "b" ++
    [.act "b" .go, .act "b" .go, .act "b" .go, .act "b" .go, .act "b" .go, .act "b" .go,
      .act "b" (.answer .succeeded .none (.some (.assistantTurn sampleTurn))), .crash "b"]) ++
  atMinute 30 [.claim "b" 900 true, .crash "b"] ++
  atMinute 45 [.deadLetterExpired .none []]

def twoStarts : ChatState Empty Unit :=
  last sampleCreated (replay (ChatState.next sampleOutside 1 1) sampleCreated twoStartsEvents)

/-- Worker `a` fails past its checkpoint, the generation is proven not
dispatched, and worker `b` dispatches it again and dies without an answer. -/
def redispatchedEvents : List (Instant × ChatEvent Empty) :=
  atMinute 0 (sampleBegins "a" ++
    [.act "a" (.assembled samplePrepared), .act "a" .go, .act "a" .go, .act "a" .go, .act "a" .go,
      .act "a" (.fault (.some "unclassified_defect".toList)), .crash "a"]) ++
  atMinute 15 [.claim "b" 900 true, .crash "b"] ++
  atMinute 30 [.claim "b" 900 true, .crash "b"] ++
  atMinute 45 [.deadLetterExpired .none [], .reconcile (.generation 0) .proveNotDispatched false] ++
  atMinute 46 (sampleBegins "b" ++
    [.act "b" .go, .act "b" .go, .act "b" .go, .act "b" .go, .act "b" .go, .act "b" .go, .crash "b"]) ++
  atMinute 75 [.claim "b" 900 true, .crash "b"] ++
  atMinute 95 [.claim "b" 900 true, .crash "b"] ++
  atMinute 115 [.deadLetterExpired .none []]

def redispatched : ChatState Empty Unit :=
  last sampleCreated (replay (ChatState.next sampleOutside 1 1) sampleCreated redispatchedEvents)

def sampleFailure : ExpectedFailure Empty :=
  ⟨[], ⟨"E_LLM".toList, by decide⟩, ⟨"provider".toList, by decide⟩, .none, .none, .none⟩

theorem checks_own_call_iff_twoStarts :
    (∀ x ∈ replay (ChatState.next sampleOutside 1 1) sampleCreated twoStartsEvents, ChecksOwnCall sampleOutside 1 x.2) ↔
      Along (fun s e _ => CallsInTurn sampleOutside 1 1 s e) sampleCreated
        (replay (ChatState.next sampleOutside 1 1) sampleCreated twoStartsEvents) :=
  checks_own_call_iff created_sampleCreated System.run_replay

/-- The result of a generation that succeeded is rejected, as the call of the
attempt before it has no outcome; and a result is accepted for a generation
whose call has none, as the call of the dispatch before it has one. -/
theorem other_call_checked :
    ((chatSystem sampleOutside 1 1).Reachable twoStarts ∧
        twoStarts.reconcile sampleOutside 1 1 (60 * 60 * microsecondsPerSecond) (.generation 0)
          (.attachReconciledResult (generationCodec.dumps plainText (.assistantTurn sampleTurn))) true = .none ∧
        agrees sampleOutside (twoStarts.dispatched 0) (generationCodec.dumps plainText (.assistantTurn sampleTurn)) = true) ∧
      (chatSystem sampleOutside 1 1).Reachable redispatched ∧
        (redispatched.reconcile sampleOutside 1 1 (120 * 60 * microsecondsPerSecond) (.generation 0)
          (.attachReconciledResult (generationCodec.dumps plainText (.expectedFailure sampleFailure))) true).isSome = true ∧
        agrees sampleOutside (redispatched.dispatched 0)
          (generationCodec.dumps plainText (.expectedFailure sampleFailure)) = false := by
  refine ⟨⟨System.reachable_replay _ created_sampleCreated, ?_, by decide +kernel⟩,
    System.reachable_replay _ created_sampleCreated, by decide +kernel⟩
  rw [← Option.not_isSome_iff_eq_none]
  decide +kernel

end ChatState

end Nexus.Chat
