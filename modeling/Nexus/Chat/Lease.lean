/-
What one step of a chat run changes, and what the lease gives its holder.

A step is a move of an attempt, a claim, an accepted resolution, the deletion
of the conversation, or it leaves the journal and the logs alone (`Undisturbed`). The queue takes a checkpoint
only from the attempt that claimed the running row last, and nobody else writes
a running row's payload, so the payload such an attempt holds is the stored one
(`Leased.copy`), and while it is in the loop the run goes on (`Leased.active`).
-/
import Nexus.Chat.Moves

namespace Nexus.Chat
open JsonCodec Jobs Relational Transition

variable {F S : Type}

/-- The job is running, and this worker claimed it last. -/
def HeldBy (job : JobRow ChatPayload) (worker : String) : Prop := job.status = .running ∧ job.claimedBy = .some worker

/-- The row keeps its payload and kind, nobody comes to hold it, it succeeds
only when the step `finishes`, and it goes only when it succeeded. -/
structure Calm (finishes : Prop) (before after : Option (JobRow ChatPayload)) : Prop where
  row : ∀ j', after = .some j' → ∃ j, before = .some j ∧ j.payload = j'.payload ∧ j.kind = j'.kind ∧
    (∀ worker, HeldBy j' worker → HeldBy j worker) ∧ (j'.status = .succeeded → j.status = .succeeded ∨ finishes)
  gone : after = .none → ∀ j, before = .some j → j.kind = chatRunKind → j.status = .succeeded ∨ finishes

section Calm

variable {finishes : Prop}

theorem Calm.refl (job : Option (JobRow ChatPayload)) : Calm finishes job job where
  row j' hj' := ⟨j', hj', rfl, rfl, fun _ h => h, .inl⟩
  gone hn j hj := by
    rw [hn] at hj
    cases hj

theorem Calm.trans {a b c : Option (JobRow ChatPayload)} (hab : Calm finishes a b) (hbc : Calm finishes b c) :
    Calm finishes a c where
  row j'' hj'' := by
    obtain ⟨j', hj', hpay', hkind', hheld', hdone'⟩ := hbc.row j'' hj''
    obtain ⟨j, hj, hpay, hkind, hheld, hdone⟩ := hab.row j' hj'
    refine ⟨j, hj, hpay.trans hpay', hkind.trans hkind', fun worker h => hheld worker (hheld' worker h), fun h => ?_⟩
    rcases hdone' h with h | h
    · exact hdone h
    · exact .inr h
  gone hn j hj hkind := by
    cases hb : b with
    | none => exact hab.gone hb j hj hkind
    | some j' =>
      obtain ⟨j₁, hj₁, -, hsame, -, hdone⟩ := hab.row j' hb
      rw [hj] at hj₁
      obtain rfl := Option.some.inj hj₁
      rcases hbc.gone hn j' hb (hsame.symm.trans hkind) with h | h
      · exact hdone h
      · exact .inr h

theorem Calm.updateJob {q q' : Queue ChatPayload} {id guard f hf row}
    (h : q.updateJob id guard f hf = .some (row, q'))
    (hcalm : ∀ j, guard j = true → (f j).payload = j.payload ∧ (f j).kind = j.kind ∧
      (∀ worker, HeldBy (f j) worker → HeldBy j worker) ∧ ((f j).status = .succeeded → j.status = .succeeded ∨ finishes))
    (jobId : Uuid) : Calm finishes (q.find? jobId) (q'.find? jobId) := by
  obtain ⟨j, hj, hg, -, hfind⟩ := Queue.updateJob_spec h
  rw [hfind]
  by_cases hid : jobId = id
  · rw [if_pos hid, hid, hj]
    obtain ⟨hpay, hkind, hheld, hdone⟩ := hcalm j hg
    refine ⟨fun j' hj' => ?_, fun hn => by cases hn⟩
    obtain rfl := Option.some.inj hj'
    exact ⟨j, rfl, hpay.symm, hkind.symm, hheld, hdone⟩
  · rw [if_neg hid]
    exact Calm.refl _

end Calm

/-! Statements that hand the job to nobody. -/

section Statements

variable {q q' : Queue ChatPayload} {row : JobRow ChatPayload} {now : Instant} {id jobId : Uuid} {finishes : Prop}

theorem Calm.heartbeatJob {worker leaseSeconds} (h : q.heartbeatJob now id worker leaseSeconds = .some (row, q')) :
    Calm finishes (q.find? jobId) (q'.find? jobId) :=
  Calm.updateJob h (fun _ _ => ⟨rfl, rfl, fun _ h => h, .inl⟩) jobId

theorem Calm.completeJob {worker result} (hfinishes : finishes) (h : q.completeJob now id worker result = .some (row, q')) :
    Calm finishes (q.find? jobId) (q'.find? jobId) :=
  Calm.updateJob h (fun _ _ => ⟨rfl, rfl, fun _ h => (by cases h.1), fun _ => .inr hfinishes⟩) jobId

theorem Calm.failJob {worker code message delays result}
    (h : q.failJob now id worker code message delays result = .some (row, q')) :
    Calm finishes (q.find? jobId) (q'.find? jobId) := by
  refine Calm.updateJob h (fun j _ => ⟨rfl, rfl, fun w hw => ?_, fun hdone => ?_⟩) jobId
  · cases hw.2
  · simp only [Queue.failed] at hdone
    split at hdone <;> cases hdone

theorem Calm.requeueDeadJob (h : q.requeueDeadJob now id = .some (row, q')) :
    Calm finishes (q.find? jobId) (q'.find? jobId) :=
  Calm.updateJob h (fun _ _ => ⟨rfl, rfl, fun _ h => (by cases h.1), fun h => (by cases h)⟩) jobId

theorem Calm.deadLetterExpiredJob {allowedKinds locked}
    (h : q.deadLetterExpiredJob now allowedKinds locked = .some (row, q')) :
    Calm finishes (q.find? jobId) (q'.find? jobId) := by
  unfold Queue.deadLetterExpiredJob at h
  split at h
  · cases h
  · split at h
    · cases h
    · exact Calm.updateJob h (fun _ _ => ⟨rfl, rfl, fun _ h => (by cases h.1), fun h => (by cases h)⟩) jobId

theorem Calm.pruneTerminalJobs {succeededAfterDays deadAfterDays limit otherKinds locked} :
    Calm finishes (q.find? jobId)
      ((q.pruneTerminalJobs now succeededAfterDays deadAfterDays limit (chatRunKind :: otherKinds) locked).2.find? jobId) where
  row j' hj' := by
    obtain ⟨hmem, hid⟩ := Table.find?_eq_some.1 hj'
    exact ⟨j', Table.find?_eq_some.2 ⟨(Table.mem_deleteWhere.1 hmem).1, hid⟩, rfl, rfl, fun _ h => h, .inl⟩
  gone hn j hj hkind := by
    obtain ⟨hmem, hid⟩ := Table.find?_eq_some.1 hj
    by_contra hkept
    refine Table.find?_eq_none.1 hn j (Table.mem_deleteWhere.2 ⟨hmem, ?_⟩) hid
    rw [List.contains_eq_mem, decide_eq_false_iff_not]
    intro hchosen
    obtain ⟨j₁, hj₁, hid₁⟩ := List.mem_map.1 hchosen
    have hrow := List.mem_filter.1 (List.mem_mergeSort.1 (List.mem_of_mem_take hj₁))
    obtain rfl := Table.eq_of_key hrow.1 hmem hid₁
    have hprunable := hrow.2
    simp [Queue.prunable, hkind] at hprunable
    exact hkept (.inl hprunable.1.1)

end Statements

/-! ## The steps -/

namespace ChatState

def job (s : ChatState F S) (jobId : Uuid) : Option (JobRow ChatPayload) := s.queue.find? jobId

/-- How an attempt comes to its payload: the heartbeat, then the handler's read. -/
inductive Starts (runId : Uuid) (job : Option (JobRow ChatPayload)) (a : Attempt F S) : Attempt F S → Prop
  | held : a.pc = .claimed → Starts runId job a { a with pc := .held }
  | failed : Starts runId job a { a with pc := .raised .other }
  | loaded {j} : job = .some j → j.payload.runId = runId →
      Starts runId job a { a with payload := j.payload, pc := .loaded }

def Finished (s : ChatState F S) : Prop := ∃ worker a, s.attempts worker = .some a ∧ a.pc = .returned

/-- A step that leaves the journal, the ledger and the logs alone. -/
structure Undisturbed (runId jobId : Uuid) (s t : ChatState F S) : Prop where
  job : Calm s.Finished (s.job jobId) (t.job jobId)
  run : ∀ r', t.run = .some r' → ∃ r, s.run = .some r ∧ r.status = r'.status ∧ r.assistantContent = r'.assistantContent
  gone : t.run = .none → s.run = .none
  attempts : ∀ worker a', t.attempts worker = .some a' →
    s.attempts worker = .some a' ∨ ∃ a, s.attempts worker = .some a ∧ Starts runId (s.job jobId) a a'
  calls : t.calls = s.calls
  marks : t.marks = s.marks
  sent : t.sent = s.sent
  proven : t.proven = s.proven

/-- A claim: the worker holds the row, and nobody else does. -/
structure Claimed (jobId : Uuid) (s t : ChatState F S) (worker : String) (a : Attempt F S) : Prop where
  idle : s.attempts worker = .none
  attempts : t = { s.setAttempt worker (.some a) with queue := t.queue }
  ctx : a.ctx.jobId = jobId ∧ a.ctx.workerId = worker
  pc : a.pc = .claimed
  job : ∃ j j', s.job jobId = .some j ∧ t.job jobId = .some j' ∧ j'.payload = j.payload ∧ a.payload = j.payload ∧
    j'.kind = j.kind ∧ HeldBy j' worker

structure Resolved (O : Outside F S) (runId jobId : Uuid) (s t : ChatState F S) (path : StepPath) (resolution : Resolution)
    (toolFacts : Bool) : Prop where
  rest : t = { s with
    queue := t.queue
    proven := if resolution = .proveNotDispatched then s.proven ++ [path] else s.proven }
  job : ∃ j j' state next, s.job jobId = .some j ∧ j.payload.coordination path = .some state ∧
    state.dispatchPhase = .uncertain ∧ s.resolved O path state toolFacts resolution = .some next ∧
    t.job jobId = .some j' ∧ j'.payload = j.payload.withStepState path next ∧ j'.kind = j.kind ∧ j'.status = .pending

variable {O : Outside F S} {runId jobId : Uuid} {s t : ChatState F S} {now : Instant}

theorem Undisturbed.of_queue {q : Queue ChatPayload} (h : Calm s.Finished (s.job jobId) (q.find? jobId)) :
    Undisturbed runId jobId s { s with queue := q } :=
  ⟨h, fun r' hr' => ⟨r', hr', rfl, rfl⟩, id, fun _ _ ha => .inl ha, rfl, rfl, rfl, rfl⟩

theorem Undisturbed.refl : Undisturbed runId jobId s s := Undisturbed.of_queue (Calm.refl _)

theorem Undisturbed.deadLettered {r : ChatState F S} (h : Undisturbed runId jobId r s) :
    Undisturbed runId jobId r (s.deadLettered jobId now) := by
  unfold ChatState.deadLettered
  split
  · split
    · exact h
    · rename_i hq
      have hcalm : Calm r.Finished (ChatState.job _ jobId) (Table.find? _ jobId) := Calm.requeueDeadJob hq
      exact ⟨h.job.trans hcalm, h.run, h.gone, h.attempts, h.calls, h.marks, h.sent, h.proven⟩
  · exact h

theorem Undisturbed.free {worker : String} {q : Queue ChatPayload} (h : Calm s.Finished (s.job jobId) (q.find? jobId)) :
    Undisturbed runId jobId s { s.setAttempt worker .none with queue := q } := by
  refine ⟨h, fun r' hr' => ⟨r', hr', rfl, rfl⟩, id, fun w a' ha' => ?_, rfl, rfl, rfl, rfl⟩
  simp only [setAttempt] at ha'
  split at ha'
  · cases ha'
  · exact .inl ha'

theorem Undisturbed.starts {worker : String} {a a' : Attempt F S} {q : Queue ChatPayload}
    (ha : s.attempts worker = .some a) (hstart : Starts runId (s.job jobId) a a')
    (h : Calm s.Finished (s.job jobId) (q.find? jobId)) :
    Undisturbed runId jobId s { s.setAttempt worker (.some a') with queue := q } := by
  refine ⟨h, fun r' hr' => ⟨r', hr', rfl, rfl⟩, id, fun w b hb => ?_, rfl, rfl, rfl, rfl⟩
  simp only [setAttempt] at hb
  split at hb
  · rename_i hw
    obtain rfl := Option.some.inj hb
    exact .inr ⟨a, by rw [hw]; exact ha, hstart⟩
  · exact .inl hb

theorem undisturbed_cancelChatRun : Undisturbed runId jobId s (s.cancelChatRun jobId now) := by
  have hflag : ∀ {q : Queue ChatPayload}, Calm s.Finished (s.job jobId) (q.find? jobId) → Undisturbed runId jobId s
      { s with run := s.run.map fun r => { r with cancelRequested := true }, queue := q } := fun hq => by
    refine ⟨hq, fun r' hr' => ?_, fun hn => by simpa using hn, fun _ _ ha => .inl ha, rfl, rfl, rfl, rfl⟩
    obtain ⟨r, hr, rfl⟩ := Option.map_eq_some_iff.1 hr'
    exact ⟨r, hr, rfl, rfl⟩
  unfold cancelChatRun
  split
  · dsimp only
    split
    · exact hflag (Calm.refl _)
    · rename_i hq
      obtain ⟨j, -, hq⟩ := Option.bind_eq_some_iff.1 hq
      exact hflag (Calm.requeueDeadJob hq)
  · exact Undisturbed.refl

theorem resolved_of_reconcile {path resolution toolFacts}
    (h : s.reconcile O runId jobId now path resolution toolFacts = .some t) :
    Resolved O runId jobId s t path resolution toolFacts := by
  simp only [reconcile, Option.bind_eq_bind, Option.bind_eq_some_iff] at h
  obtain ⟨j, hj, state, hstate, h⟩ := h
  split at h
  · cases h
  · rename_i hun
    rw [not_or, not_not, not_not] at hun
    simp only [Option.bind_eq_some_iff] at h
    obtain ⟨next, hnext, ⟨row, q⟩, hq, ⟨row', q'⟩, hq', h⟩ := h
    obtain rfl := Option.some.inj h
    obtain ⟨hj, -⟩ := Option.filter_eq_some_iff.1 hj
    obtain ⟨j₁, hj₁, -, -, hfind⟩ := Queue.updateJob_spec hq
    obtain ⟨j₂, hj₂, -, -, hfind'⟩ := Queue.updateJob_spec hq'
    rw [hfind, if_pos rfl] at hj₂
    obtain rfl := Option.some.inj hj₂
    rw [hj] at hj₁
    obtain rfl := Option.some.inj hj₁
    exact ⟨rfl, j, _, state, next, hj, hstate, hun.1, hnext, (hfind' jobId).trans (if_pos rfl), rfl, rfl, rfl⟩

/-- What a step is, with the state it leads to. -/
inductive Steps (O : Outside F S) (runId jobId : Uuid) (s t : ChatState F S) (now : Instant) : ChatEvent F → Prop
  | act {worker a input m} : s.attempts worker = .some a → a.Moves O s.run s.calls input m → t = s.move now worker a m →
      Steps O runId jobId s t now (.act worker input)
  | claim {worker leaseSeconds webSearch a} : Claimed jobId s t worker a →
      Steps O runId jobId s t now (.claim worker leaseSeconds webSearch)
  | reconcile {path resolution toolFacts} : Resolved O runId jobId s t path resolution toolFacts →
      Steps O runId jobId s t now (.reconcile path resolution toolFacts)
  | undisturbed {ev} : Undisturbed runId jobId s t → Steps O runId jobId s t now ev
  | deleted : t = { s with queue := t.queue, run := .none } → t.job jobId = .none →
      Steps O runId jobId s t now .deleteConversation

theorem steps_heartbeat {worker leaseSeconds} (h : s.next O runId jobId (now, .heartbeat worker leaseSeconds) = .some t) :
    Undisturbed runId jobId s t := by
  simp only [next, Option.map_eq_some_iff] at h
  obtain ⟨a, ha, h⟩ := h
  split at h
  · subst h
    exact Undisturbed.free (Calm.refl _)
  · rename_i hpc hq
    subst h
    exact Undisturbed.starts ha (.held hpc) (Calm.heartbeatJob hq)
  · subst h
    exact Undisturbed.refl
  · rename_i hq _
    subst h
    exact Undisturbed.of_queue (Calm.heartbeatJob hq)

theorem steps_load {worker} (h : s.next O runId jobId (now, .load worker) = .some t) : Undisturbed runId jobId s t := by
  simp only [next] at h
  split at h
  · cases h
  · rename_i a ha
    split at h
    · obtain rfl := Option.some.inj h
      refine Undisturbed.starts (q := s.queue) ha ?_ (Calm.refl _)
      split
      · exact .failed
      · rename_i j hj
        split
        · rename_i hrun
          exact .loaded hj hrun
        · exact .failed
    · cases h

theorem steps_settle {worker} (h : s.next O runId jobId (now, .settle worker) = .some t) : Undisturbed runId jobId s t := by
  simp only [next] at h
  split at h
  · cases h
  · rename_i a ha
    split at h
    · rename_i hpc
      obtain rfl := Option.some.inj h
      split
      · exact Undisturbed.free (q := s.queue) (Calm.refl _)
      · rename_i hq
        exact Undisturbed.free (Calm.completeJob ⟨worker, a, ha, hpc⟩ hq)
    · obtain rfl := Option.some.inj h
      split
      · exact Undisturbed.free (q := s.queue) (Calm.refl _)
      · rename_i hq
        have hfree : Undisturbed runId jobId s { s.setAttempt worker .none with queue := _ } :=
          Undisturbed.free (Calm.failJob hq)
        split
        · exact hfree.deadLettered
        · exact hfree
    · cases h

theorem steps_deadLetterExpired {allowedKinds locked}
    (h : s.next O runId jobId (now, .deadLetterExpired allowedKinds locked) = .some t) : Undisturbed runId jobId s t := by
  simp only [next, Option.map_eq_some_iff] at h
  obtain ⟨⟨row, q⟩, hq, h⟩ := h
  have hcalm : Undisturbed runId jobId s { s with queue := q } := Undisturbed.of_queue (Calm.deadLetterExpiredJob hq)
  split at h
  · subst h
    exact hcalm.deadLettered
  · subst h
    exact hcalm

theorem steps_claim {worker leaseSeconds webSearch}
    (h : s.next O runId jobId (now, .claim worker leaseSeconds webSearch) = .some t) :
    ∃ a, Claimed jobId s t worker a := by
  simp only [next] at h
  split at h
  · cases h
  · rename_i hidle
    simp only [Option.map_eq_some_iff] at h
    obtain ⟨⟨row, q⟩, hq, h⟩ := h
    subst h
    simp only [Queue.claimJob, reduceCtorEq, if_false] at hq
    obtain ⟨j, hj, -, rfl, hfind⟩ := Queue.updateJob_spec hq
    exact ⟨_, hidle, rfl, ⟨rfl, rfl⟩, rfl, j, _, hj, (hfind jobId).trans (if_pos rfl), rfl, rfl, rfl, rfl, rfl⟩

/-- **Every step is a move of an attempt, a claim, an accepted resolution, the
conversation's deletion, or leaves the journal and the logs alone.** -/
theorem steps_of_next {ev : ChatEvent F} (h : s.next O runId jobId (now, ev) = .some t) :
    Steps O runId jobId s t now ev := by
  cases ev with
  | act worker input =>
    simp only [next, Option.bind_eq_some_iff, Option.map_eq_some_iff] at h
    obtain ⟨a, ha, m, hm, rfl⟩ := h
    exact .act ha (Attempt.plan_moves hm) rfl
  | claim worker leaseSeconds webSearch =>
    obtain ⟨a, ha⟩ := steps_claim h
    exact .claim ha
  | reconcile path resolution toolFacts => exact .reconcile (resolved_of_reconcile h)
  | heartbeat => exact .undisturbed (steps_heartbeat h)
  | load => exact .undisturbed (steps_load h)
  | settle => exact .undisturbed (steps_settle h)
  | crash worker =>
    obtain rfl := Option.some.inj h
    exact .undisturbed (Undisturbed.free (q := s.queue) (Calm.refl _))
  | deadLetterExpired => exact .undisturbed (steps_deadLetterExpired h)
  | prune =>
    obtain rfl := Option.some.inj h
    exact .undisturbed (Undisturbed.of_queue Calm.pruneTerminalJobs)
  | cancelChatRun =>
    obtain rfl := Option.some.inj h
    exact .undisturbed undisturbed_cancelChatRun
  | deleteConversation =>
    obtain rfl := Option.some.inj h
    refine .deleted rfl (Table.find?_eq_none.2 fun j hj heq => ?_)
    have hne := (Table.mem_deleteWhere.1 hj).2
    simp [heq] at hne

end ChatState

/-! ## The lease -/

/-- The attempt is at work on a run it has seen going on. -/
def Pc.inLoop : Pc F S → Bool
  | .claimed | .held | .loaded | .entered | .returned | .raised _ => false
  | .preparing | .check _ | .step _ | .ready _ | .started _ _ | .armed _ _ | .inFlight _ _ | .answered _ _
  | .folding _ => true

/-- Where a move leads, if its transaction commits. -/
def Move.pc : Move F S → Pc F S
  | .go pc | .markRunning pc | .ledger _ pc | .send _ pc | .checkpoint _ _ _ _ pc _ => pc

section Moves

variable {O : Outside F S} {run : Option ChatRun} {calls : List LlmCall} {a : Attempt F S} {input : Input F}

theorem Pc.Arms.inLoop {pc : Pc F S} {l c} (h : pc.Arms l c) : pc.inLoop = true := by
  cases h <;> rfl

theorem Pc.Completes.inLoop {v : Vars F S} {call rest pc sent} (h : Pc.Completes v call rest pc sent) :
    pc.inLoop = true := by
  cases h <;> rfl

theorem Attempt.Moves.enters_loop {m} (h : a.Moves O run calls input m) (hloop : m.pc.inLoop = true) :
    a.pc.inLoop = true ∨ ∃ r, run = .some r ∧ r.status.terminal = false := by
  cases h with
  | fault | raised | changed | cleared | cancelledEarly | cancelled | tooLarge | failed | stopped | published | running
  | ambiguous => cases hloop
  | active _ hrun hactive => exact .inr ⟨_, hrun, hactive⟩
  | marked harms => exact .inl harms.inLoop
  | toolCompleted hcompletes => exact .inl hcompletes.inLoop
  | prepareResumed hpc | assembled hpc | checked hpc | prepared hpc | readied hpc | resumed hpc | started hpc
  | refused hpc | denied hpc | sent hpc | answered hpc | generationCompleted hpc => exact .inl (by rw [hpc]; rfl)

theorem Attempt.Moves.goes_on {payload finalize marks sent pc lost}
    (h : a.Moves O run calls input (.checkpoint payload finalize marks sent pc lost)) (hloop : pc.inLoop = true) :
    finalize = .none ∧ a.pc.inLoop = true := by
  cases h with
  | cleared | cancelledEarly | cancelled | tooLarge | failed | stopped | published => cases hloop
  | marked harms => exact ⟨rfl, harms.inLoop⟩
  | toolCompleted hcompletes => exact ⟨rfl, hcompletes.inLoop⟩
  | assembled hpc | prepared hpc | generationCompleted hpc => exact ⟨rfl, by rw [hpc]; rfl⟩

end Moves

namespace ChatState

variable {O : Outside F S} {runId jobId : Uuid} {s t : ChatState F S} {now : Instant}

/-- What an attempt that holds the running row knows of it. -/
structure Leased (jobId : Uuid) (s : ChatState F S) : Prop where
  ctx : ∀ worker a, s.attempts worker = .some a → a.ctx.jobId = jobId ∧ a.ctx.workerId = worker
  copy : ∀ worker a j, s.attempts worker = .some a → s.job jobId = .some j → HeldBy j worker → a.payload = j.payload
  active : ∀ worker a j, s.attempts worker = .some a → s.job jobId = .some j → HeldBy j worker → a.pc.inLoop = true →
    ∃ r, s.run = .some r ∧ r.status.terminal = false

/-- A transaction under the lease that committed. -/
structure Committed (jobId : Uuid) (now : Instant) (s t : ChatState F S) (worker : String) (a : Attempt F S)
    (payload : ChatPayload) (finalize : Option (RunStatus × Text)) (marks sent : List Dispatch) (pc : Pc F S) : Prop where
  job : ∃ j j', s.job jobId = .some j ∧ j.ownedAttempt a.ctx now = true ∧ HeldBy j worker ∧
    t.job jobId = .some j' ∧ j'.payload = payload ∧ j'.kind = j.kind ∧ HeldBy j' worker
  rest : t = { s.setAttempt worker (.some { a with payload, pc }) with
    queue := t.queue
    run := finalized s.run finalize
    marks := s.marks ++ marks
    sent := s.sent ++ sent }

/-- A transaction under the lease commits, or the lease is lost and only the
ledger learns of it. -/
theorem move_checkpoint {worker a payload finalize marks sent pc lost}
    (hctx : a.ctx.jobId = jobId ∧ a.ctx.workerId = worker) :
    Committed jobId now s (s.move now worker a (.checkpoint payload finalize marks sent pc lost)) worker a payload finalize
        marks sent pc ∨
      s.move now worker a (.checkpoint payload finalize marks sent pc lost) =
        { s.setAttempt worker (.some { a with pc := .raised .lostLease }) with calls := lost } := by
  obtain ⟨hjob, hworker⟩ := hctx
  cases hq : s.queue.updateRunningJobPayload now a.ctx payload with
  | none => exact .inr (by simp only [move, hq])
  | some r =>
    obtain ⟨row, q⟩ := r
    obtain ⟨j, hj, hg, -, hfind⟩ := Queue.updateJob_spec hq
    rw [hjob] at hj hfind
    obtain ⟨hrunning, hclaimed, -⟩ := JobRow.ownedBy_iff.1 (JobRow.ownedBy_of_attempt hg)
    rw [hworker] at hclaimed
    have ht : s.move now worker a (.checkpoint payload finalize marks sent pc lost) =
        { s.setAttempt worker (.some { a with payload, pc }) with
          queue := q
          run := finalized s.run finalize
          marks := s.marks ++ marks
          sent := s.sent ++ sent } := by simp only [move, hq]
    rw [ht]
    exact .inl ⟨⟨j, _, hj, hg, ⟨hrunning, hclaimed⟩, (hfind jobId).trans (if_pos rfl), rfl, rfl, hrunning, hclaimed⟩, rfl⟩

theorem Leased.undisturbed (h : Leased jobId s) (hs : Undisturbed runId jobId s t) : Leased jobId t where
  ctx worker a' ha' := by
    rcases hs.attempts worker a' ha' with ha | ⟨a, ha, hstart⟩
    · exact h.ctx worker a' ha
    · have hctx := h.ctx worker a ha
      cases hstart <;> exact hctx
  copy worker a' j' ha' hj' hheld := by
    obtain ⟨j, hj, hpay, -, hback, -⟩ := hs.job.row j' hj'
    rw [← hpay]
    rcases hs.attempts worker a' ha' with ha | ⟨a, ha, hstart⟩
    · exact h.copy worker a' j ha hj (hback worker hheld)
    · have hcopy := h.copy worker a j ha hj (hback worker hheld)
      cases hstart with
      | held => exact hcopy
      | failed => exact hcopy
      | loaded hsome =>
        rw [hj] at hsome
        obtain rfl := Option.some.inj hsome
        rfl
  active worker a' j' ha' hj' hheld hloop := by
    obtain ⟨j, hj, -, -, hback, -⟩ := hs.job.row j' hj'
    rcases hs.attempts worker a' ha' with ha | ⟨a, ha, hstart⟩
    · obtain ⟨r, hr, hactive⟩ := h.active worker a' j ha hj (hback worker hheld) hloop
      cases ht : t.run with
      | none =>
        rw [hs.gone ht] at hr
        cases hr
      | some r' =>
        obtain ⟨r₁, hr₁, hstatus, -⟩ := hs.run r' ht
        rw [hr] at hr₁
        obtain rfl := Option.some.inj hr₁
        exact ⟨r', rfl, by rw [← hstatus]; exact hactive⟩
    · cases hstart <;> cases hloop

theorem Leased.claimed {worker a} (h : Leased jobId s) (hs : Claimed jobId s t worker a) : Leased jobId t := by
  obtain ⟨j, j', hj, hj', hpay, hcopy, -, hheld⟩ := hs.job
  have hother : ∀ w b, t.attempts w = .some b → w = worker ∧ b = a ∨ w ≠ worker ∧ s.attempts w = .some b := by
    intro w b hb
    rw [hs.attempts] at hb
    simp only [setAttempt] at hb
    split at hb
    · rename_i hw
      exact .inl ⟨hw, (Option.some.inj hb).symm⟩
    · rename_i hw
      exact .inr ⟨hw, hb⟩
  have hmine : ∀ w j'', t.job jobId = .some j'' → HeldBy j'' w → w = worker ∧ j'' = j' := by
    intro w j'' hj'' hw
    rw [hj'] at hj''
    obtain rfl := Option.some.inj hj''
    exact ⟨Option.some.inj (hw.2.symm.trans hheld.2), rfl⟩
  refine ⟨fun w b hb => ?_, fun w b j'' hb hj'' hw => ?_, fun w b j'' hb hj'' hw hloop => ?_⟩
  · rcases hother w b hb with ⟨rfl, rfl⟩ | ⟨-, hb⟩
    · exact hs.ctx
    · exact h.ctx w b hb
  · obtain ⟨rfl, rfl⟩ := hmine w j'' hj'' hw
    rcases hother w b hb with ⟨-, rfl⟩ | ⟨hne, -⟩
    · exact hcopy.trans hpay.symm
    · exact absurd rfl hne
  · obtain ⟨rfl, rfl⟩ := hmine w j'' hj'' hw
    rcases hother w b hb with ⟨-, rfl⟩ | ⟨hne, -⟩
    · rw [hs.pc] at hloop
      cases hloop
    · exact absurd rfl hne

theorem Leased.resolved {path resolution toolFacts} (h : Leased jobId s)
    (hs : Resolved O runId jobId s t path resolution toolFacts) : Leased jobId t := by
  obtain ⟨j, j', state, next, -, -, -, -, hj', -, -, hpending⟩ := hs.job
  have hnobody : ∀ w j'', t.job jobId = .some j'' → ¬ HeldBy j'' w := by
    intro w j'' hj'' hw
    rw [hj'] at hj''
    obtain rfl := Option.some.inj hj''
    rw [hw.1] at hpending
    cases hpending
  refine ⟨fun w b hb => ?_, fun w b j'' _ hj'' hw => absurd hw (hnobody w j'' hj''),
    fun w b j'' _ hj'' hw _ => absurd hw (hnobody w j'' hj'')⟩
  rw [hs.rest] at hb
  exact h.ctx w b hb

theorem Leased.setPc {worker a} (h : Leased jobId s) (ha : s.attempts worker = .some a) (pc : Pc F S)
    (hqueue : t.queue = s.queue) (hattempts : t.attempts = (s.setAttempt worker (.some { a with pc })).attempts)
    (hrun : ∀ r, s.run = .some r → r.status.terminal = false → ∃ r', t.run = .some r' ∧ r'.status.terminal = false)
    (hloop : pc.inLoop = true → a.pc.inLoop = true ∨ ∃ r, s.run = .some r ∧ r.status.terminal = false) :
    Leased jobId t := by
  have hother : ∀ w b, t.attempts w = .some b → w = worker ∧ b = { a with pc } ∨ s.attempts w = .some b := by
    intro w b hb
    rw [hattempts] at hb
    simp only [setAttempt] at hb
    split at hb
    · rename_i hw
      exact .inl ⟨hw, (Option.some.inj hb).symm⟩
    · exact .inr hb
  have hjob : t.job jobId = s.job jobId := by rw [job, job, hqueue]
  refine ⟨fun w b hb => ?_, fun w b j hb hj hheld => ?_, fun w b j hb hj hheld hin => ?_⟩
  · rcases hother w b hb with ⟨rfl, rfl⟩ | hb
    · exact h.ctx w a ha
    · exact h.ctx w b hb
  · rw [hjob] at hj
    rcases hother w b hb with ⟨rfl, rfl⟩ | hb
    · exact h.copy w a j ha hj hheld
    · exact h.copy w b j hb hj hheld
  · rw [hjob] at hj
    have hactive : ∃ r, s.run = .some r ∧ r.status.terminal = false := by
      rcases hother w b hb with ⟨rfl, rfl⟩ | hb
      · rcases hloop hin with hin | hactive
        · exact h.active w a j ha hj hheld hin
        · exact hactive
      · exact h.active w b j hb hj hheld hin
    obtain ⟨r, hr, hterminal⟩ := hactive
    exact hrun r hr hterminal

theorem Leased.committed {worker a payload finalize marks sent pc} (h : Leased jobId s) (ha : s.attempts worker = .some a)
    (hs : Committed jobId now s t worker a payload finalize marks sent pc)
    (hloop : pc.inLoop = true → finalize = .none ∧ a.pc.inLoop = true) : Leased jobId t := by
  obtain ⟨j, j', hj, -, hheld, hj', hpay, -, hheld'⟩ := hs.job
  have hmine : ∀ w j'', t.job jobId = .some j'' → HeldBy j'' w → w = worker ∧ j'' = j' := by
    intro w j'' hj'' hw
    rw [hj'] at hj''
    obtain rfl := Option.some.inj hj''
    exact ⟨Option.some.inj (hw.2.symm.trans hheld'.2), rfl⟩
  have hattempt : ∀ w b, t.attempts w = .some b → w = worker ∧ b = { a with payload, pc } ∨ w ≠ worker ∧ s.attempts w = .some b := by
    intro w b hb
    rw [hs.rest] at hb
    simp only [ChatState.setAttempt] at hb
    split at hb
    · rename_i hw
      exact .inl ⟨hw, (Option.some.inj hb).symm⟩
    · rename_i hw
      exact .inr ⟨hw, hb⟩
  refine ⟨fun w b hb => ?_, fun w b j'' hb hj'' hw => ?_, fun w b j'' hb hj'' hw hin => ?_⟩
  · rcases hattempt w b hb with ⟨rfl, rfl⟩ | ⟨-, hb⟩
    · exact h.ctx w a ha
    · exact h.ctx w b hb
  · obtain ⟨rfl, rfl⟩ := hmine w j'' hj'' hw
    rcases hattempt w b hb with ⟨-, rfl⟩ | ⟨hne, -⟩
    · exact hpay.symm
    · exact absurd rfl hne
  · obtain ⟨rfl, rfl⟩ := hmine w j'' hj'' hw
    rcases hattempt w b hb with ⟨-, rfl⟩ | ⟨hne, -⟩
    · obtain ⟨rfl, hbefore⟩ := hloop hin
      rw [hs.rest]
      exact h.active w a j ha hj hheld hbefore
    · exact absurd rfl hne

theorem Leased.moved {worker a input m} (h : Leased jobId s) (ha : s.attempts worker = .some a)
    (hm : a.Moves O s.run s.calls input m) : Leased jobId (s.move now worker a m) := by
  have hsame : ∀ r, s.run = .some r → r.status.terminal = false → ∃ r', s.run = .some r' ∧ r'.status.terminal = false :=
    fun r hr hactive => ⟨r, hr, hactive⟩
  cases m with
  | go pc => exact h.setPc ha pc rfl rfl hsame hm.enters_loop
  | ledger calls pc => exact h.setPc ha pc rfl rfl hsame hm.enters_loop
  | send effect pc => exact h.setPc ha pc rfl rfl hsame hm.enters_loop
  | markRunning pc =>
    refine h.setPc ha pc rfl rfl (fun r hr hactive => ⟨_, by simp only [move, hr]; rfl, ?_⟩) hm.enters_loop
    dsimp only
    split
    · rfl
    · exact hactive
  | checkpoint payload finalize marks sent pc lost =>
    have hcases : Committed jobId now s (s.move now worker a (.checkpoint payload finalize marks sent pc lost)) worker a
        payload finalize marks sent pc ∨ _ := move_checkpoint (h.ctx worker a ha)
    rcases hcases with hs | hs
    · exact h.committed ha hs hm.goes_on
    · rw [hs]
      exact h.setPc ha (.raised .lostLease) rfl rfl hsame (fun hin => by cases hin)

theorem Leased.step {ev} (h : Leased jobId s) (hs : Steps O runId jobId s t now ev) : Leased jobId t := by
  cases hs with
  | act ha hm ht =>
    rw [ht]
    exact h.moved ha hm
  | claim hs => exact h.claimed hs
  | reconcile hs => exact h.resolved hs
  | undisturbed hs => exact h.undisturbed hs
  | deleted hs hgone =>
    refine ⟨fun w b hb => ?_, fun w b j _ hj => ?_, fun w b j _ hj => ?_⟩
    · rw [hs] at hb
      exact h.ctx w b hb
    · rw [hgone] at hj
      cases hj
    · rw [hgone] at hj
      cases hj

theorem Leased.reachable (h : (chatSystem O runId jobId).Reachable s) : Leased jobId s := by
  refine h.invariant (fun s hs => ?_) fun s e t hst hI => hI.step (steps_of_next hst)
  obtain ⟨-, -, -, hidle, -⟩ := hs
  refine ⟨fun w a ha => ?_, fun w a j ha => ?_, fun w a j ha => ?_⟩ <;> rw [hidle w] at ha <;> cases ha

end ChatState

end Nexus.Chat
