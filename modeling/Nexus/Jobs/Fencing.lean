/-
The job lease as a fence. Workers claim, run one claim at a time and stop or
crash at any point, while everything else on the queue goes on around them.

A call on behalf of an execution names the job and the worker, and some calls
the attempt. Attempt numbers come back after a reschedule or a requeue, so the
attempt alone would not tell two claims apart; what does is that a worker has
one execution at a time (`JobWorker.run_once`) and that a claim overwrites
`claimed_by`. `Holds` is that argument as an invariant.
-/
import Nexus.Jobs.Refinement

namespace Nexus.Jobs
open Relational Transition

variable {P : Type}

/-- A running row's claimant comes from the claim that moved it, or was there
before. -/
theorem Lifecycle.Step.claimant {c c' : Lifecycle} {m worker} (h : Step c m c') (hr : c'.status = .running)
    (hw : c'.claimedBy = .some worker) :
    m = .claim worker ∨ (m = .keep ∧ c.status = .running ∧ c.claimedBy = .some worker) := by
  cases h with
  | edit => exact .inr ⟨rfl, hr, hw⟩
  | renew => exact .inr ⟨rfl, hr, hw⟩
  | claim => exact .inl (by rw [Option.some.inj hw])
  | giveBack => cases hr
  | fail => cases hr
  | finish hst => rcases hst with rfl | rfl <;> cases hr
  | restart => cases hr

/-- One claim being executed; `claimNo` counts claims, of any job. -/
structure Execution where
  jobId : Uuid
  attemptNo : Nat
  claimNo : Nat
  deriving DecidableEq, Repr

structure WorkersState (P : Type) where
  queue : Queue P
  current : String → Option Execution
  lastClaim : Uuid → Option Nat
  claims : Nat

/-- The calls `_execute_claimed`, its heartbeat thread and its handler make. -/
inductive ExecutionCall (P : Type)
  | heartbeat (leaseSeconds : Int)
  | lockAndRenew (leaseSeconds : Int)
  | lockRunning
  | updatePayload (payload : P)
  | reschedule (availableAt : Instant) (payload : Option P)
  | complete (resultPayload : Option P)
  | fail (errorCode errorMessage : String) (retryDelaysSeconds : List Int) (resultPayload : Option P)

/-- The statement a call is, for one worker's execution. -/
def ExecutionCall.op (worker : String) (e : Execution) : ExecutionCall P → QueueOp P
  | .heartbeat leaseSeconds => .heartbeat e.jobId worker leaseSeconds
  | .lockAndRenew leaseSeconds => .lockAndRenew ⟨e.jobId, worker, e.attemptNo⟩ leaseSeconds
  | .lockRunning => .lockRunning ⟨e.jobId, worker, e.attemptNo⟩
  | .updatePayload payload => .updateRunningPayload ⟨e.jobId, worker, e.attemptNo⟩ payload
  | .reschedule availableAt payload => .reschedule ⟨e.jobId, worker, e.attemptNo⟩ availableAt payload
  | .complete resultPayload => .complete e.jobId worker resultPayload
  | .fail errorCode errorMessage retryDelaysSeconds resultPayload =>
    .fail e.jobId worker errorCode errorMessage retryDelaysSeconds resultPayload

/-- Statements nobody makes on behalf of an execution, and that claim nothing. -/
def QueueOp.fromOutside : QueueOp P → Bool
  | .claimNext .. | .claim .. | .heartbeat .. | .lockAndRenew .. | .updateRunningPayload .. | .lockRunning _
  | .reschedule .. | .complete .. | .fail .. => false
  | .enqueue .. | .enqueueUnique .. | .deadLetterExpired .. | .promote .. | .replaceDeadPayload ..
  | .setPayload .. | .requeueDead _ | .updateUnclaimed .. | .resetUnclaimed .. | .supersede ..
  | .revokeByDedupeKeys .. | .revokeForPayload .. | .freeDedupeKey _ | .prune .. => true

inductive WorkersEvent (P : Type)
  | claimNext (worker : String) (leaseSeconds : Int) (allowedKinds : Option (List String)) (locked : List Uuid)
  | claimExact (jobId : Uuid) (worker : String) (leaseSeconds : Int) (allowedKinds : Option (List String))
  | act (worker : String) (call : ExecutionCall P)
  | stop (worker : String)
  | outside (op : QueueOp P)

/-- A worker takes up the row its claim returned. -/
def WorkersState.claimed (s : WorkersState P) (worker : String) :
    Option (JobRow P × Queue P) → WorkersState P
  | .none => s
  | .some (j, queue) =>
    { queue
      current := fun w => if w = worker then .some ⟨j.id, j.attempts, s.claims⟩ else s.current w
      lastClaim := fun id => if id = j.id then .some s.claims else s.lastClaim id
      claims := s.claims + 1 }

/-- Workers claim only when idle, and call only on behalf of what they run. -/
def WorkersState.next [Payload P] [DecidableEq P] (s : WorkersState P) : Instant × WorkersEvent P → Option (WorkersState P)
  | (now, .claimNext worker leaseSeconds allowedKinds locked) =>
    match s.current worker with
    | .some _ => .none
    | .none => .some (s.claimed worker (s.queue.claimNextJob now worker leaseSeconds allowedKinds locked))
  | (now, .claimExact jobId worker leaseSeconds allowedKinds) =>
    match s.current worker with
    | .some _ => .none
    | .none => .some (s.claimed worker (s.queue.claimJob now jobId worker leaseSeconds allowedKinds))
  | (now, .act worker call) =>
    (s.current worker).map fun e => { s with queue := ((call.op worker e).run now s.queue).2 }
  | (_, .stop worker) => .some { s with current := fun w => if w = worker then .none else s.current w }
  | (now, .outside op) => if op.fromOutside then .some { s with queue := (op.run now s.queue).2 } else .none

def workersSystem [Payload P] [DecidableEq P] : System (WorkersState P) (Instant × WorkersEvent P) :=
  .ofFun (fun s => s.queue = .empty ∧ s.current = fun _ => .none) WorkersState.next

/-- A running row claimed by a worker, of the job that worker is executing, is
held by that execution's claim: the last one of the job. -/
def Holds (s : WorkersState P) : Prop :=
  ∀ worker e, s.current worker = .some e → ∀ j ∈ s.queue.rows, j.id = e.jobId → j.status = .running →
    j.claimedBy = .some worker → s.lastClaim e.jobId = .some e.claimNo

theorem Holds.evolves {s : WorkersState P} {q' moved} (h : Holds s) (hq : Evolves s.queue q' moved)
    (hm : ∀ id worker, moved ≠ .some (id, .claim worker)) : Holds { s with queue := q' } := by
  intro worker e he j' hj' hid hr hw
  rcases hq j' hj' with ⟨j, hj, hsame, hstep⟩ | ⟨-, m, -, hfresh⟩
  · rcases hstep.claimant hr hw with hmove | ⟨-, hr, hw⟩
    · exfalso
      cases moved with
      | none => cases hmove
      | some x =>
        obtain ⟨id, m⟩ := x
        simp only [Moved.of] at hmove
        split at hmove
        · exact hm id worker (by rw [hmove])
        · cases hmove
    · exact h worker e he j hj (hsame.trans hid) hr hw
  · have hpending : j'.status = .pending := congrArg Lifecycle.status hfresh
    rw [hr] at hpending
    cases hpending

theorem movedRow_ne_claim {q : Queue P} {m} (hm : ∀ worker, m ≠ .claim worker) (r : Option (JobRow P × Queue P))
    (id worker) : (movedRow q m r).1 ≠ .some (id, .claim worker) := by
  cases r with
  | none => simp [movedRow]
  | some r =>
    intro h
    simp only [movedRow, Option.some.injEq, Prod.mk.injEq] at h
    exact hm worker h.2

/-- A claim takes the job over: whoever else was executing it no longer holds
the row. -/
theorem Holds.claimed {s : WorkersState P} (h : Holds s) {worker r}
    (hq : Evolves s.queue (movedRow s.queue (.claim worker) r).2 (movedRow s.queue (.claim worker) r).1) :
    Holds (s.claimed worker r) := by
  cases r with
  | none => exact h
  | some r =>
    obtain ⟨row, q'⟩ := r
    intro w e he j' hj' hid hr hw
    simp only [WorkersState.claimed] at he ⊢
    by_cases hww : w = worker
    · rw [if_pos hww] at he
      obtain rfl := Option.some.inj he
      exact if_pos rfl
    · rw [if_neg hww] at he
      rcases hq j' hj' with ⟨j, hj, hsame, hstep⟩ | ⟨hnew, -⟩
      · simp only [movedRow, Moved.of] at hstep
        rcases hstep.claimant hr hw with hmove | ⟨hmove, hr, hw⟩
        · split at hmove
          · exact absurd (Move.claim.inj hmove).symm hww
          · cases hmove
        · split at hmove
          · cases hmove
          · rename_i hne
            have hjob : e.jobId ≠ row.id := fun heq => hne (heq.symm.trans (hsame.trans hid).symm)
            rw [if_neg hjob]
            exact h w e he j hj (hsame.trans hid) hr hw
      · simp [movedRow] at hnew

theorem Queue.updateJob_eq_some {q : Queue P} {jobId guard f hf r} (h : q.updateJob jobId guard f hf = .some r) :
    ∃ j ∈ q.rows, j.id = jobId ∧ guard j = true := by
  unfold updateJob at h
  split at h
  · cases h
  · rename_i j hj
    obtain ⟨hmem, hid⟩ := Table.find?_eq_some.1 hj
    split at h
    · rename_i hg
      exact ⟨j, hmem, hid, hg⟩
    · cases h

theorem Queue.updateJob_spec {q q' : Queue P} {jobId guard f hf row} (h : q.updateJob jobId guard f hf = .some (row, q')) :
    ∃ j, q.find? jobId = .some j ∧ guard j = true ∧ row = f j ∧
      ∀ id, q'.find? id = if id = jobId then .some (f j) else q.find? id := by
  unfold updateJob at h
  split at h
  · cases h
  · rename_i j hj
    split at h
    · rename_i hg
      obtain ⟨rfl, rfl⟩ := Prod.mk.inj (Option.some.inj h)
      refine ⟨j, hj, hg, rfl, fun id => ?_⟩
      rw [Table.find?_updateWhere]
      by_cases hid : id = jobId
      · rw [if_pos hid, hid, hj, Option.map_some, if_pos (by simp [(Table.find?_eq_some.1 hj).2])]
      · rw [if_neg hid]
        cases hq : q.find? id with
        | none => rfl
        | some x =>
          have hx : (x.id == jobId) = false := by
            rw [(Table.find?_eq_some.1 hq).2]
            exact beq_eq_false_iff_ne.2 hid
          rw [Option.map_some, hx]
          rfl
    · cases h

theorem Queue.mem_updateJob {q q' : Queue P} {jobId guard f hf row} (h : q.updateJob jobId guard f hf = .some (row, q')) :
    ∃ j ∈ q.rows, j.id = jobId ∧ guard j = true ∧ row = f j ∧
      ∀ k, k ∈ q'.rows ↔ k = f j ∨ (k ∈ q.rows ∧ k.id ≠ jobId) := by
  obtain ⟨j, hj, hg, hrow, hfind⟩ := updateJob_spec h
  obtain ⟨hmem, hid⟩ := Table.find?_eq_some.1 hj
  refine ⟨j, hmem, hid, hg, hrow, fun k => ?_⟩
  have hk : k ∈ q'.rows ↔ q'.find? k.id = .some k := by simp [Table.find?_eq_some]
  rw [hk, hfind]
  by_cases hkid : k.id = jobId
  · simp [hkid, eq_comm]
  · have hne : k ≠ f j := fun he => hkid (by rw [he, hf, hid])
    simp [hkid, hne, Table.find?_eq_some]

theorem Queue.updateJob_of_mem {q : Queue P} {j : JobRow P} (hj : j ∈ q.rows) {guard : JobRow P → Bool}
    {f : JobRow P → JobRow P} {hf} (hg : guard j = true) : ∃ q', q.updateJob j.id guard f hf = .some (f j, q') := by
  unfold updateJob
  rw [Table.find?_of_mem hj]
  exact ⟨_, if_pos hg⟩

theorem findDedupe_eq_none {q : Queue P} {key : String} (h : q.findDedupe key = .none) :
    ∀ j ∈ q.rows, j.dedupeKey ≠ .some key := by
  intro j hj
  have hnone := List.find?_eq_none.1 h j hj
  simpa using hnone

theorem enqueueJob_ok {q q' : Queue P} {row : JobRow P} {now jobId kind payload priority maxAttempts availableAt dedupeKey}
    (h : q.enqueueJob now jobId kind payload priority maxAttempts availableAt dedupeKey = .some (row, q')) :
    (∀ j ∈ q.rows, j.dedupeKey = dedupeKey → dedupeKey = .none) ∧
      row = Queue.newRow now jobId kind payload priority maxAttempts availableAt dedupeKey ∧ q.insert? row = .some q' := by
  unfold Queue.enqueueJob at h
  split at h
  · cases h
  next hfree =>
    obtain ⟨u, hins, heq⟩ := Option.map_eq_some_iff.1 h
    cases heq
    refine ⟨fun j hj hkey => ?_, rfl, hins⟩
    cases hsome : dedupeKey with
    | none => rfl
    | some key =>
      rw [hsome] at hfree hkey
      have hnone : q.findDedupe key = .none := by simpa using hfree
      exact absurd hkey (findDedupe_eq_none hnone j hj)

section Calls

variable [Payload P] [DecidableEq P]

/-- Every call of an execution updates its own job, and only a row its worker
owns. -/
theorem ExecutionCall.run_eq (call : ExecutionCall P) (worker : String) (e : Execution) (now : Instant)
    (q : Queue P) : ∃ m guard f hf, (∀ worker, m ≠ .claim worker) ∧
      (∀ j : JobRow P, guard j = true → j.ownedBy worker now = true) ∧
      (call.op worker e).run now q = movedRow q m (q.updateJob e.jobId guard f hf) := by
  cases call with
  | heartbeat => exact ⟨_, _, _, _, by simp, fun _ hg => hg, rfl⟩
  | lockAndRenew => exact ⟨_, _, _, _, by simp, fun _ hg => JobRow.ownedBy_of_attempt hg, rfl⟩
  | lockRunning => exact ⟨_, _, _, _, by simp, fun _ hg => JobRow.ownedBy_of_attempt hg, rfl⟩
  | updatePayload => exact ⟨_, _, _, _, by simp, fun _ hg => JobRow.ownedBy_of_attempt hg, rfl⟩
  | reschedule => exact ⟨_, _, _, _, by simp, fun _ hg => JobRow.ownedBy_of_attempt hg, rfl⟩
  | complete => exact ⟨_, _, _, _, by simp, fun _ hg => hg, rfl⟩
  | fail => exact ⟨_, _, _, _, by simp, fun _ hg => hg, rfl⟩

theorem QueueOp.moved_ne_claim {op : QueueOp P} (hop : op.fromOutside = true) (now : Instant) (q : Queue P)
    (id worker) : (op.run now q).1 ≠ .some (id, .claim worker) := by
  cases op with
  | claimNext | claim | heartbeat | lockAndRenew | updateRunningPayload | lockRunning | reschedule | complete
  | fail => cases hop
  | enqueueUnique =>
    simp only [run]
    split
    · split <;> simp
    · simp
  | promote =>
    simp only [run]
    split <;> simp
  | revokeByDedupeKeys | revokeForPayload | freeDedupeKey | prune => simp [run]
  | enqueue | deadLetterExpired | replaceDeadPayload | setPayload | requeueDead | updateUnclaimed
  | resetUnclaimed | supersede => exact movedRow_ne_claim (by simp) _ _ _

theorem Holds.step {s t : WorkersState P} {ev} (h : Holds s) (hs : s.next ev = .some t) : Holds t := by
  obtain ⟨now, ev⟩ := ev
  cases ev with
  | claimNext worker leaseSeconds allowedKinds locked =>
    simp only [WorkersState.next] at hs
    split at hs
    · cases hs
    · obtain rfl := Option.some.inj hs
      exact h.claimed ((QueueOp.claimNext worker leaseSeconds allowedKinds locked).evolves now s.queue)
  | claimExact jobId worker leaseSeconds allowedKinds =>
    simp only [WorkersState.next] at hs
    split at hs
    · cases hs
    · obtain rfl := Option.some.inj hs
      exact h.claimed ((QueueOp.claim jobId worker leaseSeconds allowedKinds).evolves now s.queue)
  | act worker call =>
    simp only [WorkersState.next, Option.map_eq_some_iff] at hs
    obtain ⟨e, -, rfl⟩ := hs
    refine h.evolves ((call.op worker e).evolves now s.queue) fun id w => ?_
    obtain ⟨m, guard, f, hf, hm, -, hrun⟩ := call.run_eq worker e now s.queue
    rw [hrun]
    exact movedRow_ne_claim hm _ _ _
  | stop worker =>
    obtain rfl := Option.some.inj hs
    intro w e he j hj hid hr hw
    simp only at he
    split at he
    · cases he
    · exact h w e he j hj hid hr hw
  | outside op =>
    simp only [WorkersState.next] at hs
    split at hs
    · rename_i hop
      obtain rfl := Option.some.inj hs
      exact h.evolves (op.evolves now s.queue) (op.moved_ne_claim hop now s.queue)
    · cases hs

/-- **A call on behalf of an execution changes nothing and reports failure,
unless that execution is the last claim of its job.** -/
theorem fenced {s : WorkersState P} (hs : workersSystem.Reachable s) {worker e}
    (he : s.current worker = .some e) (call : ExecutionCall P) (now : Instant) :
    (call.op worker e).run now s.queue = (.none, s.queue) ∨ s.lastClaim e.jobId = .some e.claimNo := by
  have hI : Holds s := hs.invariant
    (fun s h0 worker e he => by rw [h0.2] at he; cases he) fun s ev t hstep h => h.step hstep
  obtain ⟨m, guard, f, hf, -, hguard, hrun⟩ := call.run_eq worker e now s.queue
  rw [hrun]
  cases hu : s.queue.updateJob e.jobId guard f hf with
  | none => exact .inl rfl
  | some r =>
    obtain ⟨j, hj, hid, hg⟩ := Queue.updateJob_eq_some hu
    obtain ⟨hr, hw, -⟩ := JobRow.ownedBy_iff.1 (hguard j hg)
    exact .inr (hI worker e he j hj hid hr hw)

end Calls

/-- A job whose first claim, by worker `a`, runs out and is taken over by `b`. -/
def takenOver : List (Instant × WorkersEvent FlatObject) :=
  [(0, .outside (.enqueue 7 "ingest" [] 100 3 .none .none)), (0, .claimNext "a" 1 .none []),
    (2000000, .claimNext "b" 60 .none [])]

def idleWorkers : WorkersState FlatObject := ⟨.empty, fun _ => .none, fun _ => .none, 0⟩

theorem fenced_takenOver :
    (last idleWorkers (replay WorkersState.next idleWorkers takenOver)).current "a" = .some ⟨7, 1, 0⟩ ∧
    ((ExecutionCall.complete .none).op "a" ⟨7, 1, 0⟩).run 2000001
      (last idleWorkers (replay WorkersState.next idleWorkers takenOver)).queue =
        (.none, (last idleWorkers (replay WorkersState.next idleWorkers takenOver)).queue) := by
  have hr : workersSystem.Reachable (last idleWorkers (replay WorkersState.next idleWorkers takenOver)) :=
    System.reachable_replay takenOver ⟨rfl, rfl⟩
  refine ⟨by decide, (fenced hr (by decide) (.complete .none) 2000001).resolve_right ?_⟩
  decide

end Nexus.Jobs
