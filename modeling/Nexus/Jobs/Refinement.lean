/-
The queue's statements move jobs as `Lifecycle` says, and what follows for
every row of every run: where a job stands is always consistent, and the
claims of one budget stay within `max_attempts`.

`QueueOp.run` is one statement; its answer names the job it moved and how.
`Evolves` says what such an answer means for all rows of the table, and
`QueueOp.evolves` proves it of every statement once. The invariants read only
that.
-/
import Nexus.Lib.Run
import Nexus.Jobs.Queue

namespace Nexus.Jobs
open Relational Transition

variable {P : Type}

/-- The statements on the queue, with what their callers pass. -/
inductive QueueOp (P : Type)
  | enqueue (jobId : Uuid) (kind : String) (payload : P) (priority maxAttempts : Int)
      (availableAt : Option Instant) (dedupeKey : Option String)
  | enqueueUnique (jobId : Uuid) (kind : String) (payload : P) (dedupeKey : String)
      (priority maxAttempts : Int) (availableAt : Option Instant)
  | claimNext (worker : String) (leaseSeconds : Int) (allowedKinds : Option (List String)) (locked : List Uuid)
  | claim (jobId : Uuid) (worker : String) (leaseSeconds : Int) (allowedKinds : Option (List String))
  | deadLetterExpired (allowedKinds : Option (List String)) (locked : List Uuid)
  | promote (jobId : Uuid) (kind : String) (payload : P) (dedupeKey : String) (priority : Int)
  | heartbeat (jobId : Uuid) (worker : String) (leaseSeconds : Int)
  | lockAndRenew (ctx : JobExecutionContext) (leaseSeconds : Int)
  | updateRunningPayload (ctx : JobExecutionContext) (payload : P)
  | lockRunning (ctx : JobExecutionContext)
  | reschedule (ctx : JobExecutionContext) (availableAt : Instant) (payload : Option P)
  | complete (jobId : Uuid) (worker : String) (resultPayload : Option P)
  | fail (jobId : Uuid) (worker errorCode errorMessage : String) (retryDelaysSeconds : List Int)
      (resultPayload : Option P)
  | replaceDeadPayload (jobId : Uuid) (payload : P)
  | setPayload (jobId : Uuid) (payload : P)
  | requeueDead (jobId : Uuid)
  | updateUnclaimed (jobId : Uuid) (kind : String) (expected payload : P) (availableAt : Option Instant)
  | resetUnclaimed (jobId : Uuid) (kind : String) (payload : P) (maxAttempts : Int)
  | supersede (jobId : Uuid) (kind : String)
  | revokeByDedupeKeys (kind : String) (dedupeKeys : List String)
  | revokeForPayload (kind : String) (expected : P)
  | freeDedupeKey (dedupeKey : String)
  | prune (succeededAfterDays deadAfterDays limit : Int) (excludedDeadKinds : List String) (locked : List Uuid)

/-- The job a statement moved, and how. -/
abbrev Moved := Option (Uuid × Move)

/-- A statement that names one row: its move, or nothing. -/
def movedRow (q : Queue P) (m : Move) : Option (JobRow P × Queue P) → Moved × Queue P
  | .some (j, q') => (.some (j.id, m), q')
  | .none => (.none, q)

def QueueOp.run [Payload P] [DecidableEq P] (op : QueueOp P) (now : Instant) (q : Queue P) : Moved × Queue P :=
  match op with
  | .enqueue jobId kind payload priority maxAttempts availableAt dedupeKey =>
    movedRow q .restart (q.enqueueJob now jobId kind payload priority maxAttempts availableAt dedupeKey)
  | .enqueueUnique jobId kind payload dedupeKey priority maxAttempts availableAt =>
    match q.enqueueUniqueJob now jobId kind payload dedupeKey priority maxAttempts availableAt with
    | .some (j, inserted, q') => (if inserted then .some (j.id, .restart) else .none, q')
    | .none => (.none, q)
  | .claimNext worker leaseSeconds allowedKinds locked =>
    movedRow q (.claim worker) (q.claimNextJob now worker leaseSeconds allowedKinds locked)
  | .claim jobId worker leaseSeconds allowedKinds =>
    movedRow q (.claim worker) (q.claimJob now jobId worker leaseSeconds allowedKinds)
  | .deadLetterExpired allowedKinds locked => movedRow q .settle (q.deadLetterExpiredJob now allowedKinds locked)
  | .promote jobId kind payload dedupeKey priority =>
    match q.promoteUnclaimedJob now jobId kind payload dedupeKey priority with
    | .ok (_, q') => (.some (jobId, .keep), q')
    | .error _ => (.none, q)
  | .heartbeat jobId worker leaseSeconds => movedRow q .keep (q.heartbeatJob now jobId worker leaseSeconds)
  | .lockAndRenew ctx leaseSeconds => movedRow q .keep (q.lockAndRenewRunningJobClaim now ctx leaseSeconds)
  | .updateRunningPayload ctx payload => movedRow q .keep (q.updateRunningJobPayload now ctx payload)
  | .lockRunning ctx => movedRow q .keep (q.lockRunningJobClaim now ctx)
  | .reschedule ctx availableAt payload => movedRow q .giveBack (q.rescheduleRunningJob now ctx availableAt payload)
  | .complete jobId worker resultPayload => movedRow q .settle (q.completeJob now jobId worker resultPayload)
  | .fail jobId worker errorCode errorMessage retryDelaysSeconds resultPayload =>
    movedRow q .settle (q.failJob now jobId worker errorCode errorMessage retryDelaysSeconds resultPayload)
  | .replaceDeadPayload jobId payload => movedRow q .keep (q.replaceDeadJobPayload now jobId payload)
  | .setPayload jobId payload => movedRow q .keep (q.setPayload jobId payload)
  | .requeueDead jobId => movedRow q .restart (q.requeueDeadJob now jobId)
  | .updateUnclaimed jobId kind expected payload availableAt =>
    movedRow q .keep (q.updateUnclaimedJob now jobId kind expected payload availableAt)
  | .resetUnclaimed jobId kind payload maxAttempts =>
    movedRow q .restart (q.resetUnclaimedJobForNewIntent now jobId kind payload maxAttempts)
  | .supersede jobId kind => movedRow q .settle (q.supersedeUnclaimedJob now jobId kind)
  | .revokeByDedupeKeys kind dedupeKeys => (.none, q.revokeJobsByDedupeKeys kind dedupeKeys)
  | .revokeForPayload kind expected => (.none, q.revokeJobsForPayload kind expected)
  | .freeDedupeKey dedupeKey => (.none, q.freeDedupeKey dedupeKey)
  | .prune succeededAfterDays deadAfterDays limit excludedDeadKinds locked =>
    (.none, (q.pruneTerminalJobs now succeededAfterDays deadAfterDays limit excludedDeadKinds locked).2)

/-! ## What a statement does to the rows -/

/-- How a statement's answer moves one job: the job it names moves, the others
are kept. -/
def Moved.of (moved : Moved) (jobId : Uuid) : Move :=
  match moved with
  | .some (id, m) => if id = jobId then m else .keep
  | .none => .keep

/-- Every row left is a row from before, moved as the answer says, or a new
job. -/
def Evolves (q q' : Queue P) (moved : Moved) : Prop :=
  ∀ j' ∈ q'.rows,
    (∃ j ∈ q.rows, j.id = j'.id ∧ Lifecycle.Step j.lifecycle (moved.of j.id) j'.lifecycle) ∨
    (moved = .some (j'.id, .restart) ∧ ∃ maxAttempts, 1 ≤ maxAttempts ∧ j'.lifecycle = .fresh maxAttempts)

theorem Evolves.refl (q : Queue P) : Evolves q q .none := fun j hj => .inl ⟨j, hj, rfl, .edit⟩

theorem Evolves.deleteWhere (q : Queue P) (p : JobRow P → Bool) : Evolves q (q.deleteWhere p) .none :=
  fun j hj => .inl ⟨j, (Table.mem_deleteWhere.1 hj).1, rfl, .edit⟩

theorem Evolves.updateWhere {q : Queue P} {jobId : Uuid} {f : JobRow P → JobRow P} {m} (hf)
    (hstep : ∀ j ∈ q.rows, j.id = jobId → Lifecycle.Step j.lifecycle m (f j).lifecycle) :
    Evolves q (q.updateWhere (fun j => j.id == jobId) f hf) (.some (jobId, m)) := by
  intro j' hj'
  obtain ⟨j, hj, rfl⟩ := Table.mem_updateWhere.1 hj'
  refine .inl ⟨j, hj, ?_, ?_⟩
  · split
    · exact (hf j).symm
    · rfl
  · by_cases hid : j.id = jobId
    · simp only [Moved.of, hid, beq_self_eq_true, if_true]
      exact hstep j hj hid
    · have hne : (j.id == jobId) = false := by simpa using hid
      simp only [Moved.of, hne, Ne.symm hid, Bool.false_eq_true, if_false]
      exact .edit

theorem Evolves.updateJob {q : Queue P} {jobId : Uuid} {guard : JobRow P → Bool} {f : JobRow P → JobRow P} {hf m}
    (hstep : ∀ j ∈ q.rows, j.id = jobId → guard j = true → Lifecycle.Step j.lifecycle m (f j).lifecycle) :
    Evolves q (movedRow q m (q.updateJob jobId guard f hf)).2 (movedRow q m (q.updateJob jobId guard f hf)).1 := by
  unfold Queue.updateJob
  split
  · exact .refl q
  · rename_i j hj
    obtain ⟨hmem, hid⟩ := Table.find?_eq_some.1 hj
    split
    · rename_i hg
      simp only [movedRow, hf, hid]
      refine .updateWhere hf fun k hk hkid => ?_
      rw [Table.eq_of_key hk hmem (hkid.trans hid.symm)]
      exact hstep j hmem hid hg
    · exact .refl q

theorem Evolves.insert {q q' : Queue P} {now jobId kind payload priority maxAttempts availableAt dedupeKey}
    (h : q.insert? (Queue.newRow now jobId kind payload priority maxAttempts availableAt dedupeKey) = .some q') :
    Evolves q q' (.some (jobId, .restart)) := by
  obtain ⟨hnew, hrows⟩ := Table.insert?_eq_some.1 h
  intro j hj
  rw [hrows] at hj
  rcases List.mem_cons.1 hj with rfl | hj
  · exact .inr ⟨rfl, (max maxAttempts 1).toNat, by omega, rfl⟩
  · have hne : jobId ≠ j.id := fun he => Table.find?_eq_none.1 hnew j hj he.symm
    refine .inl ⟨j, hj, rfl, ?_⟩
    simp only [Moved.of, hne, if_false]
    exact .edit

/-! ## Guards -/

theorem JobRow.ownedBy_iff {worker now} {j : JobRow P} : j.ownedBy worker now = true ↔
    j.status = .running ∧ j.claimedBy = .some worker ∧ ∃ lease, j.leaseExpiresAt = .some lease ∧ now < lease := by
  simp only [ownedBy, Bool.and_eq_true, beq_iff_eq, Option.any_eq_true, decide_eq_true_eq, and_assoc]

theorem JobRow.ownedBy_of_attempt {ctx now} {j : JobRow P} (h : j.ownedAttempt ctx now = true) :
    j.ownedBy ctx.workerId now = true := by
  simp only [ownedAttempt, Bool.and_eq_true] at h
  exact h.1

theorem JobRow.running_of_attempt {ctx now} {j : JobRow P} (h : j.ownedAttempt ctx now = true) :
    j.status = .running := (ownedBy_iff.1 (ownedBy_of_attempt h)).1

theorem JobRow.claimable {now} {j : JobRow P} (h : j.due now = true ∨ j.reclaimable now = true) :
    j.status = .pending ∨ j.status = .failed ∨ (j.status = .running ∧ j.attempts < j.maxAttempts) := by
  simp only [due, waiting, reclaimable, leaseExpired, Bool.and_eq_true, Bool.or_eq_true, beq_iff_eq,
    decide_eq_true_eq] at h
  rcases h with ⟨hw | hw, -⟩ | ⟨⟨hr, -⟩, hlt⟩
  · exact .inl hw
  · exact .inr (.inl hw)
  · exact .inr (.inr ⟨hr, hlt⟩)

theorem Queue.candidate_spec {q : Queue P} {now allowedKinds locked j}
    (h : q.candidate now allowedKinds locked = .some j) :
    j ∈ q.rows ∧ (j.due now = true ∨ j.reclaimable now = true) := by
  simp only [candidate, Option.map_eq_some_iff] at h
  obtain ⟨⟨j', ready⟩, hfirst, rfl⟩ := h
  have hmem := Table.firstBy_mem hfirst
  simp only [List.mem_append, Option.mem_toList, Option.map_eq_some_iff, Prod.mk.injEq] at hmem
  rcases hmem with ⟨k, hk, rfl, -⟩ | ⟨k, hk, rfl, -⟩ <;>
    obtain ⟨hrows, hp⟩ := Table.first?_eq_some hk <;>
    simp only [Bool.and_eq_true] at hp
  · exact ⟨hrows, .inl hp.1⟩
  · exact ⟨hrows, .inr hp.1⟩

theorem Queue.failed_step {now errorCode errorMessage retryDelaysSeconds resultPayload} {j : JobRow P}
    (hr : j.status = .running) :
    Lifecycle.Step j.lifecycle .settle
      (failed now errorCode errorMessage retryDelaysSeconds resultPayload j).lifecycle := by
  by_cases hd : j.maxAttempts ≤ j.attempts
  · simp only [failed, JobRow.lifecycle, hd, if_true]
    exact .finish (.inr rfl)
  · simp only [failed, JobRow.lifecycle, hd, if_false]
    exact .fail hr (Nat.lt_of_not_le hd)

theorem Evolves.enqueueJob {q : Queue P} {now jobId kind payload priority maxAttempts availableAt dedupeKey} :
    Evolves q (movedRow q .restart (q.enqueueJob now jobId kind payload priority maxAttempts availableAt dedupeKey)).2
      (movedRow q .restart (q.enqueueJob now jobId kind payload priority maxAttempts availableAt dedupeKey)).1 := by
  unfold Queue.enqueueJob
  split
  · exact .refl q
  · dsimp only
    cases hi : q.insert? (Queue.newRow now jobId kind payload priority maxAttempts availableAt dedupeKey) with
    | none => exact .refl q
    | some q' => exact .insert hi

variable [Payload P] [DecidableEq P]

theorem Evolves.enqueueUnique {q : Queue P} {now jobId kind payload dedupeKey priority maxAttempts availableAt} :
    Evolves q ((QueueOp.enqueueUnique jobId kind payload dedupeKey priority maxAttempts availableAt).run now q).2
      ((QueueOp.enqueueUnique jobId kind payload dedupeKey priority maxAttempts availableAt).run now q).1 := by
  simp only [QueueOp.run, Queue.enqueueUniqueJob]
  cases q.findDedupe dedupeKey with
  | some existing => exact .refl q
  | none =>
    have henq : Evolves q
        (movedRow q .restart (q.enqueueJob now jobId kind payload priority maxAttempts availableAt (.some dedupeKey))).2
        (movedRow q .restart (q.enqueueJob now jobId kind payload priority maxAttempts availableAt (.some dedupeKey))).1 :=
      .enqueueJob
    cases he : q.enqueueJob now jobId kind payload priority maxAttempts availableAt (.some dedupeKey) with
    | none => exact .refl q
    | some r =>
      rw [he] at henq
      exact henq

theorem Evolves.promote {q : Queue P} {now jobId kind payload dedupeKey priority} :
    Evolves q ((QueueOp.promote jobId kind payload dedupeKey priority).run now q).2
      ((QueueOp.promote jobId kind payload dedupeKey priority).run now q).1 := by
  have hkeep : Evolves q q (.some (jobId, .keep)) := fun j hj =>
    .inl ⟨j, hj, rfl, by simp only [Moved.of, ite_self]; exact .edit⟩
  cases hp : q.promoteUnclaimedJob now jobId kind payload dedupeKey priority with
  | error e => simp only [QueueOp.run, hp]; exact .refl q
  | ok r =>
    simp only [QueueOp.run, hp]
    unfold Queue.promoteUnclaimedJob at hp
    split at hp
    · cases hp
    · split at hp
      · cases hp
      · split at hp
        · cases hp; exact hkeep
        · split at hp
          · cases hp
          · cases hp
            have hf : ∀ j : JobRow P, ({ j with priority, availableAt := now, updatedAt := now } :
              JobRow P).id = j.id := fun _ => rfl
            exact .updateWhere hf fun j _ _ => .edit

/-- **Every statement moves the rows as the lifecycle allows.** -/
theorem QueueOp.evolves (op : QueueOp P) (now : Instant) (q : Queue P) :
    Evolves q (op.run now q).2 (op.run now q).1 := by
  cases op with
  | enqueue => exact .enqueueJob
  | enqueueUnique => exact .enqueueUnique
  | claimNext worker leaseSeconds allowedKinds locked =>
    simp only [run, Queue.claimNextJob]
    split
    · exact .refl q
    · split
      · exact .refl q
      · rename_i j hj
        obtain ⟨hmem, hc⟩ := Queue.candidate_spec hj
        refine .updateJob fun k hk hid _ => ?_
        rw [Table.eq_of_key hk hmem hid]
        exact .claim (JobRow.claimable hc)
  | claim jobId worker leaseSeconds allowedKinds =>
    simp only [run, Queue.claimJob]
    split
    · exact .refl q
    · refine .updateJob fun j _ _ hg => ?_
      simp only [Bool.and_eq_true, Bool.or_eq_true] at hg
      exact .claim (JobRow.claimable hg.2)
  | deadLetterExpired allowedKinds locked =>
    simp only [run, Queue.deadLetterExpiredJob]
    split
    · exact .refl q
    · split
      · exact .refl q
      · exact .updateJob fun j _ _ _ => .finish (.inr rfl)
  | promote => exact .promote
  | heartbeat => exact .updateJob fun j _ _ hg => .renew (JobRow.ownedBy_iff.1 hg).1
  | lockAndRenew => exact .updateJob fun j _ _ hg => .renew (JobRow.running_of_attempt hg)
  | updateRunningPayload => exact .updateJob fun j _ _ _ => .edit
  | lockRunning => exact .updateJob fun j _ _ _ => .edit
  | reschedule => exact .updateJob fun j _ _ hg => .giveBack (JobRow.running_of_attempt hg)
  | complete => exact .updateJob fun j _ _ _ => .finish (.inl rfl)
  | fail => exact .updateJob fun j _ _ hg => Queue.failed_step (JobRow.ownedBy_iff.1 hg).1
  | replaceDeadPayload => exact .updateJob fun j _ _ _ => .edit
  | setPayload => exact .updateJob fun j _ _ _ => .edit
  | requeueDead => exact .updateJob fun j _ _ _ => .restart (.inl rfl)
  | updateUnclaimed => exact .updateJob fun j _ _ _ => .edit
  | resetUnclaimed jobId kind payload maxAttempts =>
    refine .updateJob fun j _ _ _ => ?_
    show Lifecycle.Step _ _ (.fresh (max maxAttempts 1).toNat)
    exact .restart (.inr (by omega))
  | supersede => exact .updateJob fun j _ _ _ => .finish (.inl rfl)
  | revokeByDedupeKeys => exact .deleteWhere q _
  | revokeForPayload => exact .deleteWhere q _
  | freeDedupeKey => exact .deleteWhere q _
  | prune => exact .deleteWhere q _

/-! ## Runs -/

/-- The table, and the claims counted since each job's budget began. -/
structure QueueState (P : Type) where
  queue : Queue P
  ledger : Uuid → Ledger

def QueueState.after (s : QueueState P) (now : Instant) (op : QueueOp P) : QueueState P where
  queue := (op.run now s.queue).2
  ledger jobId := (s.ledger jobId).after ((op.run now s.queue).1.of jobId)

/-- Statements one after the other, each at its own time. -/
def QueueState.next (s : QueueState P) (e : Instant × QueueOp P) : Option (QueueState P) := .some (s.after e.1 e.2)

def queueSystem : System (QueueState P) (Instant × QueueOp P) :=
  .ofFun (fun s => s.queue = .empty) QueueState.next

/-- Every row is consistent, and its attempts are the claims of its budget that
were not given back. -/
structure QueueInv (s : QueueState P) : Prop where
  ok : ∀ j ∈ s.queue.rows, j.lifecycle.Ok
  balances : ∀ j ∈ s.queue.rows, (s.ledger j.id).Balances j.lifecycle

theorem QueueInv.after {s : QueueState P} (h : QueueInv s) (now : Instant) (op : QueueOp P) :
    QueueInv (s.after now op) := by
  refine ⟨fun j' hj' => ?_, fun j' hj' => ?_⟩ <;>
    rcases op.evolves now s.queue j' hj' with ⟨j, hj, hid, hstep⟩ | ⟨hnew, m, hm, hfresh⟩
  · exact (h.ok j hj).step hstep
  · rw [hfresh]; exact .fresh hm
  · have hb := (h.balances j hj).step (h.ok j hj) hstep
    rw [hid] at hb
    exact hb
  · rw [hfresh]
    simp only [QueueState.after, hnew, Moved.of, if_true, Ledger.after]
    rfl

theorem QueueInv.reachable {s : QueueState P} (h : queueSystem.Reachable s) : QueueInv s := by
  refine h.invariant (fun s h0 => ?_) fun s e t hs hI => ?_
  · have hempty : s.queue = .empty := h0
    have hno : ∀ j : JobRow P, j ∉ s.queue.rows := fun j hj => by rw [hempty] at hj; cases hj
    exact ⟨fun j hj => absurd hj (hno j), fun j hj => absurd hj (hno j)⟩
  · obtain rfl := Option.some.inj hs
    exact hI.after e.1 e.2

omit [Payload P] [DecidableEq P] in
theorem Queue.isSome_claimJob {q : Queue P} {j : JobRow P} {now} (hj : j ∈ q.rows) (hw : j.waiting = true)
    (hdue : j.availableAt ≤ now) (worker : String) (leaseSeconds : Int) :
    (q.claimJob now j.id worker leaseSeconds .none).isSome = true := by
  have hg : (j.kindAllowed .none && (j.due now || j.reclaimable now)) = true := by
    simp [JobRow.kindAllowed, JobRow.due, hw, hdue]
  have hfind : q.find? j.id = .some j := Table.find?_of_mem hj
  simp only [claimJob, reduceCtorEq, if_false, updateJob, hfind, hg, if_true, Option.isSome_some]

/-- **Every row of every reachable queue stands where its columns agree**, its
waiting jobs can be claimed once due, and no budget hands its job out more than
`max_attempts` times, the claims given back apart. -/
theorem jobs_ok {s : QueueState P} (h : queueSystem.Reachable s) :
    ∀ j ∈ s.queue.rows, j.lifecycle.Ok ∧
      (j.waiting = true → ∀ now worker leaseSeconds, j.availableAt ≤ now →
        (s.queue.claimJob now j.id worker leaseSeconds .none).isSome = true) ∧
      (s.ledger j.id).claims ≤ j.maxAttempts + (s.ledger j.id).givenBack := by
  intro j hj
  have hI := QueueInv.reachable h
  have hok := hI.ok j hj
  exact ⟨hok, fun hw now worker leaseSeconds hdue => Queue.isSome_claimJob hj hw hdue worker leaseSeconds,
    (hI.balances j hj).claims_le hok⟩

/-- A `jsonb` object of strings. -/
abbrev FlatObject := List (String × String)

instance : Payload FlatObject where
  contains payload expected := expected.all payload.contains
  superseded := [("status", "superseded")]

def emptyQueue : QueueState FlatObject := ⟨.empty, fun _ => .zero⟩

/-- One job: claimed, given back, claimed again after it failed, and expired. -/
def oneJob : List (Instant × QueueOp FlatObject) :=
  [(0, .enqueue 7 "ingest" [] 100 2 .none .none), (0, .claimNext "a" 60 .none []),
    (1, .reschedule ⟨7, "a", 1⟩ 2 .none), (2, .claimNext "b" 60 .none []),
    (3, .fail 7 "b" "E" "failed once" [] .none), (3, .claimNext "b" 1 .none []),
    (2000000, .deadLetterExpired .none [])]

theorem jobs_ok_oneJob :
    (last emptyQueue (replay QueueState.next emptyQueue oneJob)).queue.rows.length = 1 ∧
    ∀ j ∈ (last emptyQueue (replay QueueState.next emptyQueue oneJob)).queue.rows, j.lifecycle.Ok := by
  have hr : queueSystem.Reachable (last emptyQueue (replay QueueState.next emptyQueue oneJob)) :=
    System.reachable_replay oneJob rfl
  exact ⟨by decide, fun j hj => (jobs_ok hr j hj).1⟩

end Nexus.Jobs
