/-
A periodic slot is enqueued once and succeeds once, as long as no row is pruned
before its slot is over.

That a slot was enqueued is known by the dedupe key of its row alone. `Kept` is
what a run keeps of a slot: its row is there, or its slot is over (`Over`). A
row finishes no earlier than its slot starts and is pruned a retention later,
so with intervals no longer than the retention only rows of slots that are over
are pruned (`over_of_prunable`).
-/
import Nexus.Jobs.Registry

namespace Nexus.Jobs
open Relational Transition

variable {P : Type}

/-! ## Runs -/

/-- The workers and the clock, the slots enqueued so far and the keys of the
jobs completed so far, the latest first. -/
structure PeriodicState (P : Type) extends WorkersState P where
  clock : Instant
  inserted : List Slot
  completed : List String

inductive PeriodicEvent (P : Type)
  | tick (workerId : String) (allowedKinds : Option (List String)) (newId : String → Uuid)
  | claimNext (worker : String) (leaseSeconds : Int) (allowedKinds : Option (List String)) (locked : List Uuid)
  | claimExact (jobId : Uuid) (worker : String) (leaseSeconds : Int) (allowedKinds : Option (List String))
  | act (worker : String) (call : ExecutionCall P)
  | stop (worker : String)
  | deadLetterExpired (allowedKinds : Option (List String)) (locked : List Uuid)
  | prune (locked : List Uuid)
  /-- what handlers and requests enqueue, under keys that are no slot's -/
  | enqueue (jobId : Uuid) (kind : String) (payload : P) (priority maxAttempts : Int) (availableAt : Option Instant)
      (dedupeKey : Option String)

/-- The key of the job a worker completes, if its call does so. -/
def completedKey [Payload P] [DecidableEq P] (s : WorkersState P) (now : Instant) (worker : String) : ExecutionCall P → Option String
  | .complete resultPayload => do
    let e ← s.current worker
    let j ← s.queue.find? e.jobId
    let _ ← s.queue.completeJob now e.jobId worker resultPayload
    j.dedupeKey
  | _ => .none

section Runs

variable [SchedulerPayload P] [DecidableEq P]

/-- A step of the workers, with what it completes. -/
def PeriodicState.work (s : PeriodicState P) (now : Instant) (ev : WorkersEvent P) (completed : Option String) :
    Option (PeriodicState P) :=
  (s.toWorkersState.next (now, ev)).map fun workers =>
    { s with toWorkersState := workers, clock := now, completed := completed.toList ++ s.completed }

/-- The `prune_terminal_jobs` of `prune_background_jobs_job`. -/
def pruneOp (settings : Settings) (locked : List Uuid) : QueueOp P :=
  .prune settings.backgroundJobPruneSucceededAfterDays settings.backgroundJobPruneDeadAfterDays
    settings.backgroundJobPruneBatchSize (excludedDeadKinds settings) locked

/-- One event at a time, and time does not go back. -/
def PeriodicState.next (settings : Settings) (s : PeriodicState P) (e : Instant × PeriodicEvent P) :
    Option (PeriodicState P) :=
  if e.1 < s.clock then .none
  else match e.2 with
    | .tick workerId allowedKinds newId =>
      (runSchedulerOnce settings e.1 workerId allowedKinds newId (s.inserted, s.queue)).map fun r =>
        { s with queue := r.2, clock := e.1, inserted := r.1 }
    | .claimNext worker leaseSeconds allowedKinds locked =>
      s.work e.1 (.claimNext worker leaseSeconds allowedKinds locked) .none
    | .claimExact jobId worker leaseSeconds allowedKinds =>
      s.work e.1 (.claimExact jobId worker leaseSeconds allowedKinds) .none
    | .act worker call => s.work e.1 (.act worker call) (completedKey s.toWorkersState e.1 worker call)
    | .stop worker => s.work e.1 (.stop worker) .none
    | .deadLetterExpired allowedKinds locked => s.work e.1 (.outside (.deadLetterExpired allowedKinds locked)) .none
    | .prune locked => s.work e.1 (.outside (pruneOp settings locked)) .none
    | .enqueue jobId kind payload priority maxAttempts availableAt dedupeKey =>
      if ∃ key ∈ dedupeKey, "periodic:".toList.isPrefixOf key.toList then .none
      else s.work e.1 (.outside (.enqueue jobId kind payload priority maxAttempts availableAt dedupeKey)) .none

def noJobs : PeriodicState P := ⟨⟨.empty, fun _ => .none, fun _ => .none, 0⟩, 0, [], []⟩

def periodicSystem (settings : Settings) : System (PeriodicState P) (Instant × PeriodicEvent P) :=
  .ofFun (fun s => s = noJobs) (PeriodicState.next settings)

end Runs

/-! ## Rows -/

/-- What any statement of a run leaves of a row. -/
structure JobRow.Follows (now : Instant) (j j' : JobRow P) : Prop where
  id : j'.id = j.id
  kind : j'.kind = j.kind
  dedupeKey : j'.dedupeKey = j.dedupeKey
  createdAt : j'.createdAt = j.createdAt
  finishedAt : j'.finishedAt = j.finishedAt ∨ j'.finishedAt = .none ∨ j'.finishedAt = .some now
  succeeded : j.status = .succeeded → j'.status = .succeeded

theorem JobRow.Follows.refl (now : Instant) (j : JobRow P) : j.Follows now j :=
  ⟨rfl, rfl, rfl, rfl, .inl rfl, fun h => h⟩

structure Queue.Follows (now : Instant) (q q' : Queue P) : Prop where
  old : ∀ j' ∈ q'.rows, ∃ j ∈ q.rows, j.Follows now j'
  kept : ∀ j ∈ q.rows, ∃ j' ∈ q'.rows, j.Follows now j'

theorem Queue.Follows.refl (now : Instant) (q : Queue P) : q.Follows now q :=
  ⟨fun j hj => ⟨j, hj, .refl now j⟩, fun j hj => ⟨j, hj, .refl now j⟩⟩

theorem Queue.Follows.updateJob {q : Queue P} {now : Instant} {jobId : Uuid} {guard : JobRow P → Bool}
    {f : JobRow P → JobRow P} {hf m} (hstep : ∀ j ∈ q.rows, j.id = jobId → guard j = true → j.Follows now (f j)) :
    q.Follows now (movedRow q m (q.updateJob jobId guard f hf)).2 := by
  unfold Queue.updateJob
  split
  · exact .refl now q
  next j hj =>
    obtain ⟨hmem, hid⟩ := Table.find?_eq_some.1 hj
    split
    next hg =>
      have hrow : ∀ k ∈ q.rows, k.Follows now (if (k.id == jobId) = true then f k else k) := by
        intro k hk
        split
        next hkid =>
          have hsame : k = j := Table.eq_of_key hk hmem ((beq_iff_eq.1 hkid).trans hid.symm)
          rw [hsame]
          exact hstep j hmem hid hg
        next => exact .refl now k
      have hmem' : ∀ j', j' ∈ (q.updateWhere (fun j => j.id == jobId) f hf).rows ↔
          ∃ k ∈ q.rows, (if (k.id == jobId) = true then f k else k) = j' := fun j' => Table.mem_updateWhere
      constructor
      · intro j' hj'
        obtain ⟨k, hk, rfl⟩ := (hmem' j').1 hj'
        exact ⟨k, hk, hrow k hk⟩
      · exact fun k hk => ⟨_, (hmem' _).2 ⟨k, hk, rfl⟩, hrow k hk⟩
    next => exact .refl now q

theorem JobRow.Follows.of_not_succeeded {now : Instant} {j j' : JobRow P} (hid : j'.id = j.id) (hkind : j'.kind = j.kind)
    (hkey : j'.dedupeKey = j.dedupeKey) (hcreated : j'.createdAt = j.createdAt)
    (hfinished : j'.finishedAt = j.finishedAt ∨ j'.finishedAt = .none ∨ j'.finishedAt = .some now)
    (h : j.status ≠ .succeeded) : j.Follows now j' := ⟨hid, hkind, hkey, hcreated, hfinished, fun hs => absurd hs h⟩

theorem JobRow.not_succeeded_of_claimable {now : Instant} {j : JobRow P} (h : j.due now = true ∨ j.reclaimable now = true) :
    j.status ≠ .succeeded := by
  intro hs
  rcases JobRow.claimable h with hc | hc | ⟨hc, -⟩ <;> rw [hs] at hc <;> cases hc

theorem JobRow.not_succeeded_of_owned {worker : String} {now : Instant} {j : JobRow P} (h : j.ownedBy worker now = true) :
    j.status ≠ .succeeded := by
  intro hs
  have hr := (JobRow.ownedBy_iff.1 h).1
  rw [hs] at hr
  cases hr

section Statements

variable [Payload P] [DecidableEq P]

theorem follows_claimNext (now : Instant) (q : Queue P) (worker leaseSeconds allowedKinds locked) :
    q.Follows now ((QueueOp.claimNext worker leaseSeconds allowedKinds locked).run now q).2 := by
  simp only [QueueOp.run, Queue.claimNextJob]
  split
  · exact .refl now q
  · split
    · exact .refl now q
    next j hj =>
      obtain ⟨hmem, hc⟩ := Queue.candidate_spec hj
      refine .updateJob fun k hk hid _ => ?_
      have hsame : k = j := Table.eq_of_key hk hmem hid
      rw [hsame]
      exact .of_not_succeeded rfl rfl rfl rfl (.inl rfl) (JobRow.not_succeeded_of_claimable hc)

theorem follows_claim (now : Instant) (q : Queue P) (jobId worker leaseSeconds allowedKinds) :
    q.Follows now ((QueueOp.claim jobId worker leaseSeconds allowedKinds).run now q).2 := by
  simp only [QueueOp.run, Queue.claimJob]
  split
  · exact .refl now q
  · refine .updateJob fun j _ _ hg => ?_
    simp only [Bool.and_eq_true, Bool.or_eq_true] at hg
    exact .of_not_succeeded rfl rfl rfl rfl (.inl rfl) (JobRow.not_succeeded_of_claimable hg.2)

theorem follows_deadLetterExpired (now : Instant) (q : Queue P) (allowedKinds locked) :
    q.Follows now ((QueueOp.deadLetterExpired allowedKinds locked).run now q).2 := by
  simp only [QueueOp.run, Queue.deadLetterExpiredJob]
  split
  · exact .refl now q
  · split
    · exact .refl now q
    next j hj =>
      obtain ⟨hmem, hp⟩ := Table.first?_eq_some hj
      have hrunning : j.status = .running := by
        simp only [JobRow.exhausted, JobRow.leaseExpired, Bool.and_eq_true, beq_iff_eq] at hp
        exact hp.1.1.1
      refine .updateJob fun k hk hid _ => ?_
      have hsame : k = j := Table.eq_of_key hk hmem hid
      rw [hsame]
      exact .of_not_succeeded rfl rfl rfl rfl (.inr (.inr rfl)) (by rw [hrunning]; decide)

theorem follows_act (now : Instant) (q : Queue P) (worker : String) (e : Execution) (call : ExecutionCall P) :
    q.Follows now ((call.op worker e).run now q).2 := by
  cases call with
  | heartbeat | lockAndRenew | lockRunning | updatePayload =>
    exact .updateJob fun j _ _ _ => ⟨rfl, rfl, rfl, rfl, .inl rfl, fun h => h⟩
  | reschedule =>
    exact .updateJob fun j _ _ hg =>
      .of_not_succeeded rfl rfl rfl rfl (.inl rfl) (JobRow.not_succeeded_of_owned (JobRow.ownedBy_of_attempt hg))
  | complete => exact .updateJob fun j _ _ _ => ⟨rfl, rfl, rfl, rfl, .inr (.inr rfl), fun _ => rfl⟩
  | fail =>
    refine .updateJob fun j _ _ hg => .of_not_succeeded rfl rfl rfl rfl ?_ (JobRow.not_succeeded_of_owned hg)
    simp only [Queue.failed]
    by_cases hdead : j.maxAttempts ≤ j.attempts
    · simp [hdead]
    · simp [hdead]

end Statements

/-! ## The invariant -/

/-- The seconds between two slots of a definition. -/
def JobDefinition.interval (d : JobDefinition) : Nat := (d.periodicIntervalSeconds.getD 0).toNat

/-- Every interval is at most the time its rows are kept. -/
def Settings.Covers (settings : Settings) : Prop :=
  ∀ d ∈ defaultRegistry settings, (d.interval : Int) ≤ 86400 * settings.backgroundJobPruneSucceededAfterDays ∧
    (d.neverPruneDead = false → (d.interval : Int) ≤ 86400 * settings.backgroundJobPruneDeadAfterDays)

/-- The slot started an interval and more ago. -/
def Over (d : JobDefinition) (slot : Nat) (clock : Instant) : Prop :=
  ∃ t, slot ≤ Posix.seconds t ∧ t + d.interval * 1000000 < clock

def HasRow (q : Queue P) (kind : String) (slot : Nat) : Prop :=
  ∃ j ∈ q.rows, j.dedupeKey = .some (periodicDedupeKey kind slot)

/-- What is kept of a slot that was enqueued. -/
def Kept (settings : Settings) (q : Queue P) (clock : Instant) (x : Slot) : Prop :=
  Posix.InRange x.2 ∧ ∃ d ∈ defaultRegistry settings, d.kind = x.1 ∧ (HasRow q x.1 x.2 ∨ Over d x.2 clock)

structure PeriodicOk (settings : Settings) (s : PeriodicState P) : Prop where
  /-- `idx_background_jobs_dedupe_key_unique` -/
  unique : ∀ j ∈ s.queue.rows, ∀ j' ∈ s.queue.rows, j.dedupeKey = j'.dedupeKey → j.dedupeKey ≠ .none → j = j'
  created : ∀ j ∈ s.queue.rows, j.createdAt ≤ s.clock ∧ ∀ f, j.finishedAt = .some f → j.createdAt ≤ f
  slotted : ∀ j ∈ s.queue.rows, ∀ kind slot, Posix.InRange slot → j.dedupeKey = .some (periodicDedupeKey kind slot) →
    (kind, slot) ∈ s.inserted ∧ j.kind = kind ∧ slot ≤ Posix.seconds j.createdAt
  kept : ∀ x ∈ s.inserted, Kept settings s.queue s.clock x
  once : s.inserted.Nodup
  completed : ∀ kind slot, Posix.InRange slot → periodicDedupeKey kind slot ∈ s.completed →
    (kind, slot) ∈ s.inserted ∧
      ∀ j ∈ s.queue.rows, j.dedupeKey = .some (periodicDedupeKey kind slot) → j.status = .succeeded
  completedOnce : ∀ kind slot, Posix.InRange slot → s.completed.count (periodicDedupeKey kind slot) ≤ 1

section Invariant

variable {settings : Settings} {s : PeriodicState P} {now : Instant}

theorem Over.mono {d : JobDefinition} {slot : Nat} {clock clock' : Instant} (h : Over d slot clock) (hle : clock ≤ clock') :
    Over d slot clock' := by
  obtain ⟨t, hslot, hover⟩ := h
  exact ⟨t, hslot, lt_of_lt_of_le hover hle⟩

theorem Over.le_seconds {d : JobDefinition} {slot : Nat} (h : Over d slot now) : slot + d.interval ≤ Posix.seconds now := by
  obtain ⟨t, hslot, hover⟩ := h
  exact Posix.add_le_seconds hslot hover

theorem PeriodicOk.of_workers (h : PeriodicOk settings s) {t : PeriodicState P} (hqueue : t.queue = s.queue)
    (hclock : s.clock ≤ t.clock) (hinserted : t.inserted = s.inserted) (hcompleted : t.completed = s.completed) :
    PeriodicOk settings t where
  unique := by rw [hqueue]; exact h.unique
  created j hj := by
    rw [hqueue] at hj
    exact ⟨le_trans (h.created j hj).1 hclock, (h.created j hj).2⟩
  slotted := by rw [hqueue, hinserted]; exact h.slotted
  kept x hx := by
    rw [hinserted] at hx
    obtain ⟨hrange, d, hd, hkind, hrow⟩ := h.kept x hx
    rw [hqueue]
    exact ⟨hrange, d, hd, hkind, hrow.imp_right fun hover => hover.mono hclock⟩
  once := by rw [hinserted]; exact h.once
  completed := by rw [hqueue, hinserted, hcompleted]; exact h.completed
  completedOnce := by rw [hcompleted]; exact h.completedOnce

theorem PeriodicOk.of_follows (h : PeriodicOk settings s) {t : PeriodicState P} (hqueue : s.queue.Follows now t.queue)
    (hnow : s.clock ≤ now) (hclock : t.clock = now) (hinserted : t.inserted = s.inserted)
    (hcompleted : t.completed = s.completed) : PeriodicOk settings t := by
  constructor
  case unique =>
    intro j hj j' hj' hkey hsome
    obtain ⟨k, hk, hfollows⟩ := hqueue.old j hj
    obtain ⟨k', hk', hfollows'⟩ := hqueue.old j' hj'
    rw [hfollows.dedupeKey, hfollows'.dedupeKey] at hkey
    rw [hfollows.dedupeKey] at hsome
    have hsame := h.unique k hk k' hk' hkey hsome
    exact Table.eq_of_key hj hj' (by rw [hfollows.id, hfollows'.id, hsame])
  case created =>
    intro j hj
    obtain ⟨k, hk, hfollows⟩ := hqueue.old j hj
    obtain ⟨hle, hfinished⟩ := h.created k hk
    rw [hfollows.createdAt, hclock]
    refine ⟨le_trans hle hnow, fun f hf => ?_⟩
    rcases hfollows.finishedAt with hkeep | hnone | hsome
    · exact hfinished f (hkeep.symm.trans hf)
    · rw [hnone] at hf; cases hf
    · rw [hsome] at hf
      obtain rfl := Option.some.inj hf
      exact le_trans hle hnow
  case slotted =>
    intro j hj kind slot hrange hkey
    obtain ⟨k, hk, hfollows⟩ := hqueue.old j hj
    rw [hfollows.dedupeKey] at hkey
    rw [hfollows.kind, hfollows.createdAt, hinserted]
    exact h.slotted k hk kind slot hrange hkey
  case kept =>
    intro x hx
    rw [hinserted] at hx
    obtain ⟨hrange, d, hd, hkind, hrow⟩ := h.kept x hx
    refine ⟨hrange, d, hd, hkind, ?_⟩
    rcases hrow with ⟨k, hk, hkey⟩ | hover
    · obtain ⟨j, hj, hfollows⟩ := hqueue.kept k hk
      exact .inl ⟨j, hj, hfollows.dedupeKey.trans hkey⟩
    · exact .inr (hover.mono (by rw [hclock]; exact hnow))
  case once => rw [hinserted]; exact h.once
  case completed =>
    intro kind slot hrange hmem
    rw [hcompleted] at hmem
    obtain ⟨hin, hdone⟩ := h.completed kind slot hrange hmem
    rw [hinserted]
    refine ⟨hin, fun j hj hkey => ?_⟩
    obtain ⟨k, hk, hfollows⟩ := hqueue.old j hj
    exact hfollows.succeeded (hdone k hk (hfollows.dedupeKey.symm.trans hkey))
  case completedOnce => rw [hcompleted]; exact h.completedOnce

theorem over_of_prunable (hcovers : settings.Covers) {d : JobDefinition} (hd : d ∈ defaultRegistry settings) {j : JobRow P}
    (hkind : j.kind = d.kind) {slot : Nat} (hslot : slot ≤ Posix.seconds j.createdAt)
    (hcreated : ∀ f, j.finishedAt = .some f → j.createdAt ≤ f)
    (h : Queue.prunable now settings.backgroundJobPruneSucceededAfterDays settings.backgroundJobPruneDeadAfterDays
      (excludedDeadKinds settings) j = true) : Over d slot now := by
  obtain ⟨hsucceeded, hdead⟩ := hcovers d hd
  have hdays : ∀ days : Int, (d.interval : Int) ≤ 86400 * days →
      (j.finishedAt.any fun at_ => decide (at_ + (max days 1).toNat * microsecondsPerDay < now)) = true →
      Over d slot now := by
    intro days hle hbefore
    obtain ⟨f, hf, hlt⟩ := (Option.any_eq_true _ _).1 hbefore
    rw [decide_eq_true_eq] at hlt
    refine ⟨j.createdAt, hslot, ?_⟩
    have hday : (max days 1).toNat * microsecondsPerDay = (max days 1).toNat * 86400 * 1000000 := by
      unfold microsecondsPerDay microsecondsPerSecond
      omega
    rw [hday] at hlt
    refine lt_of_le_of_lt (Nat.add_le_add_right (hcreated f hf) _) (lt_of_le_of_lt ?_ hlt)
    omega
  simp only [Queue.prunable, Bool.or_eq_true, Bool.and_eq_true, Bool.not_eq_true'] at h
  rcases h with ⟨-, hbefore⟩ | ⟨⟨-, hbefore⟩, hkept⟩
  · exact hdays _ hsucceeded hbefore
  · refine hdays _ (hdead ?_) hbefore
    by_contra hnever
    have hmem : j.kind ∈ excludedDeadKinds settings :=
      List.mem_map.2 ⟨d, List.mem_filter.2 ⟨hd, by simpa using hnever⟩, hkind.symm⟩
    rw [← Bool.not_eq_true, List.contains_iff_mem] at hkept
    exact hkept hmem

/-- **A pruning keeps what is known of slots**, when the retention covers them. -/
theorem PeriodicOk.prune (h : PeriodicOk settings s) (hcovers : settings.Covers) {t : PeriodicState P} {p : JobRow P → Bool}
    (hqueue : t.queue = s.queue.deleteWhere p)
    (hp : ∀ j ∈ s.queue.rows, p j = true → Queue.prunable now settings.backgroundJobPruneSucceededAfterDays
      settings.backgroundJobPruneDeadAfterDays (excludedDeadKinds settings) j = true)
    (hnow : s.clock ≤ now) (hclock : t.clock = now) (hinserted : t.inserted = s.inserted)
    (hcompleted : t.completed = s.completed) : PeriodicOk settings t := by
  have hsub : ∀ j ∈ t.queue.rows, j ∈ s.queue.rows := by
    intro j hj
    rw [hqueue] at hj
    exact (Table.mem_deleteWhere.1 hj).1
  constructor
  case unique => exact fun j hj j' hj' => h.unique j (hsub j hj) j' (hsub j' hj')
  case created =>
    intro j hj
    obtain ⟨hle, hfinished⟩ := h.created j (hsub j hj)
    exact ⟨by rw [hclock]; exact le_trans hle hnow, hfinished⟩
  case slotted =>
    intro j hj
    rw [hinserted]
    exact h.slotted j (hsub j hj)
  case kept =>
    intro x hx
    rw [hinserted] at hx
    obtain ⟨hrange, d, hd, hkind, hrow⟩ := h.kept x hx
    refine ⟨hrange, d, hd, hkind, ?_⟩
    rw [hclock]
    rcases hrow with ⟨j, hj, hkey⟩ | hover
    · cases hdelete : p j with
      | false =>
        refine .inl ⟨j, ?_, hkey⟩
        rw [hqueue]
        exact Table.mem_deleteWhere.2 ⟨hj, hdelete⟩
      | true =>
        obtain ⟨-, hjkind, hslot⟩ := h.slotted j hj x.1 x.2 hrange hkey
        exact .inr (over_of_prunable hcovers hd (hjkind.trans hkind.symm) hslot (h.created j hj).2 (hp j hj hdelete))
    · exact .inr (hover.mono hnow)
  case once => rw [hinserted]; exact h.once
  case completed =>
    intro kind slot hrange hmem
    rw [hcompleted] at hmem
    rw [hinserted]
    obtain ⟨hin, hdone⟩ := h.completed kind slot hrange hmem
    exact ⟨hin, fun j hj => hdone j (hsub j hj)⟩
  case completedOnce => rw [hcompleted]; exact h.completedOnce

theorem PeriodicOk.insert (h : PeriodicOk settings s) {t : PeriodicState P} {row : JobRow P}
    (hins : s.queue.insert? row = .some t.queue)
    (hfree : ∀ j ∈ s.queue.rows, j.dedupeKey = row.dedupeKey → row.dedupeKey = .none) (hcreated : row.createdAt = now)
    (hfinished : row.finishedAt = .none) (hnow : s.clock ≤ now) (hclock : t.clock = now)
    (hcompleted : t.completed = s.completed) (hsub : ∀ x ∈ s.inserted, x ∈ t.inserted)
    (hnew : ∀ x ∈ t.inserted, x ∈ s.inserted ∨ Kept settings t.queue now x) (honce : t.inserted.Nodup)
    (hslotted : ∀ kind slot, Posix.InRange slot → row.dedupeKey = .some (periodicDedupeKey kind slot) →
      (kind, slot) ∈ t.inserted ∧ row.kind = kind ∧ slot ≤ Posix.seconds now ∧
        periodicDedupeKey kind slot ∉ s.completed) : PeriodicOk settings t := by
  have hrows := (Table.insert?_eq_some.1 hins).2
  have hmem : ∀ j ∈ t.queue.rows, j = row ∨ j ∈ s.queue.rows := by
    intro j hj
    rw [hrows] at hj
    exact List.mem_cons.1 hj
  constructor
  case unique =>
    intro j hj j' hj' hkey hsome
    rcases hmem j hj with rfl | hjs <;> rcases hmem j' hj' with rfl | hjs'
    · rfl
    · exact absurd (hfree j' hjs' hkey.symm) hsome
    · exact absurd (hkey.trans (hfree j hjs hkey)) hsome
    · exact h.unique j hjs j' hjs' hkey hsome
  case created =>
    intro j hj
    rw [hclock]
    rcases hmem j hj with rfl | hjs
    · exact ⟨le_of_eq hcreated, fun f hf => by rw [hfinished] at hf; cases hf⟩
    · exact ⟨le_trans (h.created j hjs).1 hnow, (h.created j hjs).2⟩
  case slotted =>
    intro j hj kind slot hrange hkey
    rcases hmem j hj with rfl | hjs
    · obtain ⟨hin, hkind, hslot, -⟩ := hslotted kind slot hrange hkey
      exact ⟨hin, hkind, by rw [hcreated]; exact hslot⟩
    · obtain ⟨hin, hrest⟩ := h.slotted j hjs kind slot hrange hkey
      exact ⟨hsub _ hin, hrest⟩
  case kept =>
    intro x hx
    rw [hclock]
    rcases hnew x hx with hx | hkept
    · obtain ⟨hrange, d, hd, hkind, hrow⟩ := h.kept x hx
      refine ⟨hrange, d, hd, hkind, ?_⟩
      rcases hrow with ⟨j, hj, hkey⟩ | hover
      · exact .inl ⟨j, by rw [hrows]; exact List.mem_cons_of_mem _ hj, hkey⟩
      · exact .inr (hover.mono hnow)
    · exact hkept
  case once => exact honce
  case completed =>
    intro kind slot hrange hdone
    rw [hcompleted] at hdone
    obtain ⟨hin, hall⟩ := h.completed kind slot hrange hdone
    refine ⟨hsub _ hin, fun j hj hkey => ?_⟩
    rcases hmem j hj with rfl | hjs
    · exact absurd hdone (hslotted kind slot hrange hkey).2.2.2
    · exact hall j hjs hkey
  case completedOnce => rw [hcompleted]; exact h.completedOnce

theorem definition_of_kind {d d' : JobDefinition} (hd : d ∈ defaultRegistry settings) (hd' : d' ∈ defaultRegistry settings)
    (h : d.kind = d'.kind) : d = d' := List.inj_on_of_nodup_map (kinds_nodup settings) hd hd' h

/-- **A slot not over that has no row was never enqueued**, so a tick may. -/
theorem PeriodicOk.not_inserted (h : PeriodicOk settings s) (hnow : s.clock ≤ now) {d : JobDefinition}
    (hd : d ∈ defaultRegistry settings) (hpos : 0 < d.interval)
    (hfree : ¬HasRow s.queue d.kind (periodicSlotStart now d.interval)) :
    (d.kind, periodicSlotStart now d.interval) ∉ s.inserted := by
  intro hin
  obtain ⟨-, d', hd', hkind, hrow | hover⟩ := h.kept _ hin
  · exact hfree hrow
  · obtain rfl : d' = d := definition_of_kind hd' hd hkind
    have hle := (hover.mono hnow).le_seconds
    have hlt := lt_periodicSlotStart_add now hpos
    omega

end Invariant

/-! ## The step -/

section Steps

variable [SchedulerPayload P] [DecidableEq P] {settings : Settings} {s t : PeriodicState P} {now : Instant}

omit [DecidableEq P] in
theorem PeriodicOk.enqueueDue {workerId : String} {newId : String → Uuid} : ∀ {definitions : List JobDefinition}
    {s : PeriodicState P} {r : List Slot × Queue P}, PeriodicOk settings s → s.clock = now →
    (∀ d ∈ definitions, d ∈ defaultRegistry settings ∧ 0 < d.interval) →
    enqueueDue now workerId newId definitions (s.inserted, s.queue) = .some r →
    PeriodicOk settings { s with inserted := r.1, queue := r.2 }
  | [], s, r, h, _, _, hrun => by
    cases hrun
    exact h
  | d :: definitions, s, r, h, hclock, hall, hrun => by
    obtain ⟨hd, hpos⟩ := hall d List.mem_cons_self
    have hrest := fun d' hd' => hall d' (List.mem_cons_of_mem _ hd')
    unfold Jobs.enqueueDue at hrun
    simp only at hrun
    split at hrun
    · cases hrun
    next hrange =>
      have hrange := not_not.1 hrange
      split at hrun
      · cases hrun
      next row wasInserted queue henqueue =>
        unfold Queue.enqueueUniqueJob at henqueue
        split at henqueue
        next existing hfound =>
          cases henqueue
          exact PeriodicOk.enqueueDue h hclock hrest hrun
        next hnone =>
          obtain ⟨⟨row', queue'⟩, hinsert, heq⟩ := Option.map_eq_some_iff.1 henqueue
          cases heq
          obtain ⟨-, rfl, hins⟩ := enqueueJob_ok hinsert
          have hfree := findDedupe_eq_none hnone
          have hnew := h.not_inserted (le_of_eq hclock) hd hpos fun ⟨j, hj, hkey⟩ => hfree j hj hkey
          have hrow := (Table.insert?_eq_some.1 hins).2
          have hstep : PeriodicOk settings { s with
              inserted := (d.kind, periodicSlotStart now d.interval) :: s.inserted, queue := queue } := by
            refine h.insert hins (fun j hj hkey => absurd hkey (hfree j hj)) rfl rfl (le_of_eq hclock) hclock rfl
              (fun x hx => List.mem_cons_of_mem _ hx) ?_ (List.nodup_cons.2 ⟨hnew, h.once⟩) ?_
            · intro x hx
              rcases List.mem_cons.1 hx with rfl | hx
              · exact .inr ⟨hrange, d, hd, rfl, .inl ⟨_, by rw [hrow]; exact List.mem_cons_self, rfl⟩⟩
              · exact .inl hx
            · intro kind slot hslotRange hkey
              obtain ⟨rfl, rfl⟩ := periodicDedupeKey_injective hrange hslotRange (Option.some.inj hkey)
              exact ⟨List.mem_cons_self, rfl, periodicSlotStart_le now d.interval,
                fun hdone => hnew (h.completed _ _ hrange hdone).1⟩
          have hdone := PeriodicOk.enqueueDue hstep hclock hrest hrun
          exact hdone

theorem PeriodicOk.work (h : PeriodicOk settings s) (hnow : s.clock ≤ now) {ev : WorkersEvent P}
    (hrun : s.work now ev .none = .some t)
    (hqueue : ∀ workers, s.toWorkersState.next (now, ev) = .some workers → s.queue.Follows now workers.queue) :
    PeriodicOk settings t := by
  obtain ⟨workers, hnext, rfl⟩ := Option.map_eq_some_iff.1 hrun
  exact h.of_follows (hqueue workers hnext) hnow rfl rfl rfl

omit [SchedulerPayload P] [DecidableEq P] in
theorem follows_claimed {worker : String} {r : Option (JobRow P × Queue P)} {m : Move}
    (h : s.queue.Follows now (movedRow s.queue m r).2) : s.queue.Follows now (s.toWorkersState.claimed worker r).queue := by
  cases r with
  | none => exact .refl now _
  | some r => exact h

/-- A completed job's key is that of no job completed before, and from now on
its row has succeeded. -/
theorem PeriodicOk.complete (h : PeriodicOk settings s) (hnow : s.clock ≤ now) {worker : String} {call : ExecutionCall P}
    (hrun : s.work now (.act worker call) (completedKey s.toWorkersState now worker call) = .some t) :
    PeriodicOk settings t := by
  obtain ⟨workers, hnext, rfl⟩ := Option.map_eq_some_iff.1 hrun
  simp only [WorkersState.next, Option.map_eq_some_iff] at hnext
  obtain ⟨e, he, rfl⟩ := hnext
  have hfollows := follows_act now s.queue worker e call
  have hbase : PeriodicOk settings
      ({ s with queue := ((call.op worker e).run now s.queue).2, clock := now } : PeriodicState P) :=
    h.of_follows hfollows hnow rfl rfl rfl
  cases hkey : completedKey s.toWorkersState now worker call with
  | none => exact ⟨hbase.unique, hbase.created, hbase.slotted, hbase.kept, hbase.once, hbase.completed, hbase.completedOnce⟩
  | some key =>
    -- the row was running, so no job of its key had been completed
    unfold completedKey at hkey
    cases call with
    | complete resultPayload =>
      simp only [he, Option.bind_eq_bind, Option.bind_some, Option.bind_eq_some_iff] at hkey
      obtain ⟨j, hfind, ⟨row, queue⟩, hcomplete, hdedupe⟩ := hkey
      obtain ⟨j', hfind', hguard, rfl, hafter⟩ := Queue.updateJob_spec hcomplete
      obtain rfl : j = j' := Option.some.inj (hfind.symm.trans hfind')
      obtain ⟨hmem, hid⟩ := Table.find?_eq_some.1 hfind
      have hqueue : (((ExecutionCall.complete resultPayload).op worker e).run now s.queue).2 = queue := by
        show (movedRow s.queue .settle (s.queue.completeJob now e.jobId worker resultPayload)).2 = queue
        rw [hcomplete]
        rfl
      have hfresh : ∀ kind slot, Posix.InRange slot → key = periodicDedupeKey kind slot → key ∉ s.completed := by
        rintro kind slot hrange rfl hdone
        have hsucceeded := (h.completed kind slot hrange hdone).2 j hmem hdedupe
        exact JobRow.not_succeeded_of_owned hguard hsucceeded
      refine ⟨hbase.unique, hbase.created, hbase.slotted, hbase.kept, hbase.once, ?_, ?_⟩
      · intro kind slot hrange hdone
        rcases List.mem_cons.1 hdone with hnew | hold
        · refine ⟨(h.slotted j hmem kind slot hrange (hdedupe.trans (congrArg Option.some hnew.symm))).1, ?_⟩
          intro k hk hkkey
          -- the key is the completed row's alone
          have hown : queue.find? e.jobId = .some _ := (hafter e.jobId).trans (if_pos rfl)
          have hrow := (Table.find?_eq_some.1 hown).1
          rw [← hqueue] at hrow
          have hunique := hbase.unique k hk _ hrow
          have hsame := hunique (hkkey.trans (hdedupe.trans (congrArg Option.some hnew.symm)).symm)
            (by rw [hkkey]; exact Option.some_ne_none _)
          rw [hsame]
        · exact hbase.completed kind slot hrange hold
      · intro kind slot hrange
        show (key :: s.completed).count _ ≤ 1
        by_cases hsame : key = periodicDedupeKey kind slot
        · have hnone := List.count_eq_zero_of_not_mem (hfresh kind slot hrange hsame)
          rw [hsame] at hnone ⊢
          rw [List.count_cons_self, hnone]
        · rw [List.count_cons_of_ne hsame]
          exact h.completedOnce kind slot hrange
    | heartbeat | lockAndRenew | lockRunning | updatePayload | reschedule | fail => cases hkey

omit [SchedulerPayload P] [DecidableEq P] in
theorem mem_scheduled {allowedKinds : Option (List String)} {d : JobDefinition} (h : d ∈ scheduled settings allowedKinds) :
    d ∈ defaultRegistry settings ∧ 0 < d.interval := by
  obtain ⟨hd, hp⟩ := List.mem_filter.1 h
  obtain ⟨seconds, hs, hpos⟩ := (Option.any_eq_true _ _).1 (Bool.and_eq_true_iff.1 hp).1
  rw [decide_eq_true_eq] at hpos
  refine ⟨hd, ?_⟩
  unfold JobDefinition.interval
  rw [hs, Option.getD_some]
  omega

theorem PeriodicOk.enqueueOther (h : PeriodicOk settings s) (hnow : s.clock ≤ now)
    {jobId : Uuid} {kind : String} {payload : P} {priority maxAttempts : Int} {availableAt : Option Instant}
    {dedupeKey : Option String} (hkey : ¬∃ key ∈ dedupeKey, "periodic:".toList.isPrefixOf key.toList)
    (hrun : s.work now (.outside (.enqueue jobId kind payload priority maxAttempts availableAt dedupeKey)) .none = .some t) :
    PeriodicOk settings t := by
  obtain ⟨workers, hnext, rfl⟩ := Option.map_eq_some_iff.1 hrun
  have hworkers := Option.some.inj hnext
  subst hworkers
  simp only [QueueOp.run]
  cases hins : s.queue.enqueueJob now jobId kind payload priority maxAttempts availableAt dedupeKey with
  | none => exact h.of_workers rfl hnow rfl rfl
  | some r =>
    obtain ⟨row, queue⟩ := r
    obtain ⟨hfree, rfl, hinsert⟩ := enqueueJob_ok hins
    refine h.insert hinsert hfree rfl rfl hnow rfl rfl (fun _ hx => hx) (fun _ hx => .inl hx) h.once ?_
    intro kind' slot _ hslot
    refine absurd ⟨_, hslot, ?_⟩ hkey
    rw [List.isPrefixOf_iff_prefix]
    exact ⟨_, (String.toList_ofList).symm⟩

theorem PeriodicOk.pruneTerminal (h : PeriodicOk settings s) (hcovers : settings.Covers) (hnow : s.clock ≤ now)
    {locked : List Uuid} (hrun : s.work now (.outside (pruneOp settings locked)) .none = .some t) :
    PeriodicOk settings t := by
  obtain ⟨workers, hnext, rfl⟩ := Option.map_eq_some_iff.1 hrun
  have hworkers := Option.some.inj hnext
  subst hworkers
  refine h.prune hcovers rfl ?_ hnow rfl rfl rfl
  intro j hj hchosen
  obtain ⟨k, hk, hid⟩ := List.mem_map.1 (List.contains_iff_mem.1 hchosen)
  obtain ⟨hkmem, hkp⟩ := List.mem_filter.1 (List.mem_mergeSort.1 (List.mem_of_mem_take hk))
  obtain rfl : k = j := Table.eq_of_key hkmem hj hid
  exact (Bool.and_eq_true_iff.1 hkp).1

/-- **A step of a run keeps what is known of slots.** -/
theorem PeriodicOk.step (hcovers : settings.Covers) (h : PeriodicOk settings s) {e : Instant × PeriodicEvent P}
    (hs : s.next settings e = .some t) : PeriodicOk settings t := by
  obtain ⟨now, ev⟩ := e
  unfold PeriodicState.next at hs
  split at hs
  · cases hs
  next hclock =>
    have hnow : s.clock ≤ now := Nat.le_of_not_lt hclock
    cases ev with
    | tick workerId allowedKinds newId =>
      obtain ⟨r, hrun, rfl⟩ := Option.map_eq_some_iff.1 hs
      unfold runSchedulerOnce at hrun
      split at hrun
      · have hlater : PeriodicOk settings { s with clock := now } := h.of_workers rfl hnow rfl rfl
        exact hlater.enqueueDue rfl (fun d => mem_scheduled) hrun
      · cases hrun
    | claimNext worker leaseSeconds allowedKinds locked =>
      refine h.work hnow hs fun workers hnext => ?_
      simp only [WorkersState.next] at hnext
      split at hnext
      · cases hnext
      · obtain rfl := Option.some.inj hnext
        exact follows_claimed (follows_claimNext now s.queue worker leaseSeconds allowedKinds locked)
    | claimExact jobId worker leaseSeconds allowedKinds =>
      refine h.work hnow hs fun workers hnext => ?_
      simp only [WorkersState.next] at hnext
      split at hnext
      · cases hnext
      · obtain rfl := Option.some.inj hnext
        exact follows_claimed (follows_claim now s.queue jobId worker leaseSeconds allowedKinds)
    | act worker call => exact h.complete hnow hs
    | stop worker =>
      refine h.work hnow hs fun workers hnext => ?_
      obtain rfl := Option.some.inj hnext
      exact .refl now _
    | deadLetterExpired allowedKinds locked =>
      refine h.work hnow hs fun workers hnext => ?_
      obtain rfl := Option.some.inj hnext
      exact follows_deadLetterExpired now s.queue allowedKinds locked
    | prune locked => exact h.pruneTerminal hcovers hnow hs
    | enqueue jobId kind payload priority maxAttempts availableAt dedupeKey =>
      simp only at hs
      split at hs
      · cases hs
      next hkey => exact h.enqueueOther hnow hkey hs

omit [SchedulerPayload P] [DecidableEq P] in
theorem PeriodicOk.noJobs : PeriodicOk settings (noJobs : PeriodicState P) where
  unique _ hj := by cases hj
  created _ hj := by cases hj
  slotted _ hj := by cases hj
  kept _ hx := by cases hx
  once := List.nodup_nil
  completed _ _ _ hc := by cases hc
  completedOnce _ _ _ := Nat.zero_le _

/-- **A slot is inserted at most once and succeeds at most once**, in every run
of ticks, workers and prunings whose settings keep finished rows an interval. -/
theorem slot_once {settings : Settings} (hcovers : settings.Covers) {s : PeriodicState P}
    (hs : (periodicSystem settings).Reachable s) :
    s.inserted.Nodup ∧ ∀ x ∈ s.inserted, s.completed.count (periodicDedupeKey x.1 x.2) ≤ 1 := by
  have hok : PeriodicOk settings s := hs.invariant
    (fun s h0 => by rw [h0]; exact .noJobs) fun s e t hstep h => h.step hcovers hstep
  exact ⟨hok.once, fun x hx => hok.completedOnce x.1 x.2 (hok.kept x hx).1⟩

end Steps

/-! ## Retention shorter than an interval -/

instance : SchedulerPayload FlatObject where
  periodic requestId workerId := [("request_id", requestId), ("scheduler_identity", workerId)]

/-- The default settings, with a daily pruning and the sweep's interval left open. -/
def sweepEvery (seconds : Int) : Settings where
  podcastRefreshDueScheduleSeconds := 900
  ingestReconcileScheduleSeconds := 600
  syncGutenbergCatalogScheduleSeconds := 0
  backgroundJobPruneScheduleSeconds := 86400
  dawnWriteScheduleSeconds := 3600
  atlasProjectScheduleSeconds := 0
  storageOrphanSweepIntervalSeconds := seconds
  backgroundJobPruneSucceededAfterDays := 7
  backgroundJobPruneDeadAfterDays := 30
  backgroundJobPruneBatchSize := 100

/-- A sweep enqueued and completed, its row pruned a week later, and the same
once more two days on. -/
def sweptAgain : List (Instant × PeriodicEvent FlatObject) :=
  let tick := fun id : Uuid => PeriodicEvent.tick "w" (.some ["storage_orphan_sweep"]) fun _ => id
  [(0, tick 7), (0, .claimExact 7 "w" 60 .none), (1000000, .act "w" (.complete .none)), (1000000, .stop "w"),
    (8 * microsecondsPerDay, .prune []), (9 * microsecondsPerDay, tick 8),
    (9 * microsecondsPerDay, .claimExact 8 "w" 60 .none),
    (9 * microsecondsPerDay + 1000000, .act "w" (.complete .none))]

def sweptState (seconds : Int) : PeriodicState FlatObject :=
  last noJobs (replay (PeriodicState.next (sweepEvery seconds)) noJobs sweptAgain)

theorem reachable_sweptState (seconds : Int) : (periodicSystem (sweepEvery seconds)).Reachable (sweptState seconds) :=
  System.reachable_replay sweptAgain rfl

theorem covers_sweepEvery : (sweepEvery 21600).Covers := by
  intro d hd
  revert d
  decide +kernel

theorem slot_once_sample : (sweptState 21600).inserted.length = 2 ∧ (sweptState 21600).completed.length = 2 ∧
    (sweptState 21600).inserted.Nodup ∧
    ∀ x ∈ (sweptState 21600).inserted, (sweptState 21600).completed.count (periodicDedupeKey x.1 x.2) ≤ 1 :=
  ⟨by decide +kernel, by decide +kernel,
    slot_once covers_sweepEvery (reachable_sweptState 21600)⟩

/-- A month between sweeps, and a week until their rows are pruned. -/
theorem slot_twice : (sweepEvery 2592000).Valid ∧
    (periodicSystem (sweepEvery 2592000)).Reachable (sweptState 2592000) ∧ ¬(sweptState 2592000).inserted.Nodup ∧
    (sweptState 2592000).completed.count (periodicDedupeKey "storage_orphan_sweep" 0) = 2 :=
  ⟨by constructor <;> decide, reachable_sweptState 2592000, by decide +kernel, by decide +kernel⟩

end Nexus.Jobs
