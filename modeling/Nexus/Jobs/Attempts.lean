/-
Attempts: what a worker has of the job it runs, and what of it is true of the
job's row.

A worker runs one claim at a time, and a claim overwrites `claimed_by`, so a row
that is running under a worker's name is the row that worker claimed: it still
has the payload and the attempt number of the claim (`Runs`). `KeepsJobs` is
what a statement does that claims nothing and changes no payload, and `HasLive`
is that some job of a payload is still to be run.
-/
import Nexus.Jobs.Fencing

namespace Nexus.Jobs
open Relational

variable {P S : Type}

/-- A claim being executed: the row it returned, and where its handler stands. -/
structure Attempt (P S : Type) where
  jobId : Uuid
  attemptNo : Nat
  payload : P
  stage : S

def Attempt.context (a : Attempt P S) (worker : String) : JobExecutionContext := ⟨a.jobId, worker, a.attemptNo⟩

def Attempt.ofRow (job : JobRow P) (stage : S) : Attempt P S := ⟨job.id, job.attempts, job.payload, stage⟩

abbrev Attempts (P S : Type) := String → Option (Attempt P S)

/-! ## Rows -/

/-- The row is running under a worker's name. -/
def JobRow.heldBy (worker : String) (jobId : Uuid) (job : JobRow P) : Prop :=
  job.id = jobId ∧ job.status = .running ∧ job.claimedBy = .some worker

def JobRow.leasedAt (clock : Instant) (job : JobRow P) : Prop := ∃ lease, job.leaseExpiresAt = .some lease ∧ clock < lease

def JobRow.live (job : JobRow P) : Prop := job.status ≠ .succeeded ∧ job.status ≠ .dead

theorem JobRow.leasedAt.mono {clock clock' : Instant} {job : JobRow P} (h : job.leasedAt clock') (hle : clock ≤ clock') :
    job.leasedAt clock := by
  obtain ⟨lease, hlease, hlt⟩ := h
  exact ⟨lease, hlease, lt_of_le_of_lt hle hlt⟩

theorem JobRow.live_of_running {job : JobRow P} (h : job.status = .running) : job.live := by
  simp [JobRow.live, h]

/-- Dedupe keys are unique, and every job has one. -/
def UniqueKeys (q : Queue P) : Prop := ∀ j ∈ q.rows, ∀ k ∈ q.rows, j.dedupeKey = k.dedupeKey → j = k

/-- Some job of the payload is live. -/
def HasLive (q : Queue P) (payload : P) : Prop := ∃ job ∈ q.rows, job.payload = payload ∧ job.live

/-- A row running under a worker's name is the one the worker claimed. -/
def Runs (q : Queue P) (workers : Attempts P S) : Prop :=
  ∀ worker a, workers worker = .some a → ∀ j ∈ q.rows, j.heldBy worker a.jobId →
    j.payload = a.payload ∧ j.attempts = a.attemptNo

/-- The rows left are the same jobs, and run no more than before. -/
def KeepsJobs (clock : Instant) (q q' : Queue P) : Prop :=
  ∀ k ∈ q'.rows, ∃ j ∈ q.rows, j.id = k.id ∧ j.kind = k.kind ∧ j.payload = k.payload ∧ j.dedupeKey = k.dedupeKey ∧
    (k.status = .running → j.status = .running ∧ j.claimedBy = k.claimedBy ∧ j.attempts = k.attempts ∧
      (k.leasedAt clock → j.leasedAt clock))

/-! ## Statements that claim nothing -/

section Keeps

variable {clock : Instant} {q q' : Queue P}

theorem KeepsJobs.of_updateJob {jobId guard f hf row} (h : q.updateJob jobId guard f hf = .some (row, q'))
    (hkeep : ∀ j : JobRow P, guard j = true → (f j).kind = j.kind ∧ (f j).payload = j.payload ∧
      (f j).dedupeKey = j.dedupeKey ∧ ((f j).status = .running → j.status = .running ∧ j.claimedBy = (f j).claimedBy ∧
        j.attempts = (f j).attempts ∧ ((f j).leasedAt clock → j.leasedAt clock))) : KeepsJobs clock q q' := by
  obtain ⟨j, hj, -, hg, -, hmem⟩ := Queue.mem_updateJob h
  obtain ⟨hk, hp, hd, hr⟩ := hkeep j hg
  intro k hk'
  rcases (hmem k).1 hk' with rfl | ⟨hk', -⟩
  · exact ⟨j, hj, (hf j).symm, hk.symm, hp.symm, hd.symm, hr⟩
  · exact ⟨k, hk', rfl, rfl, rfl, rfl, fun hrun => ⟨hrun, rfl, rfl, id⟩⟩

theorem KeepsJobs.of_subset (h : ∀ k ∈ q'.rows, k ∈ q.rows) : KeepsJobs clock q q' := fun k hk =>
  ⟨k, h k hk, rfl, rfl, rfl, rfl, fun hrun => ⟨hrun, rfl, rfl, id⟩⟩

theorem UniqueKeys.keep (h : UniqueKeys q) (hkeep : KeepsJobs clock q q') : UniqueKeys q' := by
  intro j' hj' k' hk' hd
  obtain ⟨j, hj, hjid, -, -, hjd, -⟩ := hkeep j' hj'
  obtain ⟨k, hk, hkid, -, -, hkd, -⟩ := hkeep k' hk'
  have hjk : j = k := h j hj k hk (hjd.trans (hd.trans hkd.symm))
  exact Table.eq_of_key hj' hk' (by rw [← hjid, ← hkid, hjk])

theorem Runs.keep {workers : Attempts P S} (h : Runs q workers) (hkeep : KeepsJobs clock q q') : Runs q' workers := by
  intro w a ha k hk hheld
  obtain ⟨j, hj, hid, -, hpay, -, hrun⟩ := hkeep k hk
  obtain ⟨hr, hc, hat, -⟩ := hrun hheld.2.1
  obtain ⟨hp, hno⟩ := h w a ha j hj ⟨hid.trans hheld.1, hr, hc.trans hheld.2.2⟩
  exact ⟨hpay.symm.trans hp, hat.symm.trans hno⟩

theorem KeepsJobs.heldBy (hkeep : KeepsJobs clock q q') {worker jobId} {k : JobRow P} (hk : k ∈ q'.rows)
    (hheld : k.heldBy worker jobId) (hleased : k.leasedAt clock) :
    ∃ j ∈ q.rows, j.heldBy worker jobId ∧ j.leasedAt clock ∧ j.payload = k.payload := by
  obtain ⟨j, hj, hid, -, hpay, -, hrun⟩ := hkeep k hk
  obtain ⟨hr, hc, -, hl⟩ := hrun hheld.2.1
  exact ⟨j, hj, ⟨hid.trans hheld.1, hr, hc.trans hheld.2.2⟩, hl hleased, hpay⟩

theorem KeepsJobs.renew {jobId guard leaseSeconds row} (h : q.updateJob jobId guard (Queue.renew clock leaseSeconds) = .some (row, q'))
    (hguard : ∀ j : JobRow P, guard j = true → ∃ worker, j.ownedBy worker clock = true) : KeepsJobs clock q q' :=
  KeepsJobs.of_updateJob h fun j hg => by
    obtain ⟨worker, hown⟩ := hguard j hg
    obtain ⟨hr, -, hlease⟩ := JobRow.ownedBy_iff.1 hown
    exact ⟨rfl, rfl, rfl, fun _ => ⟨hr, rfl, rfl, fun _ => hlease⟩⟩

theorem KeepsJobs.heartbeatJob {jobId worker leaseSeconds row}
    (h : q.heartbeatJob clock jobId worker leaseSeconds = .some (row, q')) : KeepsJobs clock q q' :=
  KeepsJobs.renew h fun _ hg => ⟨worker, hg⟩

theorem KeepsJobs.lockAndRenew {context leaseSeconds row}
    (h : q.lockAndRenewRunningJobClaim clock context leaseSeconds = .some (row, q')) : KeepsJobs clock q q' :=
  KeepsJobs.renew h fun _ hg => ⟨context.workerId, JobRow.ownedBy_of_attempt hg⟩

theorem KeepsJobs.failJob {jobId worker errorCode errorMessage delays resultPayload row}
    (h : q.failJob clock jobId worker errorCode errorMessage delays resultPayload = .some (row, q')) :
    KeepsJobs clock q q' :=
  KeepsJobs.of_updateJob h fun j _ => ⟨rfl, rfl, rfl, fun hr => by
    simp only [Queue.failed] at hr
    split at hr <;> cases hr⟩

theorem KeepsJobs.completeJob {jobId worker resultPayload row}
    (h : q.completeJob clock jobId worker resultPayload = .some (row, q')) : KeepsJobs clock q q' :=
  KeepsJobs.of_updateJob h fun _ _ => ⟨rfl, rfl, rfl, fun hr => by cases hr⟩

theorem KeepsJobs.requeueDeadJob {jobId row} (h : q.requeueDeadJob clock jobId = .some (row, q')) : KeepsJobs clock q q' :=
  KeepsJobs.of_updateJob h fun _ _ => ⟨rfl, rfl, rfl, fun hr => by cases hr⟩

theorem deadLetterExpiredJob_eq {allowedKinds locked row}
    (h : q.deadLetterExpiredJob clock allowedKinds locked = .some (row, q')) :
    KeepsJobs clock q q' ∧ row.status = .dead ∧ ∃ jobId guard f hf, q.updateJob jobId guard f hf = .some (row, q') ∧
      ∀ j : JobRow P, (f j).payload = j.payload := by
  unfold Queue.deadLetterExpiredJob at h
  split at h
  · cases h
  · split at h
    · cases h
    · obtain ⟨j, -, -, -, hrow, -⟩ := Queue.mem_updateJob h
      refine ⟨KeepsJobs.of_updateJob h fun _ _ => ⟨rfl, rfl, rfl, fun hr => by cases hr⟩, ?_, _, _, _, _, h, fun _ => rfl⟩
      rw [hrow]

end Keeps

/-! ## Live jobs -/

section Live

variable {q q' : Queue P} {p : P}

theorem HasLive.updateJob {jobId guard f hf row} (h : q.updateJob jobId guard f hf = .some (row, q'))
    (hpayload : ∀ j : JobRow P, (f j).payload = j.payload) (hlive : HasLive q p) (hrow : row.payload = p → row.live) :
    HasLive q' p := by
  obtain ⟨j, hj, hid, -, rfl, hmem⟩ := Queue.mem_updateJob h
  obtain ⟨job, hjob, hp, hl⟩ := hlive
  by_cases heq : job.id = jobId
  · obtain rfl : job = j := Table.eq_of_key hjob hj (heq.trans hid.symm)
    have hpay : (f job).payload = p := (hpayload job).trans hp
    exact ⟨f job, (hmem _).2 (.inl rfl), hpay, hrow hpay⟩
  · exact ⟨job, (hmem job).2 (.inr ⟨hjob, heq⟩), hp, hl⟩

theorem HasLive.renew {now jobId guard leaseSeconds row}
    (h : q.updateJob jobId guard (Queue.renew now leaseSeconds) = .some (row, q')) (hlive : HasLive q p)
    (hguard : ∀ j : JobRow P, guard j = true → ∃ worker, j.ownedBy worker now = true) : HasLive q' p := by
  refine HasLive.updateJob h (fun _ => rfl) hlive fun _ => ?_
  obtain ⟨j, -, -, hg, rfl, -⟩ := Queue.mem_updateJob h
  obtain ⟨worker, hown⟩ := hguard j hg
  exact JobRow.live_of_running (JobRow.ownedBy_iff.1 hown).1

theorem HasLive.prune (hlive : HasLive q p) (now : Instant) (succeededAfterDays deadAfterDays limit : Int)
    (excludedDeadKinds : List String) (locked : List Uuid) :
    HasLive (q.pruneTerminalJobs now succeededAfterDays deadAfterDays limit excludedDeadKinds locked).2 p := by
  obtain ⟨job, hj, hp, hl⟩ := hlive
  refine ⟨job, Table.mem_deleteWhere.2 ⟨hj, ?_⟩, hp, hl⟩
  rw [Bool.eq_false_iff]
  intro hc
  rw [List.contains_iff_mem] at hc
  obtain ⟨k, hk, hid⟩ := List.mem_map.1 hc
  obtain ⟨hk, hprune⟩ := List.mem_filter.1 (List.mem_mergeSort.1 (List.mem_of_mem_take hk))
  obtain rfl : k = job := Table.eq_of_key hk hj hid
  simp only [Queue.prunable, Bool.and_eq_true, Bool.or_eq_true, beq_iff_eq] at hprune
  rcases hprune.1 with ⟨h, -⟩ | ⟨⟨h, -⟩, -⟩
  · exact hl.1 h
  · exact hl.2 h

theorem enqueueUniqueJob_fresh {now jobId kind payload dedupeKey priority maxAttempts availableAt job inserted}
    (h : q.enqueueUniqueJob now jobId kind payload dedupeKey priority maxAttempts availableAt = .some (job, inserted, q'))
    (hfresh : ∀ j ∈ q.rows, j.dedupeKey ≠ .some dedupeKey) :
    q'.rows = job :: q.rows ∧ job = Queue.newRow now jobId kind payload priority maxAttempts availableAt (.some dedupeKey) := by
  unfold Queue.enqueueUniqueJob at h
  split at h
  · rename_i existing hfound
    have hkey := List.find?_some hfound
    exact absurd (by simpa using hkey) (hfresh existing (List.mem_of_find?_eq_some hfound))
  · obtain ⟨⟨job', q₁⟩, henq, heq⟩ := Option.map_eq_some_iff.1 h
    simp only [Prod.mk.injEq] at heq
    obtain ⟨rfl, -, rfl⟩ := heq
    obtain ⟨-, hrow, hins⟩ := enqueueJob_ok henq
    exact ⟨(Table.insert?_eq_some.1 hins).2, hrow⟩

end Live

/-! ## New rows -/

section Insert

variable {q q' : Queue P} {job : JobRow P}

theorem UniqueKeys.insert (h : UniqueKeys q) (hrows : q'.rows = job :: q.rows)
    (hfresh : ∀ j ∈ q.rows, j.dedupeKey ≠ job.dedupeKey) : UniqueKeys q' := by
  intro j hj k hk hd
  rw [hrows] at hj hk
  rcases List.mem_cons.1 hj with rfl | hj₀ <;> rcases List.mem_cons.1 hk with rfl | hk₀
  · rfl
  · exact absurd hd.symm (hfresh k hk₀)
  · exact absurd hd (hfresh j hj₀)
  · exact h j hj₀ k hk₀ hd

theorem JobRow.mem_of_heldBy (hrows : q'.rows = job :: q.rows) (hpending : job.status = .pending) {worker jobId} {k : JobRow P}
    (hk : k ∈ q'.rows) (hheld : k.heldBy worker jobId) : k ∈ q.rows := by
  rw [hrows] at hk
  rcases List.mem_cons.1 hk with rfl | hk
  · rw [hheld.2.1] at hpending
    cases hpending
  · exact hk

theorem Runs.insert {workers : Attempts P S} (h : Runs q workers) (hrows : q'.rows = job :: q.rows)
    (hpending : job.status = .pending) : Runs q' workers := fun w a ha j hj hheld =>
  h w a ha j (JobRow.mem_of_heldBy hrows hpending hj hheld) hheld

end Insert

/-! ## Claims -/

section Claims

variable {q q' : Queue P} {now : Instant} {worker : String}

/-- What a claim does: a row that could be claimed runs under the worker's name. -/
structure ClaimedRow (now : Instant) (worker : String) (q : Queue P) (row : JobRow P) (q' : Queue P) : Prop where
  live : ∃ j ∈ q.rows, j.id = row.id ∧ j.live ∧ row.payload = j.payload ∧ row.kind = j.kind ∧ row.dedupeKey = j.dedupeKey
  running : row.status = .running
  claimedBy : row.claimedBy = .some worker
  mem : ∀ k, k ∈ q'.rows ↔ k = row ∨ (k ∈ q.rows ∧ k.id ≠ row.id)

theorem ClaimedRow.of_updateJob {jobId guard leaseSeconds row}
    (h : q.updateJob jobId guard (Queue.claim now worker leaseSeconds) = .some (row, q'))
    (hguard : ∀ j ∈ q.rows, j.id = jobId → guard j = true → j.due now = true ∨ j.reclaimable now = true) :
    ClaimedRow now worker q row q' := by
  obtain ⟨j, hj, hid, hg, rfl, hmem⟩ := Queue.mem_updateJob h
  have hlive : j.live := by
    rcases JobRow.claimable (hguard j hj hid hg) with h | h | ⟨h, -⟩ <;> simp [JobRow.live, h]
  exact ⟨⟨j, hj, rfl, hlive, rfl, rfl, rfl⟩, rfl, rfl, by simpa only [Queue.claim, hid] using hmem⟩

theorem ClaimedRow.of_claimNextJob {leaseSeconds allowedKinds locked row}
    (h : q.claimNextJob now worker leaseSeconds allowedKinds locked = .some (row, q')) : ClaimedRow now worker q row q' := by
  unfold Queue.claimNextJob at h
  split at h
  · cases h
  · split at h
    · cases h
    · rename_i j hcandidate
      refine ClaimedRow.of_updateJob h fun k hk hid _ => ?_
      obtain ⟨hj, hclaimable⟩ := Queue.candidate_spec hcandidate
      obtain rfl : k = j := Table.eq_of_key hk hj hid
      exact hclaimable

theorem ClaimedRow.of_claimJob {jobId leaseSeconds allowedKinds row}
    (h : q.claimJob now jobId worker leaseSeconds allowedKinds = .some (row, q')) : ClaimedRow now worker q row q' := by
  unfold Queue.claimJob at h
  split at h
  · cases h
  · refine ClaimedRow.of_updateJob h fun k _ _ hg => ?_
    simp only [Bool.and_eq_true, Bool.or_eq_true] at hg
    exact hg.2

variable {row : JobRow P}

theorem ClaimedRow.before (h : ClaimedRow now worker q row q') {k : JobRow P} (hk : k ∈ q'.rows) :
    ∃ j ∈ q.rows, j.id = k.id ∧ j.kind = k.kind ∧ j.payload = k.payload ∧ j.dedupeKey = k.dedupeKey := by
  rcases (h.mem k).1 hk with rfl | ⟨hk, -⟩
  · obtain ⟨j, hj, hid, -, hp, hkind, hd⟩ := h.live
    exact ⟨j, hj, hid, hkind.symm, hp.symm, hd.symm⟩
  · exact ⟨k, hk, rfl, rfl, rfl, rfl⟩

theorem ClaimedRow.unique (h : ClaimedRow now worker q row q') (hu : UniqueKeys q) : UniqueKeys q' := by
  intro k hk k' hk' hd
  obtain ⟨j, hj, hid, -, -, hjd⟩ := h.before hk
  obtain ⟨j', hj', hid', -, -, hjd'⟩ := h.before hk'
  have hjj : j = j' := hu j hj j' hj' (hjd.trans (hd.trans hjd'.symm))
  exact Table.eq_of_key hk hk' (by rw [← hid, ← hid', hjj])

theorem ClaimedRow.hasLive (h : ClaimedRow now worker q row q') {p : P} (hlive : HasLive q p) : HasLive q' p := by
  obtain ⟨job, hjob, hp, hl⟩ := hlive
  obtain ⟨j, hj, hid, -, hpay, -⟩ := h.live
  by_cases heq : job.id = row.id
  · obtain rfl : job = j := Table.eq_of_key hjob hj (heq.trans hid.symm)
    exact ⟨row, (h.mem row).2 (.inl rfl), hpay.trans hp, JobRow.live_of_running h.running⟩
  · exact ⟨job, (h.mem job).2 (.inr ⟨hjob, heq⟩), hp, hl⟩

theorem ClaimedRow.of_heldBy (h : ClaimedRow now worker q row q') {w jobId} (hw : w ≠ worker) {k : JobRow P} (hk : k ∈ q'.rows)
    (hheld : k.heldBy w jobId) : k ∈ q.rows := by
  rcases (h.mem k).1 hk with rfl | ⟨hk, -⟩
  · exact absurd (Option.some.inj (hheld.2.2.symm.trans h.claimedBy)) hw
  · exact hk

theorem ClaimedRow.runs (h : ClaimedRow now worker q row q') {workers : Attempts P S} (hruns : Runs q workers) (stage : S) :
    Runs q' (Function.update workers worker (.some (.ofRow row stage))) := by
  intro w a ha k hk hheld
  by_cases hw : w = worker
  · subst hw
    rw [Function.update_self] at ha
    obtain rfl := Option.some.inj ha
    obtain rfl : k = row := Table.eq_of_key hk ((h.mem row).2 (.inl rfl)) hheld.1
    exact ⟨rfl, rfl⟩
  · rw [Function.update_of_ne hw] at ha
    exact hruns w a ha k (h.of_heldBy hw hk hheld) hheld

end Claims

/-! ## Workers -/

theorem Runs.idle {q : Queue P} {workers : Attempts P S} (h : Runs q workers) (worker : String) :
    Runs q (Function.update workers worker .none) := by
  intro w a ha
  by_cases hw : w = worker
  · subst hw
    rw [Function.update_self] at ha
    cases ha
  · rw [Function.update_of_ne hw] at ha
    exact h w a ha

theorem Runs.advance {q : Queue P} {workers : Attempts P S} (h : Runs q workers) {worker : String} {a : Attempt P S}
    (ha : workers worker = .some a) (stage : S) : Runs q (Function.update workers worker (.some { a with stage := stage })) := by
  intro w b hb j hj hheld
  by_cases hw : w = worker
  · subst hw
    rw [Function.update_self] at hb
    obtain rfl := Option.some.inj hb
    exact h w a ha j hj hheld
  · rw [Function.update_of_ne hw] at hb
    exact h w b hb j hj hheld

theorem not_leased_of_refused {q : Queue P} {workers : Attempts P S} (h : Runs q workers) {worker : String} {a : Attempt P S}
    (ha : workers worker = .some a) {now : Instant} {leaseSeconds : Int}
    (hrefused : q.lockAndRenewRunningJobClaim now (a.context worker) leaseSeconds = .none) {j : JobRow P} (hj : j ∈ q.rows)
    (hheld : j.heldBy worker a.jobId) : ¬ j.leasedAt now := by
  intro hleased
  have hown : j.ownedAttempt (a.context worker) now = true := by
    have hno := (h worker a ha j hj hheld).2
    simp only [JobRow.ownedAttempt, Bool.and_eq_true, beq_iff_eq]
    exact ⟨JobRow.ownedBy_iff.2 ⟨hheld.2.1, hheld.2.2, hleased⟩, hno⟩
  have hfound : ∃ q', q.lockAndRenewRunningJobClaim now (a.context worker) leaseSeconds = .some (Queue.renew now leaseSeconds j, q') := by
    rw [Queue.lockAndRenewRunningJobClaim, show (a.context worker).jobId = j.id from hheld.1.symm]
    exact Queue.updateJob_of_mem hj hown
  obtain ⟨q', hsome⟩ := hfound
  rw [hrefused] at hsome
  cases hsome

end Nexus.Jobs
