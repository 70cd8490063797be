/-
What the calls on a medium's reindex jobs leave in the queue.

`Follows` is what every statement but a claim and an insert does to the rows:
identity and payload stay, a job that succeeded stays so, and no row starts
running. `requested` and `ensured` say what the two calls return and write when
the rows hold one intent each.
-/
import Nexus.Jobs.Fencing
import Nexus.Media.Reindex

namespace Nexus.Reindex
open Relational Nexus.Jobs ExceptFacts

variable {Block : Type}

/-! ## Reading the rows of a medium -/

@[simp] theorem contains_mediaId {payload : ReindexJson} {mediaId : Uuid} :
    Payload.contains payload { mediaId := .some mediaId } = (payload.mediaId == .some mediaId) := by
  simp [Payload.contains, hasMember]

@[simp] theorem mem_lockJobsForPayload {queue : Queue ReindexJson} {mediaId : Uuid} {job : JobRow ReindexJson} :
    job ∈ lockJobsForPayload queue mediaId ↔
      job ∈ queue.rows ∧ job.kind = mediaContentReindexJobKind ∧ job.payload.mediaId = .some mediaId := by
  simp [lockJobsForPayload, List.mem_filter]

theorem nodup_lockJobsForPayload (queue : Queue ReindexJson) (mediaId : Uuid) :
    (lockJobsForPayload queue mediaId).Nodup :=
  (List.perm_insertionSort _ _).nodup_iff.2 (queue.rows_nodup.filter _)

def waitingJobs (queue : Queue ReindexJson) (mediaId : Uuid) : List (JobRow ReindexJson) :=
  (lockJobsForPayload queue mediaId).filter isWaiting

theorem mem_waitingJobs {queue : Queue ReindexJson} {mediaId : Uuid} {job : JobRow ReindexJson} :
    job ∈ waitingJobs queue mediaId ↔ job ∈ queue.rows ∧ job.kind = mediaContentReindexJobKind ∧
      job.payload.mediaId = .some mediaId ∧ isWaiting job = true := by
  simp [waitingJobs, List.mem_filter, and_assoc]

theorem isWaiting_iff {job : JobRow ReindexJson} :
    isWaiting job = true ↔ (job.status = .pending ∨ job.status = .failed) ∧ job.claimedBy = .none := by
  simp [isWaiting, JobRow.waiting, Option.isNone_iff_eq_none]

theorem filter_eq_singleton {α : Type} {l : List α} {p : α → Bool} {a : α} (hl : l.Nodup) (ha : a ∈ l)
    (hp : p a = true) (h : ∀ b ∈ l, p b = true → b = a) : l.filter p = [a] := by
  refine List.perm_singleton.1 ((List.perm_ext_iff_of_nodup (hl.filter p) (List.nodup_singleton a)).2 fun b => ?_)
  rw [List.mem_filter, List.mem_singleton]
  constructor
  · rintro ⟨hb, hpb⟩
    exact h b hb hpb
  · rintro rfl
    exact ⟨ha, hp⟩

theorem jobsWhere_eq {p : Nat → Bool} {jobs : List (JobRow ReindexJson)}
    (h : ∀ job ∈ jobs, ∃ revision, job.payload.revision = .some revision) :
    jobsWhere p jobs = .ok (jobs.filter fun job => job.payload.revision.any p) := by
  induction jobs with
  | nil => rfl
  | cons job jobs ih =>
    obtain ⟨revision, hr⟩ := h job (by simp)
    have hrest := ih fun k hk => h k (by simp [hk])
    simp only [jobsWhere, jobRevision, hr, hrest, List.filter_cons, Option.any_some]
    rfl

/-- A job of the queue that holds one intent. -/
def HoldsIntent (job : JobRow ReindexJson) : Prop :=
  job.kind = mediaContentReindexJobKind ∧
    ∃ mediaId revision reason requestId, job.payload = mediaReindexPayload mediaId revision reason requestId

theorem HoldsIntent.revision {job : JobRow ReindexJson} (h : HoldsIntent job) :
    ∃ revision, job.payload.revision = .some revision := by
  obtain ⟨-, _, revision, _, _, hp⟩ := h
  exact ⟨revision, by rw [hp]; rfl⟩

/-- No waiting job of the medium has a revision before this one. -/
def NoneOlder (queue : Queue ReindexJson) (mediaId : Uuid) (revision : Nat) : Prop :=
  ∀ job ∈ waitingJobs queue mediaId, job.payload.revision.all (revision ≤ ·) = true

/-- The postcondition holds exactly when one waiting job has the revision and
none an older one. -/
theorem assert_eq_ok {queue : Queue ReindexJson} (mediaId : Uuid) (revision : Nat)
    (h : ∀ job ∈ queue.rows, HoldsIntent job) :
    assertMediaReindexWaitingPostcondition queue mediaId revision = .ok () ↔
      ((waitingJobs queue mediaId).filter fun job => job.payload.revision == .some revision).length = 1 ∧
        NoneOlder queue mediaId revision := by
  have hw : ∀ job ∈ (lockJobsForPayload queue mediaId).filter isWaiting, ∃ r, job.payload.revision = .some r :=
    fun job hj => (h job (mem_waitingJobs.1 hj).1).revision
  have hany : ∀ job : JobRow ReindexJson, (job.payload.revision.any fun x => x == revision) =
      (job.payload.revision == .some revision) := fun job => by cases job.payload.revision <;> simp
  simp only [assertMediaReindexWaitingPostcondition, jobsWhere_eq hw, bind, Except.bind, hany]
  have hnil : (List.filter (fun job : JobRow ReindexJson => job.payload.revision.any (· < revision))
      ((lockJobsForPayload queue mediaId).filter isWaiting) = []) ↔ NoneOlder queue mediaId revision := by
    rw [List.filter_eq_nil_iff]
    refine forall₂_congr fun job hj => ?_
    obtain ⟨r, hr⟩ := hw job hj
    simp [hr]
  rw [waitingJobs, ← hnil]
  split
  · rename_i hc
    simp only [throw, throwThe, MonadExceptOf.throw, reduceCtorEq, false_iff, not_and]
    intro hlen
    exact hc.resolve_left (fun hne => hne hlen)
  · rename_i hc
    simp only [not_or, not_not] at hc
    exact ⟨fun _ => hc, fun _ => rfl⟩

/-! ## Statements that start nothing -/

/-- Every row left comes from one of the same job and payload, does not run
unless that did, and does not wait under a claim. -/
def Follows (q q' : Queue ReindexJson) : Prop :=
  ∀ k ∈ q'.rows, ∃ j ∈ q.rows, j.id = k.id ∧ j.kind = k.kind ∧ j.payload = k.payload ∧
    (k.status ≠ .succeeded → j.status ≠ .succeeded) ∧
    (k.status = .running → j.status = .running ∧ j.claimedBy = k.claimedBy) ∧
    (k.waiting = true → k = j ∨ k.claimedBy = .none)

theorem Follows.refl (q : Queue ReindexJson) : Follows q q := fun k hk =>
  ⟨k, hk, rfl, rfl, rfl, id, fun h => ⟨h, rfl⟩, fun _ => .inl rfl⟩

theorem Follows.of_updateJob {q q' : Queue ReindexJson} {jobId guard f hf row}
    (h : q.updateJob jobId guard f hf = .some (row, q'))
    (hkeep : ∀ j : JobRow ReindexJson, guard j = true → (f j).kind = j.kind ∧ (f j).payload = j.payload ∧
      ((f j).status ≠ .succeeded → j.status ≠ .succeeded) ∧
      ((f j).status = .running → j.status = .running ∧ j.claimedBy = (f j).claimedBy) ∧
      ((f j).waiting = true → (f j).claimedBy = .none)) : Follows q q' := by
  obtain ⟨j, hj, hid, hg, -, hmem⟩ := Queue.mem_updateJob h
  obtain ⟨hkind, hpayload, hlive, hrun, hwait⟩ := hkeep j hg
  intro k hk
  rcases (hmem k).1 hk with rfl | ⟨hk, -⟩
  · exact ⟨j, hj, (hf j).symm, hkind.symm, hpayload.symm, hlive, hrun, fun hw => .inr (hwait hw)⟩
  · exact Follows.refl q k hk

theorem Follows.deleteWhere (q : Queue ReindexJson) (p : JobRow ReindexJson → Bool) : Follows q (q.deleteWhere p) :=
  fun k hk => Follows.refl q k (Table.mem_deleteWhere.1 hk).1

theorem running_of_ownedBy {worker now} {j : JobRow ReindexJson} (h : j.ownedBy worker now = true) :
    j.status = .running := (JobRow.ownedBy_iff.1 h).1

theorem follows_heartbeat {q q' : Queue ReindexJson} {now jobId worker leaseSeconds row}
    (h : q.heartbeatJob now jobId worker leaseSeconds = .some (row, q')) : Follows q q' :=
  .of_updateJob h fun j hg => by
    have hr := running_of_ownedBy hg
    simp [Queue.renew, hr, JobRow.waiting]

theorem follows_complete {q q' : Queue ReindexJson} {now jobId worker result row}
    (h : q.completeJob now jobId worker result = .some (row, q')) : Follows q q' :=
  .of_updateJob h fun j _ => by simp [JobRow.waiting]

theorem follows_fail {q q' : Queue ReindexJson} {now jobId worker errorCode errorMessage delays result row}
    (h : q.failJob now jobId worker errorCode errorMessage delays result = .some (row, q')) : Follows q q' :=
  .of_updateJob h fun j hg => by
    have hr := running_of_ownedBy hg
    simp only [Queue.failed, hr, ne_eq, reduceCtorEq, not_false_eq_true, implies_true, true_and, and_true]
    split <;> simp

theorem follows_deadLetterExpired {q q' : Queue ReindexJson} {now allowedKinds locked row}
    (h : q.deadLetterExpiredJob now allowedKinds locked = .some (row, q')) : Follows q q' := by
  unfold Queue.deadLetterExpiredJob at h
  split at h
  · cases h
  · split at h
    · cases h
    · rename_i j hfirst
      obtain ⟨hj, hp⟩ := Table.first?_eq_some hfirst
      have hex : j.exhausted now = true := (Bool.and_eq_true_iff.1 hp).1
      have hr : j.status = .running := by
        simp only [JobRow.exhausted, JobRow.leaseExpired, Bool.and_eq_true, beq_iff_eq] at hex
        exact hex.1.1
      obtain ⟨k, hk, hid, -, -, hmem⟩ := Queue.mem_updateJob h
      obtain rfl : k = j := Table.eq_of_key hk hj hid
      intro x hx
      rcases (hmem x).1 hx with rfl | ⟨hx, -⟩
      · exact ⟨k, hk, rfl, rfl, rfl, by simp [hr], by simp, by simp [JobRow.waiting]⟩
      · exact Follows.refl q x hx

theorem follows_requeueDead {q q' : Queue ReindexJson} {now jobId row}
    (h : q.requeueDeadJob now jobId = .some (row, q')) : Follows q q' :=
  .of_updateJob h fun j hg => by
    have hd : j.status = .dead := by simpa using hg
    simp [hd]

theorem follows_lockAndRenew {q q' : Queue ReindexJson} {now context leaseSeconds row}
    (h : q.lockAndRenewRunningJobClaim now context leaseSeconds = .some (row, q')) : Follows q q' :=
  .of_updateJob h fun j hg => by
    have hr := JobRow.running_of_attempt hg
    simp [Queue.renew, hr, JobRow.waiting]

theorem owned_of_lockAndRenew {q q' : Queue ReindexJson} {now context leaseSeconds row}
    (h : q.lockAndRenewRunningJobClaim now context leaseSeconds = .some (row, q')) :
    ∃ j ∈ q.rows, j.id = context.jobId ∧ j.status = .running ∧ j.claimedBy = .some context.workerId ∧
      row.payload = j.payload := by
  obtain ⟨j, hj, hid, hg, hrow, -⟩ := Queue.mem_updateJob h
  obtain ⟨hr, hw, -⟩ := JobRow.ownedBy_iff.1 (JobRow.ownedBy_of_attempt hg)
  exact ⟨j, hj, hid, hr, hw, by rw [hrow]; rfl⟩

/-! ## Requests -/

theorem waitingUnclaimed_of_isWaiting {job : JobRow ReindexJson} (hkind : job.kind = mediaContentReindexJobKind)
    (hwait : isWaiting job = true) : job.waitingUnclaimed mediaContentReindexJobKind = true := by
  simp only [isWaiting, Bool.and_eq_true] at hwait
  simp [JobRow.waitingUnclaimed, hwait, hkind]

theorem supersede_of_mem {queue : Queue ReindexJson} {job : JobRow ReindexJson} (now : Instant) (hj : job ∈ queue.rows)
    (hkind : job.kind = mediaContentReindexJobKind) (hwait : isWaiting job = true) :
    ∃ row queue', queue.supersedeUnclaimedJob now job.id mediaContentReindexJobKind = .some (row, queue') ∧
      row.id = job.id ∧ row.kind = job.kind ∧ row.payload = job.payload ∧ row.status = .succeeded ∧
      ∀ k, k ∈ queue'.rows ↔ k = row ∨ (k ∈ queue.rows ∧ k.id ≠ job.id) := by
  cases h : queue.supersedeUnclaimedJob now job.id mediaContentReindexJobKind with
  | none =>
    simp [Queue.supersedeUnclaimedJob, Queue.updateJob, Table.find?_of_mem hj,
      waitingUnclaimed_of_isWaiting hkind hwait] at h
  | some r =>
    obtain ⟨row, queue'⟩ := r
    obtain ⟨j, hj', hid, -, hrow, hmem⟩ := Queue.mem_updateJob h
    obtain rfl : j = job := Table.eq_of_key hj' hj hid
    rw [← hrow] at hmem
    exact ⟨row, queue', rfl, by rw [hrow], by rw [hrow], by rw [hrow], by rw [hrow], hmem⟩

theorem reset_of_mem {queue : Queue ReindexJson} {job : JobRow ReindexJson} (now : Instant) (payload : ReindexJson)
    (maxAttempts : Int) (hj : job ∈ queue.rows) (hkind : job.kind = mediaContentReindexJobKind)
    (hwait : isWaiting job = true) :
    ∃ row queue', queue.resetUnclaimedJobForNewIntent now job.id mediaContentReindexJobKind payload maxAttempts =
        .some (row, queue') ∧ row.id = job.id ∧ row.kind = mediaContentReindexJobKind ∧ row.payload = payload ∧
      row.status = .pending ∧ row.claimedBy = .none ∧
      ∀ k, k ∈ queue'.rows ↔ k = row ∨ (k ∈ queue.rows ∧ k.id ≠ job.id) := by
  cases h : queue.resetUnclaimedJobForNewIntent now job.id mediaContentReindexJobKind payload maxAttempts with
  | none =>
    simp [Queue.resetUnclaimedJobForNewIntent, Queue.updateJob, Table.find?_of_mem hj,
      waitingUnclaimed_of_isWaiting hkind hwait] at h
  | some r =>
    obtain ⟨row, queue'⟩ := r
    obtain ⟨j, hj', hid, -, hrow, hmem⟩ := Queue.mem_updateJob h
    obtain rfl : j = job := Table.eq_of_key hj' hj hid
    rw [← hrow] at hmem
    exact ⟨row, queue', rfl, by rw [hrow], by rw [hrow, hkind], by rw [hrow], by rw [hrow], by rw [hrow], hmem⟩

theorem supersedeAll_ok (now : Instant) {obsolete : List (JobRow ReindexJson)} {queue : Queue ReindexJson}
    (h : ∀ j ∈ obsolete, j ∈ queue.rows ∧ j.kind = mediaContentReindexJobKind ∧ isWaiting j = true)
    (hnd : (obsolete.map (·.id)).Nodup) : ∃ queue', supersedeAll now obsolete queue = .ok queue' ∧
      (∀ k ∈ queue.rows, k.id ∉ obsolete.map (·.id) → k ∈ queue'.rows) ∧
      ∀ k ∈ queue'.rows, (k ∈ queue.rows ∧ k.id ∉ obsolete.map (·.id)) ∨
        k.status = .succeeded ∧ ∃ j ∈ obsolete, j.id = k.id ∧ j.kind = k.kind ∧ j.payload = k.payload := by
  induction obsolete generalizing queue with
  | nil => exact ⟨queue, rfl, fun k hk _ => hk, fun k hk => .inl ⟨hk, by simp⟩⟩
  | cons j rest ih =>
    obtain ⟨hj, hkind, hwait⟩ := h j (by simp)
    rw [List.map_cons, List.nodup_cons] at hnd
    obtain ⟨row, q₁, hq₁, hid, hkind₁, hpayload, hstatus, hmem⟩ := supersede_of_mem now hj hkind hwait
    have hrest : ∀ k ∈ rest, k ∈ q₁.rows ∧ k.kind = mediaContentReindexJobKind ∧ isWaiting k = true := by
      intro k hk
      obtain ⟨hkq, hkk⟩ := h k (by simp [hk])
      have hne : k.id ≠ j.id := fun he => hnd.1 (List.mem_map.2 ⟨k, hk, he⟩)
      exact ⟨(hmem k).2 (.inr ⟨hkq, hne⟩), hkk⟩
    obtain ⟨queue', hq', hkeep, hback⟩ := ih hrest hnd.2
    refine ⟨queue', ?_, fun k hk hkid => ?_, fun k hk => ?_⟩
    · simp only [supersedeAll, hq₁, oneRow]
      exact hq'
    · simp only [List.map_cons, List.mem_cons, not_or] at hkid
      exact hkeep k ((hmem k).2 (.inr ⟨hk, hkid.1⟩)) hkid.2
    · rcases hback k hk with ⟨hk₁, hkid⟩ | ⟨hs, j₀, hj₀, hids, hkind₀, hpay₀⟩
      · rcases (hmem k).1 hk₁ with rfl | ⟨hkq, hne⟩
        · exact .inr ⟨hstatus, j, by simp, hid.symm, hkind₁.symm, hpayload.symm⟩
        · exact .inl ⟨hkq, by simp [hne, hkid]⟩
      · exact .inr ⟨hs, j₀, by simp [hj₀], hids, hkind₀, hpay₀⟩

/-- The current revision, 0 before the first request. -/
def IndexDb.revision (db : IndexDb Block) (mediaId : Uuid) : Nat := (db.indexStates mediaId).elim 0 (·.revision)

/-- What a request leaves: one waiting job of the new revision, every other job
of the medium not waiting. -/
structure Requested (db db' : IndexDb Block) (mediaId : Uuid) (reason : ReindexReason) (requestId : Option String)
    (selected : JobRow ReindexJson) : Prop where
  media : db'.media = db.media
  contentBlocks : db'.contentBlocks = db.contentBlocks
  states : db'.indexStates = Function.update db.indexStates mediaId
    (.some ⟨.pending, reason.value, db.revision mediaId + 1⟩)
  mem : selected ∈ db'.queue.rows
  status : selected.status = .pending
  unclaimed : selected.claimedBy = .none
  kind : selected.kind = mediaContentReindexJobKind
  payload : selected.payload = mediaReindexPayload mediaId (db.revision mediaId + 1) reason requestId
  rest : ∀ k ∈ db'.queue.rows, k = selected ∨ ∃ j ∈ db.queue.rows, j.id = k.id ∧ j.kind = k.kind ∧
    j.payload = k.payload ∧ (k.status = .succeeded ∨ (k = j ∧ j ∉ waitingJobs db.queue mediaId))

theorem Requested.waitingJobs_eq {db db' : IndexDb Block} {mediaId reason requestId selected}
    (h : Requested db db' mediaId reason requestId selected) : waitingJobs db'.queue mediaId = [selected] := by
  have hw : isWaiting selected = true := isWaiting_iff.2 ⟨.inl h.status, h.unclaimed⟩
  have hp : selected.payload.mediaId = .some mediaId := by rw [h.payload]; rfl
  refine filter_eq_singleton (nodup_lockJobsForPayload _ _) (mem_lockJobsForPayload.2 ⟨h.mem, h.kind, hp⟩) hw ?_
  intro k hk hkw
  obtain ⟨hkq, hkk, hkm⟩ := mem_lockJobsForPayload.1 hk
  rcases h.rest k hkq with rfl | ⟨j, hj, -, -, -, hs | ⟨rfl, hnot⟩⟩
  · rfl
  · rw [isWaiting_iff, hs] at hkw
    simp at hkw
  · exact absurd (mem_waitingJobs.2 ⟨hj, hkk, hkm, hkw⟩) hnot

theorem Requested.holdsIntent {db db' : IndexDb Block} {mediaId reason requestId selected}
    (h : Requested db db' mediaId reason requestId selected) (hI : ∀ job ∈ db.queue.rows, HoldsIntent job) :
    ∀ job ∈ db'.queue.rows, HoldsIntent job := by
  intro k hk
  rcases h.rest k hk with rfl | ⟨j, hj, -, hkind, hpayload, -⟩
  · exact ⟨h.kind, _, _, _, _, h.payload⟩
  · obtain ⟨hK, m, r, reason', req, hp⟩ := hI j hj
    exact ⟨hkind ▸ hK, m, r, reason', req, hpayload ▸ hp⟩

theorem Requested.assert {db db' : IndexDb Block} {mediaId reason requestId selected}
    (h : Requested db db' mediaId reason requestId selected) (hI : ∀ job ∈ db.queue.rows, HoldsIntent job) :
    assertMediaReindexWaitingPostcondition db'.queue mediaId (db.revision mediaId + 1) = .ok () := by
  refine (assert_eq_ok _ _ (h.holdsIntent hI)).2 ?_
  rw [NoneOlder, h.waitingJobs_eq]
  simp [h.payload, mediaReindexPayload]

/-- **A request of an existing medium never raises.** -/
theorem request_ok {db : IndexDb Block} {jobId mediaId} (now reason requestId)
    (hI : ∀ job ∈ db.queue.rows, HoldsIntent job) (hm : (db.media mediaId).isSome)
    (hfresh : db.queue.find? jobId = .none) :
    ∃ db' selected, requestMediaContentReindex db now jobId mediaId reason requestId =
      .ok (⟨db.revision mediaId + 1, selected.id, false, (waitingJobs db.queue mediaId).isEmpty⟩, db') ∧
      Requested db db' mediaId reason requestId selected := by
  have hrev : ((db.indexStates mediaId).getD ⟨.pending, reason.value, 0⟩).revision = db.revision mediaId := by
    unfold IndexDb.revision
    cases db.indexStates mediaId <;> rfl
  have hnone : (db.media mediaId).isNone = false := by
    cases hdb : db.media mediaId with
    | none => rw [hdb] at hm; cases hm
    | some _ => rfl
  obtain ⟨selected, queue, henqueued, hreset, hq⟩ : ∃ selected queue,
      (waitingJobs db.queue mediaId = [] → oneRow (db.queue.enqueueJob now jobId mediaContentReindexJobKind
        (mediaReindexPayload mediaId (db.revision mediaId + 1) reason requestId) 100 reindexMaxAttempts .none .none) =
          .ok (selected, queue)) ∧
      (∀ first obsolete, waitingJobs db.queue mediaId = first :: obsolete → (do
        let selected ← oneRow (db.queue.resetUnclaimedJobForNewIntent now first.id mediaContentReindexJobKind
          (mediaReindexPayload mediaId (db.revision mediaId + 1) reason requestId) reindexMaxAttempts)
        let queue ← supersedeAll now obsolete selected.2
        return (selected.1, queue)) = .ok (selected, queue)) ∧
      ∀ db' : IndexDb Block, db'.media = db.media → db'.contentBlocks = db.contentBlocks →
        db'.indexStates = Function.update db.indexStates mediaId
          (.some ⟨.pending, reason.value, db.revision mediaId + 1⟩) →
        db'.queue = queue → Requested db db' mediaId reason requestId selected := by
    cases hw : waitingJobs db.queue mediaId with
    | nil =>
      cases hins : db.queue.insert? (Queue.newRow now jobId mediaContentReindexJobKind
          (mediaReindexPayload mediaId (db.revision mediaId + 1) reason requestId) 100 reindexMaxAttempts .none .none) with
      | none =>
        obtain ⟨b, hb⟩ := Table.insert?_eq_none.1 hins
        rw [Queue.newRow, hfresh] at hb
        cases hb
      | some queue =>
        refine ⟨Queue.newRow now jobId mediaContentReindexJobKind
          (mediaReindexPayload mediaId (db.revision mediaId + 1) reason requestId) 100 reindexMaxAttempts .none .none,
          queue, fun _ => (by simp [Queue.enqueueJob, hins, oneRow]), fun _ _ hcons => (by cases hcons),
          fun db' hmedia hblocks hstates hqueue => ?_⟩
        obtain ⟨-, hrows⟩ := Table.insert?_eq_some.1 hins
        refine ⟨hmedia, hblocks, hstates, ?_, rfl, rfl, rfl, rfl, fun k hk => ?_⟩
        · rw [hqueue, hrows]; exact List.mem_cons_self
        · rw [hqueue, hrows] at hk
          rcases List.mem_cons.1 hk with rfl | hk
          · exact .inl rfl
          · exact .inr ⟨k, hk, rfl, rfl, rfl, .inr ⟨rfl, by rw [hw]; exact List.not_mem_nil⟩⟩
    | cons first obsolete =>
      have hall : ∀ j ∈ first :: obsolete, j ∈ db.queue.rows ∧ j.kind = mediaContentReindexJobKind ∧
          j.payload.mediaId = .some mediaId ∧ isWaiting j = true := by
        rw [← hw]
        exact fun j hj => mem_waitingJobs.1 hj
      have hnd : ((first :: obsolete).map (·.id)).Nodup := by
        rw [← hw]
        have hl : (waitingJobs db.queue mediaId).Nodup := (nodup_lockJobsForPayload _ _).filter _
        refine hl.map_on fun a ha b hb hab => ?_
        exact Table.eq_of_key (mem_waitingJobs.1 ha).1 (mem_waitingJobs.1 hb).1 hab
      obtain ⟨hfirst, hkind, -, hwait⟩ := hall first (by simp)
      obtain ⟨row, q₁, hq₁, hid, hkind₁, hpayload, hstatus, hclaim, hmem⟩ := reset_of_mem now
        (mediaReindexPayload mediaId (db.revision mediaId + 1) reason requestId) reindexMaxAttempts hfirst hkind hwait
      rw [List.map_cons, List.nodup_cons] at hnd
      have hobsolete : ∀ j ∈ obsolete, j ∈ q₁.rows ∧ j.kind = mediaContentReindexJobKind ∧ isWaiting j = true := by
        intro j hj
        obtain ⟨hjq, hjk, -, hjw⟩ := hall j (by simp [hj])
        have hne : j.id ≠ first.id := fun he => hnd.1 (List.mem_map.2 ⟨j, hj, he⟩)
        exact ⟨(hmem j).2 (.inr ⟨hjq, hne⟩), hjk, hjw⟩
      obtain ⟨queue, hqueue, hkeep, hback⟩ := supersedeAll_ok now hobsolete hnd.2
      refine ⟨row, queue, fun hnil => (by cases hnil), fun _ _ hcons => ?_, fun db' hmedia hblocks hstates hq' => ?_⟩
      · obtain ⟨rfl, rfl⟩ := List.cons.inj hcons
        simp only [hq₁, oneRow, bind, Except.bind, hqueue]
        rfl
      · refine ⟨hmedia, hblocks, hstates, ?_, hstatus, hclaim, hkind₁, hpayload, fun k hk => ?_⟩
        · rw [hq']
          exact hkeep _ ((hmem _).2 (.inl rfl)) (hid ▸ hnd.1)
        · rw [hq'] at hk
          rcases hback k hk with ⟨hk₁, hkid⟩ | ⟨hs, j, hj, hids, hkind', hpay⟩
          · rcases (hmem k).1 hk₁ with rfl | ⟨hkq, hne⟩
            · exact .inl rfl
            · refine .inr ⟨k, hkq, rfl, rfl, rfl, .inr ⟨rfl, fun hkw => ?_⟩⟩
              rw [hw] at hkw
              rcases List.mem_cons.1 hkw with rfl | hkw
              · exact hne rfl
              · exact hkid (List.mem_map_of_mem hkw)
          · exact .inr ⟨j, (hall j (by simp [hj])).1, hids, hkind', hpay, .inl hs⟩
  have hq' := hq { db.setState mediaId ⟨.pending, reason.value, db.revision mediaId + 1⟩ with queue := queue }
    rfl rfl rfl rfl
  refine ⟨_, selected, ?_, hq'⟩
  have hassert := hq'.assert hI
  simp only [requestMediaContentReindex, hnone, hrev, Bool.false_eq_true, if_false]
  refine bind_eq_ok.2 ⟨(selected, queue), ?_, ?_⟩
  · split
    next hwait => exact henqueued hwait
    next first obsolete hwait => exact hreset first obsolete hwait
  · rw [hassert]
    rfl

/-! ## Reconciliation -/

/-- A waiting, running or dead job of the medium has the revision. -/
def HasLive (queue : Queue ReindexJson) (mediaId : Uuid) (revision : Nat) : Prop :=
  ∃ job ∈ queue.rows, job.payload.mediaId = .some mediaId ∧ job.payload.revision = .some revision ∧
    job.status ≠ .succeeded

instance {queue mediaId revision} : Decidable (HasLive queue mediaId revision) :=
  inferInstanceAs (Decidable (∃ job ∈ queue.rows, _))

instance {queue mediaId revision} : Decidable (NoneOlder queue mediaId revision) :=
  inferInstanceAs (Decidable (∀ job ∈ waitingJobs queue mediaId, _))

/-- The rows of a queue hold one intent each, wait unclaimed, and at most one
live row holds each. -/
structure Coalesced (queue : Queue ReindexJson) : Prop where
  intents : ∀ job ∈ queue.rows, HoldsIntent job
  unclaimed : ∀ job ∈ queue.rows, job.waiting = true → job.claimedBy = .none
  alone : ∀ j ∈ queue.rows, ∀ k ∈ queue.rows, j.status ≠ .succeeded → k.status ≠ .succeeded →
    j.payload.mediaId = k.payload.mediaId → j.payload.revision = k.payload.revision → j = k

theorem length_le_one {α : Type} {l : List α} (hl : l.Nodup) (h : ∀ a ∈ l, ∀ b ∈ l, a = b) : l.length ≤ 1 := by
  match l, hl, h with
  | [], _, _ => simp
  | [_], _, _ => simp
  | a :: b :: l, hl, h =>
    have hab : a = b := h a (by simp) b (by simp)
    simp [hab] at hl

section Ensure

variable {db : IndexDb Block} {mediaId : Uuid} {state : ContentIndexState}

/-- The jobs `ensure` reads as the revision's. -/
def currentJobs (queue : Queue ReindexJson) (mediaId : Uuid) (revision : Nat) : List (JobRow ReindexJson) :=
  (lockJobsForPayload queue mediaId).filter fun job => job.payload.revision.any (· == revision)

theorem mem_currentJobs {queue : Queue ReindexJson} {mediaId revision} {job : JobRow ReindexJson} :
    job ∈ currentJobs queue mediaId revision ↔ job ∈ queue.rows ∧ job.kind = mediaContentReindexJobKind ∧
      job.payload.mediaId = .some mediaId ∧ job.payload.revision = .some revision := by
  simp only [currentJobs, List.mem_filter, mem_lockJobsForPayload, Option.any_eq_true, beq_iff_eq, and_assoc]
  constructor
  · rintro ⟨hj, hk, hm, x, hx, rfl⟩
    exact ⟨hj, hk, hm, hx⟩
  · rintro ⟨hj, hk, hm, hr⟩
    exact ⟨hj, hk, hm, revision, hr, rfl⟩

theorem Coalesced.length_le {queue : Queue ReindexJson} (hc : Coalesced queue) (mediaId : Uuid) (revision : Nat)
    {p : JobRow ReindexJson → Bool} (hp : ∀ job, p job = true → job.status ≠ .succeeded) :
    ((currentJobs queue mediaId revision).filter p).length ≤ 1 := by
  have hnd : (currentJobs queue mediaId revision).Nodup := (nodup_lockJobsForPayload _ _).filter _
  refine length_le_one (hnd.filter p) fun a ha b hb => ?_
  obtain ⟨ha, hpa⟩ := List.mem_filter.1 ha
  obtain ⟨hb, hpb⟩ := List.mem_filter.1 hb
  obtain ⟨ha, -, ham, har⟩ := mem_currentJobs.1 ha
  obtain ⟨hb, -, hbm, hbr⟩ := mem_currentJobs.1 hb
  exact hc.alone a ha b hb (hp a hpa) (hp b hpb) (ham.trans hbm.symm) (har.trans hbr.symm)

theorem Coalesced.jobsWhere_eq {queue : Queue ReindexJson} (hc : Coalesced queue) (mediaId : Uuid) (revision : Nat) :
    jobsWhere (· == revision) (lockJobsForPayload queue mediaId) = .ok (currentJobs queue mediaId revision) :=
  Reindex.jobsWhere_eq fun job hj => (hc.intents job (mem_lockJobsForPayload.1 hj).1).revision

theorem ne_succeeded_of_isWaiting {job : JobRow ReindexJson} (h : isWaiting job = true) : job.status ≠ .succeeded := by
  obtain ⟨hs | hs, -⟩ := isWaiting_iff.1 h <;> rw [hs] <;> decide

theorem ensure_live (hc : Coalesced db.queue) (now jobId reason requestId) (hm : (db.media mediaId).isSome)
    (hst : db.indexStates mediaId = .some state) (hlive : HasLive db.queue mediaId state.revision) :
    ∃ intent, ensureMediaContentReindexJob db now jobId mediaId reason requestId = .ok (intent, db) := by
  have hnone : (db.media mediaId).isNone = false := by
    cases hdb : db.media mediaId with
    | none => rw [hdb] at hm; cases hm
    | some _ => rfl
  have hw := hc.length_le mediaId state.revision (p := isWaiting)
    fun _ => ne_succeeded_of_isWaiting
  have hr := hc.length_le mediaId state.revision (p := (·.status == .running))
    fun job hs => by rw [beq_iff_eq.1 hs]; decide
  have hd := hc.length_le mediaId state.revision (p := (·.status == .dead))
    fun job hs => by rw [beq_iff_eq.1 hs]; decide
  obtain ⟨job, hj, hjm, hjr, hlive⟩ := hlive
  have hcur : job ∈ currentJobs db.queue mediaId state.revision := mem_currentJobs.2 ⟨hj, (hc.intents job hj).1, hjm, hjr⟩
  simp only [ensureMediaContentReindexJob, hnone, hst, hc.jobsWhere_eq, Bool.false_eq_true, if_false, bind, Except.bind,
    pure, Except.pure, Nat.not_lt.2 hw, Nat.not_lt.2 hr, Nat.not_lt.2 hd, or_self]
  split
  · exact ⟨_, rfl⟩
  · exact ⟨_, rfl⟩
  · exact ⟨_, rfl⟩
  · rename_i hw₀ hr₀ hd₀
    rw [List.filter_eq_nil_iff] at hw₀ hr₀ hd₀
    have hwait := hw₀ job hcur
    have hrun := hr₀ job hcur
    have hdead := hd₀ job hcur
    have hun := hc.unclaimed job hj
    cases hs : job.status <;> simp_all [isWaiting, JobRow.waiting]

/-- Without one, `ensure` enqueues a job, and raises exactly when a job of an
older revision waits. -/
theorem ensure_enqueues (hc : Coalesced db.queue) {jobId} (now reason requestId) (hm : (db.media mediaId).isSome)
    (hst : db.indexStates mediaId = .some state) (hlive : ¬ HasLive db.queue mediaId state.revision)
    (hfresh : db.queue.find? jobId = .none) :
    ∃ queue, queue.rows = Queue.newRow now jobId mediaContentReindexJobKind
        (mediaReindexPayload mediaId state.revision reason requestId) 100 reindexMaxAttempts .none .none :: db.queue.rows ∧
      if NoneOlder db.queue mediaId state.revision then
        ensureMediaContentReindexJob db now jobId mediaId reason requestId =
          .ok (⟨state.revision, jobId, false, true⟩, { db with queue := queue })
      else (ensureMediaContentReindexJob db now jobId mediaId reason requestId).toOption = .none := by
  have hnone : (db.media mediaId).isNone = false := by
    cases hdb : db.media mediaId with
    | none => rw [hdb] at hm; cases hm
    | some _ => rfl
  have hnil : ∀ p : JobRow ReindexJson → Bool, (∀ job, p job = true → job.status ≠ .succeeded) →
      (currentJobs db.queue mediaId state.revision).filter p = [] := by
    intro p hp
    rw [List.filter_eq_nil_iff]
    intro job hj hpj
    obtain ⟨hj, -, hjm, hjr⟩ := mem_currentJobs.1 hj
    exact hlive ⟨job, hj, hjm, hjr, hp job hpj⟩
  have hw := hnil isWaiting fun _ => ne_succeeded_of_isWaiting
  have hr := hnil (·.status == .running) fun job hs => by rw [beq_iff_eq.1 hs]; decide
  have hd := hnil (·.status == .dead) fun job hs => by rw [beq_iff_eq.1 hs]; decide
  let row : JobRow ReindexJson := Queue.newRow now jobId mediaContentReindexJobKind
    (mediaReindexPayload mediaId state.revision reason requestId) 100 reindexMaxAttempts .none .none
  obtain ⟨queue, hins⟩ : ∃ queue, db.queue.insert? row = .some queue := by
    cases hins : db.queue.insert? row with
    | some queue => exact ⟨queue, rfl⟩
    | none =>
      obtain ⟨b, hb⟩ := Table.insert?_eq_none.1 hins
      rw [show row.id = jobId from rfl, hfresh] at hb
      cases hb
  have hrows : queue.rows = row :: db.queue.rows := (Table.insert?_eq_some.1 hins).2
  have hintents : ∀ job ∈ queue.rows, HoldsIntent job := by
    rw [hrows]
    intro job hj
    rcases List.mem_cons.1 hj with rfl | hj
    · exact ⟨rfl, _, _, _, _, rfl⟩
    · exact hc.intents job hj
  have hrowWaits : row ∈ waitingJobs queue mediaId :=
    mem_waitingJobs.2 ⟨by rw [hrows]; exact List.mem_cons_self, rfl, rfl, rfl⟩
  have hone : ((waitingJobs queue mediaId).filter fun job => job.payload.revision == .some state.revision) = [row] := by
    refine filter_eq_singleton ((nodup_lockJobsForPayload _ _).filter _) hrowWaits (by simp [row, Queue.newRow,
      mediaReindexPayload]) fun job hj hjr => ?_
    obtain ⟨hjq, hjk, hjm, hjw⟩ := mem_waitingJobs.1 hj
    rw [hrows] at hjq
    rcases List.mem_cons.1 hjq with rfl | hjq
    · rfl
    · exact absurd ⟨job, hjq, hjm, beq_iff_eq.1 hjr, ne_succeeded_of_isWaiting hjw⟩ hlive
  have holder : NoneOlder queue mediaId state.revision ↔ NoneOlder db.queue mediaId state.revision := by
    constructor
    · intro h job hj
      obtain ⟨hjq, hjrest⟩ := mem_waitingJobs.1 hj
      exact h job (mem_waitingJobs.2 ⟨by rw [hrows]; exact List.mem_cons_of_mem _ hjq, hjrest⟩)
    · intro h job hj
      obtain ⟨hjq, hjrest⟩ := mem_waitingJobs.1 hj
      rw [hrows] at hjq
      rcases List.mem_cons.1 hjq with rfl | hjq
      · simp [row, Queue.newRow, mediaReindexPayload]
      · exact h job (mem_waitingJobs.2 ⟨hjq, hjrest⟩)
  have hassert := assert_eq_ok mediaId state.revision hintents
  rw [hone, holder] at hassert
  refine ⟨queue, hrows, ?_⟩
  simp only [ensureMediaContentReindexJob, hnone, hst, hc.jobsWhere_eq, Bool.false_eq_true, if_false, bind, Except.bind,
    pure, Except.pure, hw, hr, hd, List.length_nil, Nat.not_lt_zero, or_self, Queue.enqueueJob, Option.bind_none,
    Option.isSome_none, oneRow]
  rw [show db.queue.insert? (Queue.newRow now jobId mediaContentReindexJobKind
    (mediaReindexPayload mediaId state.revision reason requestId) 100 reindexMaxAttempts .none .none) = .some queue
    from hins]
  simp only [Option.map_some]
  split
  · rename_i h
    rw [hassert.2 ⟨rfl, h⟩]
    rfl
  · rename_i h
    cases ha : assertMediaReindexWaitingPostcondition queue mediaId state.revision with
    | ok u => exact absurd (hassert.1 ha).2 h
    | error e => rfl

end Ensure

end Nexus.Reindex
