/-
A sync generation ends with its job.

The invariant of `SyncRows` is kept by every admission, by the three
transactions of an attempt and by everything the queue does with a job but one:
when a job goes dead while its subscription is running under an earlier attempt
(the last one was lost before its first commit), the dead-letter hook takes the
row for another attempt's and leaves it. The subscription then waits for ever
on a dead job. `generations_end` says that this is the only way.
-/
import Nexus.Podcasts.SyncRows

namespace Nexus.PodcastSync
open Relational Nexus.Jobs Transition ExceptFacts

theorem next_eq_some {s t : SyncState} {now ev} (h : s.next (now, ev) = .some t) :
    s.clock ≤ now ∧ ∃ u, s.act now ev = .some u ∧ t = { u with clock := now } := by
  simp only [SyncState.next] at h
  split at h
  · cases h
  · rename_i hclock
    obtain ⟨u, hact, rfl⟩ := Option.map_eq_some_iff.1 h
    exact ⟨not_lt.1 hclock, u, hact, rfl⟩

/-! ## What is claimed of a state -/

/-- A subscription that is pending or running names a live job of its
generation, an unfinished item belongs to such a generation, a generation has
one job, and a run's row is the aggregation of its items. -/
structure GenerationsEnd (db : SyncDb) : Prop where
  named : ∀ row ∈ db.subscriptions.rows, row.syncStatus.active = true → NamesLive db.queue row
  joined : ∀ item ∈ db.items.rows, item.status.active = true → ∃ row ∈ db.subscriptions.rows,
    row.id = item.subscriptionId ∧ row.syncGeneration = item.syncGeneration ∧ row.syncStatus.active = true
  once : ∀ j ∈ db.queue.rows, ∀ k ∈ db.queue.rows, ∀ p q, j.payload = .payload p → k.payload = .payload q →
    p.subscriptionId = q.subscriptionId → p.syncGeneration = q.syncGeneration → j = k
  aggregated : ∀ run ∈ db.runs.rows, run.aggregation = aggregateRefreshItemStatuses (itemsOfRun db.items run.id)
  /-- A run is running only while an item can still finish. -/
  unfinished : ∀ run ∈ db.runs.rows, run.aggregation.status = .running → ∃ item ∈ db.items.rows, item.runId = run.id ∧
    item.status.active = true

theorem active_of_running {items : List (PodcastRefreshRunItemStatus × Nat)}
    (h : (aggregateRefreshItemStatuses items).status = .running) : ∃ item ∈ items, item.1.active = true := by
  have hcount : items.countP (·.1 == .pending) ≠ 0 ∨ items.countP (·.1 == .running) ≠ 0 := by
    by_contra hnot
    simp only [aggregateRefreshItemStatuses, if_neg hnot] at h
    split at h
    · cases h
    · split at h
      · cases h
      · split at h
        · cases h
        · split at h <;> cases h
  rcases hcount with hne | hne
  all_goals
    obtain ⟨item, hitem, hst⟩ := List.countP_pos_iff.1 (Nat.pos_of_ne_zero hne)
    refine ⟨item, hitem, ?_⟩
    rw [beq_iff_eq.1 hst]
    rfl

section Facts

variable {clock : Instant} {hole : Option Uuid} {stale : List Uuid} {s : SyncState}

theorem SyncInv.generationsEnd (hs : SyncInv clock .none [] s) : GenerationsEnd s.db where
  named row hrow hactive := hs.named row hrow hactive (by simp)
  joined := hs.joined
  once := by
    intro j hj k hk p q hp hq hsub hgen
    obtain ⟨-, p', hp', hdj, -⟩ := hs.jobs j hj
    obtain ⟨-, q', hq', hdk, -⟩ := hs.jobs k hk
    obtain rfl : p' = p := PodcastSyncJson.payload.inj (hp'.symm.trans hp)
    obtain rfl : q' = q := PodcastSyncJson.payload.inj (hq'.symm.trans hq)
    exact hs.unique j hj k hk (by rw [hdj, hdk, hsub, hgen])
  aggregated run hrun := hs.aggregated run hrun (by simp)
  unfinished := by
    intro run hrun hst
    rw [hs.aggregated run hrun (by simp)] at hst
    obtain ⟨x, hx, hactive⟩ := active_of_running hst
    obtain ⟨item, hitem, rfl⟩ := List.mem_map.1 hx
    obtain ⟨hmem, hid⟩ := List.mem_filter.1 hitem
    exact ⟨item, hmem, beq_iff_eq.1 hid, hactive⟩

/-! ## Ends of a generation -/

theorem item_inactive {status : PodcastSyncStatus} (h : status.active = false) : status.item.active = false := by
  cases status <;> first | rfl | cases h

theorem SyncInv.endGeneration (hs : SyncInv clock hole stale s) (now : Instant) {row} (hrow : row ∈ s.db.subscriptions.rows)
    (f : PodcastSubscription → PodcastSubscription) (hf : ∀ row, (f row).id = row.id) (hole' : Option Uuid)
    (hhole : ∀ x, x ≠ row.id → hole' ≠ .some x → hole ≠ .some x) (hended : (f row).syncStatus.active = false)
    (hgen : (f row).syncGeneration = row.syncGeneration) {status : PodcastSyncStatus} (hstatus : status.active = false)
    (count : Nat) : SyncInv clock hole' stale
      { s with db := finishJoinedItems (s.db.updateSubscription row.id f hf) now row.id row.syncGeneration status count } := by
  have hitems := hs.updateItems now (p := (·.joined row.id row.syncGeneration))
    (fun item hp => by simp only [PodcastRefreshRunItem.joined, Bool.and_eq_true] at hp; exact hp.2) status.item (.some count)
  refine hitems.updateSubscription hrow f hf hole' hhole hgen.ge (fun item hitem hactive hid hitemGen => ?_)
    (fun ha => ?_) (fun ha => ?_)
  · -- the joined items are finished by now
    obtain ⟨old, hold, rfl⟩ := List.mem_map.1 hitem
    by_cases hp : old.joined row.id row.syncGeneration = true
    · simp only [hp, if_true, item_inactive hstatus, Bool.false_eq_true] at hactive
    · simp only [hp, Bool.false_eq_true, if_false] at hactive hid hitemGen
      refine absurd ?_ hp
      simp only [PodcastRefreshRunItem.joined, hid, hitemGen, hactive, beq_self_eq_true, Bool.and_self]
  · rw [hended] at ha
    cases ha
  · rw [hended] at ha
    cases ha

theorem SyncInv.failGeneration (hs : SyncInv clock hole stale s) (now : Instant) {row} (hrow : row ∈ s.db.subscriptions.rows)
    (hole' : Option Uuid) (hhole : ∀ x, x ≠ row.id → hole' ≠ .some x → hole ≠ .some x) :
    SyncInv clock hole' stale { s with db := PodcastSync.failGeneration s.db now row } :=
  hs.endGeneration now hrow _ (by intro _; rfl) hole' hhole rfl rfl rfl _

theorem SyncInv.unsubscribe (hs : SyncInv clock hole stale s) (now : Instant) (userId podcastId : Uuid) :
    SyncInv clock hole stale { s with db := PodcastSync.unsubscribe s.db now userId podcastId } := by
  unfold PodcastSync.unsubscribe
  split
  · exact hs
  · rename_i row hfound
    have hitems := hs.updateItems now (p := fun item => item.subscriptionId == row.id && item.status.active)
      (fun item hp => by simp only [Bool.and_eq_true] at hp; exact hp.2) .skipped .none
    have hback : ∀ {k : PodcastSubscription}, k ∈ (s.db.subscriptions.deleteWhere fun other => other.id == row.id).rows →
        k ∈ s.db.subscriptions.rows := fun hk => (Table.mem_deleteWhere.1 hk).1
    exact {
      named := fun k hk => hitems.named k (hback hk)
      joined := by
        intro item hitem hactive
        obtain ⟨k, hk, hkid, hkgen, hkactive⟩ := hitems.joined item hitem hactive
        refine ⟨k, Table.mem_deleteWhere.2 ⟨hk, ?_⟩, hkid, hkgen, hkactive⟩
        -- an unfinished item is not the deleted subscription's
        obtain ⟨old, hold, rfl⟩ := List.mem_map.1 hitem
        by_cases hp : (old.subscriptionId == row.id && old.status.active) = true
        · simp only [hp, if_true] at hactive
          cases hactive
        · simp only [hp, Bool.false_eq_true, if_false] at hactive hkid
          simpa [hkid, hactive] using hp
      unique := hitems.unique
      aggregated := hitems.aggregated
      jobs := by
        intro j hj
        obtain ⟨hk, p, hp, hd, hdr, hpos, hle⟩ := hitems.jobs j hj
        exact ⟨hk, p, hp, hd, hdr, hpos, fun k hk => hle k (hback hk)⟩
      subscriptions := fun k hk => hitems.subscriptions k (hback hk)
      runs := hitems.runs
      held := hitems.held
      ends := fun w e he j hj hh hl k hk => hitems.ends w e he j hj hh hl k (hback hk) }

theorem SyncInv.setAutoQueue (hs : SyncInv clock hole stale s) (userId podcastId : Uuid) (autoQueue : Bool) :
    SyncInv clock hole stale { s with db := PodcastSync.setAutoQueue s.db userId podcastId autoQueue } := by
  have hback : ∀ k ∈ (PodcastSync.setAutoQueue s.db userId podcastId autoQueue).subscriptions.rows,
      ∃ old ∈ s.db.subscriptions.rows, k = old ∨ k = { old with autoQueue := autoQueue } := by
    intro k hk
    obtain ⟨old, hold, rfl⟩ := List.mem_map.1 hk
    refine ⟨old, hold, ?_⟩
    split
    · exact .inr rfl
    · exact .inl rfl
  exact {
    named := by
      intro k hk hactive hne
      obtain ⟨old, hold, rfl | rfl⟩ := hback k hk
      · exact hs.named k hold hactive hne
      · exact hs.named old hold hactive hne
    joined := by
      intro item hitem hactive
      obtain ⟨k, hk, hkid, hkgen, hkactive⟩ := hs.joined item hitem hactive
      refine ⟨_, List.mem_map.2 ⟨k, hk, rfl⟩, ?_⟩
      split
      · exact ⟨hkid, hkgen, hkactive⟩
      · exact ⟨hkid, hkgen, hkactive⟩
    unique := hs.unique
    aggregated := hs.aggregated
    jobs := by
      intro j hj
      obtain ⟨hk, p, hp, hd, hdr, hpos, hle⟩ := hs.jobs j hj
      refine ⟨hk, p, hp, hd, hdr, hpos, fun k hk => ?_⟩
      obtain ⟨old, hold, rfl | rfl⟩ := hback k hk
      · exact hle k hold
      · exact hle old hold
    subscriptions := by
      intro k hk
      obtain ⟨old, hold, rfl | rfl⟩ := hback k hk
      · exact hs.subscriptions k hold
      · exact hs.subscriptions old hold
    runs := hs.runs
    held := hs.held
    ends := by
      intro w e he j hj hh hl k hk hactive hnames
      obtain ⟨old, hold, rfl | rfl⟩ := hback k hk
      · exact hs.ends w e he j hj hh hl k hold hactive hnames
      · have h := hs.ends w e he j hj hh hl old hold hactive hnames
        cases hst : e.stage <;> rw [hst] at h <;> exact h }

end Facts

/-! ## What a transaction of an attempt writes -/

section Transactions

variable {db db' : SyncDb} {now : Instant} {payload : PodcastSyncPayload} {context : JobExecutionContext}

theorem requireExactQueueAttempt_ok {result} (h : requireExactQueueAttempt db now payload context = .ok result) :
    (db.queue.lockAndRenewRunningJobClaim now context podcastSyncJobLeaseSeconds = .none ∧ result = .none) ∨
      ∃ job queue, db.queue.lockAndRenewRunningJobClaim now context podcastSyncJobLeaseSeconds = .some (job, queue) ∧
        result = .some { db with queue := queue } := by
  unfold requireExactQueueAttempt at h
  split at h
  · rename_i hnone
    cases h
    exact .inl ⟨hnone, rfl⟩
  · rename_i job queue hsome
    split at h
    · cases h
    · cases h
      exact .inr ⟨job, queue, hsome, rfl⟩

theorem claimSyncAttempt_ok {claim} (h : claimSyncAttempt db now payload context = .ok (claim, db')) :
    (requireExactQueueAttempt db now payload context = .ok .none ∧ claim = .none ∧ db' = db) ∨
      ∃ db₁, requireExactQueueAttempt db now payload context = .ok (.some db₁) ∧
        ((claim = .none ∧ db' = db₁ ∧ ∀ row, lockSubscriptionEpoch db₁ payload = .some row →
            row.syncJobId = .some context.jobId → row.syncStatus.active = false) ∨
          ∃ row, lockSubscriptionEpoch db₁ payload = .some row ∧ row.syncJobId = .some context.jobId ∧
            row.syncStatus.active = true ∧ claim = .some (now, row.checkpoint) ∧ db' = setJoinedItemsRunning (db₁.updateSubscription payload.subscriptionId
              fun row => { row with syncStatus := .running, syncJobAttemptNo := .some context.attemptNo }) now
                payload.subscriptionId payload.syncGeneration) := by
  unfold claimSyncAttempt at h
  obtain ⟨result, hreq, h⟩ := bind_eq_ok.1 h
  cases result with
  | none =>
    cases h
    exact .inl ⟨hreq, rfl, rfl⟩
  | some db₁ =>
    refine .inr ⟨db₁, hreq, ?_⟩
    dsimp only at h
    cases hlock : lockSubscriptionEpoch db₁ payload with
    | none =>
      rw [hlock] at h
      cases h
      exact .inl ⟨rfl, rfl, fun _ hrow => by cases hrow⟩
    | some row =>
      rw [hlock] at h
      dsimp only at h
      split at h
      · rename_i hnot
        cases h
        refine .inl ⟨rfl, rfl, fun row' hrow hjob => ?_⟩
        cases hrow
        rcases hnot with hne | hinactive
        · exact absurd hjob hne
        · simpa using hinactive
      · rename_i hcur
        cases h
        simp only [not_or, not_not, Bool.not_eq_true', Bool.not_eq_false] at hcur
        exact .inr ⟨row, rfl, hcur.1, hcur.2, rfl, rfl⟩

theorem writeIngestCheckpoint_ok {cutoffAt selected limited checkpoint}
    (h : writeIngestCheckpoint db now payload context cutoffAt selected limited = .ok (checkpoint, db')) :
    (requireExactQueueAttempt db now payload context = .ok .none ∧ checkpoint = .none ∧ db' = db) ∨
      ∃ db₁, requireExactQueueAttempt db now payload context = .ok (.some db₁) ∧
        (((lockSubscriptionEpoch db₁ payload).filter (·.runBy context) = .none ∧ checkpoint = .none ∧ db' = db₁) ∨
          ∃ row, (lockSubscriptionEpoch db₁ payload).filter (·.runBy context) = .some row ∧
            ((checkpoint = row.checkpoint ∧ checkpoint ≠ .none ∧ db' = db₁) ∨
              ∃ episodes ingested written, row.checkpoint = .none ∧
                syncSubscriptionIngest payload.podcastId selected db₁.episodes ⟨0, 0, false⟩ = .ok (episodes, ingested) ∧
                checkpoint = .some written ∧ written.cutoffAt = cutoffAt ∧
                db' = SyncDb.updateSubscription { db₁ with episodes := episodes } payload.subscriptionId
                  fun row => { row with checkpoint := .some written })) := by
  unfold writeIngestCheckpoint at h
  obtain ⟨result, hreq, h⟩ := bind_eq_ok.1 h
  cases result with
  | none =>
    cases h
    exact .inl ⟨hreq, rfl, rfl⟩
  | some db₁ =>
    refine .inr ⟨db₁, hreq, ?_⟩
    dsimp only at h
    cases hlock : (lockSubscriptionEpoch db₁ payload).filter (·.runBy context) with
    | none =>
      rw [hlock] at h
      cases h
      exact .inl ⟨rfl, rfl, rfl⟩
    | some row =>
      rw [hlock] at h
      dsimp only at h
      refine .inr ⟨row, rfl, ?_⟩
      cases hcp : row.checkpoint with
      | some existing =>
        rw [hcp] at h
        cases h
        exact .inl ⟨rfl, by simp, rfl⟩
      | none =>
        rw [hcp] at h
        obtain ⟨⟨episodes, ingested⟩, hing, h⟩ := bind_eq_ok.1 h
        cases h
        exact .inr ⟨episodes, ingested, _, rfl, hing, rfl, rfl, rfl⟩

theorem finalizeHealthySync_ok {finalized eligible}
    (h : finalizeHealthySync db now payload context = .ok (finalized, eligible, db')) :
    (requireExactQueueAttempt db now payload context = .ok .none ∧ finalized = false ∧ eligible = [] ∧ db' = db) ∨
      ∃ db₁, requireExactQueueAttempt db now payload context = .ok (.some db₁) ∧
        (((lockSubscriptionEpoch db₁ payload).filter (·.runBy context) = .none ∧ finalized = false ∧ eligible = [] ∧
            db' = db₁) ∨
          ∃ row checkpoint, (lockSubscriptionEpoch db₁ payload).filter (·.runBy context) = .some row ∧
            row.checkpoint = .some checkpoint ∧ finalized = true ∧
            eligible = (autoQueueWindow db₁.episodes row checkpoint.cutoffAt).1 ∧
            db' = finishJoinedItems (db₁.updateSubscription payload.subscriptionId fun old =>
                { old.ended checkpoint.status.sync with
                  autoQueueWatermarkAt := (autoQueueWindow db₁.episodes row checkpoint.cutoffAt).2 })
              now payload.subscriptionId payload.syncGeneration checkpoint.status.sync checkpoint.newEpisodeCount) := by
  unfold finalizeHealthySync at h
  obtain ⟨result, hreq, h⟩ := bind_eq_ok.1 h
  cases result with
  | none =>
    cases h
    exact .inl ⟨hreq, rfl, rfl, rfl⟩
  | some db₁ =>
    refine .inr ⟨db₁, hreq, ?_⟩
    dsimp only at h
    cases hlock : (lockSubscriptionEpoch db₁ payload).filter (·.runBy context) with
    | none =>
      rw [hlock] at h
      cases h
      exact .inl ⟨rfl, rfl, rfl, rfl⟩
    | some row =>
      rw [hlock] at h
      dsimp only at h
      cases hcp : row.checkpoint with
      | none =>
        rw [hcp] at h
        cases h
      | some checkpoint =>
        rw [hcp] at h
        cases h
        exact .inr ⟨row, checkpoint, rfl, hcp, rfl, rfl, rfl⟩

theorem terminalizeModeledFailure_ok {terminalized}
    (h : terminalizeModeledFailure db now payload context = .ok (terminalized, db')) :
    (requireExactQueueAttempt db now payload context = .ok .none ∧ terminalized = false ∧ db' = db) ∨
      ∃ db₁, requireExactQueueAttempt db now payload context = .ok (.some db₁) ∧
        (((lockSubscriptionEpoch db₁ payload).filter (·.runBy context) = .none ∧ terminalized = false ∧ db' = db₁) ∨
          ∃ row, (lockSubscriptionEpoch db₁ payload).filter (·.runBy context) = .some row ∧ terminalized = true ∧
            db' = failGeneration db₁ now row) := by
  unfold terminalizeModeledFailure at h
  obtain ⟨result, hreq, h⟩ := bind_eq_ok.1 h
  cases result with
  | none =>
    cases h
    exact .inl ⟨hreq, rfl, rfl⟩
  | some db₁ =>
    refine .inr ⟨db₁, hreq, ?_⟩
    dsimp only at h
    cases hlock : (lockSubscriptionEpoch db₁ payload).filter (·.runBy context) with
    | none =>
      rw [hlock] at h
      cases h
      exact .inl ⟨rfl, rfl, rfl⟩
    | some row =>
      rw [hlock] at h
      cases h
      exact .inr ⟨row, rfl, rfl, rfl⟩

end Transactions

/-! ## Attempts -/

section Attempts

variable {now : Instant} {s : SyncState} {worker : String} {e : SyncExecution} {payload : PodcastSyncPayload}

theorem SyncInv.lock_of_named (hs : SyncInv now .none [] s) (hw : s.workers worker = .some e) (hp : e.payload = .payload payload)
    {j} (hj : j ∈ s.db.queue.rows) (hh : Held worker e j) {row} (hrow : row ∈ s.db.subscriptions.rows)
    (hactive : row.syncStatus.active = true) (hnames : row.syncJobId = .some j.id) :
    lockSubscriptionEpoch s.db payload = .some row := by
  have hpayload : row.payload = payload := hs.row_of_job hrow hactive hj hnames ((hs.held worker e hw j hj hh).1.trans hp)
  rw [← hpayload]
  exact lockSubscriptionEpoch_of_mem hrow

theorem SyncInv.runBy_of_named (hs : SyncInv now .none [] s) (hw : s.workers worker = .some e) (hp : e.payload = .payload payload)
    (hstage : ∀ row, e.stage.Ends e.attemptNo row → row.syncStatus = .running ∧ row.syncJobAttemptNo = .some e.attemptNo)
    {j} (hj : j ∈ s.db.queue.rows) (hh : Held worker e j) (hl : Leased now j) {row} (hrow : row ∈ s.db.subscriptions.rows)
    (hactive : row.syncStatus.active = true) (hnames : row.syncJobId = .some j.id) :
    (lockSubscriptionEpoch s.db payload).filter (·.runBy (e.context worker)) = .some row := by
  obtain ⟨hrun, hattempt⟩ := hstage row (hs.ends worker e hw j hj hh hl row hrow hactive hnames)
  have hpos : 0 < e.attemptNo := (hs.held worker e hw j hj hh).2.2
  rw [hs.lock_of_named hw hp hj hh hrow hactive hnames, Option.filter_some, if_pos]
  simp only [PodcastSubscription.runBy, PodcastSubscription.attemptIs, SyncExecution.context, hnames, hh.1, hattempt, hrun,
    beq_self_eq_true, Bool.and_true, Bool.true_and, bne_iff_ne]
  omega

theorem SyncInv.requireExact (hs : SyncInv now .none [] s) (hw : s.workers worker = .some e) {result}
    (h : requireExactQueueAttempt s.db now payload (e.context worker) = .ok result) :
    (result = .none ∧ ∀ j ∈ s.db.queue.rows, Held worker e j → ¬ Leased now j) ∨
      ∃ queue, result = .some (s.setQueue queue).db ∧ SyncInv now .none [] (s.setQueue queue) ∧
        ∀ k ∈ queue.rows, k.id = e.jobId → k.claimedBy = .some worker := by
  rcases requireExactQueueAttempt_ok h with ⟨hnone, rfl⟩ | ⟨job, queue, hsome, rfl⟩
  · refine .inl ⟨rfl, fun j hj hh hl => ?_⟩
    have hattempt : j.attempts = e.attemptNo := (hs.held worker e hw j hj hh).2.1
    have hfound : s.db.queue.find? e.jobId = .some j := by
      rw [← hh.1]
      exact Table.find?_of_mem hj
    have howned : j.ownedAttempt (e.context worker) now = true := by
      rw [JobRow.ownedAttempt, Bool.and_eq_true, JobRow.ownedBy_iff, beq_iff_eq]
      exact ⟨⟨hh.2.1, hh.2.2, hl⟩, hattempt⟩
    simp only [SyncExecution.context] at howned
    simp only [Queue.lockAndRenewRunningJobClaim, Queue.updateJob, SyncExecution.context, hfound, howned, if_true] at hnone
    cases hnone
  · refine .inr ⟨queue, rfl, hs.lockAndRenew hsome, fun k hk hid => ?_⟩
    obtain ⟨j, -, -, hg, hrow, hmem⟩ := Queue.mem_updateJob hsome
    rcases (hmem k).1 hk with rfl | ⟨-, hne⟩
    · exact (JobRow.ownedBy_iff.1 (JobRow.ownedBy_of_attempt hg)).2.1
    · exact absurd hid hne

theorem executing_eq_some (h : s.executing worker = .some (e, payload)) :
    s.workers worker = .some e ∧ e.payload = .payload payload := by
  simp only [SyncState.executing, Option.bind_eq_bind, Option.pure_def, Option.bind_eq_some_iff, Option.some.injEq,
    Prod.mk.injEq] at h
  obtain ⟨e', hw, payload', hp, rfl, rfl⟩ := h
  refine ⟨hw, ?_⟩
  cases hjson : e'.payload with
  | payload p =>
    rw [hjson, PodcastSyncPayload.parse] at hp
    split at hp
    · cases hp
    · exact congrArg _ (Option.some.inj hp)
  | result r =>
    rw [hjson] at hp
    cases hp

theorem SyncInv.moves (hs : SyncInv now .none [] s) (hw : s.workers worker = .some e) (stage : SyncStage)
    (h : ∀ j ∈ s.db.queue.rows, Held worker e j → Leased now j → ∀ row ∈ s.db.subscriptions.rows,
      row.syncStatus.active = true → row.syncJobId = .some j.id → stage.Ends e.attemptNo row) :
    SyncInv now .none [] (s.setWorker worker (.some { e with stage := stage })) :=
  hs.setWorker worker fun _ he => by
    cases he
    exact ⟨e, hw, rfl, rfl, rfl, h⟩

theorem SyncInv.claimAttempt (hs : SyncInv now .none [] s) (hw : s.workers worker = .some e) (hp : e.payload = .payload payload)
    (hstage : e.stage = .started) {t} (h : s.claimAttempt now worker e payload = .ok t) : SyncInv now .none [] t := by
  obtain ⟨⟨claim, db⟩, hclaim, h⟩ := bind_eq_ok.1 h
  cases h
  rcases claimSyncAttempt_ok hclaim with ⟨hreq, rfl, rfl⟩ | ⟨db₁, hreq, hrest⟩
  · rcases hs.requireExact hw hreq with ⟨-, hlost⟩ | ⟨queue, heq, -⟩
    · exact hs.moves hw _ fun j hj hh hl => absurd hl (hlost j hj hh)
    · cases heq
  · rcases hs.requireExact hw hreq with ⟨heq, -⟩ | ⟨queue, heq, hq, hclaimed⟩
    · cases heq
    cases heq
    have hwq : (s.setQueue queue).workers worker = .some e := hw
    rcases hrest with ⟨rfl, rfl, hnot⟩ | ⟨row, hlock, hjob, hactive, rfl, rfl⟩
    · refine hq.moves hwq _ fun j hj hh hl row hrow hactive hnames => ?_
      have hlock := hq.lock_of_named hwq hp hj hh hrow hactive hnames
      have hinactive := hnot row hlock (hnames.trans (congrArg _ hh.1))
      rw [hactive] at hinactive
      cases hinactive
    · obtain ⟨hrow, rfl⟩ := lockSubscriptionEpoch_eq_some hlock
      -- the attempt is recorded, and nobody else holds the job
      have hrecorded : SyncInv now .none [] { (s.setQueue queue) with
          db := (s.setQueue queue).db.updateSubscription row.id fun row =>
            { row with syncStatus := .running, syncJobAttemptNo := .some e.attemptNo } } := by
        refine hq.updateSubscription hrow _ (by intro _; rfl) .none (fun _ _ h => h) (le_refl _) (fun _ _ _ _ _ => ⟨rfl, rfl⟩)
          (fun _ _ => hq.named row hrow hactive (by simp)) fun _ w e' hw' j hj hh hl hnames => ?_
        have hid : j.id = e.jobId := Option.some.inj (hnames.symm.trans hjob)
        have hsame : worker = w := Option.some.inj ((hclaimed j hj hid).symm.trans hh.2.2)
        subst hsame
        obtain rfl : e = e' := Option.some.inj (hwq.symm.trans hw')
        rw [hstage]
        trivial
      have hitems := hrecorded.updateItems now (p := (·.joined row.id row.syncGeneration))
        (fun item hp => by simp only [PodcastRefreshRunItem.joined, Bool.and_eq_true] at hp; exact hp.2) .running .none
      refine hitems.moves hwq _ fun j hj hh hl sub hsub hsubActive hnames => ?_
      have hpayload := (lockSubscriptionEpoch_eq_some (hitems.lock_of_named hwq hp hj hh hsub hsubActive hnames)).2
      have hid : sub.id = row.id := congrArg PodcastSyncPayload.subscriptionId hpayload
      obtain ⟨old, hold, rfl⟩ := List.mem_map.1 hsub
      by_cases hold : (old.id == row.id) = true
      · simp only [hold, if_true]
        cases row.checkpoint with
        | none => exact ⟨rfl, rfl⟩
        | some checkpoint => exact ⟨rfl, rfl⟩
      · simp only [hold, Bool.false_eq_true, if_false] at hid
        exact absurd (beq_iff_eq.2 hid) hold

theorem SyncInv.setEpisodes (hs : SyncInv now .none [] s) (episodes : Episodes) :
    SyncInv now .none [] { s with db := { s.db with episodes := episodes } } :=
  ⟨hs.named, hs.joined, hs.unique, hs.aggregated, hs.jobs, hs.subscriptions, hs.runs, hs.held, hs.ends⟩

theorem runBy_eq_some {db : SyncDb} {context row} (h : (lockSubscriptionEpoch db payload).filter (·.runBy context) = .some row) :
    row ∈ db.subscriptions.rows ∧ row.payload = payload ∧ row.runBy context = true := by
  obtain ⟨hlock, hrun⟩ := Option.filter_eq_some_iff.1 h
  obtain ⟨hrow, hp⟩ := lockSubscriptionEpoch_eq_some hlock
  exact ⟨hrow, hp, hrun⟩

theorem SyncInv.checkpoint (hs : SyncInv now .none [] s) (hw : s.workers worker = .some e) (hp : e.payload = .payload payload)
    {cutoffAt} (hstage : e.stage = .claimed cutoffAt) {selected limited t}
    (h : s.checkpoint now worker e payload cutoffAt selected limited = .ok t) : SyncInv now .none [] t := by
  have hends : ∀ row, e.stage.Ends e.attemptNo row → row.syncStatus = .running ∧ row.syncJobAttemptNo = .some e.attemptNo := by
    rw [hstage]
    exact fun _ h => h
  obtain ⟨⟨checkpoint, db⟩, hwrite, h⟩ := bind_eq_ok.1 h
  cases h
  rcases writeIngestCheckpoint_ok hwrite with ⟨hreq, rfl, rfl⟩ | ⟨db₁, hreq, hrest⟩
  · rcases hs.requireExact hw hreq with ⟨-, hlost⟩ | ⟨queue, heq, -⟩
    · exact hs.moves hw _ fun j hj hh hl => absurd hl (hlost j hj hh)
    · cases heq
  · rcases hs.requireExact hw hreq with ⟨heq, -⟩ | ⟨queue, heq, hq, -⟩
    · cases heq
    cases heq
    have hwq : (s.setQueue queue).workers worker = .some e := hw
    rcases hrest with ⟨hnone, rfl, rfl⟩ | ⟨row, hrun, ⟨rfl, hne, rfl⟩ | ⟨episodes, ingested, written, -, -, rfl, -, rfl⟩⟩
    · refine hq.moves hwq _ fun j hj hh hl row hrow hactive hnames => ?_
      rw [hq.runBy_of_named hwq hp hends hj hh hl hrow hactive hnames] at hnone
      cases hnone
    · cases hcp : row.checkpoint with
      | none => exact absurd hcp hne
      | some existing =>
        refine hq.moves hwq _ fun j hj hh hl row hrow hactive hnames => ?_
        exact hends row (hq.ends worker e hwq j hj hh hl row hrow hactive hnames)
    · obtain ⟨hrow, rfl, -⟩ := runBy_eq_some hrun
      have hwritten := (hq.setEpisodes episodes).keepSubscription hrow (fun row => { row with checkpoint := .some written })
        (by intro _; rfl) rfl rfl rfl rfl
      refine hwritten.moves hwq _ fun j hj hh hl row hrow hactive hnames => ?_
      exact hends row (hwritten.ends worker e hwq j hj hh hl row hrow hactive hnames)

theorem SyncInv.returns (hs : SyncInv now .none [] s) (hw : s.workers worker = .some e) (hp : e.payload = .payload payload)
    (hgone : ∀ row ∈ s.db.subscriptions.rows, row.payload = payload → row.syncStatus.active = false)
    (result : SubscriptionSyncResult) :
    SyncInv now .none [] (s.setWorker worker (.some { e with stage := .returned result })) :=
  hs.moves hw _ fun j hj hh hl row hrow hactive hnames => by
    have hlock := lockSubscriptionEpoch_eq_some (hs.lock_of_named hw hp hj hh hrow hactive hnames)
    rw [hgone row hrow hlock.2] at hactive
    cases hactive

theorem inactive_of_ended {db : SyncDb} {row f hf status count} (hrow : row ∈ db.subscriptions.rows)
    (hended : (f row).syncStatus.active = false) :
    ∀ k ∈ (finishJoinedItems (db.updateSubscription row.id f hf) now row.id row.syncGeneration status count).subscriptions.rows,
      k.payload = row.payload → k.syncStatus.active = false := by
  intro k hk hpayload
  have hid : k.id = row.id := congrArg PodcastSyncPayload.subscriptionId hpayload
  obtain ⟨old, hold, rfl⟩ := (mem_updateSubscription hf).1 hk
  by_cases hold' : old.id = row.id
  · rw [if_pos hold', Table.eq_of_key hold hrow hold']
    exact hended
  · rw [if_neg hold'] at hid
    exact absurd hid hold'

theorem healthy_inactive (status : PodcastHealthySyncStatus) : status.sync.active = false := by
  cases status <;> rfl

theorem SyncInv.finalize (hs : SyncInv now .none [] s) (hw : s.workers worker = .some e) (hp : e.payload = .payload payload)
    {found} (hstage : e.stage = .checkpointed found) {t} (h : s.finalize now worker e payload found = .ok t) :
    SyncInv now .none [] t := by
  have hends : ∀ row, e.stage.Ends e.attemptNo row → row.syncStatus = .running ∧ row.syncJobAttemptNo = .some e.attemptNo := by
    rw [hstage]
    exact fun _ h => h
  obtain ⟨⟨finalized, eligible, db⟩, hfin, h⟩ := bind_eq_ok.1 h
  cases h
  rcases finalizeHealthySync_ok hfin with ⟨hreq, rfl, rfl, rfl⟩ | ⟨db₁, hreq, hrest⟩
  · rcases hs.requireExact hw hreq with ⟨-, hlost⟩ | ⟨queue, heq, -⟩
    · exact (hs.moves hw (.returned _) fun j hj hh hl => absurd hl (hlost j hj hh)).congr rfl rfl fun _ hx => hx
    · cases heq
  · rcases hs.requireExact hw hreq with ⟨heq, -⟩ | ⟨queue, heq, hq, -⟩
    · cases heq
    cases heq
    have hwq : (s.setQueue queue).workers worker = .some e := hw
    rcases hrest with ⟨hnone, rfl, rfl, rfl⟩ | ⟨row, checkpoint, hrun, -, rfl, rfl, rfl⟩
    · refine SyncInv.congr (hq.moves hwq (.returned _) fun j hj hh hl row hrow hactive hnames => ?_) rfl rfl
        fun _ hx => hx
      rw [hq.runBy_of_named hwq hp hends hj hh hl hrow hactive hnames] at hnone
      cases hnone
    · obtain ⟨hrow, rfl, -⟩ := runBy_eq_some hrun
      have hended := hq.endGeneration now hrow (fun old =>
          { old.ended checkpoint.status.sync with
            autoQueueWatermarkAt := (autoQueueWindow (s.setQueue queue).db.episodes row checkpoint.cutoffAt).2 })
        (by intro _; rfl) .none (fun _ _ h => h) (healthy_inactive checkpoint.status) rfl
        (healthy_inactive checkpoint.status) checkpoint.newEpisodeCount
      exact (hended.returns hwq hp (inactive_of_ended hrow (healthy_inactive checkpoint.status)) _).congr rfl rfl fun _ hx => hx

theorem SyncInv.terminalize (hs : SyncInv now .none [] s) (hw : s.workers worker = .some e) (hp : e.payload = .payload payload)
    {errorCode} (hstage : e.stage = .failing errorCode) {t} (h : s.terminalize now worker e payload errorCode = .ok t) :
    SyncInv now .none [] t := by
  have hends : ∀ row, e.stage.Ends e.attemptNo row → row.syncStatus = .running ∧ row.syncJobAttemptNo = .some e.attemptNo := by
    rw [hstage]
    exact fun _ h => h
  obtain ⟨⟨terminalized, db⟩, hterm, h⟩ := bind_eq_ok.1 h
  cases h
  rcases terminalizeModeledFailure_ok hterm with ⟨hreq, rfl, rfl⟩ | ⟨db₁, hreq, hrest⟩
  · rcases hs.requireExact hw hreq with ⟨-, hlost⟩ | ⟨queue, heq, -⟩
    · exact hs.moves hw (.returned _) fun j hj hh hl => absurd hl (hlost j hj hh)
    · cases heq
  · rcases hs.requireExact hw hreq with ⟨heq, -⟩ | ⟨queue, heq, hq, -⟩
    · cases heq
    cases heq
    have hwq : (s.setQueue queue).workers worker = .some e := hw
    rcases hrest with ⟨hnone, rfl, rfl⟩ | ⟨row, hrun, rfl, rfl⟩
    · refine hq.moves hwq (.returned _) fun j hj hh hl row hrow hactive hnames => ?_
      rw [hq.runBy_of_named hwq hp hends hj hh hl hrow hactive hnames] at hnone
      cases hnone
    · obtain ⟨hrow, rfl, -⟩ := runBy_eq_some hrun
      exact (hq.failGeneration now hrow .none fun _ _ h => h).returns hwq hp (inactive_of_ended hrow rfl) _

end Attempts

/-! ## Ends of a job -/

/-- **The condition of `generations_end`.** A job that goes dead while its
subscription is running under it has the attempt that is recorded there. -/
def RecordsAttempt (s : SyncState) : Option (JobRow PodcastSyncJson × Queue PodcastSyncJson) → Prop
  | .none => True
  | .some (job, _) => job.status = .dead → ∀ row ∈ s.db.subscriptions.rows, row.syncStatus = .running →
      row.syncJobId = .some job.id → row.attemptIs job.attempts = true

section JobEnds

variable {now : Instant} {s : SyncState} {job : JobRow PodcastSyncJson}

theorem deadLetter_named (db : SyncDb) (now : Instant) {row} (hrow : row ∈ db.subscriptions.rows) (hactive : row.syncStatus.active = true)
    (hnames : row.syncJobId = .some job.id) (hkind : job.kind = podcastSyncJobKind) (hp : job.payload = .payload row.payload)
    (hpos : 1 ≤ row.syncGeneration) (hkey : job.dedupeKey = .some (podcastSyncDedupeKey row.id row.syncGeneration)) :
    deadLetterPodcastSubscriptionSync db now job =
      if row.syncStatus = .running ∧ !row.attemptIs job.attempts then db else failGeneration db now row := by
  have hparse : PodcastSyncPayload.parse job.payload = .some row.payload := by
    rw [hp, PodcastSyncPayload.parse, if_neg]
    exact not_lt.2 hpos
  have hkey' : job.dedupeKey = .some (podcastSyncDedupeKey row.payload.subscriptionId row.payload.syncGeneration) := hkey
  simp only [deadLetterPodcastSubscriptionSync, hkind, hparse, hkey', lockSubscriptionEpoch_of_mem hrow, hnames, hactive, ne_eq,
    not_true_eq_false, if_false, Bool.not_true, Bool.false_eq_true]

theorem deadLetter_unnamed (db : SyncDb) (now : Instant)
    (h : ∀ row ∈ db.subscriptions.rows, row.syncStatus.active = true → row.syncJobId ≠ .some job.id) :
    deadLetterPodcastSubscriptionSync db now job = db := by
  unfold deadLetterPodcastSubscriptionSync
  split
  · rfl
  · split
    · rfl
    · split
      · rfl
      · split
        · rfl
        · rename_i row hlock
          have hrow := (lockSubscriptionEpoch_eq_some hlock).1
          by_cases hjob : row.syncJobId = .some job.id
          · have hinactive : row.syncStatus.active = false := by
              by_contra hne
              exact h row hrow (by simpa using hne) hjob
            simp [hjob, hinactive]
          · rw [if_pos hjob]

/-- A statement that ends an attempt: the row waits again, or is dead. -/
structure EndsAttempt (f : JobRow PodcastSyncJson → JobRow PodcastSyncJson) : Prop where
  kind : ∀ j, (f j).kind = j.kind
  payload : ∀ j, (f j).payload = j.payload
  dedupeKey : ∀ j, (f j).dedupeKey = j.dedupeKey
  attempts : ∀ j, (f j).attempts = j.attempts
  status : ∀ j, (f j).status = .failed ∨ (f j).status = .dead

variable {jobId : Uuid} {guard : JobRow PodcastSyncJson → Bool} {f : JobRow PodcastSyncJson → JobRow PodcastSyncJson}
  {hf : ∀ j, (f j).id = j.id} {queue : Queue PodcastSyncJson}

theorem SameJobs.of_ends (hends : EndsAttempt f) (h : s.db.queue.updateJob jobId guard f hf = .some (job, queue)) :
    SameJobs now s.db.queue queue :=
  SameJobs.of_updateJob h fun j _ => ⟨hends.kind j, hends.payload j, hends.dedupeKey j, fun hr => by
    rcases hends.status j with hst | hst <;> rw [hst] at hr <;> cases hr⟩

theorem SyncInv.ended (hs : SyncInv now .none [] s) (hends : EndsAttempt f)
    (h : s.db.queue.updateJob jobId guard f hf = .some (job, queue)) :
    job.id = jobId ∧ job ∈ queue.rows ∧ job.kind = podcastSyncJobKind ∧ ∃ p, job.payload = .payload p ∧
      job.dedupeKey = .some (podcastSyncDedupeKey p.subscriptionId p.syncGeneration) ∧
      ∀ row ∈ s.db.subscriptions.rows, row.syncStatus.active = true → row.syncJobId = .some job.id → row.payload = p := by
  obtain ⟨j, hj, hid, -, rfl, hmem⟩ := Queue.mem_updateJob h
  obtain ⟨hk, p, hp, hd, -⟩ := hs.jobs j hj
  refine ⟨(hf j).trans hid, (hmem _).2 (.inl rfl), (hends.kind j).trans hk, p, (hends.payload j).trans hp,
    (hends.dedupeKey j).trans hd, fun row hrow hactive hnames => ?_⟩
  exact hs.row_of_job hrow hactive hj (hnames.trans (congrArg _ (hf j))) hp

theorem SyncInv.settled (hs : SyncInv now .none [] s) (hends : EndsAttempt f) {result}
    (h : result = s.db.queue.updateJob jobId guard f hf) (hrecords : RecordsAttempt s result) :
    SyncInv now .none [] (s.settled now result) := by
  cases hr : result with
  | none => exact hs
  | some r =>
    obtain ⟨job, queue⟩ := r
    rw [hr] at h hrecords
    obtain ⟨hid, -, hkind, p, hp, hkey, hpayload⟩ := hs.ended hends h.symm
    simp only [SyncState.settled]
    by_cases hdead : job.status = .dead
    · rw [if_pos hdead]
      by_cases hnamed : ∃ row ∈ s.db.subscriptions.rows, row.syncStatus.active = true ∧ row.syncJobId = .some job.id
      · -- the generation the dead job leaves is failed by the hook
        obtain ⟨row, hrow, hactive, hnames⟩ := hnamed
        obtain rfl := hpayload row hrow hactive hnames
        have hholed : SyncInv now (.some row.id) [] (s.setQueue queue) := by
          refine hs.setQueue (.some row.id) (SameJobs.of_ends hends h.symm) (by simp) fun sub hsub hsubActive hne hn => ?_
          refine NamesLive.updateJob h.symm hn fun hsubNames => ?_
          have heq := hpayload sub hsub hsubActive (hsubNames.trans (congrArg _ hid.symm))
          exact absurd (congrArg _ (congrArg PodcastSyncPayload.subscriptionId heq.symm)) hne
        have hhook := deadLetter_named (s.setQueue queue).db now hrow hactive hnames hkind hp
          (hs.subscriptions row hrow).2 hkey
        rw [hhook, if_neg]
        · exact hholed.failGeneration now hrow .none fun x hx _ he => hx (Option.some.inj he).symm
        · rintro ⟨hrun, hnot⟩
          rw [hrecords hdead row hrow hrun hnames] at hnot
          cases hnot
      · simp only [not_exists, not_and] at hnamed
        rw [deadLetter_unnamed (s.setQueue queue).db now hnamed]
        refine hs.setQueue .none (SameJobs.of_ends hends h.symm) (fun _ h => h) fun sub hsub hsubActive _ hn => ?_
        exact NamesLive.updateJob h.symm hn fun hsubNames =>
          absurd (hsubNames.trans (congrArg _ hid.symm)) (hnamed sub hsub hsubActive)
    · rw [if_neg hdead]
      refine hs.setQueue .none (SameJobs.of_ends hends h.symm) (fun _ h => h) fun sub hsub hsubActive _ hn => ?_
      refine NamesLive.updateJob h.symm hn fun hsubNames => ⟨?_, hdead, ?_⟩
      · rw [hp, hpayload sub hsub hsubActive (hsubNames.trans (congrArg _ hid.symm))]
      · obtain ⟨j, -, -, -, rfl, -⟩ := Queue.mem_updateJob h.symm
        rcases hends.status j with hst | hst <;> rw [hst] <;> decide

theorem SyncInv.records_of_generationsEnd (hs : SyncInv now .none [] s) (hends : EndsAttempt f) {result}
    (h : result = s.db.queue.updateJob jobId guard f hf) (hkeeps : GenerationsEnd (s.settled now result).db) :
    RecordsAttempt s result := by
  cases hr : result with
  | none => trivial
  | some r =>
    obtain ⟨job, queue⟩ := r
    rw [hr] at h hkeeps
    obtain ⟨hid, hmem, hkind, p, hp, hkey, hpayload⟩ := hs.ended hends h.symm
    intro hdead row hrow hrun hnames
    have hactive : row.syncStatus.active = true := by rw [hrun]; rfl
    obtain rfl := hpayload row hrow hactive hnames
    by_contra hnot
    have hhook := deadLetter_named (s.setQueue queue).db now hrow hactive hnames hkind hp
      (hs.subscriptions row hrow).2 hkey
    rw [if_pos ⟨hrun, by simpa using hnot⟩] at hhook
    have hdb : (s.settled now (.some (job, queue))).db = (s.setQueue queue).db := by
      simp only [SyncState.settled, if_pos hdead]
      exact hhook
    rw [hdb] at hkeeps
    obtain ⟨live, hlive, hnames', -, hdead', -⟩ := hkeeps.named row hrow hactive
    have heq : live = job := Table.eq_of_key hlive hmem (Option.some.inj (hnames'.symm.trans hnames))
    exact hdead' (heq ▸ hdead)

theorem failed_ends (errorCode errorMessage : String) (delays : List Int) (resultPayload : Option PodcastSyncJson) :
    EndsAttempt (Queue.failed now errorCode errorMessage delays resultPayload) where
  kind _ := rfl
  payload _ := rfl
  dedupeKey _ := rfl
  attempts _ := rfl
  status j := by
    simp only [Queue.failed]
    split
    · exact .inr rfl
    · exact .inl rfl

theorem SyncInv.complete (hs : SyncInv now .none [] s) {worker e result} (hw : s.workers worker = .some e)
    (hstage : e.stage = .returned result) {r} (h : s.db.queue.completeJob now e.jobId worker r = .some (job, queue)) :
    SyncInv now .none [] (s.setQueue queue) := by
  refine hs.setQueue .none (SameJobs.of_updateJob h fun j _ => ⟨rfl, rfl, rfl, fun hr => by cases hr⟩) (fun _ h => h)
    fun sub hsub hactive _ hn => NamesLive.updateJob h hn fun hnames => ?_
  obtain ⟨j, hj, hid, hg, -⟩ := Queue.mem_updateJob h
  obtain ⟨hr, hc, hlease⟩ := JobRow.ownedBy_iff.1 hg
  have hends := hs.ends worker e hw j hj ⟨hid, hr, hc⟩ hlease sub hsub hactive (hnames.trans (congrArg _ hid.symm))
  rw [hstage] at hends
  exact hends.elim

end JobEnds

end Nexus.PodcastSync
