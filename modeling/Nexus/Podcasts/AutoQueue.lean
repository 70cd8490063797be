/-
What auto-queue hands to the Lectern.

A healthy finalization of a subscription with auto-queue on hands over the
stored episodes of its podcast that were published after the watermark and not
after its cutoff, and moves the watermark to the cutoff; no other step hands
anything over or moves it (`Delivers`). An episode whose stored publication time
stays as it is therefore goes out with the first such finalization whose cutoff
has reached that time, if it is stored by then, and never again.

Both halves need their condition: an episode that appears in the feed after a
cutoff has passed its publication time is not handed over, and one whose
publication time is moved past the watermark is handed over again.
-/
import Nexus.Podcasts.Generations

namespace Nexus.PodcastSync
open Relational Nexus.Jobs Transition ExceptFacts

/-! ## Steps that leave the windows -/

/-- No subscription changes its podcast or its watermark, and none is new. -/
def KeepsWindows (db db' : SyncDb) : Prop :=
  ∀ k ∈ db'.subscriptions.rows, ∃ old ∈ db.subscriptions.rows, old.id = k.id ∧ old.podcastId = k.podcastId ∧
    old.autoQueueWatermarkAt = k.autoQueueWatermarkAt

section Keeps

variable {db db' db'' : SyncDb} {now : Instant}

theorem KeepsWindows.refl (db : SyncDb) : KeepsWindows db db := fun k hk => ⟨k, hk, rfl, rfl, rfl⟩

theorem KeepsWindows.of_eq (h : db'.subscriptions = db.subscriptions) : KeepsWindows db db' := by
  intro k hk
  rw [h] at hk
  exact ⟨k, hk, rfl, rfl, rfl⟩

theorem KeepsWindows.trans (h : KeepsWindows db db') (h' : KeepsWindows db' db'') : KeepsWindows db db'' := by
  intro k hk
  obtain ⟨old, hold, hid, hpod, hw⟩ := h' k hk
  obtain ⟨older, holder, hid', hpod', hw'⟩ := h old hold
  exact ⟨older, holder, hid'.trans hid, hpod'.trans hpod, hw'.trans hw⟩

theorem KeepsWindows.after (h : KeepsWindows db db') (heq : db''.subscriptions = db'.subscriptions) : KeepsWindows db db'' :=
  h.trans (.of_eq heq)

theorem KeepsWindows.updateSubscription (db : SyncDb) (id : Uuid) (f : PodcastSubscription → PodcastSubscription)
    (hf : ∀ row, (f row).id = row.id) (hpod : ∀ row, (f row).podcastId = row.podcastId)
    (hw : ∀ row, (f row).autoQueueWatermarkAt = row.autoQueueWatermarkAt) :
    KeepsWindows db (db.updateSubscription id f hf) := by
  intro k hk
  obtain ⟨old, hold, rfl⟩ := (mem_updateSubscription hf).1 hk
  refine ⟨old, hold, ?_⟩
  split
  · exact ⟨(hf old).symm, (hpod old).symm, (hw old).symm⟩
  · exact ⟨rfl, rfl, rfl⟩

theorem keeps_admission {subscriptionId userId podcastId priority jobId run r}
    (h : admitSubscriptionGeneration db now subscriptionId userId podcastId priority jobId run = .ok r) :
    KeepsWindows db r.2 := by
  obtain ⟨before, -, h⟩ := bind_eq_ok.1 h
  obtain ⟨⟨promoted, queue⟩, -, h⟩ := bind_eq_ok.1 h
  obtain ⟨⟨currentJobId, inserted, db₁⟩, hjob, h⟩ := bind_eq_ok.1 h
  obtain ⟨db₂, hinsert, h⟩ := bind_eq_ok.1 h
  cases h
  have hstart : KeepsWindows db (SyncDb.updateSubscription { db with queue := queue } subscriptionId (·.startGeneration)) :=
    (KeepsWindows.updateSubscription db subscriptionId (·.startGeneration) (by intro _; rfl) (fun _ => rfl) fun _ => rfl).after rfl
  refine (hstart.trans ?_).trans (?_ : KeepsWindows db₁ db₂)
  · unfold generationJob at hjob
    split at hjob
    · cases hjob
      exact .refl _
    · split at hjob
      · cases hjob
      · split at hjob
        · cases hjob
        · cases hjob
          exact .updateSubscription _ _ _ _ (fun _ => rfl) fun _ => rfl
  · unfold insertItem at hinsert
    split at hinsert
    · cases hinsert
      exact .refl _
    · split at hinsert
      · cases hinsert
      · cases hinsert
        exact .of_eq rfl

theorem keeps_admitAll {priority runId newIds} : ∀ {rows : List PodcastSubscription} {db db' : SyncDb},
    admitAll now priority runId newIds rows db = .ok db' → KeepsWindows db db'
  | [], db, db', h => by
    cases h
    exact .refl db
  | row :: rows, db, db', h => by
    obtain ⟨r, hadm, h⟩ := bind_eq_ok.1 h
    exact (keeps_admission hadm).trans (keeps_admitAll h)

theorem keeps_insertRun {runId userId requested} (h : insertRun db now runId userId requested = .ok db') :
    KeepsWindows db db' := by
  unfold insertRun at h
  split at h
  · cases h
  · cases h
    exact .of_eq rfl

theorem keeps_manual {viewerId scope runId newIds} (h : createManualRefreshRun db now viewerId scope runId newIds = .ok db') :
    KeepsWindows db db' := by
  obtain ⟨rows, -, h⟩ := bind_eq_ok.1 h
  obtain ⟨db₁, hinsert, h⟩ := bind_eq_ok.1 h
  obtain ⟨db₂, hadm, h⟩ := bind_eq_ok.1 h
  cases h
  refine ((keeps_insertRun hinsert).trans (keeps_admitAll hadm)).after ?_
  split <;> rfl

theorem keeps_viewers {rows runIds newIds} : ∀ {viewers : List Uuid} {db db' : SyncDb},
    admitViewers now rows runIds newIds viewers db = .ok db' → KeepsWindows db db'
  | [], db, db', h => by
    cases h
    exact .refl db
  | viewerId :: viewers, db, db', h => by
    obtain ⟨db₁, hinsert, h⟩ := bind_eq_ok.1 h
    obtain ⟨db₂, hadm, h⟩ := bind_eq_ok.1 h
    have hrun := (keeps_insertRun hinsert).trans (keeps_admitAll hadm)
    have hcounted : KeepsWindows db (recomputeRefreshRuns db₂ now [runIds viewerId]) := hrun.after rfl
    exact hcounted.trans (keeps_viewers h)

theorem keeps_unsubscribe (userId podcastId : Uuid) : KeepsWindows db (unsubscribe db now userId podcastId) := by
  unfold unsubscribe
  split
  · exact .refl db
  · intro k hk
    exact ⟨k, (Table.mem_deleteWhere.1 hk).1, rfl, rfl, rfl⟩

theorem keeps_setAutoQueue (userId podcastId : Uuid) (autoQueue : Bool) :
    KeepsWindows db (setAutoQueue db userId podcastId autoQueue) := by
  intro k hk
  obtain ⟨old, hold, rfl⟩ := List.mem_map.1 hk
  refine ⟨old, hold, ?_⟩
  split
  · exact ⟨rfl, rfl, rfl⟩
  · exact ⟨rfl, rfl, rfl⟩

theorem keeps_requireExact {payload context result} (h : requireExactQueueAttempt db now payload context = .ok result) :
    ∀ db₁ ∈ result, db₁.subscriptions = db.subscriptions ∧ db₁.episodes = db.episodes := by
  intro db₁ hdb
  rcases requireExactQueueAttempt_ok h with ⟨-, rfl⟩ | ⟨job, queue, -, rfl⟩
  · cases hdb
  · cases hdb
    exact ⟨rfl, rfl⟩

theorem keeps_claim {payload context claim} (h : claimSyncAttempt db now payload context = .ok (claim, db')) :
    KeepsWindows db db' := by
  rcases claimSyncAttempt_ok h with ⟨-, -, rfl⟩ | ⟨db₁, hreq, ⟨-, rfl, -⟩ | ⟨row, -, -, -, -, rfl⟩⟩
  · exact .refl _
  · exact .of_eq (keeps_requireExact hreq _ rfl).1
  · have hrecorded := KeepsWindows.updateSubscription db₁ payload.subscriptionId
      (fun row => { row with syncStatus := .running, syncJobAttemptNo := .some context.attemptNo }) (by intro _; rfl)
      (fun _ => rfl) fun _ => rfl
    exact (KeepsWindows.of_eq (keeps_requireExact hreq _ rfl).1).trans (hrecorded.after rfl)

theorem keeps_checkpoint {payload context cutoffAt selected limited checkpoint}
    (h : writeIngestCheckpoint db now payload context cutoffAt selected limited = .ok (checkpoint, db')) :
    KeepsWindows db db' := by
  rcases writeIngestCheckpoint_ok h with
    ⟨-, -, rfl⟩ | ⟨db₁, hreq, ⟨-, -, rfl⟩ | ⟨row, -, ⟨-, -, rfl⟩ | ⟨episodes, ingested, written, -, -, -, -, rfl⟩⟩⟩
  · exact .refl _
  · exact .of_eq (keeps_requireExact hreq _ rfl).1
  · exact .of_eq (keeps_requireExact hreq _ rfl).1
  · have hwritten := KeepsWindows.updateSubscription db₁ payload.subscriptionId
      (fun row => { row with checkpoint := .some written }) (by intro _; rfl) (fun _ => rfl) fun _ => rfl
    exact (KeepsWindows.of_eq (keeps_requireExact hreq _ rfl).1).trans (hwritten.after rfl)

theorem keeps_failGeneration (db : SyncDb) (now : Instant) (row : PodcastSubscription) :
    KeepsWindows db (failGeneration db now row) :=
  (KeepsWindows.updateSubscription db row.id (·.ended .failed) (by intro _; rfl) (fun _ => rfl) fun _ => rfl).after rfl

theorem keeps_terminalize {payload context terminalized}
    (h : terminalizeModeledFailure db now payload context = .ok (terminalized, db')) : KeepsWindows db db' := by
  rcases terminalizeModeledFailure_ok h with ⟨-, -, rfl⟩ | ⟨db₁, hreq, ⟨-, -, rfl⟩ | ⟨row, -, -, rfl⟩⟩
  · exact .refl _
  · exact .of_eq (keeps_requireExact hreq _ rfl).1
  · exact (KeepsWindows.of_eq (keeps_requireExact hreq _ rfl).1).trans (keeps_failGeneration db₁ now row)

theorem keeps_deadLetter (db : SyncDb) (now : Instant) (job : JobRow PodcastSyncJson) :
    KeepsWindows db (deadLetterPodcastSubscriptionSync db now job) := by
  unfold deadLetterPodcastSubscriptionSync
  split
  · exact .refl db
  · split
    · exact .refl db
    · split
      · exact .refl db
      · split
        · exact .refl db
        · split
          · exact .refl db
          · split
            · exact .refl db
            · split
              · exact .refl db
              · exact keeps_failGeneration db now _

end Keeps

/-! ## What a step delivers -/

namespace SyncState

/-- The healthy finalization of a subscription that has auto-queue on: its row,
and the cutoff of its checkpoint. -/
def sweep (s : SyncState) (subscriptionId : Uuid) : Instant × SyncEvent → Option (PodcastSubscription × Instant)
  | (now, .finalize worker) =>
    match s.executing worker with
    | .some (⟨jobId, attemptNo, _, .checkpointed _⟩, payload) =>
      match finalizeHealthySync s.db now payload ⟨jobId, worker, attemptNo⟩ with
      | .ok (true, _, _) => do
        let row ← s.db.subscriptions.find? payload.subscriptionId
        let checkpoint ← row.checkpoint
        if row.id = subscriptionId ∧ row.autoQueue then return (row, checkpoint.cutoffAt) else .none
      | _ => .none
    | _ => .none
  | _ => .none

/-- The medium is stored as an episode of the podcast, published in the window. -/
def Due (s : SyncState) (row : PodcastSubscription) (cutoff : Instant) (mediaId : Uuid) : Prop :=
  ∃ episode ∈ s.db.episodes.rows, episode.mediaId = mediaId ∧ episode.podcastId = row.podcastId ∧
    inWindow row.autoQueueWatermarkAt cutoff episode.publishedAt = true

instance (s : SyncState) (row : PodcastSubscription) (cutoff : Instant) (mediaId : Uuid) : Decidable (s.Due row cutoff mediaId) :=
  inferInstanceAs (Decidable (∃ episode ∈ s.db.episodes.rows, _))

end SyncState

/-- **The law of a step**: a sweep hands over what its window holds, each medium
once, and moves the watermark to its cutoff; another step does neither. -/
def Delivers (subscriptionId : Uuid) (s : SyncState) (ev : Instant × SyncEvent) (t : SyncState) : Prop :=
  match s.sweep subscriptionId ev with
  | .none =>
    (∀ mediaId, t.handed.count (subscriptionId, mediaId) = s.handed.count (subscriptionId, mediaId)) ∧
      ∀ k ∈ t.db.subscriptions.rows, k.id = subscriptionId → subscriptionId ∈ s.drawn →
        ∃ old ∈ s.db.subscriptions.rows, old.id = subscriptionId ∧ old.podcastId = k.podcastId ∧
          old.autoQueueWatermarkAt = k.autoQueueWatermarkAt
  | .some (row, cutoff) =>
    (∀ mediaId, t.handed.count (subscriptionId, mediaId) =
      s.handed.count (subscriptionId, mediaId) + if s.Due row cutoff mediaId then 1 else 0) ∧
      row ∈ s.db.subscriptions.rows ∧ row.id = subscriptionId ∧
      ∀ k ∈ t.db.subscriptions.rows, k.id = subscriptionId → k.podcastId = row.podcastId ∧
        k.autoQueueWatermarkAt = .some (max (row.autoQueueWatermarkAt.getD cutoff) cutoff)

theorem count_eligible (s : SyncState) (row : PodcastSubscription) (cutoff : Instant) (mediaId : Uuid) :
    (eligibleAutoSubscriptionMedia s.db.episodes row.podcastId cutoff row.autoQueueWatermarkAt).count mediaId =
      if s.Due row cutoff mediaId then 1 else 0 := by
  have hperm := (List.perm_insertionSort (fun a b : PodcastEpisode =>
    ((compare (a.publishedAt.getD 0) (b.publishedAt.getD 0)).then (compare a.mediaId b.mediaId)).isLE = true)
    (s.db.episodes.rows.filter fun ep => ep.podcastId == row.podcastId &&
      inWindow row.autoQueueWatermarkAt cutoff ep.publishedAt)).map PodcastEpisode.mediaId
  have hnodup : ((s.db.episodes.rows.filter fun ep => ep.podcastId == row.podcastId &&
      inWindow row.autoQueueWatermarkAt cutoff ep.publishedAt).map PodcastEpisode.mediaId).Nodup :=
    s.db.episodes.nodup.sublist (List.filter_sublist.map _)
  rw [eligibleAutoSubscriptionMedia, hperm.count_eq, hnodup.count]
  have hiff : mediaId ∈ (s.db.episodes.rows.filter fun ep => ep.podcastId == row.podcastId &&
      inWindow row.autoQueueWatermarkAt cutoff ep.publishedAt).map PodcastEpisode.mediaId ↔ s.Due row cutoff mediaId := by
    simp only [SyncState.Due, List.mem_map, List.mem_filter, Bool.and_eq_true, beq_iff_eq]
    constructor
    · rintro ⟨ep, ⟨hep, hpod, hwin⟩, hid⟩
      exact ⟨ep, hep, hid, hpod, hwin⟩
    · rintro ⟨ep, hep, hid, hpod, hwin⟩
      exact ⟨ep, ⟨hep, hpod, hwin⟩, hid⟩
  simp only [hiff]

/-! ## Steps -/

section Steps

variable {now : Instant} {s t : SyncState}

/-- What a state is as far as windows go. -/
structure Keeps (s t : SyncState) : Prop where
  windows : KeepsWindows s.db t.db
  handed : t.handed = s.handed
  drawn : t.drawn = s.drawn

theorem Keeps.refl (s : SyncState) : Keeps s s := ⟨.refl _, rfl, rfl⟩

theorem Keeps.committed {result : Except String SyncDb} (h : ∀ db, result = .ok db → KeepsWindows s.db db) :
    Keeps s (s.committed result) := by
  cases result with
  | error => exact .refl s
  | ok db => exact ⟨h db rfl, rfl, rfl⟩

theorem Keeps.claimed (worker : String) (result) : Keeps s (s.claimed worker result) := by
  cases result with
  | none => exact .refl s
  | some r => exact ⟨.of_eq rfl, rfl, rfl⟩

theorem Keeps.settled (now : Instant) (result) : Keeps s (s.settled now result) := by
  cases result with
  | none => exact .refl s
  | some r =>
    simp only [SyncState.settled]
    split
    · exact ⟨keeps_deadLetter (s.setQueue r.2).db now r.1, rfl, rfl⟩
    · exact ⟨.of_eq rfl, rfl, rfl⟩

theorem subscribed {subscriptionId userId podcastId priority jobId db'}
    (h : subscribe s.db now subscriptionId userId podcastId priority jobId = .ok db') :
    ∀ k ∈ db'.subscriptions.rows, k.id = subscriptionId ∨ ∃ old ∈ s.db.subscriptions.rows, old.id = k.id ∧
      old.podcastId = k.podcastId ∧ old.autoQueueWatermarkAt = k.autoQueueWatermarkAt := by
  intro k hk
  unfold subscribe at h
  split at h
  · cases h
    exact .inr ⟨k, hk, rfl, rfl, rfl⟩
  · split at h
    · cases h
    · rename_i subscriptions hins
      obtain ⟨r, hadm, h⟩ := bind_eq_ok.1 h
      cases h
      obtain ⟨old, hold, hid, hpod, hw⟩ := keeps_admission hadm k hk
      rw [show ({ s.db with subscriptions := subscriptions } : SyncDb).subscriptions.rows = _ from
        (Table.insert?_eq_some.1 hins).2] at hold
      rcases List.mem_cons.1 hold with rfl | hold
      · exact .inl hid.symm
      · exact .inr ⟨old, hold, hid, hpod, hw⟩

theorem keeps_act {ev} (h : s.act now ev = .some t) (hfinalize : ∀ worker, ev ≠ .finalize worker)
    (hsubscribe : ∀ subscriptionId userId podcastId priority jobId, ev ≠ .subscribe subscriptionId userId podcastId priority jobId) :
    Keeps s t := by
  cases ev with
  | subscribe => exact absurd rfl (hsubscribe _ _ _ _ _)
  | finalize => exact absurd rfl (hfinalize _)
  | unsubscribe userId podcastId =>
    cases h
    exact ⟨keeps_unsubscribe userId podcastId, rfl, rfl⟩
  | setAutoQueue userId podcastId autoQueue =>
    cases h
    exact ⟨keeps_setAutoQueue userId podcastId autoQueue, rfl, rfl⟩
  | manual =>
    cases h
    exact .committed fun db hdb => keeps_manual hdb
  | due =>
    cases h
    exact .committed fun db hdb => keeps_viewers hdb
  | pruneRuns | pruneJobs =>
    cases h
    exact ⟨.of_eq rfl, rfl, rfl⟩
  | claimNext | claimExact =>
    simp only [SyncState.act] at h
    split at h
    · cases h
    · cases h
      exact .claimed _ _
  | heartbeat =>
    obtain ⟨e, -, rfl⟩ := Option.map_eq_some_iff.1 h
    split
    · exact .refl s
    · exact ⟨.of_eq rfl, rfl, rfl⟩
  | claimAttempt =>
    simp only [SyncState.act] at h
    split at h
    · obtain ⟨⟨claim, db⟩, hclaim, h⟩ := bind_eq_ok.1 (toOption_eq_some.1 h)
      cases h
      exact ⟨keeps_claim hclaim, rfl, rfl⟩
    · cases h
  | checkpoint =>
    simp only [SyncState.act] at h
    split at h
    · obtain ⟨⟨checkpoint, db⟩, hwrite, h⟩ := bind_eq_ok.1 (toOption_eq_some.1 h)
      cases h
      exact ⟨keeps_checkpoint hwrite, rfl, rfl⟩
    · cases h
  | apiError =>
    simp only [SyncState.act] at h
    split at h
    · cases h
      exact ⟨.of_eq rfl, rfl, rfl⟩
    · cases h
      exact ⟨.of_eq rfl, rfl, rfl⟩
    · cases h
  | terminalize =>
    simp only [SyncState.act] at h
    split at h
    · obtain ⟨⟨terminalized, db⟩, hterm, h⟩ := bind_eq_ok.1 (toOption_eq_some.1 h)
      cases h
      exact ⟨keeps_terminalize hterm, rfl, rfl⟩
    · cases h
  | complete =>
    simp only [SyncState.act] at h
    split at h
    · split at h
      · cases h
        exact ⟨.of_eq rfl, rfl, rfl⟩
      · cases h
        exact ⟨.of_eq rfl, rfl, rfl⟩
    · cases h
  | raise worker errorCode errorMessage =>
    obtain ⟨e, -, rfl⟩ := Option.map_eq_some_iff.1 h
    have hsettled := Keeps.settled (s := s) now (s.db.queue.failJob now e.jobId worker errorCode errorMessage
      podcastSyncRetryDelaysSeconds .none)
    exact ⟨hsettled.windows, hsettled.handed, hsettled.drawn⟩
  | stop =>
    cases h
    exact ⟨.of_eq rfl, rfl, rfl⟩
  | deadLetterExpired =>
    cases h
    exact .settled now _
  | ingestElsewhere =>
    cases h
    refine .committed fun db hdb => ?_
    obtain ⟨r, -, rfl⟩ := map_eq_ok.1 hdb
    exact .of_eq rfl

theorem autoQueueWindow_off {episodes : Episodes} {row : PodcastSubscription} (h : row.autoQueue = false) (cutoff : Instant) :
    autoQueueWindow episodes row cutoff = ([], row.autoQueueWatermarkAt) := by
  simp [autoQueueWindow, h]

theorem autoQueueWindow_on {row : PodcastSubscription} (h : row.autoQueue = true) (cutoff : Instant) :
    (∀ mediaId, (autoQueueWindow s.db.episodes row cutoff).1.count mediaId = if s.Due row cutoff mediaId then 1 else 0) ∧
      (autoQueueWindow s.db.episodes row cutoff).2 = .some (max (row.autoQueueWatermarkAt.getD cutoff) cutoff) := by
  by_cases hw : (row.autoQueueWatermarkAt.all fun w => decide (w < cutoff)) = true
  · rw [autoQueueWindow, if_pos ⟨h, hw⟩]
    exact ⟨count_eligible s row cutoff, rfl⟩
  · rw [autoQueueWindow, if_neg fun hand => hw hand.2]
    cases hmark : row.autoQueueWatermarkAt with
    | none => simp [hmark] at hw
    | some w =>
      -- the watermark is past the cutoff, and the window is empty
      have hle : cutoff ≤ w := by simpa [hmark] using hw
      refine ⟨fun mediaId => ?_, by rw [Option.getD_some, max_eq_left hle]⟩
      rw [if_neg, List.count_nil]
      rintro ⟨episode, -, -, -, hwindow⟩
      rw [hmark, inWindow] at hwindow
      cases hpub : episode.publishedAt with
      | none => simp [hpub] at hwindow
      | some published =>
        simp only [hpub, Option.any_some, Option.all_some, Bool.and_eq_true, decide_eq_true_eq] at hwindow
        exact absurd (lt_of_lt_of_le hwindow.2 (hwindow.1.trans hle)) (lt_irrefl w)

theorem count_map_pair {id id' : Uuid} (l : List Uuid) (mediaId : Uuid) :
    (l.map fun m => (id', m)).count (id, mediaId) = if id' = id then l.count mediaId else 0 := by
  induction l with
  | nil => simp
  | cons m l ih =>
    rw [List.map_cons, List.count_cons, ih, List.count_cons]
    by_cases hid : id' = id
    · simp [hid]
    · simp [hid]

theorem Keeps.delivers (h : Keeps s t) {subscriptionId ev} (hsweep : s.sweep subscriptionId ev = .none) :
    Delivers subscriptionId s ev t := by
  rw [Delivers, hsweep]
  refine ⟨fun _ => by rw [h.handed], fun k hk hid _ => ?_⟩
  obtain ⟨old, hold, hoid, hpod, hw⟩ := h.windows k hk
  exact ⟨old, hold, hoid.trans hid, hpod, hw⟩

theorem delivers_finalize {worker} (h : s.act now (.finalize worker) = .some t) (subscriptionId : Uuid) :
    Delivers subscriptionId s (now, .finalize worker) t ∧ t.drawn = s.drawn ∧
      ∀ k ∈ t.db.subscriptions.rows, ∃ old ∈ s.db.subscriptions.rows, old.id = k.id := by
  simp only [SyncState.act] at h
  split at h
  · rename_i jobId attemptNo json found payload hexec
    obtain ⟨⟨finalized, eligible, db⟩, hfin, h⟩ := bind_eq_ok.1 (toOption_eq_some.1 h)
    simp only [SyncExecution.context] at hfin
    cases h
    rcases finalizeHealthySync_ok hfin with ⟨-, rfl, rfl, rfl⟩ | ⟨db₁, hreq, ⟨-, rfl, rfl, rfl⟩ | ⟨row, checkpoint, hrun, hcp, rfl, rfl, rfl⟩⟩
    · refine ⟨Keeps.delivers ⟨.of_eq ?_, ?_, ?_⟩ ?_, rfl, fun k hk => ⟨k, hk, rfl⟩⟩
      · rfl
      · rfl
      · rfl
      · simp only [SyncState.sweep, hexec, hfin]
    · have hsubs := (keeps_requireExact hreq _ rfl).1
      refine ⟨Keeps.delivers ⟨.of_eq ?_, ?_, ?_⟩ ?_, rfl, fun k hk => ⟨k, hsubs ▸ hk, rfl⟩⟩
      · exact hsubs
      · rfl
      · rfl
      · simp only [SyncState.sweep, hexec, hfin]
    · obtain ⟨hsubs, heps⟩ := keeps_requireExact hreq _ rfl
      obtain ⟨hrow, rfl, -⟩ := runBy_eq_some hrun
      rw [heps] at hfin ⊢
      have hrow' : row ∈ s.db.subscriptions.rows := by rw [← hsubs]; exact hrow
      have hfound : s.db.subscriptions.find? row.payload.subscriptionId = .some row := Table.find?_of_mem hrow'
      -- a row of the new table is the finalized one or one from before
      have hback : ∀ k ∈ (db₁.updateSubscription row.payload.subscriptionId fun old =>
          { old.ended checkpoint.status.sync with
            autoQueueWatermarkAt := (autoQueueWindow s.db.episodes row checkpoint.cutoffAt).2 }).subscriptions.rows,
          (k.id = row.id ∧ k.podcastId = row.podcastId ∧
            k.autoQueueWatermarkAt = (autoQueueWindow s.db.episodes row checkpoint.cutoffAt).2) ∨
          (k ∈ s.db.subscriptions.rows ∧ k.id ≠ row.id) := by
        intro k hk
        obtain ⟨old, hold, rfl⟩ := (mem_updateSubscription (by intro _; rfl)).1 hk
        rw [hsubs] at hold
        by_cases hid : old.id = row.payload.subscriptionId
        · rw [if_pos hid, Table.eq_of_key hold hrow' hid]
          exact .inl ⟨rfl, rfl, rfl⟩
        · rw [if_neg hid]
          exact .inr ⟨hold, hid⟩
      have hids : ∀ k ∈ (db₁.updateSubscription row.payload.subscriptionId fun old =>
          { old.ended checkpoint.status.sync with
            autoQueueWatermarkAt := (autoQueueWindow s.db.episodes row checkpoint.cutoffAt).2 }).subscriptions.rows,
          ∃ old ∈ s.db.subscriptions.rows, old.id = k.id := by
        intro k hk
        rcases hback k hk with ⟨hid, -⟩ | ⟨hk, -⟩
        · exact ⟨row, hrow', hid.symm⟩
        · exact ⟨k, hk, rfl⟩
      refine ⟨?_, rfl, hids⟩
      by_cases hmine : row.id = subscriptionId ∧ row.autoQueue = true
      · obtain ⟨rfl, hauto⟩ := hmine
        have hsweep : s.sweep row.id (now, .finalize worker) = .some (row, checkpoint.cutoffAt) := by
          simp only [SyncState.sweep, hexec, hfin, hfound, hcp, hauto, Option.bind_eq_bind, Option.bind_some, Option.pure_def,
            and_self, if_true]
        obtain ⟨hcount, hmark⟩ := autoQueueWindow_on (s := s) hauto checkpoint.cutoffAt
        rw [Delivers, hsweep]
        refine ⟨fun mediaId => ?_, hrow', rfl, fun k hk hid => ?_⟩
        · simp only [SyncState.setWorker, List.count_append, count_map_pair]
          rw [if_pos (show row.payload.subscriptionId = row.id from rfl), hcount mediaId, Nat.add_comm]
        · rcases hback k hk with ⟨-, hpod, hw⟩ | ⟨-, hne⟩
          · exact ⟨hpod, hw.trans hmark⟩
          · exact absurd hid hne
      · have hsweep : s.sweep subscriptionId (now, .finalize worker) = .none := by
          simp only [SyncState.sweep, hexec, hfin, hfound, hcp, hmine, Option.bind_eq_bind, Option.bind_some, if_false]
        rw [Delivers, hsweep]
        refine ⟨fun mediaId => ?_, fun k hk hid _ => ?_⟩
        · simp only [SyncState.setWorker, List.count_append, count_map_pair]
          by_cases hid : row.payload.subscriptionId = subscriptionId
          · have hauto : row.autoQueue = false := by
              rw [Bool.eq_false_iff]
              exact fun h => hmine ⟨hid, h⟩
            simp [autoQueueWindow_off hauto]
          · simp [hid]
        · rcases hback k hk with ⟨hkid, hpod, hw⟩ | ⟨hk, -⟩
          · have hauto : row.autoQueue = false := by
              rw [Bool.eq_false_iff]
              exact fun h => hmine ⟨hkid.symm.trans hid, h⟩
            rw [autoQueueWindow_off hauto] at hw
            exact ⟨row, hrow', hkid.symm.trans hid, hpod.symm, hw.symm⟩
          · exact ⟨k, hk, hid, rfl, rfl⟩
  · cases h

theorem delivers_subscribe {id userId podcastId priority jobId}
    (h : s.act now (.subscribe id userId podcastId priority jobId) = .some t) (subscriptionId : Uuid) :
    Delivers subscriptionId s (now, .subscribe id userId podcastId priority jobId) t ∧ (∀ x ∈ s.drawn, x ∈ t.drawn) ∧
      ∀ k ∈ t.db.subscriptions.rows, k.id ∈ t.drawn ∨ ∃ old ∈ s.db.subscriptions.rows, old.id = k.id := by
  simp only [SyncState.act] at h
  split at h
  · cases h
  · rename_i hnew
    cases h
    simp only [Delivers, SyncState.sweep]
    cases hsub : subscribe s.db now id userId podcastId priority jobId with
    | error =>
      refine ⟨⟨fun _ => rfl, fun k hk hid _ => ⟨k, hk, hid, rfl, rfl⟩⟩, fun x hx => List.mem_cons_of_mem _ hx, ?_⟩
      exact fun k hk => .inr ⟨k, hk, rfl⟩
    | ok db =>
      refine ⟨⟨fun _ => rfl, fun k hk hid hdrawn => ?_⟩, fun x hx => List.mem_cons_of_mem _ hx, fun k hk => ?_⟩
      · rcases subscribed hsub k hk with hkid | ⟨old, hold, hoid, hpod, hw⟩
        · rw [← hid, hkid] at hdrawn
          exact absurd hdrawn hnew
        · exact ⟨old, hold, hoid.trans hid, hpod, hw⟩
      · rcases subscribed hsub k hk with hkid | ⟨old, hold, hoid, -⟩
        · left
          rw [hkid]
          exact List.mem_cons_self
        · exact .inr ⟨old, hold, hoid⟩

end Steps

/-! ## Runs -/

/-- Ids of subscriptions are drawn ones. -/
def Drawn (s : SyncState) : Prop := ∀ row ∈ s.db.subscriptions.rows, row.id ∈ s.drawn

/-- Wherever the medium is stored, it has this publication time. -/
def PublishedAt (mediaId : Uuid) (p : Instant) (s : SyncState) : Prop :=
  ∀ episode ∈ s.db.episodes.rows, episode.mediaId = mediaId → episode.publishedAt = .some p

/-- A sweep of the subscription whose cutoff has reached `p`. -/
def sweptPast (subscriptionId : Uuid) (p : Instant) (s : SyncState) (ev : Instant × SyncEvent) : Bool :=
  (s.sweep subscriptionId ev).any fun swept => decide (p ≤ swept.2)

/-- The watermark has reached `p`, or the subscription is gone. -/
def Passed (subscriptionId : Uuid) (p : Instant) (s : SyncState) : Prop :=
  subscriptionId ∈ s.drawn ∧
    ∀ k ∈ s.db.subscriptions.rows, k.id = subscriptionId → ∃ w, k.autoQueueWatermarkAt = .some w ∧ p ≤ w

/-- The watermark is before `p`, or the subscription is gone. -/
def NotYet (subscriptionId podcastId : Uuid) (p : Instant) (s : SyncState) : Prop :=
  subscriptionId ∈ s.drawn ∧
    ∀ k ∈ s.db.subscriptions.rows, k.id = subscriptionId →
      k.podcastId = podcastId ∧ (k.autoQueueWatermarkAt.all fun w => decide (w < p)) = true

section Runs

variable {id podcastId mediaId : Uuid} {p : Instant} {s t : SyncState} {ev : Instant × SyncEvent}

theorem delivers_next (hs : Drawn s) (h : s.next ev = .some t) :
    Drawn t ∧ (∀ x ∈ s.drawn, x ∈ t.drawn) ∧ ∀ subscriptionId, Delivers subscriptionId s ev t := by
  obtain ⟨now, ev⟩ := ev
  obtain ⟨-, u, hact, rfl⟩ := next_eq_some h
  by_cases hfinalize : ∃ worker, ev = .finalize worker
  · obtain ⟨worker, rfl⟩ := hfinalize
    obtain ⟨-, hdrawn, hrows⟩ := delivers_finalize hact 0
    refine ⟨fun k hk => ?_, fun x hx => by rw [← hdrawn] at hx; exact hx, fun id => (delivers_finalize hact id).1⟩
    obtain ⟨old, hold, hid⟩ := hrows k hk
    have := hs old hold
    rwa [hid, ← hdrawn] at this
  · by_cases hsubscribe : ∃ id userId podcastId priority jobId, ev = .subscribe id userId podcastId priority jobId
    · obtain ⟨id, userId, podcastId, priority, jobId, rfl⟩ := hsubscribe
      obtain ⟨-, hdrawn, hrows⟩ := delivers_subscribe hact 0
      refine ⟨fun k hk => ?_, hdrawn, fun id => (delivers_subscribe hact id).1⟩
      rcases hrows k hk with hmem | ⟨old, hold, hid⟩
      · exact hmem
      · rw [← hid]
        exact hdrawn _ (hs old hold)
    · have hkeeps := keeps_act hact (fun worker he => hfinalize ⟨worker, he⟩)
        fun id userId podcastId priority jobId he => hsubscribe ⟨id, userId, podcastId, priority, jobId, he⟩
      refine ⟨fun k hk => ?_, fun x hx => by rw [← hkeeps.drawn] at hx; exact hx, fun id => hkeeps.delivers ?_⟩
      · obtain ⟨old, hold, hid, -⟩ := hkeeps.windows k hk
        have := hs old hold
        rwa [hid, ← hkeeps.drawn] at this
      · cases ev with
        | finalize => exact absurd ⟨_, rfl⟩ hfinalize
        | subscribe => exact absurd ⟨_, _, _, _, _, rfl⟩ hsubscribe
        | unsubscribe | setAutoQueue | manual | due | pruneRuns | claimNext | claimExact | heartbeat | claimAttempt | checkpoint
        | apiError | terminalize | complete | raise | stop | deadLetterExpired | pruneJobs | ingestElsewhere => rfl

theorem drawn_of_reachable (h : syncSystem.Reachable s) : Drawn s := by
  refine h.invariant (I := Drawn) (fun s h0 row hrow => ?_) fun s ev t hstep hs => (delivers_next hs hstep).1
  rw [h0.1] at hrow
  cases hrow

theorem due_iff (hp : PublishedAt mediaId p s) {row : PodcastSubscription} {cutoff : Instant} :
    s.Due row cutoff mediaId ↔ (p ≤ cutoff ∧ (row.autoQueueWatermarkAt.all fun w => decide (w < p)) = true) ∧
      ∃ episode ∈ s.db.episodes.rows, episode.mediaId = mediaId ∧ episode.podcastId = row.podcastId := by
  constructor
  · rintro ⟨episode, hep, hid, hpod, hwindow⟩
    rw [hp episode hep hid] at hwindow
    simp only [inWindow, Option.any_some, Bool.and_eq_true, decide_eq_true_eq] at hwindow
    exact ⟨hwindow, episode, hep, hid, hpod⟩
  · rintro ⟨hwindow, episode, hep, hid, hpod⟩
    refine ⟨episode, hep, hid, hpod, ?_⟩
    rw [hp episode hep hid]
    simpa only [inWindow, Option.any_some, Bool.and_eq_true, decide_eq_true_eq] using hwindow

theorem Passed.step (h : Passed id p s) (hp : PublishedAt mediaId p s) (hdrawn : ∀ x ∈ s.drawn, x ∈ t.drawn)
    (hlaw : Delivers id s ev t) : Passed id p t ∧ t.handed.count (id, mediaId) = s.handed.count (id, mediaId) := by
  unfold Delivers at hlaw
  cases hsweep : s.sweep id ev with
  | none =>
    rw [hsweep] at hlaw
    refine ⟨⟨hdrawn _ h.1, fun k hk hid => ?_⟩, hlaw.1 mediaId⟩
    obtain ⟨old, hold, hoid, -, hw⟩ := hlaw.2 k hk hid h.1
    rw [← hw]
    exact h.2 old hold hoid
  | some swept =>
    obtain ⟨row, cutoff⟩ := swept
    rw [hsweep] at hlaw
    obtain ⟨hcount, hrow, hrid, hrows⟩ := hlaw
    obtain ⟨w, hw, hle⟩ := h.2 row hrow hrid
    refine ⟨⟨hdrawn _ h.1, fun k hk hid => ⟨_, (hrows k hk hid).2, ?_⟩⟩, ?_⟩
    · rw [hw, Option.getD_some]
      exact hle.trans (le_max_left w cutoff)
    · rw [hcount mediaId, if_neg, Nat.add_zero]
      intro hdue
      have hlt := ((due_iff hp).1 hdue).1.2
      rw [hw, Option.all_some, decide_eq_true_eq] at hlt
      exact absurd hle (not_le.2 hlt)

theorem NotYet.step (h : NotYet id podcastId p s) (hp : PublishedAt mediaId p s) (hdrawn : ∀ x ∈ s.drawn, x ∈ t.drawn)
    (hlaw : Delivers id s ev t) (hnot : sweptPast id p s ev = false) :
    NotYet id podcastId p t ∧ t.handed.count (id, mediaId) = s.handed.count (id, mediaId) := by
  unfold Delivers at hlaw
  cases hsweep : s.sweep id ev with
  | none =>
    rw [hsweep] at hlaw
    refine ⟨⟨hdrawn _ h.1, fun k hk hid => ?_⟩, hlaw.1 mediaId⟩
    obtain ⟨old, hold, hoid, hpod, hw⟩ := hlaw.2 k hk hid h.1
    rw [← hw, ← hpod]
    exact h.2 old hold hoid
  | some swept =>
    obtain ⟨row, cutoff⟩ := swept
    rw [hsweep] at hlaw
    obtain ⟨hcount, hrow, hrid, hrows⟩ := hlaw
    have hlt : cutoff < p := by simpa [sweptPast, hsweep] using hnot
    obtain ⟨hpod, hmark⟩ := h.2 row hrow hrid
    refine ⟨⟨hdrawn _ h.1, fun k hk hid => ⟨(hrows k hk hid).1.trans hpod, ?_⟩⟩, ?_⟩
    · rw [(hrows k hk hid).2, Option.all_some, decide_eq_true_eq, max_lt_iff]
      refine ⟨?_, hlt⟩
      cases hw : row.autoQueueWatermarkAt with
      | none => exact hlt
      | some w => simpa [hw] using hmark
    · rw [hcount mediaId, if_neg, Nat.add_zero]
      intro hdue
      exact absurd ((due_iff hp).1 hdue).1.1 (not_le.2 hlt)

theorem NotYet.swept (hs : Drawn s) (h : NotYet id podcastId p s) (hp : PublishedAt mediaId p s)
    (hdrawn : ∀ x ∈ s.drawn, x ∈ t.drawn) (hlaw : Delivers id s ev t) (hpast : sweptPast id p s ev = true) :
    Passed id p t ∧ t.handed.count (id, mediaId) = s.handed.count (id, mediaId) +
      if ∃ episode ∈ s.db.episodes.rows, episode.mediaId = mediaId ∧ episode.podcastId = podcastId then 1 else 0 := by
  unfold Delivers at hlaw
  cases hsweep : s.sweep id ev with
  | none => simp [sweptPast, hsweep] at hpast
  | some swept =>
    obtain ⟨row, cutoff⟩ := swept
    rw [hsweep] at hlaw
    obtain ⟨hcount, hrow, hrid, hrows⟩ := hlaw
    have hle : p ≤ cutoff := by simpa [sweptPast, hsweep] using hpast
    obtain ⟨hpod, hmark⟩ := h.2 row hrow hrid
    refine ⟨⟨hdrawn _ h.1, fun k hk hid => ⟨_, (hrows k hk hid).2, hle.trans (le_max_right _ cutoff)⟩⟩, ?_⟩
    rw [hcount mediaId]
    congr 1
    refine if_congr ?_ rfl rfl
    rw [due_iff hp, hpod]
    exact and_iff_right ⟨hle, hmark⟩

theorem Passed.run : ∀ {s : SyncState} {tr}, syncSystem.Run s tr → Drawn s → Passed id p s → PublishedAt mediaId p s →
    (∀ x ∈ tr, PublishedAt mediaId p x.2) → (last s tr).handed.count (id, mediaId) = s.handed.count (id, mediaId)
  | _, [], _, _, _, _, _ => rfl
  | s, (ev, t) :: tr, hr, hs, h, hp, hall => by
    obtain ⟨ht, hdrawn, hlaw⟩ := delivers_next hs hr.1
    obtain ⟨hpassed, hcount⟩ := h.step hp hdrawn (hlaw id)
    rw [← hcount]
    exact Passed.run hr.2 ht hpassed (hall (ev, t) (by simp)) fun x hx => hall x (by simp [hx])

theorem NotYet.run : ∀ {s : SyncState} {tr}, syncSystem.Run s tr → Drawn s → NotYet id podcastId p s → PublishedAt mediaId p s →
    (∀ x ∈ tr, PublishedAt mediaId p x.2) → Along (fun s ev _ => sweptPast id p s ev = false) s tr →
    Drawn (last s tr) ∧ NotYet id podcastId p (last s tr) ∧ PublishedAt mediaId p (last s tr) ∧
      (last s tr).handed.count (id, mediaId) = s.handed.count (id, mediaId)
  | _, [], _, hs, h, hp, _, _ => ⟨hs, h, hp, rfl⟩
  | s, (ev, t) :: tr, hr, hs, h, hp, hall, hnot => by
    obtain ⟨ht, hdrawn, hlaw⟩ := delivers_next hs hr.1
    obtain ⟨hnotyet, hcount⟩ := h.step hp hdrawn (hlaw id) hnot.1
    rw [← hcount]
    exact NotYet.run hr.2 ht hnotyet (hall (ev, t) (by simp)) (fun x hx => hall x (by simp [hx])) hnot.2

theorem NotYet.at_most_once : ∀ {s : SyncState} {tr}, syncSystem.Run s tr → Drawn s → NotYet id podcastId p s →
    PublishedAt mediaId p s → (∀ x ∈ tr, PublishedAt mediaId p x.2) →
    (last s tr).handed.count (id, mediaId) ≤ s.handed.count (id, mediaId) + 1
  | _, [], _, _, _, _, _ => Nat.le_succ _
  | s, (ev, t) :: tr, hr, hs, h, hp, hall => by
    obtain ⟨ht, hdrawn, hlaw⟩ := delivers_next hs hr.1
    have hpt : PublishedAt mediaId p t := hall (ev, t) (by simp)
    have hrest : ∀ x ∈ tr, PublishedAt mediaId p x.2 := fun x hx => hall x (by simp [hx])
    cases hpast : sweptPast id p s ev with
    | false =>
      obtain ⟨hnotyet, hcount⟩ := h.step hp hdrawn (hlaw id) hpast
      rw [← hcount]
      exact NotYet.at_most_once hr.2 ht hnotyet hpt hrest
    | true =>
      obtain ⟨hpassed, hcount⟩ := h.swept hs hp hdrawn (hlaw id) hpast
      have hlast := Passed.run hr.2 ht hpassed hpt hrest
      have hone : (if ∃ episode ∈ s.db.episodes.rows, episode.mediaId = mediaId ∧ episode.podcastId = podcastId then 1 else 0) ≤ 1 := by
        split <;> omega
      simp only [last]
      omega

theorem notYet_or_passed (hs : Drawn s) {row} (hrow : row ∈ s.db.subscriptions.rows) (p : Instant) :
    ((row.autoQueueWatermarkAt.all fun w => decide (w < p)) = true ∧ NotYet row.id row.podcastId p s) ∨
      ((row.autoQueueWatermarkAt.all fun w => decide (w < p)) = false ∧ Passed row.id p s) := by
  cases hw : row.autoQueueWatermarkAt.all fun w => decide (w < p) with
  | true =>
    refine .inl ⟨rfl, hs row hrow, fun k hk hid => ?_⟩
    rw [Table.eq_of_key hk hrow hid]
    exact ⟨rfl, hw⟩
  | false =>
    refine .inr ⟨rfl, hs row hrow, fun k hk hid => ?_⟩
    rw [Table.eq_of_key hk hrow hid]
    cases hmark : row.autoQueueWatermarkAt with
    | none => simp [hmark] at hw
    | some w => exact ⟨w, rfl, by simpa [hmark] using hw⟩

end Runs

/-- **From any reachable state, the steps of a run deliver the windows of the
sweeps and nothing else. A medium whose stored publication time stays `p` is
handed over at most once, and exactly once when it is stored at the first sweep
whose cutoff has reached `p`, and `p` was past the watermark.** -/
theorem auto_queue_delivers {s : SyncState} {tr} (hs : syncSystem.Reachable s) (hr : syncSystem.Run s tr)
    {row} (hrow : row ∈ s.db.subscriptions.rows) {mediaId : Uuid} {p : Instant} (hp : PublishedAt mediaId p s)
    (hall : ∀ x ∈ tr, PublishedAt mediaId p x.2) :
    Along (Delivers row.id) s tr ∧
      (last s tr).handed.count (row.id, mediaId) ≤ s.handed.count (row.id, mediaId) + 1 ∧
      ∀ before ev t after, tr = before ++ (ev, t) :: after →
        Along (fun s ev _ => sweptPast row.id p s ev = false) s before → sweptPast row.id p (last s before) ev = true →
        (last s before).handed.count (row.id, mediaId) = s.handed.count (row.id, mediaId) ∧
          (last s tr).handed.count (row.id, mediaId) = s.handed.count (row.id, mediaId) +
            if (row.autoQueueWatermarkAt.all fun w => decide (w < p)) = true ∧
                ∃ episode ∈ (last s before).db.episodes.rows, episode.mediaId = mediaId ∧ episode.podcastId = row.podcastId
            then 1 else 0 := by
  have hdrawn := drawn_of_reachable hs
  refine ⟨?_, ?_, ?_⟩
  · refine System.Run.along_of_guarded (I := Drawn) (G := fun _ _ => True)
      (fun s ev t hstep hs _ => ⟨(delivers_next hs hstep).1, (delivers_next hs hstep).2.2 row.id⟩) hr hdrawn ?_
    exact hr.mono fun _ _ _ _ => trivial
  · rcases notYet_or_passed hdrawn hrow p with ⟨-, h⟩ | ⟨-, h⟩
    · exact h.at_most_once hr hdrawn hp hall
    · rw [h.run hr hdrawn hp hall]
      exact Nat.le_succ _
  · rintro before ev t after rfl hnot hpast
    obtain ⟨hbefore, hstep, hafter⟩ := Along.append.1 hr
    have hpbefore : ∀ x ∈ before, PublishedAt mediaId p x.2 := fun x hx => hall x (by simp [hx])
    have hpafter : ∀ x ∈ after, PublishedAt mediaId p x.2 := fun x hx => hall x (by simp [hx])
    have hpt : PublishedAt mediaId p t := hall (ev, t) (by simp)
    rcases notYet_or_passed hdrawn hrow p with ⟨hw, h⟩ | ⟨hw, h⟩
    · obtain ⟨hd, hn, hpl, hcount⟩ := h.run hbefore hdrawn hp hpbefore hnot
      obtain ⟨ht, hdt, hlaw⟩ := delivers_next hd hstep
      obtain ⟨hpassed, hswept⟩ := hn.swept hd hpl hdt (hlaw row.id) hpast
      refine ⟨hcount, ?_⟩
      rw [last_append, last, hpassed.run hafter ht hpt hpafter, hswept, hcount]
      simp only [hw, true_and]
    · refine ⟨h.run hbefore hdrawn hp hpbefore, ?_⟩
      rw [h.run hr hdrawn hp hall, hw, if_neg]
      · rfl
      · exact fun hand => absurd hand.1 (by decide)

/-! ## Feeds that are late, and episodes that move -/

instance (mediaId : Uuid) (p : Instant) (s : SyncState) : Decidable (PublishedAt mediaId p s) :=
  inferInstanceAs (Decidable (∀ episode ∈ s.db.episodes.rows, episode.mediaId = mediaId → episode.publishedAt = .some p))

/-- Subscription 1 of podcast 50, with auto-queue on. -/
def queueing : List (Instant × SyncEvent) := [(0, .subscribe 1 100 50 75 7), (0, .setAutoQueue 100 50 true)]

/-- A sync whose cutoff is its first instant. -/
def syncAt (now : Instant) (feed : List FeedEpisode) : List (Instant × SyncEvent) :=
  [(now, .claimNext "a" 900 .none []), (now, .claimAttempt "a"), (now, .checkpoint "a" feed false), (now, .finalize "a"),
    (now, .complete "a")]

def queued : SyncState := last nobodySubscribed (replay SyncState.next nobodySubscribed queueing)

theorem auto_queue_delivers_once :
    (last queued (replay SyncState.next queued (syncAt 10 [⟨.some 9, .some 5⟩]))).handed = [(1, 9)] ∧
      (last queued (replay SyncState.next queued (syncAt 10 [⟨.some 9, .some 5⟩]))).handed.count (1, 9) ≤
        queued.handed.count (1, 9) + 1 := by
  refine ⟨by decide +kernel, ?_⟩
  have hrow : (⟨1, 100, 50, 1, .pending, .some 7, .none, .none, true, .none⟩ : PodcastSubscription) ∈
      queued.db.subscriptions.rows := by decide +kernel
  exact (auto_queue_delivers (System.reachable_replay queueing ⟨rfl, rfl, rfl, rfl, rfl, rfl⟩) System.run_replay hrow
    (p := 5) (by decide +kernel) (by decide +kernel)).2.1

/-- The viewer asks for another refresh, and the feed is read again. -/
def syncedTwice (first second : List FeedEpisode) : SyncState :=
  last nobodySubscribed (replay SyncState.next nobodySubscribed
    (queueing ++ syncAt 10 first ++ [(20, .manual 100 .all 3 fun _ => (8, 4))] ++ syncAt 22 second))

/-- Episode 8, published at 7, is in the feed from the second sync on: the first
has moved the watermark to 10, and no sync hands it over. Episode 9 is moved
from 5 to 15, and both syncs hand it over. -/
theorem late_and_moved :
    ((∃ row ∈ (syncedTwice [⟨.some 9, .some 5⟩] [⟨.some 9, .some 5⟩, ⟨.some 8, .some 7⟩]).db.subscriptions.rows,
        row.syncGeneration = 2 ∧ row.syncStatus = .complete ∧ row.autoQueueWatermarkAt = .some 22) ∧
      (⟨8, 50, .some 7⟩ : PodcastEpisode) ∈
        (syncedTwice [⟨.some 9, .some 5⟩] [⟨.some 9, .some 5⟩, ⟨.some 8, .some 7⟩]).db.episodes.rows ∧
      (syncedTwice [⟨.some 9, .some 5⟩] [⟨.some 9, .some 5⟩, ⟨.some 8, .some 7⟩]).handed.count (1, 8) = 0) ∧
      (syncedTwice [⟨.some 9, .some 5⟩] [⟨.some 9, .some 15⟩]).handed.count (1, 9) = 2 := by
  refine ⟨⟨?_, ?_, ?_⟩, ?_⟩
  all_goals decide +kernel

end Nexus.PodcastSync
