/-
Admissions of sync generations, and the run theorem.

An admission starts the next generation of a terminal subscription, which for
the moment names no job (the hole of the invariant), and enqueues the job that
fills it. What an active generation already names is joined. With the endings of
`SyncEnds` every step of the system keeps the invariant, the dead letters of
unrecorded attempts excepted.
-/
import Nexus.Podcasts.SyncEnds

namespace Nexus.PodcastSync
open Relational Nexus.Jobs Transition ExceptFacts

/-! ## Admission -/

/-- A generation that has no job yet. -/
def Awaits (s : SyncState) (row : PodcastSubscription) : Prop :=
  row.syncStatus.active = true ∧ row.syncJobId = .none ∧ ∀ j ∈ s.db.queue.rows, j.payload ≠ .payload row.payload

section Admission

variable {clock : Instant} {hole : Option Uuid} {stale : List Uuid} {s : SyncState}

theorem requireSubscriptionIdentity_ok {row? : Option PodcastSubscription} {userId podcastId row}
    (h : requireSubscriptionIdentity row? userId podcastId = .ok row) :
    row? = .some row ∧ row.userId = userId ∧ row.podcastId = podcastId := by
  unfold requireSubscriptionIdentity at h
  split at h
  · cases h
  · split at h
    · cases h
    · rename_i hsame
      cases h
      simp only [ne_eq, not_or, not_not] at hsame
      exact ⟨rfl, hsame⟩

theorem SyncInv.promoteActive (hs : SyncInv clock hole stale s) {now row priority promoted queue}
    (h : PodcastSync.promoteActive s.db.queue now row priority = .ok (promoted, queue)) :
    SyncInv clock hole stale (s.setQueue queue) ∧ (row.syncJobId = .none → queue = s.db.queue) := by
  unfold PodcastSync.promoteActive at h
  split at h
  · rename_i jobId hjob
    split at h
    · exact ⟨hs.promote h, fun hnone => by rw [hjob] at hnone; cases hnone⟩
    · cases h
      exact ⟨hs, fun _ => rfl⟩
  · cases h
    exact ⟨hs, fun _ => rfl⟩

theorem startGeneration_of_active {row : PodcastSubscription} (h : row.syncStatus.active = true) : row.startGeneration = row := by
  simp [PodcastSubscription.startGeneration, h]

theorem SyncInv.startGeneration (hs : SyncInv clock hole stale s) {row} (hrow : row ∈ s.db.subscriptions.rows)
    (hole_or : hole = .none ∨ (hole = .some row.id ∧ Awaits s row)) :
    ∃ hole', SyncInv clock hole' stale { s with db := s.db.updateSubscription row.id (·.startGeneration) } ∧
      row.startGeneration.syncStatus.active = true ∧
      ((hole' = .none ∧ row.startGeneration.syncJobId ≠ .none) ∨ (hole' = .some row.id ∧ Awaits s row.startGeneration)) := by
  by_cases hactive : row.syncStatus.active = true
  · have hsame := startGeneration_of_active hactive
    have hkeep : SyncInv clock hole stale { s with db := s.db.updateSubscription row.id (·.startGeneration) } :=
      hs.keepSubscription hrow (·.startGeneration) (by intro _; rfl) (by rw [hsame]) (by rw [hsame]) (by rw [hsame]) (by rw [hsame])
    refine ⟨hole, hkeep, by rw [hsame]; exact hactive, ?_⟩
    rcases hole_or with rfl | ⟨rfl, haw⟩
    · obtain ⟨job, -, hnames, -⟩ := hs.named row hrow hactive (by simp)
      exact .inl ⟨rfl, by rw [hsame, hnames]; simp⟩
    · exact .inr ⟨rfl, by rw [hsame]; exact haw⟩
  · -- a terminal subscription goes to its next generation
    have hnone : hole = .none := by
      rcases hole_or with h | ⟨-, haw, -⟩
      · exact h
      · exact absurd haw hactive
    subst hnone
    have hstart : row.startGeneration = { row with
        syncGeneration := row.syncGeneration + 1, syncStatus := .pending, syncJobId := .none, syncJobAttemptNo := .none
        checkpoint := .none } := by
      simp [PodcastSubscription.startGeneration, hactive]
    have hpending : row.startGeneration.syncStatus.active = true := by rw [hstart]; rfl
    refine ⟨.some row.id, ?_, hpending, .inr ⟨rfl, hpending, by rw [hstart], fun j hj hp => ?_⟩⟩
    · refine hs.updateSubscription hrow (·.startGeneration) (by intro _; rfl) (.some row.id) (by simp) ?_ ?_ ?_ ?_
      · rw [hstart]
        exact Nat.le_succ _
      · intro item hitem hitemActive hid _
        obtain ⟨k, hk, hkid, -, hkactive⟩ := hs.joined item hitem hitemActive
        rw [Table.eq_of_key hk hrow (hkid.trans hid)] at hkactive
        exact absurd hkactive hactive
      · exact fun _ hne => absurd rfl hne
      · intro _ w e _ j _ _ _ hnames
        rw [hstart] at hnames
        cases hnames
    · obtain ⟨-, p, hjp, -, -, -, hle⟩ := hs.jobs j hj
      have hpay : p = row.startGeneration.payload := PodcastSyncJson.payload.inj (hjp.symm.trans hp)
      have hgen := hle row hrow (by rw [hpay]; rfl)
      rw [hpay, hstart] at hgen
      exact absurd hgen (Nat.not_succ_le_self _)

theorem SyncInv.generationJob (hs : SyncInv clock hole stale s) {row} (hrow : row ∈ s.db.subscriptions.rows)
    (hactive : row.syncStatus.active = true)
    (hole_or : (hole = .none ∧ row.syncJobId ≠ .none) ∨ (hole = .some row.id ∧ Awaits s row)) {now priority jobId r}
    (h : PodcastSync.generationJob s.db now row priority jobId = .ok r) :
    SyncInv clock .none stale { s with db := r.2.2 } ∧ r.2.2.runs = s.db.runs ∧ ∃ k ∈ r.2.2.subscriptions.rows,
      k.id = row.id ∧ k.syncGeneration = row.syncGeneration ∧ k.syncStatus.active = true := by
  unfold PodcastSync.generationJob at h
  split at h
  · rename_i current hjob
    cases h
    rcases hole_or with ⟨rfl, -⟩ | ⟨-, -, hnone, -⟩
    · exact ⟨hs, rfl, row, hrow, rfl, rfl, hactive⟩
    · rw [hjob] at hnone
      cases hnone
  · rename_i hjob
    obtain ⟨rfl, -, -, hfree⟩ : hole = .some row.id ∧ Awaits s row := by
      rcases hole_or with ⟨-, hne⟩ | h
      · exact absurd hjob hne
      · exact h
    split at h
    · cases h
    · rename_i job inserted queue henq
      split at h
      · cases h
      · rename_i hop
        cases h
        simp only [ne_eq, not_or, not_not] at hop
        obtain ⟨hkeys, hfresh, hrows, hpending, hkind, hkey⟩ := enqueue_generation henq hop.2 hfree
        have hq := hs.enqueue hrow hop.2 hkeys hrows hpending hkind hkey
        have hjobmem : job ∈ (s.setQueue queue).db.queue.rows := by
          rw [show (s.setQueue queue).db.queue.rows = _ from hrows]
          exact List.mem_cons_self
        have hnamed : SyncInv clock .none stale { (s.setQueue queue) with
            db := (s.setQueue queue).db.updateSubscription row.id fun row => { row with syncJobId := .some job.id } } := by
          refine hq.updateSubscription hrow _ (by intro _; rfl) .none (fun x hx _ he => hx (Option.some.inj he).symm) (le_refl _)
            (fun _ _ _ _ _ => ⟨rfl, hactive⟩) (fun _ _ => ⟨job, hjobmem, rfl, hop.2, ?_, ?_⟩) fun _ w e _ j hj hh _ hnames => ?_
          · rw [hpending]
            decide
          · rw [hpending]
            decide
          · -- nobody holds a row that was just inserted
            have heq : j = job := Table.eq_of_key hj hjobmem (Option.some.inj hnames).symm
            have hrun := hh.2.1
            rw [heq, hpending] at hrun
            cases hrun
        exact ⟨hnamed, rfl, _, (mem_updateSubscription (by intro _; rfl)).2 ⟨row, hrow, if_pos rfl⟩, rfl, rfl, hactive⟩

theorem SyncInv.admission (hs : SyncInv clock hole stale s) {now subscriptionId userId podcastId priority jobId run r}
    (hole_or : ∀ row ∈ s.db.subscriptions.rows, row.id = subscriptionId →
      hole = .none ∨ (hole = .some row.id ∧ Awaits s row))
    (hrun : ∀ x ∈ run, x.1 ∈ stale ∧ ∃ k ∈ s.db.runs.rows, k.id = x.1)
    (h : admitSubscriptionGeneration s.db now subscriptionId userId podcastId priority jobId run = .ok r) :
    SyncInv clock .none stale { s with db := r.2 } ∧ r.2.runs = s.db.runs := by
  obtain ⟨before, hbefore, h⟩ := bind_eq_ok.1 h
  obtain ⟨⟨promoted, queue⟩, hpromote, h⟩ := bind_eq_ok.1 h
  obtain ⟨⟨currentJobId, inserted, db₁⟩, hjob, h⟩ := bind_eq_ok.1 h
  obtain ⟨db₂, hinsert, h⟩ := bind_eq_ok.1 h
  cases h
  obtain ⟨hfound, -, -⟩ := requireSubscriptionIdentity_ok hbefore
  obtain ⟨hrow, rfl⟩ := Table.find?_eq_some.1 hfound
  obtain ⟨hpromoted, hsame⟩ := hs.promoteActive hpromote
  have hole_or' : hole = .none ∨ (hole = .some before.id ∧ Awaits (s.setQueue queue) before) := by
    rcases hole_or before hrow rfl with h | ⟨h, haw⟩
    · exact .inl h
    · refine .inr ⟨h, haw.1, haw.2.1, ?_⟩
      rw [show (s.setQueue queue).db.queue = s.db.queue from hsame haw.2.1]
      exact haw.2.2
  obtain ⟨hole', hstarted, hactive, hcase⟩ := hpromoted.startGeneration hrow hole_or'
  have hstartedRow : before.startGeneration ∈
      ((s.setQueue queue).db.updateSubscription before.id (·.startGeneration)).subscriptions.rows :=
    (mem_updateSubscription (by intro _; rfl)).2 ⟨before, hrow, if_pos rfl⟩
  obtain ⟨hjobbed, hruns, k, hk, hkid, hkgen, hkactive⟩ := hstarted.generationJob hstartedRow hactive hcase hjob
  cases run with
  | none =>
    cases hinsert
    exact ⟨hjobbed, hruns⟩
  | some ids =>
    obtain ⟨runId, itemId⟩ := ids
    simp only [PodcastSync.insertItem] at hinsert
    split at hinsert
    · cases hinsert
    · rename_i items hins
      cases hinsert
      obtain ⟨hstale, run, hrunmem, hrunid⟩ := hrun (runId, itemId) rfl
      refine ⟨hjobbed.insertItem hins ⟨run, ?_, hrunid⟩ hstale fun _ => ⟨k, hk, hkid, hkgen, hkactive⟩, hruns⟩
      rw [show db₁.runs = s.db.runs from hruns]
      exact hrunmem

theorem SyncInv.admitAll {now priority runId newIds} : ∀ {rows : List PodcastSubscription} {s : SyncState} {db'},
    SyncInv clock .none stale s → runId ∈ stale → (∃ k ∈ s.db.runs.rows, k.id = runId) →
    admitAll now priority runId newIds rows s.db = .ok db' →
    SyncInv clock .none stale { s with db := db' } ∧ db'.runs = s.db.runs
  | [], s, db', hs, _, _, h => by
    cases h
    exact ⟨hs, rfl⟩
  | row :: rows, s, db', hs, hstale, hrun, h => by
    obtain ⟨r, hadm, h⟩ := bind_eq_ok.1 h
    obtain ⟨hone, hruns⟩ := hs.admission (fun _ _ _ => .inl rfl) (fun x hx => by cases hx; exact ⟨hstale, hrun⟩) hadm
    have hrun' : ∃ k ∈ r.2.runs.rows, k.id = runId := by
      rw [hruns]
      exact hrun
    obtain ⟨hall, hruns'⟩ := SyncInv.admitAll (s := { s with db := r.2 }) hone hstale hrun' h
    exact ⟨hall, hruns'.trans hruns⟩

theorem SyncInv.requestedRun (hs : SyncInv clock .none stale s) {now runId userId priority newIds} {rows : List PodcastSubscription}
    {db₁ db₂} (hinsert : PodcastSync.insertRun s.db now runId userId rows.length = .ok db₁)
    (hadm : PodcastSync.admitAll now priority runId newIds rows db₁ = .ok db₂) :
    SyncInv clock .none stale { s with db := recomputeRefreshRuns db₂ now [runId] } := by
  obtain ⟨hrun, hexists, -⟩ := hs.insertRun hinsert
  have hstale : SyncInv clock .none (runId :: stale) { s with db := db₁ } := by
    refine { hrun with aggregated := fun run hmem hnot => hrun.aggregated run hmem fun h => hnot ?_ }
    split at h
    · exact List.mem_cons_of_mem _ h
    · exact h
  obtain ⟨hall, -⟩ := SyncInv.admitAll (s := { s with db := db₁ }) hstale List.mem_cons_self hexists hadm
  refine hall.recompute now fun x hx => ?_
  rcases List.mem_cons.1 hx with rfl | hx
  · exact .inr List.mem_cons_self
  · exact .inl hx

end Admission

/-! ## Commands -/

section Commands

variable {now : Instant} {s : SyncState}

theorem SyncInv.insertSubscription (hs : SyncInv now .none [] s) {subscriptionId userId podcastId subscriptions}
    (hnew : subscriptionId ∉ s.drawn)
    (hins : s.db.subscriptions.insert? (newSubscription subscriptionId userId podcastId) = .some subscriptions) :
    SyncInv now (.some subscriptionId) []
        { s with db := { s.db with subscriptions := subscriptions }, drawn := subscriptionId :: s.drawn } ∧
      ∀ j ∈ s.db.queue.rows, j.payload ≠ .payload (newSubscription subscriptionId userId podcastId).payload := by
  obtain ⟨-, hrows⟩ := Table.insert?_eq_some.1 hins
  have hnone : ∀ j ∈ s.db.queue.rows, ∀ p, j.payload = .payload p → p.subscriptionId ≠ subscriptionId := by
    intro j hj p hp hid
    obtain ⟨-, p', hp', -, hdrawn, -⟩ := hs.jobs j hj
    rw [PodcastSyncJson.payload.inj (hp'.symm.trans hp), hid] at hdrawn
    exact hnew hdrawn
  have hmem : ∀ k ∈ subscriptions.rows, k = newSubscription subscriptionId userId podcastId ∨ k ∈ s.db.subscriptions.rows := by
    intro k hk
    rw [hrows] at hk
    exact List.mem_cons.1 hk
  refine ⟨?_, fun j hj hp => hnone j hj _ hp rfl⟩
  exact {
    named := by
      intro k hk hactive hne
      rcases hmem k hk with rfl | hk
      · exact absurd rfl hne
      · exact hs.named k hk hactive (by simp)
    joined := by
      intro item hitem hactive
      obtain ⟨k, hk, h⟩ := hs.joined item hitem hactive
      exact ⟨k, by rw [hrows]; exact List.mem_cons_of_mem _ hk, h⟩
    unique := hs.unique
    aggregated := hs.aggregated
    jobs := by
      intro j hj
      obtain ⟨hk, p, hp, hd, hdr, hpos, hle⟩ := hs.jobs j hj
      refine ⟨hk, p, hp, hd, List.mem_cons_of_mem _ hdr, hpos, fun k hk hid => ?_⟩
      rcases hmem k hk with rfl | hk
      · exact absurd hid.symm (hnone j hj p hp)
      · exact hle k hk hid
    subscriptions := by
      intro k hk
      rcases hmem k hk with rfl | hk
      · exact ⟨List.mem_cons_self, le_refl _⟩
      · exact ⟨List.mem_cons_of_mem _ (hs.subscriptions k hk).1, (hs.subscriptions k hk).2⟩
    runs := hs.runs
    held := hs.held
    ends := by
      intro w e he j hj hh hl k hk hactive hnames
      rcases hmem k hk with rfl | hk
      · cases hnames
      · exact hs.ends w e he j hj hh hl k hk hactive hnames }

theorem SyncInv.subscribe (hs : SyncInv now .none [] s) {subscriptionId userId podcastId priority jobId db'}
    (hnew : subscriptionId ∉ s.drawn)
    (h : PodcastSync.subscribe s.db now subscriptionId userId podcastId priority jobId = .ok db') :
    SyncInv now .none [] { s with db := db', drawn := subscriptionId :: s.drawn } := by
  unfold PodcastSync.subscribe at h
  split at h
  · cases h
    exact hs.congr rfl rfl fun x hx => List.mem_cons_of_mem _ hx
  · split at h
    · cases h
    · rename_i subscriptions hins
      obtain ⟨r, hadm, h⟩ := bind_eq_ok.1 h
      cases h
      obtain ⟨hrow, hfree⟩ := hs.insertSubscription hnew hins
      have hnewmem : newSubscription subscriptionId userId podcastId ∈ subscriptions.rows := by
        rw [(Table.insert?_eq_some.1 hins).2]
        exact List.mem_cons_self
      refine (hrow.admission (fun row hmem hid => ?_) (fun x hx => by cases hx) hadm).1
      obtain rfl : row = newSubscription subscriptionId userId podcastId := Table.eq_of_key hmem hnewmem hid
      exact .inr ⟨rfl, rfl, rfl, hfree⟩

theorem SyncInv.manual (hs : SyncInv now .none [] s) {viewerId scope runId newIds db'}
    (h : createManualRefreshRun s.db now viewerId scope runId newIds = .ok db') :
    SyncInv now .none [] { s with db := db' } := by
  obtain ⟨rows, -, h⟩ := bind_eq_ok.1 h
  obtain ⟨db₁, hinsert, h⟩ := bind_eq_ok.1 h
  obtain ⟨db₂, hadm, h⟩ := bind_eq_ok.1 h
  cases h
  cases rows with
  | nil =>
    cases hadm
    exact (hs.insertRun hinsert).1
  | cons row rows => exact hs.requestedRun hinsert hadm

theorem SyncInv.viewers {rows runIds newIds} : ∀ {viewers : List Uuid} {s : SyncState} {db'}, SyncInv now .none [] s →
    admitViewers now rows runIds newIds viewers s.db = .ok db' → SyncInv now .none [] { s with db := db' }
  | [], s, db', hs, h => by
    cases h
    exact hs
  | viewerId :: viewers, s, db', hs, h => by
    obtain ⟨db₁, hinsert, h⟩ := bind_eq_ok.1 h
    obtain ⟨db₂, hadm, h⟩ := bind_eq_ok.1 h
    have hrun := hs.requestedRun hinsert hadm
    exact SyncInv.viewers (s := { s with db := recomputeRefreshRuns db₂ now [runIds viewerId] }) hrun h

end Commands

/-! ## Steps -/

namespace SyncState

/-- **The condition on a step**: whenever a job goes dead, the subscription that
is running under it has the attempt of the job recorded. -/
def Recorded (s : SyncState) : Instant × SyncEvent → Prop
  | (now, .raise worker errorCode errorMessage) => ∀ e ∈ s.workers worker,
      RecordsAttempt s (s.db.queue.failJob now e.jobId worker errorCode errorMessage podcastSyncRetryDelaysSeconds .none)
  | (now, .deadLetterExpired allowedKinds locked) =>
      RecordsAttempt s (s.db.queue.deadLetterExpiredJob now allowedKinds locked)
  | _ => True

end SyncState

theorem claimNext_eq (q : Queue PodcastSyncJson) (now : Instant) (worker : String) (leaseSeconds : Int) (allowedKinds locked) :
    q.claimNextJob now worker leaseSeconds allowedKinds locked = .none ∨ ∃ j ∈ q.rows,
      (j.due now = true ∨ j.reclaimable now = true) ∧ q.claimNextJob now worker leaseSeconds allowedKinds locked =
        q.updateJob j.id (fun _ => true) (Queue.claim now worker leaseSeconds) := by
  unfold Queue.claimNextJob
  split
  · exact .inl rfl
  · split
    · exact .inl rfl
    · rename_i j hc
      obtain ⟨hj, hready⟩ := Queue.candidate_spec hc
      exact .inr ⟨j, hj, hready, rfl⟩

theorem deadLetterExpired_eq (q : Queue PodcastSyncJson) (now : Instant) (allowedKinds locked) :
    q.deadLetterExpiredJob now allowedKinds locked = .none ∨ ∃ jobId f hf, EndsAttempt f ∧
      q.deadLetterExpiredJob now allowedKinds locked = q.updateJob jobId (fun _ => true) f hf := by
  unfold Queue.deadLetterExpiredJob
  split
  · exact .inl rfl
  · split
    · exact .inl rfl
    · refine .inr ⟨_, _, by intro _; rfl, ⟨?_, ?_, ?_, ?_, ?_⟩, rfl⟩
      all_goals intro j
      · rfl
      · rfl
      · rfl
      · rfl
      · exact .inr rfl

section Steps

variable {now : Instant} {s t : SyncState}

theorem SyncInv.committed (hs : SyncInv now .none [] s) {result : Except String SyncDb}
    (h : ∀ db, result = .ok db → SyncInv now .none [] { s with db := db }) : SyncInv now .none [] (s.committed result) := by
  cases result with
  | error => exact hs
  | ok db => exact h db rfl

theorem SyncInv.act (hs : SyncInv now .none [] s) {ev} (h : s.act now ev = .some t) (hrecorded : s.Recorded (now, ev)) :
    SyncInv now .none [] t := by
  cases ev with
  | subscribe subscriptionId userId podcastId priority jobId =>
    simp only [SyncState.act] at h
    split at h
    · cases h
    · rename_i hnew
      cases h
      cases hsub : PodcastSync.subscribe s.db now subscriptionId userId podcastId priority jobId with
      | error => exact hs.congr rfl rfl fun x hx => List.mem_cons_of_mem _ hx
      | ok db => exact hs.subscribe hnew hsub
  | unsubscribe userId podcastId =>
    cases h
    exact hs.unsubscribe now userId podcastId
  | setAutoQueue userId podcastId autoQueue =>
    cases h
    exact hs.setAutoQueue userId podcastId autoQueue
  | manual =>
    cases h
    exact hs.committed fun db hdb => hs.manual hdb
  | due =>
    cases h
    exact hs.committed fun db hdb => SyncInv.viewers hs hdb
  | pruneRuns locked =>
    cases h
    exact hs.pruneRuns now locked
  | claimNext worker leaseSeconds allowedKinds locked =>
    simp only [SyncState.act] at h
    split at h
    · cases h
    · rename_i hidle
      cases h
      rcases claimNext_eq s.db.queue now worker leaseSeconds allowedKinds locked with hnone | ⟨j, hj, hready, heq⟩
      · rw [hnone]
        exact hs
      · refine hs.claimed hidle heq fun k hk hid _ => ?_
        rw [Table.eq_of_key hk hj hid]
        exact hready
  | claimExact worker jobId leaseSeconds allowedKinds =>
    simp only [SyncState.act] at h
    split at h
    · cases h
    · rename_i hidle
      cases h
      by_cases hkinds : allowedKinds = .some []
      · rw [Queue.claimJob, if_pos hkinds]
        exact hs
      · refine hs.claimed hidle (by rw [Queue.claimJob, if_neg hkinds]) fun k _ _ hg => ?_
        simp only [Bool.and_eq_true, Bool.or_eq_true] at hg
        exact hg.2
  | heartbeat worker =>
    obtain ⟨e, -, rfl⟩ := Option.map_eq_some_iff.1 h
    cases hbeat : s.db.queue.heartbeatJob now e.jobId worker podcastSyncJobLeaseSeconds with
    | none => exact hs
    | some r => exact hs.heartbeat hbeat
  | claimAttempt worker =>
    simp only [SyncState.act] at h
    split at h
    · rename_i hexec
      obtain ⟨hw, hp⟩ := executing_eq_some hexec
      exact hs.claimAttempt hw hp rfl (toOption_eq_some.1 h)
    · cases h
  | checkpoint worker =>
    simp only [SyncState.act] at h
    split at h
    · rename_i hexec
      obtain ⟨hw, hp⟩ := executing_eq_some hexec
      exact hs.checkpoint hw hp rfl (toOption_eq_some.1 h)
    · cases h
  | finalize worker =>
    simp only [SyncState.act] at h
    split at h
    · rename_i hexec
      obtain ⟨hw, hp⟩ := executing_eq_some hexec
      exact hs.finalize hw hp rfl (toOption_eq_some.1 h)
    · cases h
  | apiError worker errorCode =>
    simp only [SyncState.act] at h
    split at h
    · rename_i hw
      cases h
      exact hs.moves hw (.failing errorCode) fun j hj hh hl row hrow hactive hnames => hs.ends worker _ hw j hj hh hl row hrow hactive hnames
    · rename_i hw
      cases h
      exact hs.moves hw (.failing errorCode) fun j hj hh hl row hrow hactive hnames => hs.ends worker _ hw j hj hh hl row hrow hactive hnames
    · cases h
  | terminalize worker =>
    simp only [SyncState.act] at h
    split at h
    · rename_i hexec
      obtain ⟨hw, hp⟩ := executing_eq_some hexec
      exact hs.terminalize hw hp rfl (toOption_eq_some.1 h)
    · cases h
  | complete worker =>
    simp only [SyncState.act] at h
    split at h
    · rename_i hw
      split at h
      · cases h
        exact hs.idle worker
      · rename_i hdone
        cases h
        exact (hs.complete hw rfl hdone).idle worker
    · cases h
  | raise worker errorCode errorMessage =>
    obtain ⟨e, hw, rfl⟩ := Option.map_eq_some_iff.1 h
    exact (hs.settled (failed_ends errorCode errorMessage _ .none) rfl (hrecorded e hw)).idle worker
  | stop worker =>
    cases h
    exact hs.idle worker
  | deadLetterExpired allowedKinds locked =>
    cases h
    rcases deadLetterExpired_eq s.db.queue now allowedKinds locked with hnone | ⟨jobId, f, hf, hends, heq⟩
    · rw [hnone]
      exact hs
    · exact hs.settled hends heq hrecorded
  | pruneJobs succeededAfterDays deadAfterDays limit excludedDeadKinds locked =>
    cases h
    exact hs.pruneJobs now succeededAfterDays deadAfterDays limit excludedDeadKinds locked
  | ingestElsewhere podcastId selected =>
    cases h
    refine hs.committed fun db hdb => ?_
    obtain ⟨r, -, rfl⟩ := map_eq_ok.1 hdb
    exact hs.setEpisodes r.1

/-- A step that leaves the dead job of an unrecorded attempt leaves a generation
without a live job. -/
theorem SyncInv.recorded_of_generationsEnd (hs : SyncInv now .none [] s) {ev} (h : s.act now ev = .some t)
    (hends : GenerationsEnd t.db) : s.Recorded (now, ev) := by
  cases ev with
  | raise worker errorCode errorMessage =>
    obtain ⟨e, hw, rfl⟩ := Option.map_eq_some_iff.1 h
    intro e' hw'
    obtain rfl : e = e' := Option.some.inj (hw.symm.trans hw')
    exact hs.records_of_generationsEnd (failed_ends errorCode errorMessage _ .none) rfl hends
  | deadLetterExpired allowedKinds locked =>
    cases h
    simp only [SyncState.Recorded]
    rcases deadLetterExpired_eq s.db.queue now allowedKinds locked with hnone | ⟨jobId, f, hf, hf', heq⟩
    · rw [hnone]
      trivial
    · exact hs.records_of_generationsEnd hf' heq hends
  | subscribe | unsubscribe | setAutoQueue | manual | due | pruneRuns | claimNext | claimExact | heartbeat | claimAttempt
  | checkpoint | finalize | apiError | terminalize | complete | stop | pruneJobs | ingestElsewhere => trivial

end Steps

/-- **In every run, generations end with their jobs in every state reached
exactly when no job goes dead under a running generation that has an earlier
attempt recorded.** -/
theorem generations_end {s : SyncState} {tr} (h0 : s.Initial) (hr : syncSystem.Run s tr) :
    (∀ x ∈ tr, GenerationsEnd x.2.db) ↔ Along (fun s e _ => s.Recorded e) s tr := by
  refine System.Run.forall_iff_guarded (I := fun s => SyncInv s.clock .none [] s) (P := fun s => GenerationsEnd s.db)
    (fun s hs => hs.generationsEnd) (fun s e t hstep hs hG => ?_) (fun s e t hstep hs hP => ?_) hr (.init h0 s.clock)
  · obtain ⟨now, ev⟩ := e
    obtain ⟨hle, u, hact, rfl⟩ := next_eq_some hstep
    exact ((hs.tick hle).act hact hG).congr rfl rfl fun _ hx => hx
  · obtain ⟨now, ev⟩ := e
    obtain ⟨hle, u, hact, rfl⟩ := next_eq_some hstep
    exact (hs.tick hle).recorded_of_generationsEnd hact hP

/-! ## A lost last attempt -/

instance RecordsAttempt.decidable (s : SyncState) : ∀ result, Decidable (RecordsAttempt s result)
  | .none => .isTrue trivial
  | .some (job, _) => inferInstanceAs (Decidable (job.status = .dead → ∀ row ∈ s.db.subscriptions.rows,
      row.syncStatus = .running → row.syncJobId = .some job.id → row.attemptIs job.attempts = true))

instance SyncState.Recorded.decidable (s : SyncState) : ∀ ev, Decidable (s.Recorded ev)
  | (now, .raise worker errorCode errorMessage) => inferInstanceAs (Decidable (∀ e ∈ s.workers worker,
      RecordsAttempt s (s.db.queue.failJob now e.jobId worker errorCode errorMessage podcastSyncRetryDelaysSeconds .none)))
  | (now, .deadLetterExpired allowedKinds locked) =>
      inferInstanceAs (Decidable (RecordsAttempt s (s.db.queue.deadLetterExpiredJob now allowedKinds locked)))
  | (_, .subscribe ..) | (_, .unsubscribe ..) | (_, .setAutoQueue ..) | (_, .manual ..) | (_, .due ..) | (_, .pruneRuns ..)
  | (_, .claimNext ..) | (_, .claimExact ..) | (_, .heartbeat ..) | (_, .claimAttempt ..) | (_, .checkpoint ..)
  | (_, .finalize ..) | (_, .apiError ..) | (_, .terminalize ..) | (_, .complete ..) | (_, .stop ..) | (_, .pruneJobs ..)
  | (_, .ingestElsewhere ..) => .isTrue trivial

def nobodySubscribed : SyncState := ⟨⟨.empty, .empty, .empty, .empty, .empty⟩, 0, fun _ => .none, [], []⟩

def seconds (n : Nat) : Instant := n * microsecondsPerSecond

/-- A subscription syncs, and ends its generation. -/
def synced : List (Instant × SyncEvent) :=
  [(0, .subscribe 1 100 50 75 7), (1, .claimNext "a" 900 .none []), (2, .claimAttempt "a"),
    (3, .checkpoint "a" [⟨.some 9, .some 1⟩] false), (4, .finalize "a"), (5, .complete "a")]

theorem generations_end_synced :
    (replay SyncState.next nobodySubscribed synced).length = 6 ∧
      ∀ x ∈ replay SyncState.next nobodySubscribed synced, GenerationsEnd x.2.db :=
  ⟨by decide +kernel, (generations_end ⟨rfl, rfl, rfl, rfl, rfl, rfl⟩ System.run_replay).2 (by decide +kernel)⟩

/-- Two attempts record themselves and are lost; the third is lost before its
first commit, and its lease runs out. -/
def lostThrice : List (Instant × SyncEvent) :=
  [(0, .subscribe 1 100 50 75 7), (1, .claimNext "a" 900 .none []), (2, .claimAttempt "a"), (3, .stop "a"),
    (seconds 1000, .claimNext "b" 900 .none []), (seconds 1001, .claimAttempt "b"), (seconds 1002, .stop "b"),
    (seconds 2000, .claimNext "c" 900 .none []), (seconds 2001, .stop "c"),
    (seconds 3000, .deadLetterExpired .none [])]

/-- The hook compares the recorded attempt 2 with the job's 3 and leaves the
subscription running under its dead job. -/
theorem generation_outlives_its_job :
    ¬ ∀ (s : SyncState) tr, s.Initial → syncSystem.Run s tr → ∀ x ∈ tr, GenerationsEnd x.2.db := by
  intro h
  have hall := h nobodySubscribed (replay SyncState.next nobodySubscribed lostThrice) ⟨rfl, rfl, rfl, rfl, rfl, rfl⟩
    System.run_replay
  have hr := (generations_end ⟨rfl, rfl, rfl, rfl, rfl, rfl⟩ System.run_replay).1 hall
  exact absurd hr (by decide +kernel)

end Nexus.PodcastSync
