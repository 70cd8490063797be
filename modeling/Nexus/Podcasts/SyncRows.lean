/-
The invariant of sync generations, and what each kind of write does to it.

An active generation names a live job of exactly its payload, an unfinished item
belongs to an active generation, and a run's counters are those of its items. A
worker that holds the lease of a job has, from its claim of the generation on,
its attempt recorded there, and once it has returned nothing active names its
job (`SyncStage.Ends`).

Inside a transaction the invariant may have a hole: a subscription whose
generation names no live job yet, or no longer, and stale runs whose items have
changed.
-/
import Nexus.Jobs.Fencing
import Nexus.Podcasts.Sync

namespace Nexus.PodcastSync
open Relational Nexus.Jobs ExceptFacts

/-! ## The invariant -/

/-- A row of the queue the worker's execution runs. -/
def Held (worker : String) (e : SyncExecution) (job : JobRow PodcastSyncJson) : Prop :=
  job.id = e.jobId ∧ job.status = .running ∧ job.claimedBy = .some worker

def Leased (clock : Instant) (job : JobRow PodcastSyncJson) : Prop :=
  ∃ lease, job.leaseExpiresAt = .some lease ∧ clock < lease

theorem Leased.mono {clock clock' : Instant} {job} (h : Leased clock' job) (hle : clock ≤ clock') : Leased clock job := by
  obtain ⟨lease, hlease, hlt⟩ := h
  exact ⟨lease, hlease, lt_of_le_of_lt hle hlt⟩

/-- What a stage says of an active generation that names the worker's job. -/
def SyncStage.Ends (attemptNo : Nat) (row : PodcastSubscription) : SyncStage → Prop
  | .started => True
  | .claimed _ | .checkpointed _ | .failing _ => row.syncStatus = .running ∧ row.syncJobAttemptNo = .some attemptNo
  | .returned _ => False

/-- An active generation names a live job of exactly its payload. -/
def NamesLive (queue : Queue PodcastSyncJson) (row : PodcastSubscription) : Prop :=
  ∃ job ∈ queue.rows, row.syncJobId = .some job.id ∧ job.payload = .payload row.payload ∧ job.status ≠ .dead ∧
    job.status ≠ .succeeded

structure SyncInv (clock : Instant) (hole : Option Uuid) (stale : List Uuid) (s : SyncState) : Prop where
  named : ∀ row ∈ s.db.subscriptions.rows, row.syncStatus.active = true → hole ≠ .some row.id → NamesLive s.db.queue row
  joined : ∀ item ∈ s.db.items.rows, item.status.active = true → ∃ row ∈ s.db.subscriptions.rows,
    row.id = item.subscriptionId ∧ row.syncGeneration = item.syncGeneration ∧ row.syncStatus.active = true
  unique : ∀ j ∈ s.db.queue.rows, ∀ k ∈ s.db.queue.rows, j.dedupeKey = k.dedupeKey → j = k
  aggregated : ∀ run ∈ s.db.runs.rows, run.id ∉ stale →
    run.aggregation = aggregateRefreshItemStatuses (itemsOfRun s.db.items run.id)
  jobs : ∀ j ∈ s.db.queue.rows, j.kind = podcastSyncJobKind ∧ ∃ p, j.payload = .payload p ∧
    j.dedupeKey = .some (podcastSyncDedupeKey p.subscriptionId p.syncGeneration) ∧ p.subscriptionId ∈ s.drawn ∧
    1 ≤ p.syncGeneration ∧
    ∀ row ∈ s.db.subscriptions.rows, row.id = p.subscriptionId → p.syncGeneration ≤ row.syncGeneration
  subscriptions : ∀ row ∈ s.db.subscriptions.rows, row.id ∈ s.drawn ∧ 1 ≤ row.syncGeneration
  runs : ∀ item ∈ s.db.items.rows, ∃ run ∈ s.db.runs.rows, run.id = item.runId
  held : ∀ worker e, s.workers worker = .some e → ∀ j ∈ s.db.queue.rows, Held worker e j →
    j.payload = e.payload ∧ j.attempts = e.attemptNo ∧ 0 < e.attemptNo
  ends : ∀ worker e, s.workers worker = .some e → ∀ j ∈ s.db.queue.rows, Held worker e j → Leased clock j →
    ∀ row ∈ s.db.subscriptions.rows, row.syncStatus.active = true → row.syncJobId = .some j.id →
      e.stage.Ends e.attemptNo row

theorem SyncInv.init {s : SyncState} (h : s.Initial) (clock : Instant) : SyncInv clock .none [] s := by
  obtain ⟨hsubs, hruns, hitems, hqueue, hworkers, -⟩ := h
  have hq : s.db.queue.rows = [] := by rw [hqueue]; rfl
  have hsub : s.db.subscriptions.rows = [] := by rw [hsubs]; rfl
  have hrun : s.db.runs.rows = [] := by rw [hruns]; rfl
  have hitem : s.db.items.rows = [] := by rw [hitems]; rfl
  exact {
    named := by simp [hsub]
    joined := by simp [hitem]
    unique := by simp [hq]
    aggregated := by simp [hrun]
    jobs := by simp [hq]
    subscriptions := by simp [hsub]
    runs := by simp [hitem]
    held := by simp [hworkers]
    ends := by simp [hworkers] }

section Facts

variable {clock : Instant} {hole : Option Uuid} {stale : List Uuid} {s : SyncState}

theorem SyncInv.tick (hs : SyncInv clock hole stale s) {clock' : Instant} (hle : clock ≤ clock') :
    SyncInv clock' hole stale s :=
  { hs with ends := fun w e he j hj hh hl => hs.ends w e he j hj hh (hl.mono hle) }

theorem SyncInv.congr (hs : SyncInv clock hole stale s) {t : SyncState} (hdb : t.db = s.db) (hworkers : t.workers = s.workers)
    (hdrawn : ∀ x ∈ s.drawn, x ∈ t.drawn) : SyncInv clock hole stale t where
  named := by rw [hdb]; exact hs.named
  joined := by rw [hdb]; exact hs.joined
  unique := by rw [hdb]; exact hs.unique
  aggregated := by rw [hdb]; exact hs.aggregated
  jobs := by
    rw [hdb]
    intro j hj
    obtain ⟨hk, p, hp, hd, hdr, hrest⟩ := hs.jobs j hj
    exact ⟨hk, p, hp, hd, hdrawn _ hdr, hrest⟩
  subscriptions := by
    rw [hdb]
    exact fun row hrow => ⟨hdrawn _ (hs.subscriptions row hrow).1, (hs.subscriptions row hrow).2⟩
  runs := by rw [hdb]; exact hs.runs
  held := by rw [hdb, hworkers]; exact hs.held
  ends := by rw [hdb, hworkers]; exact hs.ends

theorem SyncInv.row_of_job (hs : SyncInv clock .none stale s) {row job p} (hrow : row ∈ s.db.subscriptions.rows)
    (hactive : row.syncStatus.active = true) (hjob : job ∈ s.db.queue.rows) (hnames : row.syncJobId = .some job.id)
    (hp : job.payload = .payload p) : row.payload = p := by
  obtain ⟨job', hjob', hnames', hpayload, -⟩ := hs.named row hrow hactive (by simp)
  have hid : job'.id = job.id := Option.some.inj (hnames'.symm.trans hnames)
  obtain rfl : job' = job := Table.eq_of_key hjob' hjob hid
  exact PodcastSyncJson.payload.inj (hpayload.symm.trans hp)

theorem lockSubscriptionEpoch_of_mem {db : SyncDb} {row} (hrow : row ∈ db.subscriptions.rows) :
    lockSubscriptionEpoch db row.payload = .some row := by
  simp only [lockSubscriptionEpoch, PodcastSubscription.payload, Table.find?_of_mem hrow, Option.filter_some, beq_self_eq_true,
    Bool.and_self, if_true]

theorem lockSubscriptionEpoch_eq_some {db : SyncDb} {payload row} (h : lockSubscriptionEpoch db payload = .some row) :
    row ∈ db.subscriptions.rows ∧ row.payload = payload := by
  simp only [lockSubscriptionEpoch, Option.filter_eq_some_iff, Bool.and_eq_true, beq_iff_eq, Table.find?_eq_some] at h
  obtain ⟨⟨hrow, hid⟩, ⟨huser, hpodcast⟩, hgen⟩ := h
  refine ⟨hrow, ?_⟩
  cases payload
  simp_all [PodcastSubscription.payload]

/-! ## Subscriptions -/

theorem mem_updateSubscription {db : SyncDb} {id f} (hf) {k : PodcastSubscription} :
    k ∈ (db.updateSubscription id f hf).subscriptions.rows ↔
      ∃ row ∈ db.subscriptions.rows, (if row.id = id then f row else row) = k := by
  simp only [SyncDb.updateSubscription, Table.mem_updateWhere, beq_iff_eq]

theorem SyncInv.updateSubscription (hs : SyncInv clock hole stale s) {row} (hrow : row ∈ s.db.subscriptions.rows)
    (f : PodcastSubscription → PodcastSubscription) (hf : ∀ row, (f row).id = row.id) (hole' : Option Uuid)
    (hhole : ∀ x, x ≠ row.id → hole' ≠ .some x → hole ≠ .some x)
    (hgen : row.syncGeneration ≤ (f row).syncGeneration)
    (hitems : ∀ item ∈ s.db.items.rows, item.status.active = true → item.subscriptionId = row.id →
      item.syncGeneration = row.syncGeneration →
      (f row).syncGeneration = row.syncGeneration ∧ (f row).syncStatus.active = true)
    (hnamed : (f row).syncStatus.active = true → hole' ≠ .some row.id → NamesLive s.db.queue (f row))
    (hends : (f row).syncStatus.active = true → ∀ worker e, s.workers worker = .some e → ∀ j ∈ s.db.queue.rows,
      Held worker e j → Leased clock j → (f row).syncJobId = .some j.id → e.stage.Ends e.attemptNo (f row)) :
    SyncInv clock hole' stale { s with db := s.db.updateSubscription row.id f hf } := by
  -- a row of the new table is the written one or one from before
  have hback : ∀ k ∈ (s.db.updateSubscription row.id f hf).subscriptions.rows,
      k = f row ∨ (k ∈ s.db.subscriptions.rows ∧ k.id ≠ row.id) := by
    intro k hk
    obtain ⟨k₀, hk₀, hkeq⟩ := (mem_updateSubscription hf).1 hk
    by_cases hid : k₀.id = row.id
    · rw [if_pos hid] at hkeq
      rw [Table.eq_of_key hk₀ hrow hid] at hkeq
      exact .inl hkeq.symm
    · rw [if_neg hid] at hkeq
      rw [← hkeq]
      exact .inr ⟨hk₀, hid⟩
  have hforth : ∀ k ∈ s.db.subscriptions.rows, k.id ≠ row.id →
      k ∈ (s.db.updateSubscription row.id f hf).subscriptions.rows := fun k hk hid =>
    (mem_updateSubscription hf).2 ⟨k, hk, if_neg hid⟩
  have hself : f row ∈ (s.db.updateSubscription row.id f hf).subscriptions.rows :=
    (mem_updateSubscription hf).2 ⟨row, hrow, if_pos rfl⟩
  exact {
    named := by
      intro k hk hactive hne
      rcases hback k hk with rfl | ⟨hk, hid⟩
      · rw [hf] at hne
        exact hnamed hactive hne
      · exact hs.named k hk hactive (hhole k.id hid hne)
    joined := by
      intro item hitem hactive
      obtain ⟨k, hk, hkid, hkgen, hkactive⟩ := hs.joined item hitem hactive
      by_cases hid : k.id = row.id
      · obtain rfl : k = row := Table.eq_of_key hk hrow hid
        obtain ⟨hg, ha⟩ := hitems item hitem hactive hkid.symm hkgen.symm
        exact ⟨f k, hself, (hf k).trans hkid, hg.trans hkgen, ha⟩
      · exact ⟨k, hforth k hk hid, hkid, hkgen, hkactive⟩
    unique := hs.unique
    aggregated := hs.aggregated
    jobs := by
      intro j hj
      obtain ⟨hk, p, hp, hd, hdr, hpos, hle⟩ := hs.jobs j hj
      refine ⟨hk, p, hp, hd, hdr, hpos, fun k hk hid => ?_⟩
      rcases hback k hk with rfl | ⟨hk, -⟩
      · exact (hle row hrow ((hf row).symm.trans hid)).trans hgen
      · exact hle k hk hid
    subscriptions := by
      intro k hk
      rcases hback k hk with rfl | ⟨hk, -⟩
      · exact ⟨(hf row).symm ▸ (hs.subscriptions row hrow).1, (hs.subscriptions row hrow).2.trans hgen⟩
      · exact hs.subscriptions k hk
    runs := hs.runs
    held := hs.held
    ends := by
      intro w e he j hj hh hl k hk hactive hnames
      rcases hback k hk with rfl | ⟨hk, -⟩
      · exact hends hactive w e he j hj hh hl hnames
      · exact hs.ends w e he j hj hh hl k hk hactive hnames }

theorem SyncInv.keepSubscription (hs : SyncInv clock hole stale s) {row} (hrow : row ∈ s.db.subscriptions.rows)
    (f : PodcastSubscription → PodcastSubscription) (hf : ∀ row, (f row).id = row.id) (hpayload : (f row).payload = row.payload)
    (hstatus : (f row).syncStatus = row.syncStatus) (hjob : (f row).syncJobId = row.syncJobId)
    (hattempt : (f row).syncJobAttemptNo = row.syncJobAttemptNo) :
    SyncInv clock hole stale { s with db := s.db.updateSubscription row.id f hf } := by
  have hgen : (f row).syncGeneration = row.syncGeneration := congrArg PodcastSyncPayload.syncGeneration hpayload
  refine hs.updateSubscription hrow f hf hole (fun _ _ h => h) hgen.ge (fun item hitem hactive hid hitemGen => ?_) (fun ha hne => ?_)
    (fun ha w e he j hj hh hl hnames => ?_)
  · obtain ⟨k, hk, hkid, -, hkactive⟩ := hs.joined item hitem hactive
    obtain rfl : k = row := Table.eq_of_key hk hrow (hkid.trans hid)
    exact ⟨hgen, hstatus ▸ hkactive⟩
  · obtain ⟨job, hj, hnames, hp, hlive⟩ := hs.named row hrow (hstatus ▸ ha) hne
    exact ⟨job, hj, hjob.trans hnames, hp.trans (by rw [hpayload]), hlive⟩
  · have h := hs.ends w e he j hj hh hl row hrow (hstatus ▸ ha) (hjob.symm.trans hnames)
    cases hst : e.stage <;> rw [hst] at h <;> simp_all [SyncStage.Ends]

/-! ## Items and runs -/

theorem itemsOfRun_updateWhere {items : Table PodcastRefreshRunItem PodcastRefreshRunItem.id} {p f} (hf) {runId : Uuid}
    (hrun : ∀ item, (f item).runId = item.runId) (hp : ∀ item ∈ items.rows, p item = true → item.runId ≠ runId) :
    itemsOfRun (items.updateWhere p f hf) runId = itemsOfRun items runId := by
  have hkey : ((fun item : PodcastRefreshRunItem => item.runId == runId) ∘ fun item => if p item then f item else item) =
      fun item => item.runId == runId := by
    funext item
    simp only [Function.comp_apply]
    split <;> simp [hrun]
  simp only [itemsOfRun, Table.updateWhere, List.filter_map, hkey, List.map_map]
  refine List.map_congr_left fun item hitem => ?_
  obtain ⟨hmem, hid⟩ := List.mem_filter.1 hitem
  have hnot : ¬ p item = true := fun h => hp item hmem h (by simpa using hid)
  simp [Function.comp_apply, hnot]

theorem mem_recompute {db : SyncDb} {now runIds} {run : PodcastRefreshRun} :
    run ∈ (recomputeRefreshRuns db now runIds).runs.rows ↔
      ∃ old ∈ db.runs.rows, (if runIds.contains old.id then old.recomputed now db.items else old) = run :=
  List.mem_map

theorem SyncInv.recompute (hs : SyncInv clock hole stale s) (now : Instant) {runIds stale' : List Uuid}
    (hstale : ∀ x ∈ stale, x ∈ stale' ∨ x ∈ runIds) :
    SyncInv clock hole stale' { s with db := recomputeRefreshRuns s.db now runIds } where
  named := hs.named
  joined := hs.joined
  unique := hs.unique
  aggregated := by
    intro run hrun hnot
    obtain ⟨old, hold, rfl⟩ := mem_recompute.1 hrun
    by_cases hc : runIds.contains old.id = true
    · simp only [hc, if_true]
      rfl
    · simp only [hc, Bool.false_eq_true, if_false] at hnot ⊢
      refine hs.aggregated old hold fun hmem => ?_
      rcases hstale old.id hmem with h | h
      · exact hnot h
      · exact hc (by simpa using h)
  jobs := hs.jobs
  subscriptions := hs.subscriptions
  runs := by
    intro item hitem
    obtain ⟨run, hrun, hid⟩ := hs.runs item hitem
    refine ⟨_, mem_recompute.2 ⟨run, hrun, rfl⟩, ?_⟩
    split
    · exact hid
    · exact hid
  held := hs.held
  ends := hs.ends

theorem SyncInv.updateItems (hs : SyncInv clock hole stale s) (now : Instant) {p : PodcastRefreshRunItem → Bool}
    (hp : ∀ item, p item = true → item.status.active = true) (status : PodcastRefreshRunItemStatus) (count : Option Nat) :
    SyncInv clock hole stale { s with db := PodcastSync.updateItems s.db now p status count } := by
  have hitems : SyncInv clock hole (stale ++ (s.db.items.rows.filter p).map (·.runId)) { s with
      db := s.db.setItems (s.db.items.updateWhere p fun item =>
        { item with status := status, newEpisodeCount := count.getD item.newEpisodeCount }) } := {
    named := hs.named
    joined := by
      intro item hitem hactive
      obtain ⟨old, hold, rfl⟩ := List.mem_map.1 hitem
      by_cases hpo : p old = true
      · simp only [hpo, if_true]
        exact hs.joined old hold (hp old hpo)
      · simp only [hpo, Bool.false_eq_true, if_false] at hactive ⊢
        exact hs.joined old hold hactive
    unique := hs.unique
    aggregated := by
      intro run hrun hnot
      simp only [List.mem_append, not_or] at hnot
      refine (hs.aggregated run hrun hnot.1).trans (congrArg aggregateRefreshItemStatuses ?_)
      refine (itemsOfRun_updateWhere (by intro _; rfl) (by intro _; rfl) fun item hitem hpi hid => hnot.2 ?_).symm
      exact List.mem_map.2 ⟨item, List.mem_filter.2 ⟨hitem, hpi⟩, hid⟩
    jobs := hs.jobs
    subscriptions := hs.subscriptions
    runs := by
      intro item hitem
      obtain ⟨old, hold, rfl⟩ := List.mem_map.1 hitem
      obtain ⟨run, hrun, hid⟩ := hs.runs old hold
      refine ⟨run, hrun, hid.trans ?_⟩
      split <;> rfl
    held := hs.held
    ends := hs.ends }
  exact hitems.recompute now fun x hx => List.mem_append.1 hx

theorem SyncInv.insertItem (hs : SyncInv clock hole stale s) {items} {item : PodcastRefreshRunItem}
    (hins : s.db.items.insert? item = .some items) (hrun : ∃ run ∈ s.db.runs.rows, run.id = item.runId)
    (hstale : item.runId ∈ stale) (hjoin : item.status.active = true → ∃ row ∈ s.db.subscriptions.rows,
      row.id = item.subscriptionId ∧ row.syncGeneration = item.syncGeneration ∧ row.syncStatus.active = true) :
    SyncInv clock hole stale { s with db := s.db.setItems items } := by
  obtain ⟨-, hrows⟩ := Table.insert?_eq_some.1 hins
  exact {
    named := hs.named
    joined := by
      intro k hk hactive
      rw [show (s.db.setItems items).items.rows = item :: s.db.items.rows from hrows] at hk
      rcases List.mem_cons.1 hk with rfl | hk
      · exact hjoin hactive
      · exact hs.joined k hk hactive
    unique := hs.unique
    aggregated := by
      intro run hrun hnot
      have hne : item.runId ≠ run.id := fun he => hnot (he ▸ hstale)
      rw [hs.aggregated run hrun hnot]
      simp [itemsOfRun, SyncDb.setItems, hrows, hne]
    jobs := hs.jobs
    subscriptions := hs.subscriptions
    runs := by
      intro k hk
      rw [show (s.db.setItems items).items.rows = item :: s.db.items.rows from hrows] at hk
      rcases List.mem_cons.1 hk with rfl | hk
      · exact hrun
      · exact hs.runs k hk
    held := hs.held
    ends := hs.ends }

theorem SyncInv.itemsOfRun_eq_nil (hs : SyncInv clock hole stale s) {runId : Uuid}
    (h : s.db.runs.find? runId = .none) : itemsOfRun s.db.items runId = [] := by
  simp only [itemsOfRun, List.map_eq_nil_iff, List.filter_eq_nil_iff, beq_iff_eq]
  intro item hitem hid
  obtain ⟨run, hrun, hrid⟩ := hs.runs item hitem
  exact Table.find?_eq_none.1 h run hrun (hrid.trans hid)

theorem SyncInv.insertRun (hs : SyncInv clock hole stale s) {now runId userId requested db'}
    (h : insertRun s.db now runId userId requested = .ok db') :
    SyncInv clock hole (if requested = 0 then stale else runId :: stale) { s with db := db' } ∧
      (∃ run ∈ db'.runs.rows, run.id = runId) ∧ db'.subscriptions = s.db.subscriptions := by
  unfold PodcastSync.insertRun at h
  split at h
  · cases h
  · rename_i runs hins
    cases h
    obtain ⟨hnew, hrows⟩ := Table.insert?_eq_some.1 hins
    refine ⟨?_, ⟨_, by rw [hrows]; exact List.mem_cons_self, rfl⟩, rfl⟩
    exact {
      named := hs.named
      joined := hs.joined
      unique := hs.unique
      aggregated := by
        intro run hrun hnot
        rw [show ({ s.db with runs := runs } : SyncDb).runs.rows = _ from hrows] at hrun
        rcases List.mem_cons.1 hrun with rfl | hrun
        · by_cases hreq : requested = 0
          · subst hreq
            rw [show itemsOfRun ({ s.db with runs := runs } : SyncDb).items runId = [] from hs.itemsOfRun_eq_nil hnew]
            rfl
          · rw [if_neg hreq] at hnot
            simp at hnot
        · refine hs.aggregated run hrun fun hmem => hnot ?_
          split
          · exact hmem
          · exact List.mem_cons_of_mem _ hmem
      jobs := hs.jobs
      subscriptions := hs.subscriptions
      runs := by
        intro item hitem
        obtain ⟨run, hrun, hid⟩ := hs.runs item hitem
        exact ⟨run, by rw [show ({ s.db with runs := runs } : SyncDb).runs.rows = _ from hrows]; exact List.mem_cons_of_mem _ hrun, hid⟩
      held := hs.held
      ends := hs.ends }

theorem itemsOfRun_deleteWhere {items : Table PodcastRefreshRunItem PodcastRefreshRunItem.id} {runIds : List Uuid} {runId : Uuid}
    (h : runId ∉ runIds) : itemsOfRun (items.deleteWhere fun item => runIds.contains item.runId) runId = itemsOfRun items runId := by
  simp only [itemsOfRun, Table.deleteWhere, List.filter_filter]
  congr 1
  refine List.filter_congr fun item _ => ?_
  by_cases hid : item.runId = runId
  · simp [hid, h]
  · simp [hid]

theorem SyncInv.pruneRuns (hs : SyncInv clock hole stale s) (now : Instant) (locked : List Uuid) :
    SyncInv clock hole stale { s with db := pruneTerminalRefreshRuns s.db now locked } where
  named := hs.named
  joined item hitem hactive := hs.joined item (Table.mem_deleteWhere.1 hitem).1 hactive
  unique := hs.unique
  aggregated := by
    intro run hrun hnot
    obtain ⟨hrun, hkept⟩ := Table.mem_deleteWhere.1 hrun
    refine (hs.aggregated run hrun hnot).trans (congrArg aggregateRefreshItemStatuses ?_)
    exact (itemsOfRun_deleteWhere (by simpa using hkept)).symm
  jobs := hs.jobs
  subscriptions := hs.subscriptions
  runs := by
    intro item hitem
    obtain ⟨hitem, hkept⟩ := Table.mem_deleteWhere.1 hitem
    obtain ⟨run, hrun, hid⟩ := hs.runs item hitem
    exact ⟨run, Table.mem_deleteWhere.2 ⟨hrun, by rw [hid]; exact hkept⟩, hid⟩
  held := hs.held
  ends := hs.ends

/-! ## Jobs -/

/-- The rows left are the same jobs, and run no more than before. -/
def SameJobs (clock : Instant) (q q' : Queue PodcastSyncJson) : Prop :=
  ∀ k ∈ q'.rows, ∃ j ∈ q.rows, j.id = k.id ∧ j.kind = k.kind ∧ j.payload = k.payload ∧ j.dedupeKey = k.dedupeKey ∧
    (k.status = .running → j.status = .running ∧ j.claimedBy = k.claimedBy ∧ j.attempts = k.attempts ∧
      (Leased clock k → Leased clock j))

theorem SyncInv.setQueue (hs : SyncInv clock hole stale s) {q'} (hole' : Option Uuid) (hjobs : SameJobs clock s.db.queue q')
    (hhole : ∀ x, hole' ≠ .some x → hole ≠ .some x)
    (hlive : ∀ row ∈ s.db.subscriptions.rows, row.syncStatus.active = true → hole' ≠ .some row.id →
      NamesLive s.db.queue row → NamesLive q' row) : SyncInv clock hole' stale (s.setQueue q') where
  named row hrow hactive hne := hlive row hrow hactive hne (hs.named row hrow hactive (hhole _ hne))
  joined := hs.joined
  unique := by
    intro j' hj' k' hk' hd
    obtain ⟨j, hj, hjid, -, -, hjd, -⟩ := hjobs j' hj'
    obtain ⟨k, hk, hkid, -, -, hkd, -⟩ := hjobs k' hk'
    have hjk : j = k := hs.unique j hj k hk (hjd.trans (hd.trans hkd.symm))
    exact Table.eq_of_key hj' hk' (by rw [← hjid, ← hkid, hjk])
  aggregated := hs.aggregated
  jobs := by
    intro k hk
    obtain ⟨j, hj, -, hkind, hpay, hded, -⟩ := hjobs k hk
    obtain ⟨hK, p, hp, hd, hrest⟩ := hs.jobs j hj
    exact ⟨hkind.symm.trans hK, p, hpay.symm.trans hp, hded.symm.trans hd, hrest⟩
  subscriptions := hs.subscriptions
  runs := hs.runs
  held := by
    intro w e he k hk hh
    obtain ⟨j, hj, hid, -, hpay, -, hrun⟩ := hjobs k hk
    obtain ⟨hr, hc, ha, -⟩ := hrun hh.2.1
    obtain ⟨hp, hat, hpos⟩ := hs.held w e he j hj ⟨hid.trans hh.1, hr, hc.trans hh.2.2⟩
    exact ⟨hpay.symm.trans hp, ha.symm.trans hat, hpos⟩
  ends := by
    intro w e he k hk hh hl row hrow hactive hnames
    obtain ⟨j, hj, hid, -, -, -, hrun⟩ := hjobs k hk
    obtain ⟨hr, hc, -, hle⟩ := hrun hh.2.1
    exact hs.ends w e he j hj ⟨hid.trans hh.1, hr, hc.trans hh.2.2⟩ (hle hl) row hrow hactive (hnames.trans (by rw [hid]))

theorem SameJobs.of_updateJob {q q' : Queue PodcastSyncJson} {jobId guard f hf row}
    (h : q.updateJob jobId guard f hf = .some (row, q'))
    (hkeep : ∀ j : JobRow PodcastSyncJson, guard j = true → (f j).kind = j.kind ∧ (f j).payload = j.payload ∧
      (f j).dedupeKey = j.dedupeKey ∧ ((f j).status = .running → j.status = .running ∧ j.claimedBy = (f j).claimedBy ∧
        j.attempts = (f j).attempts ∧ (Leased clock (f j) → Leased clock j))) : SameJobs clock q q' := by
  obtain ⟨j, hj, -, hg, -, hmem⟩ := Queue.mem_updateJob h
  obtain ⟨hk, hp, hd, hr⟩ := hkeep j hg
  intro k hk'
  rcases (hmem k).1 hk' with rfl | ⟨hk', -⟩
  · exact ⟨j, hj, (hf j).symm, hk.symm, hp.symm, hd.symm, hr⟩
  · exact ⟨k, hk', rfl, rfl, rfl, rfl, fun hrun => ⟨hrun, rfl, rfl, id⟩⟩

theorem NamesLive.updateJob {q q' : Queue PodcastSyncJson} {jobId guard f hf row} {sub : PodcastSubscription}
    (h : q.updateJob jobId guard f hf = .some (row, q')) (hsub : NamesLive q sub)
    (hlive : sub.syncJobId = .some jobId → row.payload = .payload sub.payload ∧ row.status ≠ .dead ∧ row.status ≠ .succeeded) :
    NamesLive q' sub := by
  obtain ⟨j, hj, hid, -, hrow, hmem⟩ := Queue.mem_updateJob h
  obtain ⟨job, hjob, hnames, hp, hd, hsucc⟩ := hsub
  by_cases heq : job.id = jobId
  · obtain ⟨hpay, hdead, hsuc⟩ := hlive (hnames.trans (by rw [heq]))
    refine ⟨row, (hmem row).2 (.inl hrow), hnames.trans ?_, hpay, hdead, hsuc⟩
    rw [hrow, hf, hid, heq]
  · exact ⟨job, (hmem job).2 (.inr ⟨hjob, heq⟩), hnames, hp, hd, hsucc⟩

theorem enqueue_generation {q q' : Queue PodcastSyncJson} {row : PodcastSubscription} {now jobId priority job inserted}
    (h : q.enqueueUniqueJob now jobId podcastSyncJobKind (.payload row.payload) (podcastSyncDedupeKey row.id row.syncGeneration)
      priority 3 .none = .some (job, inserted, q')) (hp : job.payload = .payload row.payload)
    (hnone : ∀ j ∈ q.rows, j.payload ≠ .payload row.payload) :
    (∀ j ∈ q.rows, j.dedupeKey ≠ .some (podcastSyncDedupeKey row.id row.syncGeneration)) ∧ q.find? job.id = .none ∧
      q'.rows = job :: q.rows ∧ job.status = .pending ∧ job.kind = podcastSyncJobKind ∧
      job.dedupeKey = .some (podcastSyncDedupeKey row.id row.syncGeneration) := by
  unfold Queue.enqueueUniqueJob at h
  split at h
  · rename_i existing hfound
    simp only [Option.some.injEq, Prod.mk.injEq] at h
    obtain ⟨rfl, -, -⟩ := h
    exact absurd hp (hnone _ (List.mem_of_find?_eq_some hfound))
  · obtain ⟨⟨job', q₁⟩, henq, heq⟩ := Option.map_eq_some_iff.1 h
    simp only [Prod.mk.injEq] at heq
    obtain ⟨rfl, -, rfl⟩ := heq
    obtain ⟨hkeys, hrow, hins⟩ := enqueueJob_ok henq
    obtain ⟨hfresh, hrows⟩ := Table.insert?_eq_some.1 hins
    refine ⟨fun j hj hk => ?_, hfresh, hrows, ?_, ?_, ?_⟩
    · have hnull := hkeys j hj hk
      cases hnull
    all_goals
      rw [hrow]
      rfl

theorem SyncInv.enqueue (hs : SyncInv clock hole stale s) {row : PodcastSubscription} {job queue}
    (hrow : row ∈ s.db.subscriptions.rows) (hp : job.payload = .payload row.payload)
    (hkeys : ∀ j ∈ s.db.queue.rows, j.dedupeKey ≠ .some (podcastSyncDedupeKey row.id row.syncGeneration))
    (hrows : queue.rows = job :: s.db.queue.rows) (hpending : job.status = .pending) (hkind : job.kind = podcastSyncJobKind)
    (hkey : job.dedupeKey = .some (podcastSyncDedupeKey row.id row.syncGeneration)) :
    SyncInv clock hole stale (s.setQueue queue) := by
  have hq : (s.setQueue queue).db.queue.rows = job :: s.db.queue.rows := hrows
  have hheld : ∀ w e k, k ∈ (s.setQueue queue).db.queue.rows → Held w e k → k ∈ s.db.queue.rows := by
    intro w e k hk hh
    rw [hq] at hk
    rcases List.mem_cons.1 hk with rfl | hk
    · rw [hh.2.1] at hpending
      cases hpending
    · exact hk
  exact {
    named := by
      intro sub hsub hactive hne
      obtain ⟨k, hk, hnames, hkp, hlive⟩ := hs.named sub hsub hactive hne
      exact ⟨k, by rw [hq]; exact List.mem_cons_of_mem _ hk, hnames, hkp, hlive⟩
    joined := hs.joined
    unique := by
      intro j hj k hk hd
      rw [hq] at hj hk
      rcases List.mem_cons.1 hj with rfl | hj₀ <;> rcases List.mem_cons.1 hk with rfl | hk₀
      · rfl
      · exact absurd (hd.symm.trans hkey) (hkeys k hk₀)
      · exact absurd (hd.trans hkey) (hkeys j hj₀)
      · exact hs.unique j hj₀ k hk₀ hd
    aggregated := hs.aggregated
    jobs := by
      intro k hk
      rw [hq] at hk
      rcases List.mem_cons.1 hk with rfl | hk
      · refine ⟨hkind, row.payload, hp, hkey, (hs.subscriptions row hrow).1, (hs.subscriptions row hrow).2, ?_⟩
        intro sub hsub hid
        obtain rfl : sub = row := Table.eq_of_key hsub hrow hid
        exact le_refl _
      · exact hs.jobs k hk
    subscriptions := hs.subscriptions
    runs := hs.runs
    held := fun w e he k hk hh => hs.held w e he k (hheld w e k hk hh) hh
    ends := fun w e he k hk hh hl => hs.ends w e he k (hheld w e k hk hh) hh hl }

theorem promote_ok {q q' : Queue PodcastSyncJson} {now jobId kind payload dedupeKey priority promoted}
    (h : q.promoteUnclaimedJob now jobId kind payload dedupeKey priority = .ok (promoted, q')) :
    q' = q ∨ ∃ f hf, q' = q.updateWhere (fun j => j.id == jobId) f hf ∧ ∀ j : JobRow PodcastSyncJson,
      (f j).kind = j.kind ∧ (f j).payload = j.payload ∧ (f j).dedupeKey = j.dedupeKey ∧ (f j).status = j.status ∧
        (f j).claimedBy = j.claimedBy ∧ (f j).attempts = j.attempts ∧ (f j).leaseExpiresAt = j.leaseExpiresAt := by
  unfold Queue.promoteUnclaimedJob at h
  split at h
  · cases h
  · split at h
    · cases h
    · split at h
      · simp only [Except.ok.injEq, Prod.mk.injEq] at h
        exact .inl h.2.symm
      · split at h
        · cases h
        · simp only [Except.ok.injEq, Prod.mk.injEq] at h
          exact .inr ⟨_, _, h.2.symm, fun j => ⟨rfl, rfl, rfl, rfl, rfl, rfl, rfl⟩⟩

theorem SyncInv.promote (hs : SyncInv clock hole stale s) {now jobId kind payload dedupeKey priority promoted q'}
    (h : s.db.queue.promoteUnclaimedJob now jobId kind payload dedupeKey priority = .ok (promoted, q')) :
    SyncInv clock hole stale (s.setQueue q') := by
  rcases promote_ok h with rfl | ⟨f, hf, rfl, hsame⟩
  · exact hs
  · refine hs.setQueue hole (fun k hk => ?_) (fun _ h => h) fun sub _ _ _ hn => ?_
    · obtain ⟨j, hj, rfl⟩ := List.mem_map.1 hk
      refine ⟨j, hj, ?_⟩
      by_cases hid : (j.id == jobId) = true
      · obtain ⟨hk, hp, hd, hst, hc, ha, hl⟩ := hsame j
        rw [if_pos hid]
        refine ⟨(hf j).symm, hk.symm, hp.symm, hd.symm, fun hr => ⟨hst ▸ hr, hc.symm, ha.symm, fun hle => ?_⟩⟩
        rwa [Leased, hl] at hle
      · rw [if_neg hid]
        exact ⟨rfl, rfl, rfl, rfl, fun hr => ⟨hr, rfl, rfl, id⟩⟩
    · obtain ⟨job, hj, hnames, hp, hd, hsu⟩ := hn
      by_cases hid : (job.id == jobId) = true
      · obtain ⟨-, hpay, -, hst, -⟩ := hsame job
        refine ⟨f job, List.mem_map.2 ⟨job, hj, by simp only [hid, if_true]⟩, ?_, hpay.trans hp, hst ▸ hd, hst ▸ hsu⟩
        exact hnames.trans (congrArg Option.some (hf job).symm)
      · exact ⟨job, List.mem_map.2 ⟨job, hj, by simp only [hid, Bool.false_eq_true, if_false]⟩, hnames, hp, hd, hsu⟩

theorem SyncInv.renew (hs : SyncInv clock hole stale s) {jobId leaseSeconds guard row q'}
    (h : s.db.queue.updateJob jobId guard (Queue.renew clock leaseSeconds) = .some (row, q'))
    (hg : ∀ j : JobRow PodcastSyncJson, guard j = true → ∃ worker, j.ownedBy worker clock = true) :
    SyncInv clock hole stale (s.setQueue q') := by
  refine hs.setQueue hole (SameJobs.of_updateJob h fun j hgj => ?_) (fun _ h => h) fun sub _ _ _ hn => ?_
  · obtain ⟨worker, hown⟩ := hg j hgj
    obtain ⟨hr, -, hlease⟩ := JobRow.ownedBy_iff.1 hown
    exact ⟨rfl, rfl, rfl, fun _ => ⟨hr, rfl, rfl, fun _ => hlease⟩⟩
  · refine NamesLive.updateJob h hn fun hnames => ?_
    obtain ⟨j, hj, hid, -, hrow, -⟩ := Queue.mem_updateJob h
    obtain ⟨job, hjob, hnames', hp, hd, hsu⟩ := hn
    have heq : job = j := by
      refine Table.eq_of_key hjob hj ?_
      rw [hid]
      exact Option.some.inj (hnames'.symm.trans hnames)
    rw [hrow, ← heq]
    exact ⟨hp, hd, hsu⟩

theorem SyncInv.heartbeat (hs : SyncInv clock hole stale s) {jobId worker leaseSeconds row q'}
    (h : s.db.queue.heartbeatJob clock jobId worker leaseSeconds = .some (row, q')) : SyncInv clock hole stale (s.setQueue q') :=
  hs.renew h fun _ hg => ⟨worker, hg⟩

theorem SyncInv.lockAndRenew (hs : SyncInv clock hole stale s) {context leaseSeconds row q'}
    (h : s.db.queue.lockAndRenewRunningJobClaim clock context leaseSeconds = .some (row, q')) :
    SyncInv clock hole stale (s.setQueue q') :=
  hs.renew h fun _ hg => ⟨context.workerId, JobRow.ownedBy_of_attempt hg⟩

theorem SyncInv.pruneJobs (hs : SyncInv clock hole stale s) (now : Instant) (succeededAfterDays deadAfterDays limit : Int)
    (excludedDeadKinds : List String) (locked : List Uuid) :
    SyncInv clock hole stale (s.setQueue (s.db.queue.pruneTerminalJobs now succeededAfterDays deadAfterDays limit
      excludedDeadKinds locked).2) := by
  refine hs.setQueue hole (fun k hk => ?_) (fun _ h => h) fun sub _ _ _ hn => ?_
  · exact ⟨k, (Table.mem_deleteWhere.1 hk).1, rfl, rfl, rfl, rfl, fun hr => ⟨hr, rfl, rfl, id⟩⟩
  · obtain ⟨job, hj, hnames, hp, hd, hsu⟩ := hn
    refine ⟨job, Table.mem_deleteWhere.2 ⟨hj, ?_⟩, hnames, hp, hd, hsu⟩
    rw [Bool.eq_false_iff]
    intro hc
    rw [List.contains_iff_mem] at hc
    obtain ⟨k, hk, hid⟩ := List.mem_map.1 hc
    obtain ⟨hk, hprune⟩ := List.mem_filter.1 (List.mem_mergeSort.1 (List.mem_of_mem_take hk))
    obtain rfl : k = job := Table.eq_of_key hk hj hid
    simp only [Queue.prunable, Bool.and_eq_true, Bool.or_eq_true, beq_iff_eq] at hprune
    rcases hprune.1 with ⟨h, -⟩ | ⟨⟨h, -⟩, -⟩
    · exact hsu h
    · exact hd h

/-! ## Executions -/

theorem SyncInv.setWorker (hs : SyncInv clock hole stale s) (worker : String) {e' : Option SyncExecution}
    (h : ∀ e, e' = .some e → ∃ old, s.workers worker = .some old ∧ old.jobId = e.jobId ∧ old.payload = e.payload ∧
      old.attemptNo = e.attemptNo ∧ ∀ j ∈ s.db.queue.rows, Held worker old j → Leased clock j →
        ∀ row ∈ s.db.subscriptions.rows, row.syncStatus.active = true → row.syncJobId = .some j.id →
          e.stage.Ends e.attemptNo row) : SyncInv clock hole stale (s.setWorker worker e') := by
  have hne : ∀ w e, w ≠ worker → (s.setWorker worker e').workers w = .some e → s.workers w = .some e := by
    intro w e hw he
    simpa [SyncState.setWorker, Function.update_of_ne hw] using he
  have hself : ∀ e, (s.setWorker worker e').workers worker = .some e → e' = .some e := by
    intro e he
    simpa [SyncState.setWorker] using he
  exact {
    named := hs.named
    joined := hs.joined
    unique := hs.unique
    aggregated := hs.aggregated
    jobs := hs.jobs
    subscriptions := hs.subscriptions
    runs := hs.runs
    held := by
      intro w e he j hj hh
      by_cases hw : w = worker
      · subst hw
        obtain ⟨old, hold, hid, hp, ha, -⟩ := h e (hself e he)
        obtain ⟨hpj, haj, hpos⟩ := hs.held w old hold j hj ⟨hh.1.trans hid.symm, hh.2⟩
        exact ⟨hpj.trans hp, haj.trans ha, ha ▸ hpos⟩
      · exact hs.held w e (hne w e hw he) j hj hh
    ends := by
      intro w e he j hj hh hl
      by_cases hw : w = worker
      · subst hw
        obtain ⟨old, hold, hid, hp, ha, hends⟩ := h e (hself e he)
        exact hends j hj ⟨hh.1.trans hid.symm, hh.2⟩ hl
      · exact hs.ends w e (hne w e hw he) j hj hh hl }

theorem SyncInv.idle (hs : SyncInv clock hole stale s) (worker : String) : SyncInv clock hole stale (s.setWorker worker .none) :=
  hs.setWorker worker fun _ he => by cases he

theorem SyncInv.claimed (hs : SyncInv clock hole stale s) {worker : String} (hidle : s.workers worker = .none)
    {now leaseSeconds jobId guard result} (h : result = s.db.queue.updateJob jobId guard (Queue.claim now worker leaseSeconds))
    (hg : ∀ j ∈ s.db.queue.rows, j.id = jobId → guard j = true → j.due now = true ∨ j.reclaimable now = true) :
    SyncInv clock hole stale (s.claimed worker result) := by
  cases hr : result with
  | none => exact hs
  | some r =>
    obtain ⟨row, q'⟩ := r
    rw [hr] at h
    obtain ⟨j, hj, hid, hguard, hrow, hmem⟩ := Queue.mem_updateJob h.symm
    have hst : j.status = .pending ∨ j.status = .failed ∨ (j.status = .running ∧ j.attempts < j.maxAttempts) :=
      JobRow.claimable (hg j hj hid hguard)
    have hjlive : j.status ≠ .dead ∧ j.status ≠ .succeeded := by
      rcases hst with h | h | ⟨h, -⟩ <;> rw [h] <;> decide
    have hrowmem : row ∈ q'.rows := (hmem row).2 (.inl hrow)
    have hother : ∀ w e, w ≠ worker → ∀ k ∈ q'.rows, Held w e k → k ∈ s.db.queue.rows := by
      intro w e hw k hk hh
      rcases (hmem k).1 hk with rfl | ⟨hk, -⟩
      · have hc : Option.some worker = .some w := hh.2.2
        exact absurd (Option.some.inj hc).symm hw
      · exact hk
    have hne : ∀ w e, w ≠ worker → (s.claimed worker (.some (row, q'))).workers w = .some e → s.workers w = .some e := by
      intro w e hw he
      simpa [SyncState.claimed, SyncState.setWorker, SyncState.setQueue, Function.update_of_ne hw] using he
    have hself : ∀ e, (s.claimed worker (.some (row, q'))).workers worker = .some e →
        e = ⟨row.id, row.attempts, row.payload, .started⟩ := by
      intro e he
      simpa [SyncState.claimed, SyncState.setWorker, eq_comm] using he
    exact {
      named := by
        intro sub hsub hactive hhole
        refine NamesLive.updateJob h.symm (hs.named sub hsub hactive hhole) fun hnames => ?_
        obtain ⟨job, hjob, hnames', hp, -⟩ := hs.named sub hsub hactive hhole
        have heq : job = j := by
          refine Table.eq_of_key hjob hj ?_
          rw [hid]
          exact Option.some.inj (hnames'.symm.trans hnames)
        rw [hrow, ← heq]
        exact ⟨hp, by simp [Queue.claim], by simp [Queue.claim]⟩
      joined := hs.joined
      unique := by
        have hback : ∀ k ∈ q'.rows, ∃ k₀ ∈ s.db.queue.rows, k₀.id = k.id ∧ k₀.dedupeKey = k.dedupeKey := by
          intro k hk
          rcases (hmem k).1 hk with rfl | ⟨hk, -⟩
          · exact ⟨j, hj, rfl, rfl⟩
          · exact ⟨k, hk, rfl, rfl⟩
        intro k hk k' hk' hd
        obtain ⟨k₀, hk₀, hid₀, hd₀⟩ := hback k hk
        obtain ⟨k₁, hk₁, hid₁, hd₁⟩ := hback k' hk'
        have h01 : k₀ = k₁ := hs.unique k₀ hk₀ k₁ hk₁ (hd₀.trans (hd.trans hd₁.symm))
        exact Table.eq_of_key hk hk' (by rw [← hid₀, ← hid₁, h01])
      aggregated := hs.aggregated
      jobs := by
        intro k hk
        rcases (hmem k).1 hk with rfl | ⟨hk, -⟩
        · exact hs.jobs j hj
        · exact hs.jobs k hk
      subscriptions := hs.subscriptions
      runs := hs.runs
      held := by
        intro w e he k hk hh
        by_cases hw : w = worker
        · subst hw
          obtain rfl := hself e he
          obtain rfl : k = row := Table.eq_of_key hk hrowmem hh.1
          refine ⟨rfl, rfl, ?_⟩
          rw [hrow]
          exact Nat.succ_pos _
        · exact hs.held w e (hne w e hw he) k (hother w e hw k hk hh) hh
      ends := by
        intro w e he k hk hh hl
        by_cases hw : w = worker
        · subst hw
          obtain rfl := hself e he
          exact fun _ _ _ _ => trivial
        · exact hs.ends w e (hne w e hw he) k (hother w e hw k hk hh) hh hl }

end Facts

end Nexus.PodcastSync
