/-
Over whole runs of requests, reconciliations and attempts: revisions rise, only
the current one publishes, and what is published is its last snapshot.

`Inv` is what carries it. Live jobs hold pairwise different intents of
revisions already requested, so the worker that owns a row is the only one
that can prepare its revision: the last snapshot of a revision is the one its
owner holds.
-/
import Nexus.Media.ReindexRows

namespace Nexus.Reindex
open Relational Nexus.Jobs Transition ExceptFacts

variable {Block : Type}

/-! ## The invariant -/

/-- The statuses a publication leaves. -/
def ContentIndexStatus.published : ContentIndexStatus → Bool
  | .ready | .noText | .ocrRequired => true
  | .pending | .indexing | .failed => false

/-- The row is the one the attempt of this worker runs. -/
def Owns (worker : String) (attempt : Attempt Block) (job : JobRow ReindexJson) : Prop :=
  job.id = attempt.jobId ∧ job.status = .running ∧ job.claimedBy = .some worker

structure Inv (s : ReindexState Block) : Prop where
  coalesced : Coalesced s.db.queue
  requested : ∀ job ∈ s.db.queue.rows, ∀ mediaId revision, job.payload.mediaId = .some mediaId →
    job.payload.revision = .some revision → ∃ state, s.db.indexStates mediaId = .some state ∧ revision ≤ state.revision
  owned : ∀ worker attempt, s.workers worker = .some attempt → ∀ job ∈ s.db.queue.rows, Owns worker attempt job →
    job.payload = attempt.payload
  worked : ∀ worker attempt work, s.workers worker = .some attempt → attempt.stage = .prepared work →
    attempt.payload.mediaId = .some work.mediaId ∧ attempt.payload.revision = .some work.revision ∧
      work.revision ≤ s.db.revision work.mediaId
  prepared : ∀ worker attempt work, s.workers worker = .some attempt → attempt.stage = .prepared work →
    work.revision = s.db.revision work.mediaId → (∃ job ∈ s.db.queue.rows, Owns worker attempt job) →
      s.snapshots work.mediaId = .some (work.revision, work.blocks)
  settled : ∀ mediaId state, s.db.indexStates mediaId = .some state → state.status.published = true →
    s.snapshots mediaId = .some (state.revision, s.db.contentBlocks mediaId)

theorem Inv.init {s : ReindexState Block} (h : s.Initial) : Inv s := by
  obtain ⟨hstates, -, hqueue, hworkers, -⟩ := h
  have hrows : s.db.queue.rows = [] := by rw [hqueue]; rfl
  exact {
    coalesced := ⟨by simp [hrows], by simp [hrows], by simp [hrows]⟩
    requested := by simp [hrows]
    owned := by simp [hworkers]
    worked := by simp [hworkers]
    prepared := by simp [hworkers]
    settled := by simp [hstates] }

theorem Coalesced.follows {q q' : Queue ReindexJson} (hc : Coalesced q) (h : Follows q q') : Coalesced q' where
  intents k hk := by
    obtain ⟨j, hj, -, hkind, hpayload, -⟩ := h k hk
    obtain ⟨hK, m, r, reason, req, hp⟩ := hc.intents j hj
    exact ⟨hkind ▸ hK, m, r, reason, req, hpayload ▸ hp⟩
  unclaimed k hk hw := by
    obtain ⟨j, hj, -, -, -, -, -, hwait⟩ := h k hk
    rcases hwait hw with rfl | hn
    · exact hc.unclaimed k hj hw
    · exact hn
  alone k hk k' hk' hl hl' hm hr := by
    obtain ⟨j, hj, hid, -, hp, hlive, -⟩ := h k hk
    obtain ⟨j', hj', hid', -, hp', hlive', -⟩ := h k' hk'
    have hjj : j = j' := hc.alone j hj j' hj' (hlive hl) (hlive' hl') (by rw [hp, hp', hm]) (by rw [hp, hp', hr])
    exact Table.eq_of_key hk hk' (by rw [← hid, ← hid', hjj])

theorem Owns.follows {q q' : Queue ReindexJson} (h : Follows q q') {worker} {attempt : Attempt Block} {k}
    (hk : k ∈ q'.rows) (ho : Owns worker attempt k) : ∃ j ∈ q.rows, Owns worker attempt j ∧ j.payload = k.payload := by
  obtain ⟨j, hj, hid, -, hp, -, hrun, -⟩ := h k hk
  obtain ⟨hr, hc⟩ := hrun ho.2.1
  exact ⟨j, hj, ⟨hid.trans ho.1, hr, hc.trans ho.2.2⟩, hp⟩

theorem Inv.follows {s : ReindexState Block} (hs : Inv s) {q'} (h : Follows s.db.queue q') : Inv (s.setQueue q') where
  coalesced := hs.coalesced.follows h
  requested k hk mediaId revision hm hr := by
    obtain ⟨j, hj, -, -, hp, -⟩ := h k hk
    exact hs.requested j hj mediaId revision (by rw [hp, hm]) (by rw [hp, hr])
  owned worker attempt ha k hk ho := by
    obtain ⟨j, hj, hoj, hp⟩ := ho.follows h hk
    exact hp.symm.trans (hs.owned worker attempt ha j hj hoj)
  worked := hs.worked
  prepared worker attempt work ha hst hr hex := by
    obtain ⟨k, hk, ho⟩ := hex
    obtain ⟨j, hj, hoj, -⟩ := ho.follows h hk
    exact hs.prepared worker attempt work ha hst hr ⟨j, hj, hoj⟩
  settled := hs.settled

theorem Inv.setWorker {s : ReindexState Block} (hs : Inv s) (worker : String) {attempt : Option (Attempt Block)}
    (hpayload : ∀ a, attempt = .some a → ∃ b, s.workers worker = .some b ∧ b.jobId = a.jobId ∧ b.payload = a.payload)
    (hstage : ∀ a work, attempt = .some a → a.stage ≠ .prepared work) : Inv (s.setWorker worker attempt) := by
  have hne : ∀ w a work, (s.setWorker worker attempt).workers w = .some a → a.stage = .prepared work →
      s.workers w = .some a := by
    intro w a work ha hst
    by_cases hw : w = worker
    · subst hw
      simp only [ReindexState.setWorker, Function.update_self] at ha
      exact absurd hst (hstage a work ha)
    · simpa [ReindexState.setWorker, Function.update_of_ne hw] using ha
  exact {
    coalesced := hs.coalesced
    requested := hs.requested
    owned := by
      intro w a ha job hj ho
      by_cases hw : w = worker
      · subst hw
        simp only [ReindexState.setWorker, Function.update_self] at ha
        obtain ⟨b, hb, hid, hp⟩ := hpayload a ha
        exact (hs.owned w b hb job hj ⟨ho.1.trans hid.symm, ho.2⟩).trans hp
      · exact hs.owned w a (by simpa [ReindexState.setWorker, Function.update_of_ne hw] using ha) job hj ho
    worked := fun w a work ha hst => hs.worked w a work (hne w a work ha hst) hst
    prepared := fun w a work ha hst => hs.prepared w a work (hne w a work ha hst) hst
    settled := hs.settled }

theorem Inv.afterStatement {s : ReindexState Block} (hs : Inv s) {result}
    (h : ∀ row q', result = .some (row, q') → Follows s.db.queue q') : Inv (s.afterStatement result) := by
  unfold ReindexState.afterStatement
  split
  · exact hs
  · exact hs.follows (h _ _ rfl)

/-! ## Claims -/

/-- A claim takes a waiting or a running row for a worker that had none. -/
def Claims (worker : String) (q : Queue ReindexJson) (row : JobRow ReindexJson) (q' : Queue ReindexJson) : Prop :=
  ∃ j ∈ q.rows, (j.status = .pending ∨ j.status = .failed ∨ j.status = .running) ∧ row.id = j.id ∧
    row.kind = j.kind ∧ row.payload = j.payload ∧ row.status = .running ∧ row.claimedBy = .some worker ∧
    ∀ k, k ∈ q'.rows ↔ k = row ∨ (k ∈ q.rows ∧ k.id ≠ j.id)

theorem claims_of_updateJob {q q' : Queue ReindexJson} {now worker leaseSeconds jobId guard row}
    (h : q.updateJob jobId guard (Queue.claim now worker leaseSeconds) = .some (row, q'))
    (hg : ∀ j ∈ q.rows, j.id = jobId → guard j = true → j.due now = true ∨ j.reclaimable now = true) :
    Claims worker q row q' := by
  obtain ⟨j, hj, hid, hguard, hrow, hmem⟩ := Queue.mem_updateJob h
  have hst : j.status = .pending ∨ j.status = .failed ∨ j.status = .running := by
    rcases JobRow.claimable (hg j hj hid hguard) with h | h | ⟨h, -⟩
    · exact .inl h
    · exact .inr (.inl h)
    · exact .inr (.inr h)
  rw [← hrow, ← hid] at hmem
  exact ⟨j, hj, hst, by rw [hrow]; rfl, by rw [hrow]; rfl, by rw [hrow]; rfl, by rw [hrow]; rfl, by rw [hrow]; rfl, hmem⟩

theorem claims_claimNext {q q' : Queue ReindexJson} {now worker leaseSeconds allowedKinds locked row}
    (h : q.claimNextJob now worker leaseSeconds allowedKinds locked = .some (row, q')) : Claims worker q row q' := by
  unfold Queue.claimNextJob at h
  split at h
  · cases h
  · split at h
    · cases h
    · rename_i j hc
      obtain ⟨hj, hready⟩ := Queue.candidate_spec hc
      refine claims_of_updateJob h fun k hk hid _ => ?_
      rw [Table.eq_of_key hk hj hid]
      exact hready

theorem claims_claimExact {q q' : Queue ReindexJson} {now jobId worker leaseSeconds allowedKinds row}
    (h : q.claimJob now jobId worker leaseSeconds allowedKinds = .some (row, q')) : Claims worker q row q' := by
  unfold Queue.claimJob at h
  split at h
  · cases h
  · refine claims_of_updateJob h fun k _ _ hg => ?_
    simpa using (Bool.and_eq_true_iff.1 hg).2

theorem Inv.claimed {s : ReindexState Block} (hs : Inv s) {worker : String} (hidle : s.workers worker = .none)
    {result} (h : ∀ row q', result = .some (row, q') → Claims worker s.db.queue row q') : Inv (s.claimed worker result) := by
  cases result with
  | none => exact hs
  | some r =>
    obtain ⟨row, q'⟩ := r
    obtain ⟨j, hj, hst, hid, hkind, hpayload, hrun, hclaim, hmem⟩ := h row q' rfl
    have hjlive : j.status ≠ .succeeded := by rcases hst with h | h | h <;> rw [h] <;> decide
    -- every row left is the claimed one, or one from before of another id
    have hback : ∀ k ∈ q'.rows, ∃ k₀ ∈ s.db.queue.rows, k₀.id = k.id ∧ k₀.kind = k.kind ∧ k₀.payload = k.payload ∧
        (k.status ≠ .succeeded → k₀.status ≠ .succeeded) ∧ (k = row ∨ k = k₀) := by
      intro k hk
      rcases (hmem k).1 hk with rfl | ⟨hk, -⟩
      · exact ⟨j, hj, hid.symm, hkind.symm, hpayload.symm, fun _ => hjlive, .inl rfl⟩
      · exact ⟨k, hk, rfl, rfl, rfl, id, .inr rfl⟩
    have hother : ∀ w a, w ≠ worker → s.workers w = .some a → ∀ k ∈ q'.rows, Owns w a k → k ∈ s.db.queue.rows := by
      intro w a hw ha k hk ho
      rcases (hmem k).1 hk with rfl | ⟨hk, -⟩
      · have hwo : Option.some worker = .some w := hclaim.symm.trans ho.2.2
        exact absurd (Option.some.inj hwo).symm hw
      · exact hk
    have hne : ∀ w a, w ≠ worker → (s.claimed worker (.some (row, q'))).workers w = .some a → s.workers w = .some a := by
      intro w a hw ha
      simpa [ReindexState.claimed, ReindexState.setWorker, Function.update_of_ne hw, ReindexState.setQueue] using ha
    have hself : ∀ a, (s.claimed worker (.some (row, q'))).workers worker = .some a →
        a = ⟨row.id, row.attempts, row.payload, .claimed⟩ := by
      intro a ha
      simpa [ReindexState.claimed, ReindexState.setWorker, eq_comm] using ha
    exact {
      coalesced := by
        refine ⟨fun k hk => ?_, fun k hk hw => ?_, fun k hk k' hk' hl hl' hm hr => ?_⟩
        · obtain ⟨k₀, hk₀, -, hK, hP, -⟩ := hback k hk
          obtain ⟨hKind, m, r, reason, req, hp⟩ := hs.coalesced.intents k₀ hk₀
          exact ⟨hK ▸ hKind, m, r, reason, req, hP ▸ hp⟩
        · rcases (hmem k).1 hk with rfl | ⟨hk, -⟩
          · simp [JobRow.waiting, hrun] at hw
          · exact hs.coalesced.unclaimed k hk hw
        · obtain ⟨k₀, hk₀, hid₀, -, hp₀, hl₀, -⟩ := hback k hk
          obtain ⟨k₁, hk₁, hid₁, -, hp₁, hl₁, -⟩ := hback k' hk'
          have h01 : k₀ = k₁ := hs.coalesced.alone k₀ hk₀ k₁ hk₁ (hl₀ hl) (hl₁ hl') (by rw [hp₀, hp₁, hm])
            (by rw [hp₀, hp₁, hr])
          exact Table.eq_of_key hk hk' (by rw [← hid₀, ← hid₁, h01])
      requested := by
        intro k hk mediaId revision hm hr
        obtain ⟨k₀, hk₀, -, -, hp, -⟩ := hback k hk
        exact hs.requested k₀ hk₀ mediaId revision (by rw [hp, hm]) (by rw [hp, hr])
      owned := by
        intro w a ha k hk ho
        by_cases hw : w = worker
        · subst hw
          obtain rfl := hself a ha
          have hkr : k = row := Table.eq_of_key hk ((hmem row).2 (.inl rfl)) ho.1
          rw [hkr]
        · have ha' := hne w a hw ha
          exact hs.owned w a ha' k (hother w a hw ha' k hk ho) ho
      worked := by
        intro w a work ha hstage
        by_cases hw : w = worker
        · subst hw
          obtain rfl := hself a ha
          cases hstage
        · exact hs.worked w a work (hne w a hw ha) hstage
      prepared := by
        rintro w a work ha hstage hr ⟨k, hk, ho⟩
        by_cases hw : w = worker
        · subst hw
          obtain rfl := hself a ha
          cases hstage
        · have ha' := hne w a hw ha
          exact hs.prepared w a work ha' hstage hr ⟨k, hother w a hw ha' k hk ho, ho⟩
      settled := hs.settled }

/-! ## Requests and reconciliation -/

theorem Inv.revision_le {s : ReindexState Block} (hs : Inv s) {job} (hj : job ∈ s.db.queue.rows) {mediaId revision}
    (hm : job.payload.mediaId = .some mediaId) (hr : job.payload.revision = .some revision) :
    revision ≤ s.db.revision mediaId := by
  obtain ⟨state, hstate, hle⟩ := hs.requested job hj mediaId revision hm hr
  simp only [IndexDb.revision, hstate, Option.elim_some]
  exact hle

theorem Requested.revision_eq {db db' : IndexDb Block} {mediaId reason requestId selected}
    (h : Requested db db' mediaId reason requestId selected) (m : Uuid) :
    db'.revision m = if m = mediaId then db.revision mediaId + 1 else db.revision m := by
  simp only [IndexDb.revision, h.states, Function.update_apply]
  split <;> simp

theorem Requested.live {db db' : IndexDb Block} {mediaId reason requestId selected}
    (h : Requested db db' mediaId reason requestId selected) {k} (hk : k ∈ db'.queue.rows) (hlive : k.status ≠ .succeeded) :
    k = selected ∨ k ∈ db.queue.rows := by
  rcases h.rest k hk with rfl | ⟨j, hj, -, -, -, hs | ⟨rfl, -⟩⟩
  · exact .inl rfl
  · exact absurd hs hlive
  · exact .inr hj

theorem Inv.request {s : ReindexState Block} (hs : Inv s) {db' mediaId reason requestId selected}
    (h : Requested s.db db' mediaId reason requestId selected) : Inv { s with db := db' } := by
  have hsel : ∀ mediaId', selected.payload.mediaId = .some mediaId' → mediaId' = mediaId := by
    intro mediaId' hm
    rw [h.payload] at hm
    exact (Option.some.inj hm).symm
  have hselRevision : selected.payload.revision = .some (s.db.revision mediaId + 1) := by rw [h.payload]; rfl
  have hold : ∀ k ∈ s.db.queue.rows, k.payload.mediaId = selected.payload.mediaId →
      k.payload.revision ≠ selected.payload.revision := by
    intro k hk hm hr
    have hle := hs.revision_le hk (hm.trans (by rw [h.payload]; rfl)) (hr.trans hselRevision)
    omega
  have hrunning : ∀ w (a : Attempt Block) k, k ∈ db'.queue.rows → Owns w a k → k ∈ s.db.queue.rows := by
    intro w a k hk ho
    rcases h.live hk (by rw [ho.2.1]; decide) with rfl | hk
    · have hp := h.status
      rw [ho.2.1] at hp
      cases hp
    · exact hk
  exact {
    coalesced := by
      refine ⟨h.holdsIntent hs.coalesced.intents, fun k hk hw => ?_, fun k hk k' hk' hl hl' hm hr => ?_⟩
      · rcases h.live hk (by intro hss; simp [JobRow.waiting, hss] at hw) with rfl | hk
        · exact h.unclaimed
        · exact hs.coalesced.unclaimed k hk hw
      · rcases h.live hk hl with rfl | hk₀ <;> rcases h.live hk' hl' with rfl | hk₀'
        · rfl
        · exact absurd hr.symm (hold k' hk₀' hm.symm)
        · exact absurd hr (hold k hk₀ hm)
        · exact hs.coalesced.alone k hk₀ k' hk₀' hl hl' hm hr
    requested := by
      intro k hk m revision hm hr
      rcases h.rest k hk with rfl | ⟨j, hj, -, -, hp, -⟩
      · obtain rfl := hsel m hm
        refine ⟨_, by rw [h.states, Function.update_self], ?_⟩
        rw [hselRevision] at hr
        exact (Option.some.inj hr).ge
      · obtain ⟨state, hstate, hle⟩ := hs.requested j hj m revision (by rw [hp, hm]) (by rw [hp, hr])
        by_cases hmm : m = mediaId
        · subst hmm
          have hrev : s.db.revision m = state.revision := by simp [IndexDb.revision, hstate]
          exact ⟨_, by rw [h.states, Function.update_self], by simp only [hrev]; omega⟩
        · exact ⟨state, by rw [h.states, Function.update_of_ne hmm, hstate], hle⟩
    owned := fun w a ha k hk ho => hs.owned w a ha k (hrunning w a k hk ho) ho
    worked := by
      intro w a work ha hst
      obtain ⟨hm, hr, hle⟩ := hs.worked w a work ha hst
      refine ⟨hm, hr, ?_⟩
      simp only [h.revision_eq]
      split
      · rename_i hmm
        rw [hmm] at hle
        omega
      · exact hle
    prepared := by
      rintro w a work ha hst hr ⟨k, hk, ho⟩
      obtain ⟨-, -, hle⟩ := hs.worked w a work ha hst
      simp only [h.revision_eq] at hr
      split at hr
      · rename_i hmm
        rw [hmm] at hle
        omega
      · exact hs.prepared w a work ha hst hr ⟨k, hrunning w a k hk ho, ho⟩
    settled := by
      intro m state hstate hpub
      simp only [h.states, Function.update_apply] at hstate
      split at hstate
      · obtain rfl := Option.some.inj hstate
        cases hpub
      · rw [show db'.contentBlocks m = s.db.contentBlocks m by rw [h.contentBlocks]]
        exact hs.settled m state hstate hpub }

theorem Inv.enqueue {s : ReindexState Block} (hs : Inv s) {mediaId state} {row : JobRow ReindexJson} {queue : Queue ReindexJson}
    (hstate : s.db.indexStates mediaId = .some state) (hrows : queue.rows = row :: s.db.queue.rows)
    (hpending : row.status = .pending) (hunclaimed : row.claimedBy = .none) (hintent : HoldsIntent row)
    (hm : row.payload.mediaId = .some mediaId) (hr : row.payload.revision = .some state.revision)
    (hlive : ¬ HasLive s.db.queue mediaId state.revision) : Inv (s.setQueue queue) := by
  have hrunning : ∀ w (a : Attempt Block) k, k ∈ queue.rows → Owns w a k → k ∈ s.db.queue.rows := by
    intro w a k hk ho
    rw [hrows] at hk
    rcases List.mem_cons.1 hk with rfl | hk
    · rw [ho.2.1] at hpending
      cases hpending
    · exact hk
  have halone : ∀ k ∈ s.db.queue.rows, k.status ≠ .succeeded → k.payload.mediaId = row.payload.mediaId →
      k.payload.revision ≠ row.payload.revision := fun k hk hl hkm hkr =>
    hlive ⟨k, hk, hkm.trans hm, hkr.trans hr, hl⟩
  exact {
    coalesced := by
      refine ⟨fun k hk => ?_, fun k hk hw => ?_, fun k hk k' hk' hl hl' hkm hkr => ?_⟩
      · rw [show (s.setQueue queue).db.queue.rows = _ from hrows] at hk
        rcases List.mem_cons.1 hk with rfl | hk
        · exact hintent
        · exact hs.coalesced.intents k hk
      · rw [show (s.setQueue queue).db.queue.rows = _ from hrows] at hk
        rcases List.mem_cons.1 hk with rfl | hk
        · exact hunclaimed
        · exact hs.coalesced.unclaimed k hk hw
      · rw [show (s.setQueue queue).db.queue.rows = _ from hrows] at hk hk'
        rcases List.mem_cons.1 hk with rfl | hk₀ <;> rcases List.mem_cons.1 hk' with rfl | hk₀'
        · rfl
        · exact absurd hkr.symm (halone k' hk₀' hl' hkm.symm)
        · exact absurd hkr (halone k hk₀ hl hkm)
        · exact hs.coalesced.alone k hk₀ k' hk₀' hl hl' hkm hkr
    requested := by
      intro k hk m revision hkm hkr
      rw [show (s.setQueue queue).db.queue.rows = _ from hrows] at hk
      rcases List.mem_cons.1 hk with rfl | hk
      · obtain rfl : mediaId = m := Option.some.inj (hm.symm.trans hkm)
        exact ⟨state, hstate, (Option.some.inj (hr.symm.trans hkr)).ge⟩
      · exact hs.requested k hk m revision hkm hkr
    owned := fun w a ha k hk ho => hs.owned w a ha k (hrunning w a k hk ho) ho
    worked := hs.worked
    prepared := fun w a work ha hst hrev ⟨k, hk, ho⟩ => hs.prepared w a work ha hst hrev ⟨k, hrunning w a k hk ho, ho⟩
    settled := hs.settled }

/-! ## State rows -/

/-- A state row rewritten under its revision, with a publication backed by the
last snapshot. -/
theorem Inv.restate {s t : ReindexState Block} (hs : Inv s) (mediaId : Uuid) (state : ContentIndexState)
    (hrev : state.revision = s.db.revision mediaId) (hqueue : t.db.queue = s.db.queue) (hworkers : t.workers = s.workers)
    (hsnapshots : t.snapshots = s.snapshots)
    (hstates : t.db.indexStates = Function.update s.db.indexStates mediaId (.some state))
    (hblocks : ∀ m, m ≠ mediaId → t.db.contentBlocks m = s.db.contentBlocks m)
    (hpublished : state.status.published = true →
      s.snapshots mediaId = .some (state.revision, t.db.contentBlocks mediaId)) : Inv t := by
  have hrevision : ∀ m, t.db.revision m = s.db.revision m := by
    intro m
    by_cases hm : m = mediaId
    · subst hm
      simp [IndexDb.revision, hstates, hrev]
    · simp [IndexDb.revision, hstates, Function.update_of_ne hm]
  exact {
    coalesced := hqueue ▸ hs.coalesced
    requested := by
      intro k hk m revision hm hr
      rw [hqueue] at hk
      obtain ⟨old, hold, hle⟩ := hs.requested k hk m revision hm hr
      by_cases hmm : m = mediaId
      · subst hmm
        have hrm : s.db.revision m = old.revision := by simp [IndexDb.revision, hold]
        exact ⟨state, by rw [hstates, Function.update_self], by omega⟩
      · exact ⟨old, by rw [hstates, Function.update_of_ne hmm, hold], hle⟩
    owned := by
      rw [hqueue, hworkers]
      exact hs.owned
    worked := by
      intro w a work ha hst
      rw [hworkers] at ha
      rw [hrevision]
      exact hs.worked w a work ha hst
    prepared := by
      intro w a work ha hst hr hex
      rw [hworkers] at ha
      rw [hrevision] at hr
      rw [hqueue] at hex
      rw [hsnapshots]
      exact hs.prepared w a work ha hst hr hex
    settled := by
      intro m state' hstate' hpub
      rw [hsnapshots]
      by_cases hmm : m = mediaId
      · subst hmm
        rw [hstates, Function.update_self] at hstate'
        obtain rfl := Option.some.inj hstate'
        exact hpublished hpub
      · rw [hstates, Function.update_of_ne hmm] at hstate'
        rw [hblocks m hmm]
        exact hs.settled m state' hstate' hpub }

theorem Inv.snapshot {s : ReindexState Block} (hs : Inv s) (work : MediaContentReindexWork Block) {worker attempt job}
    (ha : s.workers worker = .some attempt) (hj : job ∈ s.db.queue.rows) (ho : Owns worker attempt job)
    (hm : job.payload.mediaId = .some work.mediaId) (hr : job.payload.revision = .some work.revision)
    (hrev : work.revision = s.db.revision work.mediaId)
    (hstatus : ∀ state, s.db.indexStates work.mediaId = .some state → state.status.published = false) :
    Inv { s with
      snapshots := Function.update s.snapshots work.mediaId (.some (work.revision, work.blocks))
      workers := Function.update s.workers worker (.some { attempt with stage := .prepared work }) } := by
  have hpayload := hs.owned worker attempt ha job hj ho
  refine
    { coalesced := hs.coalesced
      requested := hs.requested
      owned := fun w a ha' k hk hok => ?_
      worked := fun w a work' ha' hst => ?_
      prepared := fun w a work' ha' hst hr' hex => ?_
      settled := fun m state hstate hpub => ?_ }
  · by_cases hw : w = worker
    · subst hw
      simp only [Function.update_self, Option.some.injEq] at ha'
      subst ha'
      exact hs.owned w attempt ha k hk hok
    · simp only [Function.update_of_ne hw] at ha'
      exact hs.owned w a ha' k hk hok
  · by_cases hw : w = worker
    · subst hw
      simp only [Function.update_self, Option.some.injEq] at ha'
      subst ha'
      obtain rfl := Stage.prepared.inj hst
      exact ⟨hpayload ▸ hm, hpayload ▸ hr, hrev.le⟩
    · simp only [Function.update_of_ne hw] at ha'
      exact hs.worked w a work' ha' hst
  · by_cases hw : w = worker
    · subst hw
      simp only [Function.update_self, Option.some.injEq] at ha'
      subst ha'
      obtain rfl := Stage.prepared.inj hst
      exact Function.update_self _ _ _
    · simp only [Function.update_of_ne hw] at ha'
      obtain ⟨k, hk, hok⟩ := hex
      obtain ⟨hm', hrv', -⟩ := hs.worked w a work' ha' hst
      have hkp := hs.owned w a ha' k hk hok
      by_cases hmm : work'.mediaId = work.mediaId
      · -- both own the one live row of the current revision
        have hkj : k = job := hs.coalesced.alone k hk job hj (by rw [hok.2.1]; decide) (by rw [ho.2.1]; decide)
          (by rw [hkp, hm', hm, hmm])
          (by rw [hkp, hrv', hr, hr', hrev, show IndexDb.revision s.db work'.mediaId = s.db.revision work.mediaId by rw [hmm]])
        have hclaim : Option.some w = .some worker := by rw [← hok.2.2, ← ho.2.2, hkj]
        exact absurd (Option.some.inj hclaim) hw
      · exact (Function.update_of_ne hmm _ _).trans (hs.prepared w a work' ha' hst hr' ⟨k, hk, hok⟩)
  · by_cases hmm : m = work.mediaId
    · subst hmm
      rw [hstatus state hstate] at hpub
      cases hpub
    · exact (Function.update_of_ne hmm _ _).trans (hs.settled m state hstate hpub)

/-! ## The two transactions of an attempt -/

theorem filter_revision_eq_some {state? : Option ContentIndexState} {revision state}
    (h : state?.filter (·.revision == revision) = .some state) : state? = .some state ∧ state.revision = revision := by
  rw [Option.filter_eq_some_iff] at h
  exact ⟨h.1, by simpa using h.2⟩

theorem prepare_none {db db' : IndexDb Block} {now mediaId revision reason context}
    (h : prepareMediaContentReindex db now mediaId revision reason context = .ok (.none, db')) : db' = db := by
  unfold prepareMediaContentReindex at h
  split at h
  · cases h; rfl
  · split at h
    · cases h
    · split at h
      · cases h; rfl
      · split at h
        · cases h; rfl
        · split at h
          · cases h
          · split at h <;> cases h

theorem prepare_some {db db' : IndexDb Block} {now mediaId revision reason context work}
    (h : prepareMediaContentReindex db now mediaId revision reason context = .ok (.some work, db')) :
    ∃ media row queue, db.media mediaId = .some media ∧ db.revision mediaId = revision ∧
      db.queue.lockAndRenewRunningJobClaim now context reindexLeaseSeconds = .some (row, queue) ∧
      row.payload.mediaId = .some mediaId ∧ row.payload.revision = .some revision ∧
      work = ⟨mediaId, revision, media.kind, reason, media.blocks⟩ ∧
      db' = IndexDb.setState { db with queue := queue } mediaId ⟨.indexing, reason.value, revision⟩ := by
  unfold prepareMediaContentReindex at h
  split at h
  · cases h
  · rename_i media hmedia
    split at h
    · cases h
    · split at h
      · cases h
      · rename_i state hstate
        obtain ⟨hstate, hrev⟩ := filter_revision_eq_some hstate
        split at h
        · cases h
        · rename_i row queue hrenew
          split at h
          · cases h
          · rename_i hnames
            split at h
            · cases h
            · cases h
              simp only [namesPayload, Bool.not_eq_true', Bool.not_eq_false, Bool.and_eq_true, beq_iff_eq] at hnames
              refine ⟨media, row, queue, hmedia, by simp [IndexDb.revision, hstate, hrev], hrenew, hnames.1.2, hnames.2,
                rfl, by rw [hrev]⟩

theorem publish_none {db db' : IndexDb Block} {now work plan context}
    (h : publishMediaContentReindex db now work plan context = .ok (.none, db')) : db' = db := by
  unfold publishMediaContentReindex at h
  split at h
  · cases h; rfl
  · split at h
    · cases h
    · split at h
      · cases h; rfl
      · split at h
        · cases h; rfl
        · split at h
          · cases h
          · split at h
            · cases h
            · dsimp only at h
              split at h <;> cases h

/-- A publication replaces the blocks and the status, and only under the
current revision, by the worker that owns its row. -/
theorem publish_some {db db' : IndexDb Block} {now work plan context result}
    (h : publishMediaContentReindex db now work plan context = .ok (.some result, db')) :
    ∃ row queue status reason, db.revision work.mediaId = work.revision ∧ plan.ownerId = work.mediaId ∧
      db.queue.lockAndRenewRunningJobClaim now context reindexLeaseSeconds = .some (row, queue) ∧
      db' = { db with
        queue := queue
        contentBlocks := Function.update db.contentBlocks work.mediaId plan.blocks
        indexStates := Function.update db.indexStates work.mediaId (.some ⟨status, reason, work.revision⟩) } := by
  unfold publishMediaContentReindex at h
  split at h
  · cases h
  · split at h
    · cases h
    · split at h
      · cases h
      · rename_i state hstate
        obtain ⟨hstate, hrev⟩ := filter_revision_eq_some hstate
        split at h
        · cases h
        · rename_i row queue hrenew
          split at h
          · cases h
          · split at h
            · cases h
            · rename_i hplan
              simp only [not_or, not_not] at hplan
              have hrevision : db.revision work.mediaId = work.revision := by simp [IndexDb.revision, hstate, hrev]
              dsimp only [publishContentIndex] at h
              by_cases hchunks : plan.chunks = 0
              · rw [if_pos hchunks] at h
                split at h
                · cases h
                  exact ⟨row, queue, .ocrRequired, "ocr_required", hrevision, hplan.1, hrenew,
                    by simp [IndexDb.setIndexState, IndexDb.setState, hplan.1, hstate, hrev]⟩
                · cases h
                  exact ⟨row, queue, .noText, "no_text", hrevision, hplan.1, hrenew,
                    by simp [IndexDb.setIndexState, IndexDb.setState, hplan.1, hstate, hrev]⟩
              · rw [if_neg hchunks, if_neg fun hpdf => hchunks hpdf.2] at h
                cases h
                exact ⟨row, queue, .ready, work.reason.value, hrevision, hplan.1, hrenew,
                  by simp [IndexDb.setIndexState, IndexDb.setState, hplan.1, hstate, hrev]⟩

theorem Inv.publishes {s : ReindexState Block} (hs : Inv s) {worker attempt work chunks now result db'}
    (ha : s.workers worker = .some attempt) (hst : attempt.stage = .prepared work)
    (h : publishMediaContentReindex s.db now work (planContentIndex work chunks) (attempt.context worker) =
      .ok (.some result, db')) :
    work.revision = s.db.revision work.mediaId ∧ s.snapshots work.mediaId = .some (work.revision, work.blocks) ∧
      db'.contentBlocks = Function.update s.db.contentBlocks work.mediaId work.blocks ∧ Inv { s with db := db' } := by
  obtain ⟨row, queue, status, reason, hrev, -, hrenew, rfl⟩ := publish_some h
  obtain ⟨job, hj, hid, hrun, hclaim, -⟩ := owned_of_lockAndRenew hrenew
  have hsnap := hs.prepared worker attempt work ha hst hrev.symm ⟨job, hj, hid, hrun, hclaim⟩
  refine ⟨hrev.symm, hsnap, rfl, ?_⟩
  refine (hs.follows (follows_lockAndRenew hrenew)).restate work.mediaId ⟨status, reason, work.revision⟩ hrev.symm
    rfl rfl rfl rfl (fun m hm => Function.update_of_ne hm _ _) fun _ => ?_
  refine hsnap.trans (congrArg (fun blocks => Option.some (work.revision, blocks)) ?_)
  exact (Function.update_self work.mediaId work.blocks s.db.contentBlocks).symm

theorem parsePayload_eq_some {payload : ReindexJson} {mediaId revision reason}
    (h : parsePayload payload = .some (mediaId, revision, reason)) :
    payload.mediaId = .some mediaId ∧ payload.revision = .some revision := by
  unfold parsePayload at h
  split at h
  · simp only [Option.some.injEq, Prod.mk.injEq] at h
    obtain ⟨rfl, rfl, rfl⟩ := h
    exact ⟨rfl, rfl⟩
  · cases h

theorem oneRow_eq_ok {α : Type} {r : Option α} {a : α} (h : oneRow r = .ok a) : r = .some a := by
  cases r with
  | none => cases h
  | some b => cases h; rfl

theorem Inv.prepare {s t : ReindexState Block} (hs : Inv s) {worker attempt now}
    (ha : s.workers worker = .some attempt) (h : s.prepare now worker attempt = .ok t) :
    Inv t ∧ t.db.contentBlocks = s.db.contentBlocks ∧ ∀ m, t.db.revision m = s.db.revision m := by
  unfold ReindexState.prepare at h
  obtain ⟨⟨mediaId, revision, reason⟩, hparse, h⟩ := bind_eq_ok.1 h
  obtain ⟨⟨work?, db⟩, hprep, h⟩ := bind_eq_ok.1 h
  obtain ⟨hpm, hpr⟩ := parsePayload_eq_some (oneRow_eq_ok hparse)
  cases work? with
  | none =>
    obtain rfl := prepare_none hprep
    cases h
    refine ⟨hs.setWorker worker (fun a h => ?_) (fun a work h hst => ?_), rfl, fun _ => rfl⟩
    · cases h
      exact ⟨attempt, ha, rfl, rfl⟩
    · cases h
      cases hst
  | some work =>
    obtain ⟨media, row, queue, -, hrev, hrenew, hm, hr, rfl, rfl⟩ := prepare_some hprep
    cases h
    obtain ⟨job, hj, hid, hrun, hclaim, -⟩ := owned_of_lockAndRenew hrenew
    obtain ⟨k, hk, hkid, -, hrow, hmem⟩ := Queue.mem_updateJob hrenew
    have hkrow : row ∈ queue.rows := (hmem row).2 (.inl hrow)
    have hown : Owns worker attempt row := by
      obtain rfl : k = job := Table.eq_of_key hk hj (hkid.trans hid.symm)
      rw [hrow]
      exact ⟨hid, hrun, hclaim⟩
    have hfirst : Inv { s.setQueue queue with
        db := IndexDb.setState { s.db with queue := queue } mediaId ⟨.indexing, reason.value, revision⟩ } :=
      (hs.follows (follows_lockAndRenew hrenew)).restate mediaId ⟨.indexing, reason.value, revision⟩ hrev.symm
        rfl rfl rfl rfl (fun _ _ => rfl) (fun hpub => by cases hpub)
    have hrevision : ∀ m, IndexDb.revision (IndexDb.setState { s.db with queue := queue } mediaId
        ⟨.indexing, reason.value, revision⟩) m = s.db.revision m := by
      intro m
      by_cases hmm : m = mediaId
      · subst hmm
        simp [IndexDb.revision, IndexDb.setState, ← hrev]
      · simp [IndexDb.revision, IndexDb.setState, Function.update_of_ne hmm]
    refine ⟨hfirst.snapshot ⟨mediaId, revision, media.kind, reason, media.blocks⟩ ha hkrow hown hm hr ?_ ?_, rfl,
      hrevision⟩
    · exact hrev.symm.trans (hrevision mediaId).symm
    · intro state hstate
      simp only [IndexDb.setState, Function.update_self, Option.some.injEq] at hstate
      rw [← hstate]
      rfl

/-! ## Runs -/

def Publishes (s : ReindexState Block) (ev : ReindexEvent Block) (work : MediaContentReindexWork Block) : Prop :=
  ∃ now worker chunks attempt result db', ev = .publish now worker chunks ∧ s.workers worker = .some attempt ∧
    attempt.stage = .prepared work ∧
    publishMediaContentReindex s.db now work (planContentIndex work chunks) (attempt.context worker) =
      .ok (.some result, db')

/-- What each step keeps of one medium: the invariant, the revision, and the
blocks unless they are replaced. -/
structure Quiet (s t : ReindexState Block) : Prop where
  inv : Inv t
  revision : ∀ m, t.db.revision m = s.db.revision m
  contentBlocks : t.db.contentBlocks = s.db.contentBlocks

theorem Quiet.refl {s : ReindexState Block} (hs : Inv s) : Quiet s s := ⟨hs, fun _ => rfl, rfl⟩

theorem Quiet.afterStatement {s : ReindexState Block} (hs : Inv s) {result}
    (h : ∀ row q', result = .some (row, q') → Follows s.db.queue q') : Quiet s (s.afterStatement result) := by
  refine ⟨hs.afterStatement h, fun m => ?_, ?_⟩ <;>
  · unfold ReindexState.afterStatement
    split <;> rfl

theorem Quiet.claimed {s : ReindexState Block} (hs : Inv s) {worker : String} (hidle : s.workers worker = .none) {result}
    (h : ∀ row q', result = .some (row, q') → Claims worker s.db.queue row q') : Quiet s (s.claimed worker result) := by
  refine ⟨hs.claimed hidle h, fun m => ?_, ?_⟩ <;>
  · unfold ReindexState.claimed
    split <;> rfl

theorem Quiet.idle {s t : ReindexState Block} (h : Quiet s t) (worker : String) : Quiet s (t.setWorker worker .none) :=
  ⟨h.inv.setWorker worker (fun a ha => by cases ha) (fun a _ ha => by cases ha), h.revision, h.contentBlocks⟩

/-- An event that is no request, publication or deactivation. -/
def ReindexEvent.quiet : ReindexEvent Block → Bool
  | .request .. | .ensure .. | .deactivate .. | .publish .. => false
  | .rewrite .. | .claimNext .. | .claimExact .. | .heartbeat .. | .prepare .. | .complete .. | .fail .. | .stop _
  | .deadLetterExpired .. | .retryDead .. | .requeueDead .. | .prune .. => true

theorem Inv.quiet {s t : ReindexState Block} (hs : Inv s) {ev} (hq : ev.quiet = true) (h : s.next ev = .some t) :
    Quiet s t := by
  cases ev with
  | request | ensure | deactivate | publish => cases hq
  | rewrite mediaId readyForReading blocks =>
    simp only [ReindexState.next, Option.map_eq_some_iff] at h
    obtain ⟨media, -, rfl⟩ := h
    exact ⟨⟨hs.coalesced, hs.requested, hs.owned, hs.worked, hs.prepared, hs.settled⟩, fun _ => rfl, rfl⟩
  | claimNext now worker leaseSeconds allowedKinds locked =>
    simp only [ReindexState.next] at h
    split at h
    · cases h
    · rename_i hidle
      cases h
      exact .claimed hs hidle fun _ _ => claims_claimNext
  | claimExact now worker jobId leaseSeconds allowedKinds =>
    simp only [ReindexState.next] at h
    split at h
    · cases h
    · rename_i hidle
      cases h
      exact .claimed hs hidle fun _ _ => claims_claimExact
  | heartbeat now worker =>
    simp only [ReindexState.next, Option.map_eq_some_iff] at h
    obtain ⟨attempt, -, rfl⟩ := h
    exact .afterStatement hs fun _ _ => follows_heartbeat
  | prepare now worker =>
    simp only [ReindexState.next] at h
    split at h
    · rename_i jobId attemptNo payload ha
      cases hp : s.prepare now worker ⟨jobId, attemptNo, payload, .claimed⟩ with
      | error e => rw [hp] at h; cases h
      | ok u =>
        rw [hp] at h
        cases h
        obtain ⟨hI, hblocks, hrev⟩ := hs.prepare ha hp
        exact ⟨hI, hrev, hblocks⟩
    · cases h
  | complete now worker =>
    simp only [ReindexState.next] at h
    split at h
    · cases h
      exact (Quiet.afterStatement hs fun _ _ => follows_complete).idle worker
    · cases h
  | fail now worker errorCode errorMessage =>
    simp only [ReindexState.next, Option.map_eq_some_iff] at h
    obtain ⟨attempt, -, rfl⟩ := h
    exact (Quiet.afterStatement hs fun _ _ => follows_fail).idle worker
  | stop worker =>
    cases h
    exact (Quiet.refl hs).idle worker
  | deadLetterExpired now allowedKinds locked =>
    cases h
    exact .afterStatement hs fun _ _ => follows_deadLetterExpired
  | retryDead now mediaId =>
    cases h
    cases hretry : retryDeadContentIndexJob s.db now mediaId with
    | error e => exact .refl hs
    | ok r =>
      unfold retryDeadContentIndexJob at hretry
      obtain ⟨state, -, hretry⟩ := bind_eq_ok.1 hretry
      dsimp only at hretry
      split at hretry
      · cases hretry
      · obtain ⟨⟨row, queue⟩, hrow, hretry⟩ := bind_eq_ok.1 hretry
        cases hretry
        exact ⟨hs.follows (follows_requeueDead (oneRow_eq_ok hrow)), fun _ => rfl, rfl⟩
  | requeueDead now jobId =>
    cases h
    exact .afterStatement hs fun _ _ => follows_requeueDead
  | prune now succeededAfterDays deadAfterDays limit locked =>
    cases h
    exact ⟨hs.follows (.deleteWhere _ _), fun _ => rfl, rfl⟩

theorem Inv.ensure {s : ReindexState Block} (hs : Inv s) {jobId mediaId state} (now reason requestId)
    (hm : (s.db.media mediaId).isSome) (hst : s.db.indexStates mediaId = .some state)
    (hfresh : s.db.queue.find? jobId = .none) :
    if HasLive s.db.queue mediaId state.revision ∨ NoneOlder s.db.queue mediaId state.revision then
      ∃ intent queue, ensureMediaContentReindexJob s.db now jobId mediaId reason requestId =
        .ok (intent, { s.db with queue := queue }) ∧ HasLive queue mediaId state.revision ∧ Inv (s.setQueue queue)
    else (ensureMediaContentReindexJob s.db now jobId mediaId reason requestId).toOption = .none := by
  by_cases hlive : HasLive s.db.queue mediaId state.revision
  · rw [if_pos (.inl hlive)]
    obtain ⟨intent, hi⟩ := ensure_live hs.coalesced now jobId reason requestId hm hst hlive
    exact ⟨intent, s.db.queue, hi, hlive, hs⟩
  · obtain ⟨queue, hrows, hens⟩ := ensure_enqueues hs.coalesced now reason requestId hm hst hlive hfresh
    by_cases hold : NoneOlder s.db.queue mediaId state.revision
    · rw [if_pos (.inr hold)]
      rw [if_pos hold] at hens
      refine ⟨_, queue, hens, ⟨_, by rw [hrows]; exact List.mem_cons_self, rfl, rfl,
        by simp [Queue.newRow]⟩, ?_⟩
      exact hs.enqueue hst hrows rfl rfl ⟨rfl, _, _, _, _, rfl⟩ rfl rfl hlive
    · rw [if_neg (not_or.2 ⟨hlive, hold⟩)]
      rw [if_neg hold] at hens
      exact hens

/-- Where the current revision of a medium has no live job, no job of an older
one waits. -/
def Repairable (db : IndexDb Block) (m : Uuid) : Prop :=
  match db.indexStates m with
  | .none => True
  | .some state => HasLive db.queue m state.revision ∨ NoneOlder db.queue m state.revision

instance {db : IndexDb Block} {m} : Decidable (Repairable db m) := by
  unfold Repairable
  split <;> infer_instance

/-- The index of an existing medium is pending or being built. -/
def Unfinished (db : IndexDb Block) (m : Uuid) : Prop :=
  (db.media m).isSome = true ∧ (db.indexStates m).any (fun state => state.status == .pending || state.status == .indexing) = true

instance {db : IndexDb Block} {m} : Decidable (Unfinished db m) := inferInstanceAs (Decidable (_ ∧ _))

def ReindexEvent.ensures (m : Uuid) : ReindexEvent Block → Bool
  | .ensure _ _ mediaId _ _ => mediaId == m
  | _ => false

/-- Every reconciliation of the medium, and one of every unfinished index, finds
a live job of the revision or none that waits under an older one. -/
def Repairs (m : Uuid) (s : ReindexState Block) (ev : ReindexEvent Block) (t : ReindexState Block) : Prop :=
  (ev.ensures m = true → Repairable s.db m) ∧ (Unfinished t.db m → Repairable t.db m)

instance {m} {s : ReindexState Block} {ev t} : Decidable (Repairs m s ev t) := inferInstanceAs (Decidable (_ ∧ _))

/-- What is promised of one step for one medium. -/
structure Fenced (m : Uuid) (s : ReindexState Block) (ev : ReindexEvent Block) (t : ReindexState Block) : Prop where
  revision_le : s.db.revision m ≤ t.db.revision m
  /-- Blocks are published under the current revision, as its last snapshot. -/
  published : ∀ work, work.mediaId = m → Publishes s ev work → work.revision = s.db.revision m ∧
    s.snapshots m = .some (work.revision, work.blocks) ∧ t.db.contentBlocks m = work.blocks
  /-- Nothing else replaces them but a deactivation. -/
  written : t.db.contentBlocks m = s.db.contentBlocks m ∨ (∃ reason, ev = .deactivate m reason) ∨
    ∃ work, work.mediaId = m ∧ Publishes s ev work
  /-- A published index holds the last snapshot of the current revision. -/
  settled : ∀ state, t.db.indexStates m = .some state → state.status.published = true →
    t.snapshots m = .some (state.revision, t.db.contentBlocks m)
  /-- A request returns, and one waiting job is left, of the new revision. -/
  requested : ∀ now jobId reason requestId, ev = .request now jobId m reason requestId →
    ∃ intent, requestMediaContentReindex s.db now jobId m reason requestId = .ok (intent, t.db) ∧
      t.db.revision m = s.db.revision m + 1 ∧
      ∃ job, waitingJobs t.db.queue m = [job] ∧ job.payload.revision = .some (t.db.revision m)
  /-- A reconciliation returns, and a live job of the revision is left. -/
  ensured : ∀ now jobId reason requestId, ev = .ensure now jobId m reason requestId →
    ∃ intent, ensureMediaContentReindexJob s.db now jobId m reason requestId = .ok (intent, t.db) ∧
      HasLive t.db.queue m (t.db.revision m)
  /-- An unfinished index can be repaired. -/
  repairable : Unfinished t.db m → ∀ now jobId reason requestId, t.db.queue.find? jobId = .none →
    ∃ intent db', ensureMediaContentReindexJob t.db now jobId m reason requestId = .ok (intent, db') ∧
      HasLive db'.queue m (t.db.revision m)

/-- The part of it that every step keeps. -/
structure Kept (m : Uuid) (s : ReindexState Block) (ev : ReindexEvent Block) (t : ReindexState Block) : Prop where
  inv : Inv t
  revision_le : s.db.revision m ≤ t.db.revision m
  published : ∀ work, work.mediaId = m → Publishes s ev work → work.revision = s.db.revision m ∧
    s.snapshots m = .some (work.revision, work.blocks) ∧ t.db.contentBlocks m = work.blocks
  written : t.db.contentBlocks m = s.db.contentBlocks m ∨ (∃ reason, ev = .deactivate m reason) ∨
    ∃ work, work.mediaId = m ∧ Publishes s ev work
  requested : ∀ now jobId reason requestId, ev = .request now jobId m reason requestId →
    ∃ intent, requestMediaContentReindex s.db now jobId m reason requestId = .ok (intent, t.db) ∧
      t.db.revision m = s.db.revision m + 1 ∧
      ∃ job, waitingJobs t.db.queue m = [job] ∧ job.payload.revision = .some (t.db.revision m)

theorem not_publishes {s : ReindexState Block} {ev : ReindexEvent Block} (h : ∀ now worker chunks, ev ≠ .publish now worker chunks)
    (work : MediaContentReindexWork Block) : ¬ Publishes s ev work := by
  rintro ⟨now, worker, chunks, -, -, -, rfl, -⟩
  exact h now worker chunks rfl

theorem Kept.of_quiet {m : Uuid} {s t : ReindexState Block} {ev} (h : Quiet s t)
    (hp : ∀ now worker chunks, ev ≠ .publish now worker chunks)
    (hr : ∀ now jobId reason requestId, ev ≠ .request now jobId m reason requestId) : Kept m s ev t where
  inv := h.inv
  revision_le := (h.revision m).ge
  published work _ hw := absurd hw (not_publishes hp work)
  written := .inl (congrFun h.contentBlocks m)
  requested now jobId reason requestId he := absurd he (hr now jobId reason requestId)

theorem kept_request {m : Uuid} {s t : ReindexState Block} (hs : Inv s) {now jobId mediaId reason requestId}
    (h : s.next (.request now jobId mediaId reason requestId) = .some t) :
    Kept m s (.request now jobId mediaId reason requestId) t := by
  simp only [ReindexState.next] at h
  split at h
  · rename_i hg
    obtain ⟨db', selected, hreq, hR⟩ := request_ok now reason requestId hs.coalesced.intents hg.1 hg.2
    rw [hreq] at h
    cases h
    refine ⟨hs.request hR, ?_, fun work _ hw => absurd hw (not_publishes (by simp) work), .inl (congrFun hR.contentBlocks m),
      fun now' jobId' reason' requestId' he => ?_⟩
    · rw [show (ReindexState.committed s (.ok (_, db'))).db.revision m = _ from hR.revision_eq m]
      split
      · rename_i hm
        rw [hm]
        exact Nat.le_succ _
      · exact le_refl _
    · obtain ⟨rfl, rfl, rfl, rfl, rfl⟩ := ReindexEvent.request.inj he
      have hrev : IndexDb.revision db' mediaId = s.db.revision mediaId + 1 := by rw [hR.revision_eq, if_pos rfl]
      exact ⟨_, hreq, hrev, selected, hR.waitingJobs_eq, by rw [hR.payload]; exact congrArg Option.some hrev.symm⟩
  · cases h

theorem kept_ensure {m : Uuid} {s t : ReindexState Block} (hs : Inv s) {now jobId mediaId reason requestId}
    (h : s.next (.ensure now jobId mediaId reason requestId) = .some t) :
    Kept m s (.ensure now jobId mediaId reason requestId) t := by
  simp only [ReindexState.next] at h
  split at h
  · rename_i hg
    obtain ⟨state, hst⟩ := Option.isSome_iff_exists.1 hg.2.1
    have hens := hs.ensure now reason requestId hg.1 hst hg.2.2
    refine .of_quiet ?_ (by simp) (by simp)
    split at hens
    · obtain ⟨intent, queue, hok, -, hI⟩ := hens
      rw [hok] at h
      cases h
      exact ⟨hI, fun _ => rfl, rfl⟩
    · cases he : ensureMediaContentReindexJob s.db now jobId mediaId reason requestId with
      | ok r => rw [he] at hens; cases hens
      | error e =>
        rw [he] at h
        cases h
        exact .refl hs
  · cases h

theorem kept_deactivate {m : Uuid} {s t : ReindexState Block} (hs : Inv s) {mediaId reason}
    (h : s.next (.deactivate mediaId reason) = .some t) : Kept m s (.deactivate mediaId reason) t := by
  cases h
  have hI : Inv { s with db := deactivateContentIndex s.db mediaId reason } :=
    hs.restate mediaId ⟨.pending, reason, s.db.revision mediaId⟩ rfl rfl rfl rfl rfl
      (fun m hm => Function.update_of_ne hm _ _) fun hp => by cases hp
  refine ⟨hI, ?_, fun work _ hw => absurd hw (not_publishes (by simp) work), ?_, by simp⟩
  · by_cases hm : m = mediaId
    · subst hm
      simp [deactivateContentIndex, IndexDb.setIndexState, IndexDb.setState, IndexDb.revision]
    · simp [deactivateContentIndex, IndexDb.setIndexState, IndexDb.setState, IndexDb.revision, Function.update_of_ne hm]
  · by_cases hm : m = mediaId
    · exact .inr (.inl ⟨reason, by rw [hm]⟩)
    · exact .inl (Function.update_of_ne hm _ _)

theorem kept_publish {m : Uuid} {s t : ReindexState Block} (hs : Inv s) {now worker chunks}
    (h : s.next (.publish now worker chunks) = .some t) : Kept m s (.publish now worker chunks) t := by
  simp only [ReindexState.next] at h
  split at h
  · rename_i jobId attemptNo payload work ha
    have hunique : ∀ work', Publishes s (.publish now worker chunks) work' → work' = work := by
      rintro work' ⟨now', worker', chunks', attempt, result, db', he, ha', hst, -⟩
      obtain ⟨rfl, rfl, rfl⟩ := ReindexEvent.publish.inj he
      rw [ha] at ha'
      obtain rfl := Option.some.inj ha'
      exact (Stage.prepared.inj hst).symm
    cases hp : s.publish now worker ⟨jobId, attemptNo, payload, .prepared work⟩ work chunks with
    | error e => rw [hp] at h; cases h
    | ok u =>
      rw [hp] at h
      cases h
      unfold ReindexState.publish at hp
      obtain ⟨⟨result, db⟩, hpub, hp⟩ := bind_eq_ok.1 hp
      cases hp
      have hworker : ∀ {u : ReindexState Block} {r}, u.workers = s.workers → Inv u →
          Inv (u.setWorker worker (.some ⟨jobId, attemptNo, payload, .returned r⟩)) := by
        intro u r hu hI
        refine hI.setWorker worker (fun a he => ?_) (fun a _ he hst => ?_)
        · cases he
          exact ⟨⟨jobId, attemptNo, payload, .prepared work⟩, by rw [hu]; exact ha, rfl, rfl⟩
        · cases he
          cases hst
      cases result with
      | none =>
        obtain rfl := publish_none hpub
        refine ⟨hworker rfl hs, le_refl _, fun work' _ hw => ?_, .inl rfl, by simp⟩
        obtain rfl := hunique work' hw
        obtain ⟨now', worker', chunks', attempt, result', db', he, ha', hst, hpub'⟩ := hw
        obtain ⟨rfl, rfl, rfl⟩ := ReindexEvent.publish.inj he
        rw [ha] at ha'
        obtain rfl := Option.some.inj ha'
        rw [hpub] at hpub'
        cases hpub'
      | some result =>
        obtain ⟨hrev, hsnap, hblocks, hI⟩ := hs.publishes ha rfl hpub
        obtain ⟨row, queue, status, reason, -, -, -, hdb⟩ := publish_some hpub
        have hpubs : Publishes s (.publish now worker chunks) work :=
          ⟨now, worker, chunks, _, result, db, rfl, ha, rfl, hpub⟩
        refine ⟨hworker rfl hI, ?_, fun work' hm hw => ?_, ?_, by simp⟩
        · by_cases hm : m = work.mediaId
          · subst hm
            rw [hdb]
            exact (show s.db.revision work.mediaId = _ from hrev.symm).le.trans (by
              simp [ReindexState.setWorker, IndexDb.revision])
          · rw [hdb]
            simp [ReindexState.setWorker, IndexDb.revision, Function.update_of_ne hm]
        · obtain rfl := hunique work' hw
          subst hm
          exact ⟨hrev, hsnap, (congrFun hblocks _).trans (Function.update_self _ _ _)⟩
        · by_cases hm : work.mediaId = m
          · exact .inr (.inr ⟨work, hm, hpubs⟩)
          · exact .inl ((congrFun hblocks m).trans (Function.update_of_ne (Ne.symm hm) _ _))
  · cases h

theorem Inv.kept {s t : ReindexState Block} (hs : Inv s) {ev} (h : s.next ev = .some t) (m : Uuid) : Kept m s ev t := by
  by_cases hq : ev.quiet = true
  · refine .of_quiet (hs.quiet hq h) (fun _ _ _ he => ?_) (fun _ _ _ _ he => ?_) <;>
    · rw [he] at hq
      cases hq
  · cases ev with
    | request now jobId mediaId reason requestId => exact kept_request hs h
    | ensure now jobId mediaId reason requestId => exact kept_ensure hs h
    | deactivate mediaId reason => exact kept_deactivate hs h
    | publish now worker chunks => exact kept_publish hs h
    | rewrite | claimNext | claimExact | heartbeat | prepare | complete | fail | stop | deadLetterExpired | retryDead
    | requeueDead | prune => exact absurd rfl hq

/-! ## The condition -/

theorem exists_fresh (q : Queue ReindexJson) : ∃ jobId, q.find? jobId = .none := by
  refine ⟨(q.rows.map (·.id)).sum + 1, Table.find?_eq_none.2 fun a ha hid => ?_⟩
  have hle : a.id ≤ (q.rows.map (·.id)).sum := List.le_sum_of_mem (List.mem_map_of_mem ha)
  rw [hid] at hle
  exact Nat.not_succ_le_self _ hle

/-- In a state that keeps the invariant, `ensure` returns exactly when the
medium is repairable. -/
theorem Inv.repairable_iff {s : ReindexState Block} (hs : Inv s) {jobId m state} (now reason requestId)
    (hm : (s.db.media m).isSome) (hst : s.db.indexStates m = .some state) (hfresh : s.db.queue.find? jobId = .none) :
    Repairable s.db m ↔ ∃ intent db', ensureMediaContentReindexJob s.db now jobId m reason requestId = .ok (intent, db') ∧
      HasLive db'.queue m (s.db.revision m) := by
  have hrev : s.db.revision m = state.revision := by simp [IndexDb.revision, hst]
  have hens := hs.ensure now reason requestId hm hst hfresh
  simp only [Repairable, hst, hrev]
  split at hens
  · rename_i hrepair
    obtain ⟨intent, queue, hok, hlive, -⟩ := hens
    exact ⟨fun _ => ⟨intent, _, hok, hlive⟩, fun _ => hrepair⟩
  · rename_i hrepair
    refine ⟨fun h => absurd h hrepair, ?_⟩
    rintro ⟨intent, db', hok, -⟩
    rw [hok] at hens
    cases hens

theorem repairable_unfinished {t : ReindexState Block} (ht : Inv t) {m : Uuid} (hu : Unfinished t.db m) :
    Repairable t.db m ↔ ∀ now jobId reason requestId, t.db.queue.find? jobId = .none →
      ∃ intent db', ensureMediaContentReindexJob t.db now jobId m reason requestId = .ok (intent, db') ∧
        HasLive db'.queue m (t.db.revision m) := by
  obtain ⟨hm, hst⟩ := hu
  obtain ⟨state, hst, -⟩ := Option.any_eq_true _ _ |>.1 hst
  constructor
  · intro h now jobId reason requestId hfresh
    exact (ht.repairable_iff now reason requestId hm hst hfresh).1 h
  · intro h
    obtain ⟨jobId, hfresh⟩ := exists_fresh t.db.queue
    exact (ht.repairable_iff 0 .reconciliation .none hm hst hfresh).2 (h 0 jobId .reconciliation .none hfresh)

theorem ensured_iff {s t : ReindexState Block} (hs : Inv s) {m now jobId reason requestId}
    (h : s.next (.ensure now jobId m reason requestId) = .some t) :
    Repairable s.db m ↔ ∃ intent, ensureMediaContentReindexJob s.db now jobId m reason requestId = .ok (intent, t.db) ∧
      HasLive t.db.queue m (t.db.revision m) := by
  have hk := kept_ensure (m := m) hs h
  simp only [ReindexState.next] at h
  split at h
  · rename_i hg
    obtain ⟨state, hst⟩ := Option.isSome_iff_exists.1 hg.2.1
    have hrev : s.db.revision m = state.revision := by simp [IndexDb.revision, hst]
    have hens := hs.ensure now reason requestId hg.1 hst hg.2.2
    simp only [Repairable, hst]
    split at hens
    · rename_i hrepair
      obtain ⟨intent, queue, hok, hlive, -⟩ := hens
      rw [hok] at h
      cases h
      refine ⟨fun _ => ⟨intent, hok, ?_⟩, fun _ => hrepair⟩
      rw [show ReindexState.db (s.committed (.ok (intent, ({ s.db with queue := queue } : IndexDb Block)))) =
        { s.db with queue := queue } from rfl]
      rw [show IndexDb.revision ({ s.db with queue := queue } : IndexDb Block) m = s.db.revision m from rfl, hrev]
      exact hlive
    · rename_i hrepair
      refine ⟨fun hr => absurd hr hrepair, ?_⟩
      rintro ⟨intent, hok, -⟩
      rw [hok] at hens
      cases hens
  · cases h

theorem Inv.fenced_iff {s t : ReindexState Block} (hs : Inv s) {ev} (h : s.next ev = .some t) (m : Uuid) :
    Fenced m s ev t ↔ Repairs m s ev t := by
  have hk := hs.kept h m
  constructor
  · intro hF
    refine ⟨fun he => ?_, fun hu => (repairable_unfinished hk.inv hu).2 (hF.repairable hu)⟩
    cases ev with
    | ensure now jobId mediaId reason requestId =>
      obtain rfl : mediaId = m := by simpa [ReindexEvent.ensures] using he
      exact (ensured_iff hs h).2 (hF.ensured now jobId reason requestId rfl)
    | request | deactivate | rewrite | claimNext | claimExact | heartbeat | prepare | publish | complete | fail | stop
    | deadLetterExpired | retryDead | requeueDead | prune => cases he
  · intro hR
    refine ⟨hk.revision_le, hk.published, hk.written, hk.inv.settled m, hk.requested,
      fun now jobId reason requestId he => ?_, fun hu => (repairable_unfinished hk.inv hu).1 (hR.2 hu)⟩
    subst he
    exact (ensured_iff hs h).1 (hR.1 (by simp [ReindexEvent.ensures]))

/-- **In every run, the steps keep the promises made of a medium exactly when
its reconciliations, and its unfinished states, find no job of an older revision
waiting where the current one has no live job.** -/
theorem reindex_fenced (m : Uuid) {s : ReindexState Block} {tr} (h0 : s.Initial) (hr : (reindexSystem Block).Run s tr) :
    Along (Fenced m) s tr ↔ Along (Repairs m) s tr := by
  refine Along.iff_of (System.Run.along_of_guarded (I := Inv) (G := fun _ _ => True)
    (fun s e t hstep hs _ => ⟨(hs.kept hstep m).inv, hs.fenced_iff hstep m⟩) hr (.init h0) ?_)
  exact hr.mono fun _ _ _ _ => trivial

/-! ## A reconciliation that raises -/

def someMedium : ReindexState String where
  db := ⟨fun m => if m = 1 then .some ⟨.webArticle, true, ["text"]⟩ else .none, fun _ => .none, fun _ => [], .empty⟩
  workers := fun _ => .none
  snapshots := fun _ => .none

/-- A revision is requested, its job published, and the index reconciled. -/
def reindexed : List (ReindexEvent String) :=
  [.request 0 7 1 .sourceSuccess .none, .claimNext 1 "a" 900 .none [], .prepare 2 "a", .publish 3 "a" 1,
    .complete 4 "a", .ensure 5 8 1 .reconciliation .none]

theorem reindex_fenced_reindexed :
    (replay ReindexState.next someMedium reindexed).length = 6 ∧
      Along (Fenced 1) someMedium (replay ReindexState.next someMedium reindexed) :=
  ⟨by decide +kernel, (reindex_fenced 1 ⟨rfl, rfl, rfl, rfl, rfl⟩ System.run_replay).2 (by decide +kernel)⟩

/-- The job of revision 1 fails after revision 2 was requested, and waits for
its retry while revision 2 is published. -/
def failedMeanwhile : List (ReindexEvent String) :=
  [.request 0 7 1 .sourceSuccess .none, .claimNext 1 "a" 900 .none [], .request 2 8 1 .sourceSuccess .none,
    .fail 3 "a" "E_WORKER_TASK_FAILED" "embedding", .claimNext 4 "b" 900 .none [], .prepare 5 "b", .publish 6 "b" 1,
    .complete 7 "b", .ensure 8 9 1 .reconciliation .none]

/-- The reconciliation then enqueues revision 2 again and finds revision 1
waiting: it raises. -/
theorem ensure_raises :
    ¬ ∀ (s : ReindexState String) tr, s.Initial → (reindexSystem String).Run s tr → Along (Fenced 1) s tr := by
  intro h
  have hf := h someMedium (replay ReindexState.next someMedium failedMeanwhile) ⟨rfl, rfl, rfl, rfl, rfl⟩
    System.run_replay
  have hr := (reindex_fenced 1 ⟨rfl, rfl, rfl, rfl, rfl⟩ System.run_replay).1 hf
  exact absurd hr (by decide +kernel)

end Nexus.Reindex
