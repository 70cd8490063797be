/-
The invariant of backfills, and what each kind of write does to it.

The row of a backfill has the position and the sums of its history, and while it
is not ended some live job is for exactly its current step. No job is ahead of
its row (`Fenced`); a page is fetched with the cursor the row has as long as it
stands at that step, and a job whose attempt has returned under its lease is no
unfinished backfill's current one.

Inside a transaction the invariant may have a hole: a backfill whose current
step has no job yet, or no longer.
-/
import Nexus.Podcasts.Backfill

namespace Nexus.PodcastBackfill
open Relational Nexus.Jobs Traversal

/-! ## Keys -/

theorem backfillDedupeKey_injective {b b' n n' : Nat} (h : backfillDedupeKey b n = backfillDedupeKey b' n') :
    b = b' ∧ n = n' := numberPair_injective h

/-! ## The invariant -/

/-- A row stands where its history does. -/
structure Records (history : List BackfillStep) (row : PodcastSubscriptionBackfill) : Prop where
  stepNo : row.stepNo = (pages history).length
  cursor : row.ended = false → row.cursor = cursorAfter (pages history)
  processedCount : row.processedCount = ((pages history).map (·.page.processedCount)).sum
  addedCount : row.addedCount = ((pages history).map (·.page.addedCount)).sum
  endings : row.endings = Traversal.endings history

theorem endings_eq_nil_iff {row : PodcastSubscriptionBackfill} : row.endings = [] ↔ row.ended = false := by
  obtain ⟨_, _, _, _, _, _, _, _, completedAt, sourceLimitedAt, failedAt, _, _⟩ := row
  cases completedAt <;> cases sourceLimitedAt <;> cases failedAt <;>
    simp [PodcastSubscriptionBackfill.endings, PodcastSubscriptionBackfill.ended]

section Invariant

variable (sha256 : Bytes → Bytes)

/-- A payload names no step ahead of its backfill's, and the cursor of the current one. -/
def Fenced (db : BackfillDb) (p : BackfillPayload) : Prop :=
  ∀ row ∈ db.backfills.rows, row.id = p.backfillId → p.expectedStepNo ≤ row.stepNo ∧
    (row.stepNo = p.expectedStepNo → cursorDigest sha256 row.cursor = p.expectedCursorDigest)

/-- A page of the payload's step is fetched with the cursor of the row that stands there. -/
def FetchedFor (db : BackfillDb) (p : BackfillPayload) (cursor : Option BackfillCursor) : Prop :=
  ∀ row ∈ db.backfills.rows, row.id = p.backfillId → p.expectedStepNo ≤ row.stepNo ∧
    (row.stepNo = p.expectedStepNo → row.cursor = cursor)

/-- No unfinished backfill is at the step of this job. -/
def PastIts (db : BackfillDb) (json : BackfillJson) : Prop :=
  ∀ row ∈ db.backfills.rows, row.ended = false → json ≠ .payload (row.payload sha256)

structure BackfillInv (clock : Instant) (hole : Option Uuid) (s : BackfillState) : Prop where
  inOrder : ∀ b, InOrder (s.history b)
  undrawn : ∀ b, b ∉ s.drawn → s.history b = []
  records : ∀ row ∈ s.db.backfills.rows, row.id ∈ s.drawn ∧ Records (s.history row.id) row
  subscribed : ∀ row ∈ s.db.backfills.rows, (s.db.subscriptions.find? row.subscriptionId).isSome = true
  orphaned : ∀ b ∈ s.orphaned, b ∈ s.drawn ∧ ∀ row ∈ s.db.backfills.rows, row.id ≠ b
  unique : UniqueKeys s.db.queue
  jobs : ∀ j ∈ s.db.queue.rows, ∃ p, j.payload = .payload p ∧
    j.dedupeKey = .some (backfillDedupeKey p.backfillId p.expectedStepNo) ∧ p.backfillId ∈ s.drawn ∧ Fenced sha256 s.db p
  current : ∀ row ∈ s.db.backfills.rows, row.ended = false → hole ≠ .some row.id →
    HasLive s.db.queue (.payload (row.payload sha256))
  runs : Runs s.db.queue s.workers
  fetched : ∀ worker a p cursor, s.workers worker = .some a → a.payload = .payload p → a.stage = .fetching cursor →
    p.backfillId ∈ s.drawn ∧ FetchedFor s.db p cursor
  returned : ∀ worker a result, s.workers worker = .some a → a.stage = .returned result → ∀ j ∈ s.db.queue.rows,
    j.heldBy worker a.jobId → j.leasedAt clock → PastIts sha256 s.db j.payload

end Invariant

section Facts

variable {sha256 : Bytes → Bytes} {clock : Instant} {hole : Option Uuid} {s : BackfillState}

theorem BackfillInv.init (h : s.Initial) (clock : Instant) : BackfillInv sha256 clock .none s := by
  obtain ⟨-, hbackfills, hqueue, hworkers, -, horphaned, hhistory⟩ := h
  have hq : s.db.queue.rows = [] := by rw [hqueue]; rfl
  have hb : s.db.backfills.rows = [] := by rw [hbackfills]; rfl
  exact {
    inOrder := by simp [hhistory, InOrder.nil]
    undrawn := by simp [hhistory]
    records := by simp [hb]
    subscribed := by simp [hb]
    orphaned := by simp [horphaned]
    unique := by simp [UniqueKeys, hq]
    jobs := by simp [hq]
    current := by simp [hb]
    runs := by simp [Runs, hworkers]
    fetched := by simp [hworkers]
    returned := by simp [hworkers] }

theorem BackfillInv.tick (hs : BackfillInv sha256 clock hole s) {clock' : Instant} (hle : clock ≤ clock') :
    BackfillInv sha256 clock' hole s :=
  { hs with returned := fun w a r ha hr j hj hh hl => hs.returned w a r ha hr j hj hh (hl.mono hle) }

theorem BackfillInv.draw (hs : BackfillInv sha256 clock hole s) (b : Uuid) :
    BackfillInv sha256 clock hole { s with drawn := b :: s.drawn } where
  inOrder := hs.inOrder
  undrawn c hc := hs.undrawn c fun hmem => hc (List.mem_cons_of_mem _ hmem)
  records row hrow := ⟨List.mem_cons_of_mem _ (hs.records row hrow).1, (hs.records row hrow).2⟩
  subscribed := hs.subscribed
  orphaned c hc := ⟨List.mem_cons_of_mem _ (hs.orphaned c hc).1, (hs.orphaned c hc).2⟩
  unique := hs.unique
  jobs j hj := by
    obtain ⟨p, hp, hd, hdrawn, hfenced⟩ := hs.jobs j hj
    exact ⟨p, hp, hd, List.mem_cons_of_mem _ hdrawn, hfenced⟩
  current := hs.current
  runs := hs.runs
  fetched w a p cursor ha hp hstage := by
    obtain ⟨hdrawn, hfetched⟩ := hs.fetched w a p cursor ha hp hstage
    exact ⟨List.mem_cons_of_mem _ hdrawn, hfetched⟩
  returned := hs.returned

theorem BackfillInv.payload_of_step (hs : BackfillInv sha256 clock hole s) {j p row} (hj : j ∈ s.db.queue.rows)
    (hp : j.payload = .payload p) (hrow : row ∈ s.db.backfills.rows) (hid : row.id = p.backfillId)
    (hstep : row.stepNo = p.expectedStepNo) : row.payload sha256 = p := by
  obtain ⟨p', hp', -, -, hfenced⟩ := hs.jobs j hj
  obtain rfl : p' = p := BackfillJson.payload.inj (hp'.symm.trans hp)
  have hdigest := (hfenced row hrow hid).2 hstep
  cases p'
  simp_all [PodcastSubscriptionBackfill.payload]

/-! ## Jobs -/

theorem BackfillInv.setQueue (hs : BackfillInv sha256 clock hole s) {q'} (hkeep : KeepsJobs clock s.db.queue q')
    (hole' : Option Uuid) (hhole : ∀ b, hole' ≠ .some b → hole ≠ .some b)
    (hlive : ∀ row ∈ s.db.backfills.rows, row.ended = false → hole' ≠ .some row.id →
      HasLive s.db.queue (.payload (row.payload sha256)) → HasLive q' (.payload (row.payload sha256))) :
    BackfillInv sha256 clock hole' (s.setQueue q') where
  inOrder := hs.inOrder
  undrawn := hs.undrawn
  records := hs.records
  subscribed := hs.subscribed
  orphaned := hs.orphaned
  unique := hs.unique.keep hkeep
  jobs := by
    intro k hk
    obtain ⟨j, hj, -, -, hpay, hded, -⟩ := hkeep k hk
    obtain ⟨p, hp, hd, hrest⟩ := hs.jobs j hj
    exact ⟨p, hpay.symm.trans hp, hded.symm.trans hd, hrest⟩
  current row hrow hended hne := hlive row hrow hended hne (hs.current row hrow hended (hhole _ hne))
  runs := hs.runs.keep hkeep
  fetched := hs.fetched
  returned := by
    intro w a r ha hr k hk hheld hleased
    obtain ⟨j, hj, hheld', hleased', hpay⟩ := hkeep.heldBy hk hheld hleased
    rw [← hpay]
    exact hs.returned w a r ha hr j hj hheld' hleased'

theorem BackfillInv.claimed (hs : BackfillInv sha256 clock hole s) {now worker} {result : Option (JobRow BackfillJson × Queue BackfillJson)}
    (h : ∀ row q', result = .some (row, q') → ClaimedRow now worker s.db.queue row q') :
    BackfillInv sha256 clock hole (s.claimed worker result) := by
  cases hr : result with
  | none => exact hs
  | some r =>
    obtain ⟨row, q'⟩ := r
    have hclaim := h row q' hr
    have hne : ∀ w a, w ≠ worker → (s.claimed worker (.some (row, q'))).workers w = .some a → s.workers w = .some a := by
      intro w a hw ha
      simpa [BackfillState.claimed, BackfillState.setWorker, BackfillState.setQueue, Function.update_of_ne hw] using ha
    have hself : ∀ a, (s.claimed worker (.some (row, q'))).workers worker = .some a → a.stage = .started := by
      intro a ha
      simp only [BackfillState.claimed, BackfillState.setWorker, Function.update_self, Option.some.injEq] at ha
      rw [← ha]
      rfl
    exact {
      inOrder := hs.inOrder
      undrawn := hs.undrawn
      records := hs.records
      subscribed := hs.subscribed
      orphaned := hs.orphaned
      unique := hclaim.unique hs.unique
      jobs := by
        intro k hk
        obtain ⟨j, hj, -, -, hpay, hded⟩ := hclaim.before hk
        obtain ⟨p, hp, hd, hrest⟩ := hs.jobs j hj
        exact ⟨p, hpay.symm.trans hp, hded.symm.trans hd, hrest⟩
      current := fun sub hsub hended hhole => hclaim.hasLive (hs.current sub hsub hended hhole)
      runs := hclaim.runs hs.runs .started
      fetched := by
        intro w a p cursor ha hp hstage
        by_cases hw : w = worker
        · subst hw
          rw [hself a ha] at hstage
          cases hstage
        · exact hs.fetched w a p cursor (hne w a hw ha) hp hstage
      returned := by
        intro w a r ha hstage k hk hheld hleased
        by_cases hw : w = worker
        · subst hw
          rw [hself a ha] at hstage
          cases hstage
        · exact hs.returned w a r (hne w a hw ha) hstage k (hclaim.of_heldBy hw hk hheld) hheld hleased }

/-! ## Workers -/

theorem BackfillInv.idle (hs : BackfillInv sha256 clock hole s) (worker : String) :
    BackfillInv sha256 clock hole (s.setWorker worker .none) where
  inOrder := hs.inOrder
  undrawn := hs.undrawn
  records := hs.records
  subscribed := hs.subscribed
  orphaned := hs.orphaned
  unique := hs.unique
  jobs := hs.jobs
  current := hs.current
  runs := hs.runs.idle worker
  fetched := by
    intro w a p cursor ha
    by_cases hw : w = worker
    · subst hw
      simp [BackfillState.setWorker] at ha
    · exact hs.fetched w a p cursor (by simpa [BackfillState.setWorker, Function.update_of_ne hw] using ha)
  returned := by
    intro w a r ha
    by_cases hw : w = worker
    · subst hw
      simp [BackfillState.setWorker] at ha
    · exact hs.returned w a r (by simpa [BackfillState.setWorker, Function.update_of_ne hw] using ha)

theorem BackfillInv.advance (hs : BackfillInv sha256 clock hole s) {worker a p} (ha : s.workers worker = .some a)
    (hp : a.payload = .payload p) (stage : BackfillStage)
    (hfetched : ∀ cursor, stage = .fetching cursor → p.backfillId ∈ s.drawn ∧ FetchedFor s.db p cursor)
    (hreturned : ∀ result, stage = .returned result → ∀ j ∈ s.db.queue.rows, j.heldBy worker a.jobId → j.leasedAt clock →
      PastIts sha256 s.db j.payload) :
    BackfillInv sha256 clock hole (s.setWorker worker (.some { a with stage := stage })) where
  inOrder := hs.inOrder
  undrawn := hs.undrawn
  records := hs.records
  subscribed := hs.subscribed
  orphaned := hs.orphaned
  unique := hs.unique
  jobs := hs.jobs
  current := hs.current
  runs := hs.runs.advance ha stage
  fetched := by
    intro w b p' cursor hb hp' hstage
    by_cases hw : w = worker
    · subst hw
      simp only [BackfillState.setWorker, Function.update_self, Option.some.injEq] at hb
      subst hb
      obtain rfl : p' = p := BackfillJson.payload.inj (hp'.symm.trans hp)
      exact hfetched cursor hstage
    · exact hs.fetched w b p' cursor (by simpa [BackfillState.setWorker, Function.update_of_ne hw] using hb) hp' hstage
  returned := by
    intro w b r hb hstage
    by_cases hw : w = worker
    · subst hw
      simp only [BackfillState.setWorker, Function.update_self, Option.some.injEq] at hb
      subst hb
      exact hreturned r hstage
    · exact hs.returned w b r (by simpa [BackfillState.setWorker, Function.update_of_ne hw] using hb) hstage

/-! ## Rows -/

theorem mem_updateBackfill {db : BackfillDb} {id f} (hf) {k : PodcastSubscriptionBackfill} :
    k ∈ (db.updateBackfill id f hf).backfills.rows ↔ ∃ row ∈ db.backfills.rows, (if row.id = id then f row else row) = k := by
  simp only [BackfillDb.updateBackfill, Table.mem_updateWhere, beq_iff_eq]

theorem BackfillInv.step (hs : BackfillInv sha256 clock hole s) {row} (hrow : row ∈ s.db.backfills.rows)
    (f : PodcastSubscriptionBackfill → PodcastSubscriptionBackfill) (hf : ∀ row, (f row).id = row.id) (last : BackfillStep)
    (hhole : ∀ b, b ≠ row.id → hole ≠ .some b) (hinOrder : InOrder (s.history row.id ++ [last]))
    (hrecords : Records (s.history row.id ++ [last]) (f row)) (hsubscription : (f row).subscriptionId = row.subscriptionId)
    (hstep : row.stepNo ≤ (f row).stepNo) (hcursor : (f row).stepNo = row.stepNo → (f row).cursor = row.cursor)
    (hahead : (f row).ended = false → row.stepNo < (f row).stepNo) :
    BackfillInv sha256 clock (.some row.id) (BackfillState.record { s with db := s.db.updateBackfill row.id f hf } row.id last) := by
  have hback : ∀ k ∈ (s.db.updateBackfill row.id f hf).backfills.rows,
      k = f row ∨ (k ∈ s.db.backfills.rows ∧ k.id ≠ row.id) := by
    intro k hk
    obtain ⟨k₀, hk₀, hkeq⟩ := (mem_updateBackfill hf).1 hk
    by_cases hid : k₀.id = row.id
    · rw [if_pos hid] at hkeq
      rw [Table.eq_of_key hk₀ hrow hid] at hkeq
      exact .inl hkeq.symm
    · rw [if_neg hid] at hkeq
      rw [← hkeq]
      exact .inr ⟨hk₀, hid⟩
  have hother : ∀ b, b ≠ row.id → (BackfillState.record { s with db := s.db.updateBackfill row.id f hf } row.id last).history b =
      s.history b := fun b hb => Function.update_of_ne hb _ _
  have hself : (BackfillState.record { s with db := s.db.updateBackfill row.id f hf } row.id last).history row.id =
      s.history row.id ++ [last] := Function.update_self ..
  -- a payload that was not ahead of the row stays behind it
  have hbehind : ∀ p : BackfillPayload, row.id = p.backfillId → p.expectedStepNo ≤ row.stepNo →
      (f row).stepNo = p.expectedStepNo → (f row).stepNo = row.stepNo ∧ row.stepNo = p.expectedStepNo := by
    intro p _ hle heq
    omega
  exact {
    inOrder := by
      intro b
      by_cases hb : b = row.id
      · rw [hb, hself]
        exact hinOrder
      · rw [hother b hb]
        exact hs.inOrder b
    undrawn := by
      intro b hb
      have hne : b ≠ row.id := fun he => hb (he ▸ (hs.records row hrow).1)
      rw [hother b hne]
      exact hs.undrawn b hb
    records := by
      intro k hk
      rcases hback k hk with rfl | ⟨hk, hid⟩
      · rw [hf, hself]
        exact ⟨(hs.records row hrow).1, hrecords⟩
      · rw [hother k.id hid]
        exact hs.records k hk
    subscribed := by
      intro k hk
      rcases hback k hk with rfl | ⟨hk, -⟩
      · rw [hsubscription]
        exact hs.subscribed row hrow
      · exact hs.subscribed k hk
    orphaned := by
      intro b hb
      obtain ⟨hdrawn, hgone⟩ := hs.orphaned b hb
      refine ⟨hdrawn, fun k hk => ?_⟩
      rcases hback k hk with rfl | ⟨hk, -⟩
      · rw [hf]
        exact hgone row hrow
      · exact hgone k hk
    unique := hs.unique
    jobs := by
      intro j hj
      obtain ⟨p, hp, hd, hdrawn, hfenced⟩ := hs.jobs j hj
      refine ⟨p, hp, hd, hdrawn, fun k hk hid => ?_⟩
      rcases hback k hk with rfl | ⟨hk, -⟩
      · rw [hf] at hid
        obtain ⟨hle, hdigest⟩ := hfenced row hrow hid
        refine ⟨hle.trans hstep, fun heq => ?_⟩
        obtain ⟨hsame, hat⟩ := hbehind p hid hle heq
        rw [hcursor hsame]
        exact hdigest hat
      · exact hfenced k hk hid
    current := by
      intro k hk hended hne
      rcases hback k hk with rfl | ⟨hk, hid⟩
      · exact absurd (congrArg Option.some (hf row)).symm hne
      · exact hs.current k hk hended (hhole k.id hid)
    runs := hs.runs
    fetched := by
      intro w a p cursor ha hp hstage
      obtain ⟨hdrawn, hfetched⟩ := hs.fetched w a p cursor ha hp hstage
      refine ⟨hdrawn, fun k hk hid => ?_⟩
      rcases hback k hk with rfl | ⟨hk, -⟩
      · rw [hf] at hid
        obtain ⟨hle, hcur⟩ := hfetched row hrow hid
        refine ⟨hle.trans hstep, fun heq => ?_⟩
        obtain ⟨hsame, hat⟩ := hbehind p hid hle heq
        rw [hcursor hsame]
        exact hcur hat
      · exact hfetched k hk hid
    returned := by
      intro w a r ha hstage j hj hheld hleased k hk hended
      rcases hback k hk with rfl | ⟨hk, -⟩
      · -- the job is not ahead of the row before, which the row is now
        intro hpay
        obtain ⟨p, hp, -, -, hfenced⟩ := hs.jobs j hj
        obtain rfl := BackfillJson.payload.inj (hp.symm.trans hpay)
        have hle : (f row).stepNo ≤ row.stepNo := (hfenced row hrow (hf row).symm).1
        have hlt := hahead hended
        omega
      · exact hs.returned w a r ha hstage j hj hheld hleased k hk hended }

theorem BackfillInv.close (hs : BackfillInv sha256 clock (.some b) s)
    (hended : ∀ row ∈ s.db.backfills.rows, row.id = b → row.ended = true) : BackfillInv sha256 clock .none s :=
  { hs with
    current := by
      intro row hrow hlive _
      refine hs.current row hrow hlive fun heq => ?_
      rw [hended row hrow (Option.some.inj heq).symm] at hlive
      cases hlive }

theorem BackfillInv.enqueue (row : PodcastSubscriptionBackfill) (hrow : row ∈ s.db.backfills.rows)
    (hs : BackfillInv sha256 clock (.some row.id) s) {now jobId inserted queue}
    (h : enqueueBackfillStep sha256 s.db.queue now jobId row.id row.stepNo row.cursor = .some (inserted, queue))
    (hbehind : ∀ j ∈ s.db.queue.rows, ∀ p, j.payload = .payload p → p.backfillId = row.id → p.expectedStepNo < row.stepNo) :
    BackfillInv sha256 clock .none (s.setQueue queue) := by
  obtain ⟨⟨job, ins, q'⟩, henq, heq⟩ := Option.map_eq_some_iff.1 h
  simp only [Prod.mk.injEq] at heq
  obtain ⟨-, rfl⟩ := heq
  have hfresh : ∀ j ∈ s.db.queue.rows, j.dedupeKey ≠ .some (backfillDedupeKey row.id row.stepNo) := by
    intro j hj hkey
    obtain ⟨p, hp, hd, -⟩ := hs.jobs j hj
    obtain ⟨hid, hstep⟩ := backfillDedupeKey_injective (Option.some.inj (hd.symm.trans hkey))
    have hlt := hbehind j hj p hp hid
    omega
  obtain ⟨hrows, hjob⟩ := enqueueUniqueJob_fresh henq hfresh
  have hpending : job.status = .pending := by rw [hjob]; rfl
  have hpayload : job.payload = .payload (row.payload sha256) := by rw [hjob]; rfl
  have hq : (s.setQueue q').db.queue.rows = job :: s.db.queue.rows := hrows
  exact {
    inOrder := hs.inOrder
    undrawn := hs.undrawn
    records := hs.records
    subscribed := hs.subscribed
    orphaned := hs.orphaned
    unique := hs.unique.insert hrows (by rw [hjob]; exact hfresh)
    jobs := by
      intro j hj
      rw [hq] at hj
      rcases List.mem_cons.1 hj with rfl | hj
      · refine ⟨_, hpayload, by rw [hjob]; rfl, (hs.records row hrow).1, fun k hk hid => ?_⟩
        obtain rfl : k = row := Table.eq_of_key hk hrow hid
        exact ⟨le_refl _, fun _ => rfl⟩
      · exact hs.jobs j hj
    current := by
      intro k hk hended _
      by_cases hid : k.id = row.id
      · obtain rfl : k = row := Table.eq_of_key hk hrow hid
        exact ⟨job, by rw [hq]; exact List.mem_cons_self, hpayload, by simp [JobRow.live, hpending]⟩
      · obtain ⟨j, hj, hp, hl⟩ := hs.current k hk hended fun heq => hid (Option.some.inj heq).symm
        exact ⟨j, by rw [hq]; exact List.mem_cons_of_mem _ hj, hp, hl⟩
    runs := hs.runs.insert hrows hpending
    fetched := hs.fetched
    returned := by
      intro w a r ha hstage j hj hheld hleased
      have hj' : j ∈ s.db.queue.rows := JobRow.mem_of_heldBy hrows hpending hj hheld
      exact hs.returned w a r ha hstage j hj' hheld hleased }

theorem BackfillInv.insertBackfill (hs : BackfillInv sha256 clock .none s) {backfills} {row : PodcastSubscriptionBackfill}
    (hins : s.db.backfills.insert? row = .some backfills) (hnew : row.id ∉ s.drawn) (hrecords : Records [] row)
    (hsubscribed : (s.db.subscriptions.find? row.subscriptionId).isSome = true) :
    BackfillInv sha256 clock (.some row.id)
      { s with db := { s.db with backfills := backfills }, drawn := row.id :: s.drawn } := by
  obtain ⟨-, hrows⟩ := Table.insert?_eq_some.1 hins
  have hb : ∀ k, k ∈ backfills.rows ↔ k = row ∨ k ∈ s.db.backfills.rows := by
    intro k
    rw [hrows, List.mem_cons]
  exact {
    inOrder := hs.inOrder
    undrawn := fun b hb => hs.undrawn b fun hmem => hb (List.mem_cons_of_mem _ hmem)
    records := by
      intro k hk
      rcases (hb k).1 hk with rfl | hk
      · refine ⟨List.mem_cons_self, ?_⟩
        rw [show s.history k.id = [] from hs.undrawn k.id hnew]
        exact hrecords
      · exact ⟨List.mem_cons_of_mem _ (hs.records k hk).1, (hs.records k hk).2⟩
    subscribed := by
      intro k hk
      rcases (hb k).1 hk with rfl | hk
      · exact hsubscribed
      · exact hs.subscribed k hk
    orphaned := by
      intro b hmem
      obtain ⟨hdrawn, hgone⟩ := hs.orphaned b hmem
      refine ⟨List.mem_cons_of_mem _ hdrawn, fun k hk => ?_⟩
      rcases (hb k).1 hk with rfl | hk
      · exact fun he => hnew (he ▸ hdrawn)
      · exact hgone k hk
    unique := hs.unique
    jobs := by
      intro j hj
      obtain ⟨p, hp, hd, hdrawn, hfenced⟩ := hs.jobs j hj
      refine ⟨p, hp, hd, List.mem_cons_of_mem _ hdrawn, fun k hk hid => ?_⟩
      rcases (hb k).1 hk with rfl | hk
      · exact absurd hdrawn (hid ▸ hnew)
      · exact hfenced k hk hid
    current := by
      intro k hk hended hne
      rcases (hb k).1 hk with rfl | hk
      · exact absurd rfl hne
      · exact hs.current k hk hended (by simp)
    runs := hs.runs
    fetched := by
      intro w a p cursor ha hp hstage
      obtain ⟨hdrawn, hfetched⟩ := hs.fetched w a p cursor ha hp hstage
      refine ⟨List.mem_cons_of_mem _ hdrawn, fun k hk hid => ?_⟩
      rcases (hb k).1 hk with rfl | hk
      · exact absurd hdrawn (hid ▸ hnew)
      · exact hfetched k hk hid
    returned := by
      intro w a r ha hstage j hj hheld hleased k hk hended
      rcases (hb k).1 hk with rfl | hk
      · intro hpay
        obtain ⟨p, hp, -, hdrawn, -⟩ := hs.jobs j hj
        obtain rfl := BackfillJson.payload.inj (hp.symm.trans hpay)
        exact hnew hdrawn
      · exact hs.returned w a r ha hstage j hj hheld hleased k hk hended }

theorem BackfillInv.delete (hs : BackfillInv sha256 clock .none s) (p : PodcastSubscriptionBackfill → Bool)
    {subscriptions : Table PodcastSubscription PodcastSubscription.id} (orphaned : List Uuid)
    (hsubscribed : ∀ row ∈ s.db.backfills.rows, p row = false →
      (subscriptions.find? row.subscriptionId).isSome = true)
    (horphaned : ∀ b ∈ orphaned, b ∈ s.drawn ∧ ∀ row ∈ s.db.backfills.rows, p row = false → row.id ≠ b) :
    BackfillInv sha256 clock .none { s with
      db := { s.db with backfills := s.db.backfills.deleteWhere p, subscriptions := subscriptions }, orphaned := orphaned } := by
  have hb : ∀ k ∈ (s.db.backfills.deleteWhere p).rows, k ∈ s.db.backfills.rows ∧ p k = false := fun k hk =>
    Table.mem_deleteWhere.1 hk
  exact {
    inOrder := hs.inOrder
    undrawn := hs.undrawn
    records := fun k hk => hs.records k (hb k hk).1
    subscribed := fun k hk => hsubscribed k (hb k hk).1 (hb k hk).2
    orphaned := fun b hmem => ⟨(horphaned b hmem).1, fun k hk => (horphaned b hmem).2 k (hb k hk).1 (hb k hk).2⟩
    unique := hs.unique
    jobs := by
      intro j hj
      obtain ⟨q, hq, hd, hdrawn, hfenced⟩ := hs.jobs j hj
      exact ⟨q, hq, hd, hdrawn, fun k hk => hfenced k (hb k hk).1⟩
    current := fun k hk => hs.current k (hb k hk).1
    runs := hs.runs
    fetched := by
      intro w a q cursor ha hq hstage
      obtain ⟨hdrawn, hfetched⟩ := hs.fetched w a q cursor ha hq hstage
      exact ⟨hdrawn, fun k hk => hfetched k (hb k hk).1⟩
    returned := fun w a r ha hstage j hj hheld hleased k hk =>
      hs.returned w a r ha hstage j hj hheld hleased k (hb k hk).1 }

end Facts

end Nexus.PodcastBackfill
