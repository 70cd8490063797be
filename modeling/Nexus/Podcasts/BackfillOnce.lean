/-
Backfills apply each page exactly once.

A page is applied by a transaction that holds the lease of a job of exactly the
row's step, so a second attempt finds the step moved on. Every way an attempt
can end leaves an unfinished backfill a live job: it applies and enqueues the
next step, or returns with another step current, or fails the job and, when the
job is dead, the backfill. `exactly_once` is what follows for every state.
-/
import Nexus.Podcasts.BackfillRows

namespace Nexus.PodcastBackfill
open Relational Nexus.Jobs Traversal ExceptFacts

variable {sha256 : Bytes → Bytes} {now : Instant} {s : BackfillState}

/-! ## Seeds and deletions -/

theorem BackfillInv.seed (hs : BackfillInv sha256 now .none s) {backfillId subscriptionId cutoffAt jobId db'}
    (hnew : backfillId ∉ s.drawn) (hsubscribed : (s.db.subscriptions.find? subscriptionId).isSome = true)
    (h : seedSubscriptionBackfill sha256 s.db now backfillId subscriptionId cutoffAt jobId = .some db') :
    BackfillInv sha256 now .none { s with db := db', drawn := backfillId :: s.drawn } := by
  unfold seedSubscriptionBackfill at h
  split at h
  · cases h
  · obtain ⟨backfills, hins, h⟩ := Option.bind_eq_some_iff.1 h
    obtain ⟨⟨inserted, queue⟩, henq, h⟩ := Option.bind_eq_some_iff.1 h
    obtain rfl := Option.some.inj h
    have hholed := hs.insertBackfill hins hnew ⟨rfl, fun _ => rfl, rfl, rfl, rfl⟩ hsubscribed
    have hmem := (Table.insert?_eq_some.1 hins).2 ▸ List.mem_cons_self
    refine BackfillInv.enqueue _ hmem hholed henq fun j hj p hp hid => ?_
    -- no job knows the new id
    obtain ⟨p', hp', -, hdrawn, -⟩ := hs.jobs j hj
    obtain rfl : p' = p := BackfillJson.payload.inj (hp'.symm.trans hp)
    exact absurd hdrawn (hid ▸ hnew)

theorem BackfillInv.insertSubscription (hs : BackfillInv sha256 now .none s) {row subscriptions}
    (h : s.db.subscriptions.insert? row = .some subscriptions) :
    BackfillInv sha256 now .none { s with db := { s.db with subscriptions := subscriptions } } :=
  { hs with
    subscribed := by
      intro k hk
      obtain ⟨sub, hsub⟩ := Option.isSome_iff_exists.1 (hs.subscribed k hk)
      obtain ⟨hmem, hid⟩ := Table.find?_eq_some.1 hsub
      have hmem' : sub ∈ subscriptions.rows := by
        rw [(Table.insert?_eq_some.1 h).2]
        exact List.mem_cons_of_mem _ hmem
      show (subscriptions.find? k.subscriptionId).isSome = true
      rw [Table.find?_eq_some.2 ⟨hmem', hid⟩]
      rfl }

theorem BackfillInv.subscribe (hs : BackfillInv sha256 now .none s) {subscriptionId userId podcastId backfillId jobId}
    (hnew : backfillId ∉ s.drawn) : BackfillInv sha256 now .none
      (s.seeded backfillId (PodcastBackfill.subscribe sha256 s.db now subscriptionId userId podcastId backfillId jobId)) := by
  cases h : PodcastBackfill.subscribe sha256 s.db now subscriptionId userId podcastId backfillId jobId with
  | none => exact hs
  | some db' =>
    unfold PodcastBackfill.subscribe at h
    split at h
    · obtain rfl := Option.some.inj h
      exact hs.draw backfillId
    · obtain ⟨subscriptions, hins, h⟩ := Option.bind_eq_some_iff.1 h
      refine (hs.insertSubscription hins).seed hnew ?_ h
      obtain ⟨-, hrows⟩ := Table.insert?_eq_some.1 hins
      show (subscriptions.find? subscriptionId).isSome = true
      have hmem : (⟨subscriptionId, userId, podcastId⟩ : PodcastSubscription) ∈ subscriptions.rows := by
        rw [hrows]
        exact List.mem_cons_self
      rw [show subscriptions.find? subscriptionId = .some _ from Table.find?_of_mem hmem]
      rfl

theorem mem_subscriptionOf {db : BackfillDb} {userId podcastId subscription}
    (h : db.subscriptionOf userId podcastId = .some subscription) : subscription ∈ db.subscriptions.rows :=
  List.mem_of_find?_eq_some h

theorem BackfillInv.retry (hs : BackfillInv sha256 now .none s) {userId podcastId backfillId jobId} (hnew : backfillId ∉ s.drawn) :
    BackfillInv sha256 now .none
      (s.seeded backfillId (retrySubscriptionBackfill sha256 s.db now userId podcastId backfillId jobId)) := by
  cases h : retrySubscriptionBackfill sha256 s.db now userId podcastId backfillId jobId with
  | none => exact hs
  | some db' =>
    obtain ⟨subscription, hsub, h⟩ := Option.bind_eq_some_iff.1 h
    obtain ⟨current, hcurrent, h⟩ := Option.bind_eq_some_iff.1 h
    split at h
    · obtain rfl := Option.some.inj h
      exact hs.draw backfillId
    · refine (hs.delete _ s.orphaned (fun row hrow _ => hs.subscribed row hrow) fun b hb => ?_).seed hnew ?_ h
      · exact ⟨(hs.orphaned b hb).1, fun row hrow _ => (hs.orphaned b hb).2 row hrow⟩
      · show (s.db.subscriptions.find? subscription.id).isSome = true
        rw [Table.find?_of_mem (mem_subscriptionOf hsub)]
        rfl

theorem BackfillInv.unsubscribe (hs : BackfillInv sha256 now .none s) (userId podcastId : Uuid) :
    BackfillInv sha256 now .none { s with
      db := (PodcastBackfill.unsubscribe s.db userId podcastId).2
      orphaned := (PodcastBackfill.unsubscribe s.db userId podcastId).1.toList ++ s.orphaned } := by
  unfold PodcastBackfill.unsubscribe
  split
  · exact hs
  · rename_i subscription hsub
    refine hs.delete _ _ (fun row hrow hkept => ?_) fun b hb => ?_
    · -- another subscription's backfill
      obtain ⟨sub, hfound⟩ := Option.isSome_iff_exists.1 (hs.subscribed row hrow)
      obtain ⟨hmem, hid⟩ := Table.find?_eq_some.1 hfound
      have hne : (sub.id == subscription.id) = false := by rw [hid]; exact hkept
      rw [Table.find?_eq_some.2 ⟨Table.mem_deleteWhere.2 ⟨hmem, hne⟩, hid⟩]
      rfl
    · rcases List.mem_append.1 hb with hb | hb
      · obtain ⟨removed, hfound, rfl⟩ := Option.map_eq_some_iff.1 (Option.mem_toList.1 hb)
        have hmem := List.mem_of_find?_eq_some hfound
        have hof := List.find?_some hfound
        refine ⟨(hs.records removed hmem).1, fun row hrow hkept hid => ?_⟩
        obtain rfl : row = removed := Table.eq_of_key hrow hmem hid
        rw [hof] at hkept
        cases hkept
      · exact ⟨(hs.orphaned b hb).1, fun row hrow _ => (hs.orphaned b hb).2 row hrow⟩

theorem BackfillInv.revoke (hs : BackfillInv sha256 now .none s) {backfillId} (hgone : backfillId ∈ s.orphaned) :
    BackfillInv sha256 now .none { s with db := revokeSubscriptionJobs s.db backfillId } := by
  refine hs.setQueue (KeepsJobs.of_subset fun k hk => (Table.mem_deleteWhere.1 hk).1) .none (fun _ h => h)
    fun row hrow _ _ ⟨job, hj, hp, hl⟩ => ⟨job, Table.mem_deleteWhere.2 ⟨hj, ?_⟩, hp, hl⟩
  have hne : (row.id == backfillId) = false := by simpa using (hs.orphaned backfillId hgone).2 row hrow
  rw [hp]
  simp [Payload.contains, PodcastSubscriptionBackfill.payload, hne]

/-! ## Attempts -/

theorem BackfillInv.joined_eq (hs : BackfillInv sha256 now hole s) (backfillId : Uuid) :
    s.db.joined backfillId = s.db.backfills.find? backfillId := by
  unfold BackfillDb.joined
  cases h : s.db.backfills.find? backfillId with
  | none => rfl
  | some row => simp [hs.subscribed row (Table.find?_eq_some.1 h).1]

theorem BackfillInv.returns (hs : BackfillInv sha256 now .none s) {worker a p} (ha : s.workers worker = .some a)
    (hp : a.payload = .payload p) (hpast : PastIts sha256 s.db (.payload p)) (result : BackfillResult) :
    BackfillInv sha256 now .none (s.setWorker worker (.some { a with stage := .returned result })) := by
  refine hs.advance ha hp (.returned result) (fun _ h => by cases h) fun _ _ j hj hheld _ => ?_
  rw [(hs.runs worker a ha j hj hheld).1, hp]
  exact hpast

theorem pastIts_of_missing {db : BackfillDb} {p : BackfillPayload} (h : db.backfills.find? p.backfillId = .none) :
    PastIts sha256 db (.payload p) := by
  intro row hrow _ heq
  obtain rfl := BackfillJson.payload.inj heq
  exact Table.find?_eq_none.1 h row hrow rfl

theorem pastIts_of_row {db : BackfillDb} {p : BackfillPayload} {row} (hrow : row ∈ db.backfills.rows) (hid : row.id = p.backfillId)
    (h : row.ended = true ∨ p.expectedStepNo < row.stepNo) : PastIts sha256 db (.payload p) := by
  intro k hk hlive heq
  obtain rfl := BackfillJson.payload.inj heq
  obtain rfl : k = row := Table.eq_of_key hk hrow hid.symm
  rcases h with h | h
  · rw [h] at hlive
    cases hlive
  · exact absurd h (lt_irrefl _)

theorem BackfillInv.preflight (hs : BackfillInv sha256 now .none s) {worker a p t} (ha : s.workers worker = .some a)
    (hp : a.payload = .payload p) (h : s.preflight sha256 worker a p = .ok t) : BackfillInv sha256 now .none t := by
  obtain ⟨read, hread, h⟩ := bind_eq_ok.1 h
  obtain rfl := Except.ok.inj h
  unfold PodcastBackfill.preflight at hread
  rw [hs.joined_eq] at hread
  split at hread
  · rename_i hmissing
    cases hread
    exact hs.returns ha hp (pastIts_of_missing hmissing) _
  · rename_i row hfound
    obtain ⟨hrow, hid⟩ := Table.find?_eq_some.1 hfound
    split at hread
    · rename_i hlt
      cases hread
      exact hs.returns ha hp (pastIts_of_row hrow hid (.inr hlt)) _
    · split at hread
      · cases hread
      · rename_i hstep
        split at hread
        · cases hread
        · cases hread
          refine hs.advance ha hp (.fetching row.cursor) (fun cursor hc => ?_) fun _ h => by cases h
          cases hc
          refine ⟨hid ▸ (hs.records row hrow).1, fun k hk hkid => ?_⟩
          obtain rfl : k = row := Table.eq_of_key hk hrow (hkid.trans hid.symm)
          exact ⟨by omega, fun _ => rfl⟩

/-! ## Pages -/

theorem ended_advance (now : Instant) (nextCursor : Option BackfillCursor) (processed added : Nat) (limited : Bool)
    {row : PodcastSubscriptionBackfill} (hlive : row.ended = false) :
    (row.advance now nextCursor processed added limited).endings = (pageEnding nextCursor limited).toList := by
  obtain ⟨_, _, _, _, _, _, _, _, completedAt, sourceLimitedAt, failedAt, _, _⟩ := row
  simp only [PodcastSubscriptionBackfill.ended, Bool.or_eq_false_iff, Option.isSome_eq_false_iff, Option.isNone_iff_eq_none] at hlive
  obtain ⟨⟨rfl, rfl⟩, rfl⟩ := hlive
  cases limited <;> cases nextCursor <;> rfl

theorem applyPage_ok {db db' : BackfillDb} {row : PodcastSubscriptionBackfill} {fetched ingest jobId result ending}
    (h : applyPage sha256 db now row fetched ingest jobId = .ok (result, ending, db')) :
    ∃ limited nextCursor processed added terminal, (nextCursor = if limited then .none else fetched.nextCursor) ∧
      result = .applied processed added terminal ∧ ending = pageEnding nextCursor limited ∧
      ((nextCursor = .none ∧ db' = db.updateBackfill row.id (·.advance now nextCursor processed added limited)) ∨
        ∃ inserted queue, nextCursor ≠ .none ∧
          enqueueBackfillStep sha256 db.queue now jobId row.id (row.stepNo + 1) nextCursor = .some (inserted, queue) ∧
          db' = { db.updateBackfill row.id (·.advance now nextCursor processed added limited) with queue := queue }) := by
  unfold applyPage at h
  split at h
  dsimp only at h
  split at h
  · rename_i hnone
    simp only [Except.ok.injEq, Prod.mk.injEq] at h
    obtain ⟨rfl, rfl, rfl⟩ := h
    exact ⟨_, _, _, _, _, rfl, rfl, rfl, .inl ⟨hnone, rfl⟩⟩
  · rename_i cursor hsome
    split at h
    · cases h
    · rename_i inserted queue henq
      simp only [Except.ok.injEq, Prod.mk.injEq] at h
      obtain ⟨rfl, rfl, rfl⟩ := h
      refine ⟨_, _, _, _, _, rfl, rfl, rfl, .inr ⟨inserted, queue, by simp [hsome], ?_, rfl⟩⟩
      rw [hsome]
      exact henq

theorem BackfillInv.page (hs : BackfillInv sha256 now .none s) {row} (hrow : row ∈ s.db.backfills.rows) (hlive : row.ended = false)
    {fetched ingest jobId result ending db'} (h : applyPage sha256 s.db now row fetched ingest jobId = .ok (result, ending, db')) :
    ∃ processed added terminal, result = .applied processed added terminal ∧
      BackfillInv sha256 now .none (BackfillState.record { s with db := db' } row.id
        (.page ⟨row.stepNo, row.cursor, ⟨processed, added⟩, fetched.nextCursor⟩ ending)) ∧
      ∀ k ∈ db'.backfills.rows, k.id = row.id → row.stepNo < k.stepNo := by
  obtain ⟨limited, nextCursor, processed, added, terminal, hnext, rfl, rfl, hdb⟩ := applyPage_ok h
  refine ⟨processed, added, terminal, rfl, ?_⟩
  obtain ⟨-, hrec⟩ := hs.records row hrow
  have hnil : Traversal.endings (s.history row.id) = [] := hrec.endings ▸ endings_eq_nil_iff.2 hlive
  have hends : (row.advance now nextCursor processed added limited).endings = (pageEnding nextCursor limited).toList :=
    ended_advance now nextCursor processed added limited hlive
  have hnew : Records (s.history row.id ++ [.page ⟨row.stepNo, row.cursor, ⟨processed, added⟩, fetched.nextCursor⟩
      (pageEnding nextCursor limited)]) (row.advance now nextCursor processed added limited) := {
    stepNo := by simp [PodcastSubscriptionBackfill.advance, hrec.stepNo]
    cursor := by
      intro hnot
      have hempty := endings_eq_nil_iff.2 hnot
      rw [hends] at hempty
      -- an unfinished backfill is not limited
      cases limited with
      | true => simp [pageEnding] at hempty
      | false => simp [PodcastSubscriptionBackfill.advance, hnext]
    processedCount := by simp [PodcastSubscriptionBackfill.advance, hrec.processedCount]
    addedCount := by simp [PodcastSubscriptionBackfill.advance, hrec.addedCount]
    endings := by rw [hends, endings_page, hnil, List.nil_append] }
  have hstep := hs.step hrow (·.advance now nextCursor processed added limited) (by intro _; rfl) _ (by simp)
    ((hs.inOrder row.id).page hnil hrec.stepNo (hrec.cursor hlive) (pageEnding nextCursor limited)) hnew rfl
    (Nat.le_succ _) (fun heq => absurd heq (Nat.succ_ne_self _)) fun _ => Nat.lt_succ_self _
  have hself : row.advance now nextCursor processed added limited ∈
      (s.db.updateBackfill row.id (·.advance now nextCursor processed added limited)).backfills.rows :=
    (mem_updateBackfill (by intro _; rfl)).2 ⟨row, hrow, if_pos rfl⟩
  have hat : ∀ k ∈ (s.db.updateBackfill row.id (·.advance now nextCursor processed added limited)).backfills.rows,
      k.id = row.id → k = row.advance now nextCursor processed added limited := fun k hk hid =>
    Table.eq_of_key hk hself hid
  rcases hdb with ⟨hnone, rfl⟩ | ⟨inserted, queue, hsome, henq, rfl⟩
  · refine ⟨hstep.close fun k hk hid => ?_, fun k hk hid => ?_⟩
    · rw [hat k hk hid]
      by_contra hnot
      have hempty := endings_eq_nil_iff.2 (by simpa using hnot)
      rw [hends, hnone] at hempty
      cases limited <;> simp [pageEnding] at hempty
    · rw [hat k hk hid]
      exact Nat.lt_succ_self _
  · refine ⟨BackfillInv.enqueue (row.advance now nextCursor processed added limited) hself hstep henq fun j hj p hp hid => ?_, fun k hk hid => ?_⟩
    · -- the jobs there were named no step ahead of the row
      obtain ⟨p', hp', -, -, hfenced⟩ := hs.jobs j hj
      obtain rfl : p' = p := BackfillJson.payload.inj (hp'.symm.trans hp)
      exact Nat.lt_succ_of_le (hfenced row hrow hid.symm).1
    · rw [hat k hk hid]
      exact Nat.lt_succ_self _

theorem BackfillInv.apply (hs : BackfillInv sha256 now .none s) {worker a p cursor fetched ingest jobId t}
    (ha : s.workers worker = .some a) (hp : a.payload = .payload p) (hstage : a.stage = .fetching cursor)
    (h : s.apply sha256 now worker a p cursor fetched ingest jobId = .ok t) : BackfillInv sha256 now .none t := by
  obtain ⟨⟨result, ending, db'⟩, happly, h⟩ := bind_eq_ok.1 h
  obtain rfl := Except.ok.inj h
  unfold PodcastBackfill.apply at happly
  split at happly
  · rename_i hrefused
    cases happly
    refine hs.advance ha hp (.returned .staleJobAttempt) (fun _ h => by cases h) fun _ _ j hj hheld hleased => ?_
    exact absurd hleased (not_leased_of_refused hs.runs ha hrefused hj hheld)
  · rename_i job queue hgranted
    have hq : BackfillInv sha256 now .none (s.setQueue queue) :=
      hs.setQueue (KeepsJobs.lockAndRenew hgranted) .none (fun _ h => h) fun _ _ _ _ hl =>
        HasLive.renew hgranted hl fun _ hg => ⟨worker, JobRow.ownedBy_of_attempt hg⟩
    have haq : (s.setQueue queue).workers worker = .some a := ha
    unfold applyLeased at happly
    have hjoined : BackfillDb.joined { s.db with queue := queue } p.backfillId = s.db.backfills.find? p.backfillId :=
      hq.joined_eq p.backfillId
    rw [hjoined] at happly
    split at happly
    · rename_i hmissing
      cases happly
      exact hq.returns haq hp (pastIts_of_missing hmissing) _
    · rename_i row hfound
      obtain ⟨hrow, hid⟩ := Table.find?_eq_some.1 hfound
      split at happly
      · rename_i hlt
        cases happly
        exact hq.returns haq hp (pastIts_of_row hrow hid (.inr hlt)) _
      · split at happly
        · cases happly
        · split at happly
          · cases happly
          · split at happly
            · rename_i hended
              cases happly
              exact hq.returns haq hp (pastIts_of_row hrow hid (.inl hended)) _
            · rename_i hlt hgt _ hlive
              obtain ⟨processed, added, terminal, rfl, hpage, hahead⟩ := hq.page hrow (by simpa using hlive) happly
              have hstep : row.stepNo = p.expectedStepNo := by omega
              have hcursor : row.cursor = cursor := ((hs.fetched worker a p cursor ha hp hstage).2 row hrow hid).2 hstep
              rw [hid, hstep, hcursor] at hpage
              refine hpage.returns haq hp (fun k hk _ heq => ?_) _
              obtain rfl := BackfillJson.payload.inj heq
              have hpast := hahead k hk hid.symm
              rw [hstep] at hpast
              exact absurd hpast (lt_irrefl _)

/-! ## Ends of a job -/

theorem BackfillInv.deadLetterTarget_iff (hs : BackfillInv sha256 now hole s) {job j : JobRow BackfillJson} (hj : j ∈ s.db.queue.rows)
    (hpay : job.payload = j.payload) {row : PodcastSubscriptionBackfill} : deadLetterTarget sha256 s.db job = .some row ↔
      row ∈ s.db.backfills.rows ∧ job.payload = .payload (row.payload sha256) ∧ row.ended = false := by
  obtain ⟨p, hp, -⟩ := hs.jobs j hj
  simp only [deadLetterTarget, hpay, hp, Option.filter_eq_some_iff, Bool.and_eq_true, beq_iff_eq, Bool.not_eq_true', Table.find?_eq_some]
  constructor
  · rintro ⟨⟨hrow, hid⟩, ⟨hstep, -⟩, hlive⟩
    exact ⟨hrow, congrArg _ (hs.payload_of_step hj hp hrow hid hstep).symm, hlive⟩
  · rintro ⟨hrow, heq, hlive⟩
    obtain rfl := BackfillJson.payload.inj heq
    exact ⟨⟨hrow, rfl⟩, ⟨rfl, rfl⟩, hlive⟩

theorem endings_fail (now : Instant) (job : JobRow BackfillJson) {row : PodcastSubscriptionBackfill} (hlive : row.ended = false) :
    (row.fail now job).endings = [.failed] := by
  obtain ⟨_, _, _, _, _, _, _, _, completedAt, sourceLimitedAt, failedAt, _, _⟩ := row
  simp only [PodcastSubscriptionBackfill.ended, Bool.or_eq_false_iff, Option.isSome_eq_false_iff, Option.isNone_iff_eq_none] at hlive
  obtain ⟨⟨rfl, rfl⟩, rfl⟩ := hlive
  rfl

theorem BackfillInv.fail (hs : BackfillInv sha256 now (.some row.id) s) (hrow : row ∈ s.db.backfills.rows) (hlive : row.ended = false)
    (job : JobRow BackfillJson) : BackfillInv sha256 now .none
      (BackfillState.record { s with db := s.db.updateBackfill row.id (·.fail now job) } row.id (.stop .failed)) := by
  obtain ⟨-, hrec⟩ := hs.records row hrow
  have hnil : Traversal.endings (s.history row.id) = [] := hrec.endings ▸ endings_eq_nil_iff.2 hlive
  have hends : (row.fail now job).endings = [.failed] := endings_fail now job hlive
  have hended : (row.fail now job).ended = true := by simp [PodcastSubscriptionBackfill.fail, PodcastSubscriptionBackfill.ended]
  have hnew : Records (s.history row.id ++ [.stop .failed]) (row.fail now job) := {
    stepNo := by rw [pages_stop]; exact hrec.stepNo
    cursor := by simp [hended]
    processedCount := by rw [pages_stop]; exact hrec.processedCount
    addedCount := by rw [pages_stop]; exact hrec.addedCount
    endings := by rw [hends, endings_stop, hnil, List.nil_append] }
  have hstep := hs.step hrow (·.fail now job) (by intro _; rfl) (.stop .failed)
    (fun b hb he => hb (Option.some.inj he).symm) ((hs.inOrder row.id).stop hnil .failed) hnew rfl (le_refl _) (fun _ => rfl)
    fun hnot => by rw [hended] at hnot; cases hnot
  refine hstep.close fun k hk hid => ?_
  obtain ⟨k₀, hk₀, hkeq⟩ := (mem_updateBackfill (by intro _; rfl)).1 hk
  by_cases hk₀id : k₀.id = row.id
  · rw [if_pos hk₀id] at hkeq
    rw [← hkeq]
    simp [PodcastSubscriptionBackfill.fail, PodcastSubscriptionBackfill.ended]
  · rw [if_neg hk₀id] at hkeq
    exact absurd (hkeq ▸ hid) hk₀id

theorem BackfillInv.settled (hs : BackfillInv sha256 now .none s) {result : Option (JobRow BackfillJson × Queue BackfillJson)}
    (h : ∀ job queue, result = .some (job, queue) → KeepsJobs now s.db.queue queue ∧ (job.status = .dead ∨ job.live) ∧
      ∃ jobId guard f hf, s.db.queue.updateJob jobId guard f hf = .some (job, queue) ∧
        ∀ j : JobRow BackfillJson, (f j).payload = j.payload) :
    BackfillInv sha256 now .none (s.settled sha256 now result) := by
  cases hr : result with
  | none => exact hs
  | some r =>
    obtain ⟨job, queue⟩ := r
    obtain ⟨hkeep, hend, jobId, guard, f, hf, hupdate, hpayload⟩ := h job queue hr
    simp only [BackfillState.settled]
    by_cases hdead : job.status = .dead
    · rw [if_pos hdead]
      obtain ⟨j, hj, -, -, rfl, -⟩ := Queue.mem_updateJob hupdate
      have htarget_iff : ∀ row, _ := fun row => @BackfillInv.deadLetterTarget_iff _ _ _ _ hs _ _ hj (hpayload j) row
      unfold BackfillState.deadLettered deadLetterBackfill
      rw [show deadLetterTarget sha256 (s.setQueue queue).db (f j) = deadLetterTarget sha256 s.db (f j) from rfl]
      cases htarget : deadLetterTarget sha256 s.db (f j) with
      | none =>
        refine hs.setQueue hkeep .none (by simp) fun row hrow hlive _ hl => HasLive.updateJob hupdate hpayload hl fun heq => ?_
        rw [(htarget_iff row).2 ⟨hrow, heq, hlive⟩] at htarget
        cases htarget
      | some row =>
        obtain ⟨hrow, -, hlive⟩ := (htarget_iff row).1 htarget
        -- only the backfill the dead job is current for loses its job
        have hholed : BackfillInv sha256 now (.some row.id) (s.setQueue queue) := by
          refine hs.setQueue hkeep (.some row.id) (by simp) fun k hk hklive hne hl =>
            HasLive.updateJob hupdate hpayload hl fun heq => ?_
          rw [(htarget_iff k).2 ⟨hk, heq, hklive⟩] at htarget
          exact absurd (congrArg PodcastSubscriptionBackfill.id (Option.some.inj htarget)).symm fun hid => hne (congrArg _ hid)
        exact hholed.fail hrow hlive (f j)
    · rw [if_neg hdead]
      exact hs.setQueue hkeep .none (fun _ h => h) fun row _ _ _ hl =>
        HasLive.updateJob hupdate hpayload hl fun _ => hend.resolve_left hdead

theorem BackfillInv.complete (hs : BackfillInv sha256 now .none s) {worker a result} (ha : s.workers worker = .some a)
    (hstage : a.stage = .returned result) {r job queue}
    (h : s.db.queue.completeJob now a.jobId worker r = .some (job, queue)) : BackfillInv sha256 now .none (s.setQueue queue) := by
  refine hs.setQueue (KeepsJobs.completeJob h) .none (fun _ h => h) fun row hrow hlive _ hl =>
    HasLive.updateJob h (fun _ => rfl) hl fun heq => ?_
  obtain ⟨j, hj, hid, hg, rfl, -⟩ := Queue.mem_updateJob h
  obtain ⟨hr, hc, hlease⟩ := JobRow.ownedBy_iff.1 hg
  exact absurd heq (hs.returned worker a result ha hstage j hj ⟨hid, hr, hc⟩ hlease row hrow hlive)

theorem failed_live {delays : List Int} {errorCode errorMessage : String} {resultPayload : Option BackfillJson}
    (j : JobRow BackfillJson) : (Queue.failed now errorCode errorMessage delays resultPayload j).status = .dead ∨
      (Queue.failed now errorCode errorMessage delays resultPayload j).live := by
  simp only [Queue.failed, JobRow.live]
  split
  · exact .inl rfl
  · exact .inr (by simp)

/-! ## Runs -/

theorem BackfillInv.act (hs : BackfillInv sha256 now .none s) {ev t} (h : s.act sha256 now ev = .some t) :
    BackfillInv sha256 now .none t := by
  cases ev with
  | subscribe subscriptionId userId podcastId backfillId jobId =>
    simp only [BackfillState.act] at h
    split at h
    · cases h
    · rename_i hnew
      obtain rfl := Option.some.inj h
      exact hs.subscribe hnew
  | unsubscribe userId podcastId =>
    obtain rfl := Option.some.inj h
    exact hs.unsubscribe userId podcastId
  | revoke backfillId =>
    simp only [BackfillState.act] at h
    split at h
    · rename_i hgone
      obtain rfl := Option.some.inj h
      exact hs.revoke hgone
    · cases h
  | retry userId podcastId backfillId jobId =>
    simp only [BackfillState.act] at h
    split at h
    · cases h
    · rename_i hnew
      obtain rfl := Option.some.inj h
      exact hs.retry hnew
  | claimNext worker leaseSeconds allowedKinds locked =>
    simp only [BackfillState.act] at h
    split at h
    · cases h
    · obtain rfl := Option.some.inj h
      exact hs.claimed fun row q' hclaim => ClaimedRow.of_claimNextJob hclaim
  | claimExact worker jobId leaseSeconds allowedKinds =>
    simp only [BackfillState.act] at h
    split at h
    · cases h
    · obtain rfl := Option.some.inj h
      exact hs.claimed fun row q' hclaim => ClaimedRow.of_claimJob hclaim
  | heartbeat worker =>
    obtain ⟨a, ha, rfl⟩ := Option.map_eq_some_iff.1 h
    cases hbeat : s.db.queue.heartbeatJob now a.jobId worker backfillJobLeaseSeconds with
    | none => exact hs
    | some r =>
      exact hs.setQueue (KeepsJobs.heartbeatJob hbeat) .none (fun _ h => h) fun _ _ _ _ hl =>
        HasLive.renew hbeat hl fun _ hg => ⟨worker, hg⟩
  | preflight worker =>
    simp only [BackfillState.act] at h
    split at h
    · rename_i ha
      exact hs.preflight ha rfl (toOption_eq_some.1 h)
    · cases h
  | apply worker fetched ingest newJobId =>
    simp only [BackfillState.act] at h
    split at h
    · rename_i ha
      exact hs.apply ha rfl rfl (toOption_eq_some.1 h)
    · cases h
  | complete worker =>
    simp only [BackfillState.act] at h
    split at h
    · rename_i ha
      split at h
      · obtain rfl := Option.some.inj h
        exact hs.idle worker
      · rename_i hcomplete
        obtain rfl := Option.some.inj h
        exact (hs.complete ha rfl hcomplete).idle worker
    · cases h
  | raise worker errorCode errorMessage =>
    obtain ⟨a, ha, rfl⟩ := Option.map_eq_some_iff.1 h
    refine (hs.settled fun job queue hfail => ⟨KeepsJobs.failJob hfail, ?_, _, _, _, _, hfail, fun _ => rfl⟩).idle worker
    obtain ⟨j, -, -, -, rfl, -⟩ := Queue.mem_updateJob hfail
    exact failed_live j
  | stop worker =>
    obtain rfl := Option.some.inj h
    exact hs.idle worker
  | deadLetterExpired allowedKinds locked =>
    obtain rfl := Option.some.inj h
    refine hs.settled fun job queue hdead => ?_
    obtain ⟨hkeep, hstatus, hupdate⟩ := deadLetterExpiredJob_eq hdead
    exact ⟨hkeep, .inl hstatus, hupdate⟩
  | pruneJobs succeededAfterDays deadAfterDays limit excludedDeadKinds locked =>
    obtain rfl := Option.some.inj h
    exact hs.setQueue (KeepsJobs.of_subset fun k hk => (Table.mem_deleteWhere.1 hk).1) .none (fun _ h => h) fun _ _ _ _ hl =>
      hl.prune now succeededAfterDays deadAfterDays limit excludedDeadKinds locked
  | requeueDead jobId =>
    simp only [BackfillState.act] at h
    split at h
    · obtain rfl := Option.some.inj h
      exact hs
    · rename_i hrequeue
      obtain rfl := Option.some.inj h
      refine hs.setQueue (KeepsJobs.requeueDeadJob hrequeue) .none (fun _ h => h) fun _ _ _ _ hl =>
        HasLive.updateJob hrequeue (fun _ => rfl) hl fun _ => ?_
      obtain ⟨j, -, -, -, rfl, -⟩ := Queue.mem_updateJob hrequeue
      simp [JobRow.live]

theorem BackfillInv.next {t : BackfillState} (hs : BackfillInv sha256 s.clock .none s) {ev : Instant × BackfillEvent}
    (h : s.next sha256 ev = .some t) : BackfillInv sha256 t.clock .none t := by
  obtain ⟨now, ev⟩ := ev
  simp only [BackfillState.next] at h
  split at h
  · cases h
  · rename_i hle
    obtain ⟨u, hact, rfl⟩ := Option.map_eq_some_iff.1 h
    have hu : BackfillInv sha256 now .none u := (hs.tick (not_lt.1 hle)).act hact
    exact { hu with }

theorem backfillInv_of_reachable (h : (backfillSystem sha256).Reachable s) : BackfillInv sha256 s.clock .none s :=
  Transition.System.Reachable.invariant (I := fun s => BackfillInv sha256 s.clock .none s) (fun _ h0 => .init h0 _)
    (fun _ _ _ hstep hs => hs.next hstep) h

/-- **Every page of a backfill is applied once and in its place.** Its row counts
the pages applied and what they brought, it is ended at most once and by what
ended its history, and until then a live job is for exactly its current step. -/
theorem exactly_once (sha256 : Bytes → Bytes) {s : BackfillState} (h : (backfillSystem sha256).Reachable s) :
    (∀ b, InOrder (s.history b)) ∧
    ∀ row ∈ s.db.backfills.rows,
      row.stepNo = (pages (s.history row.id)).length ∧
      row.processedCount = ((pages (s.history row.id)).map (·.page.processedCount)).sum ∧
      row.addedCount = ((pages (s.history row.id)).map (·.page.addedCount)).sum ∧
      row.endings = Traversal.endings (s.history row.id) ∧ row.endings.length ≤ 1 ∧
      (row.ended = false → row.cursor = cursorAfter (pages (s.history row.id)) ∧
        HasLive s.db.queue (.payload (row.payload sha256))) := by
  have hs := backfillInv_of_reachable h
  refine ⟨hs.inOrder, fun row hrow => ?_⟩
  obtain ⟨-, hrec⟩ := hs.records row hrow
  refine ⟨hrec.stepNo, hrec.processedCount, hrec.addedCount, hrec.endings, ?_, fun hlive => ?_⟩
  · rw [hrec.endings]
    exact (hs.inOrder row.id).length_endings_le
  · exact ⟨hrec.cursor hlive, hs.current row hrow hlive (by simp)⟩

def knownDigests (raw : Bytes) : Bytes :=
  let digest := if raw = ascii "null" then "74234e98afe7498fb5daf1f36ac2d78acc339464f950703b8c019892f982b90b"
    else "3e2c431225ea52a4dc42d131adacbf09adb7df859e9ca9ce6e8723a7c308be0a"
  (Hex.decode digest.toList).getD []

def secondPage : BackfillCursor := ⟨"https://pod/2".toList, ["https://pod/1".toList]⟩

/-- A page is applied by an attempt that then crashes, and read again by the next
one; a worker that lost its lease comes back with the page. -/
def reclaimedBackfill : List (Instant × BackfillEvent) :=
  [(0, .subscribe 1 2 3 5 7), (10, .claimNext "a" 900 .none []), (11, .preflight "a"),
    (1000000000, .claimNext "b" 900 .none []), (1000000001, .preflight "b"),
    (1000000002, .apply "b" ⟨[⟨.some 0, true⟩, ⟨.none, true⟩], .some secondPage, false⟩ List.length 8),
    (1000000003, .apply "a" ⟨[⟨.some 0, true⟩], .some secondPage, false⟩ List.length 9),
    (1000000004, .complete "a"), (1000000005, .complete "b"),
    (1000000006, .claimNext "a" 900 .none []), (1000000007, .preflight "a"),
    (1000000008, .apply "a" ⟨[⟨.some 0, false⟩], .none, false⟩ List.length 9)]

def noBackfills : BackfillState := ⟨⟨.empty, .empty, .empty⟩, 0, fun _ => .none, [], [], fun _ => []⟩

open Transition in
def afterReclaim : BackfillState := last noBackfills (replay (BackfillState.next knownDigests) noBackfills reclaimedBackfill)

theorem exactly_once_reclaimed :
    afterReclaim.history 5 =
      [.page ⟨0, .none, ⟨2, 2⟩, .some secondPage⟩ .none, .page ⟨1, .some secondPage, ⟨1, 0⟩, .none⟩ (.some .sourceLimited)] ∧
    InOrder (afterReclaim.history 5) :=
  ⟨by decide +kernel, (exactly_once knownDigests (Transition.System.reachable_replay reclaimedBackfill
    ⟨rfl, rfl, rfl, rfl, rfl, rfl, rfl⟩)).1 5⟩

end Nexus.PodcastBackfill
