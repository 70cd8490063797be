/-
Transcripts asked for by a query: `forecast_podcast_episode_query_transcripts`
and `request_podcast_episode_query_transcripts`, and the states they meet.

A forecast is a dry run for each eligible episode. A request admits them one
by one in one transaction, which an error rolls back. Each is one step here,
and every episode of a request has the usage date its own clock reading gives.

In every state that requests, phases of runs, failures and repairs reach, an
eligible episode's job is over and holds no reservation
(`queryTranscriptSystem_idle`).

Which episodes a selection names, which of them the viewer may read, the
viewer's entitlements and the state of the index are read from other services,
and so are the text of an id and SHA-256. Collection revisions are not told.
-/
import Nexus.Podcasts.Quota
import Nexus.Primitives
import Mathlib.Data.Char
import Mathlib.Data.List.Lex
import Mathlib.Data.List.Sort

namespace Nexus.Podcasts
open Relational Transition ExceptFacts

/-! ## The two calls -/

/-- `PodcastEpisodeQueryTranscriptTarget` of a viewer, and what its call reads
of other services. -/
structure TranscriptQuery where
  viewerId : Uuid
  reason : TranscriptRequestReason
  /-- The podcast's episodes that the selection names. -/
  selects : Uuid → Bool
  canReadMedia : Uuid → Bool
  entitlements : Entitlements
  semanticIndexRequiresRepair : Uuid → Bool

/-- `… IN ('not_requested', 'failed_provider', 'failed_quota')` -/
def TranscriptStatus.eligible : TranscriptStatus → Bool
  | .notRequested | .failedProvider | .failedQuota => true
  | _ => false

namespace TranscriptionDb

variable (db : TranscriptionDb)

/-- `COALESCE(mts.transcript_state, 'not_requested') IN (…)` -/
def transcriptEligible (mediaId : Uuid) : Bool :=
  ((db.states.find? mediaId).elim .notRequested TranscriptStateRow.transcriptState).eligible

def resolveEpisodeSelectionIds (selects : Uuid → Bool) : List Uuid :=
  ((db.episodes.rows.map EpisodeRow.mediaId).filter selects).insertionSort (· ≤ ·)

def resolveTranscriptEligibleEpisodeIds (selects : Uuid → Bool) : List Uuid :=
  ((db.resolveEpisodeSelectionIds selects).filter db.transcriptEligible).insertionSort (· ≤ ·)

/-- `request_media_transcript_for_viewer`, of an episode of the query: each call
reads what the calls before it wrote. -/
def requestOne (q : TranscriptQuery) (dryRun : Bool) (usageDate : Date) (enqueued : Bool) (mediaId : Uuid) :
    Except ApiError (TranscriptionDb × TranscriptRequestResponse) :=
  if !q.canReadMedia mediaId then .error ⟨.mediaNotFound, "Media not found"⟩
  else
    let o := db.observe q.viewerId mediaId q.entitlements (q.semanticIndexRequiresRepair mediaId)
    match db.requestMediaTranscript q.viewerId q.reason dryRun false o usageDate enqueued with
    | (db, .ok response) => .ok (db, response)
    | (_, .error e) => .error e

/-- The calls for the episodes, one after the other. -/
def requestEach (q : TranscriptQuery) (dryRun : Bool) (usageDate : Uuid → Date) (enqueued : Uuid → Bool) :
    TranscriptionDb → List Uuid → Except ApiError (TranscriptionDb × List TranscriptRequestResponse)
  | db, [] => .ok (db, [])
  | db, mediaId :: mediaIds => do
    let (db, response) ← db.requestOne q dryRun (usageDate mediaId) (enqueued mediaId) mediaId
    let (db, responses) ← requestEach q dryRun usageDate enqueued db mediaIds
    .ok (db, response :: responses)

end TranscriptionDb

/-! ## Runs -/

namespace TranscriptionDb

variable {db db' db'' : TranscriptionDb} {m k : Uuid}

/-- The rows of an episode are as they were. -/
structure SameEpisode (db db' : TranscriptionDb) (m : Uuid) : Prop where
  jobs : db'.jobs.find? m = db.jobs.find? m
  states : db'.states.find? m = db.states.find? m

theorem SameEpisode.trans (h : SameEpisode db db' m) (h' : SameEpisode db' db'' m) : SameEpisode db db'' m :=
  ⟨h'.jobs.trans h.jobs, h'.states.trans h.states⟩

theorem sameEpisode_of_eq (hj : db'.jobs = db.jobs) (hs : db'.states = db.states) : SameEpisode db db' m :=
  ⟨by rw [hj], by rw [hs]⟩

/-- The job of an eligible episode is over, and holds no reservation. -/
structure Settled (db : TranscriptionDb) (m : Uuid) : Prop where
  unreserved : db.liveReservation m = .none
  finished : ∀ j, db.jobs.find? m = .some j → j.status = .completed ∨ j.status = .failed

/-- No eligible episode's job is under way. -/
def Idle (db : TranscriptionDb) : Prop := ∀ m, db.transcriptEligible m = true → db.Settled m

theorem SameEpisode.transcriptEligible (h : SameEpisode db db' m) : db'.transcriptEligible m = db.transcriptEligible m := by
  simp only [TranscriptionDb.transcriptEligible, h.states]

theorem Settled.congr (h : db.Settled m) (hjobs : db'.jobs.find? m = db.jobs.find? m) : db'.Settled m := by
  refine ⟨?_, fun j hj => h.finished j (hjobs.symm.trans hj)⟩
  simpa only [liveReservation, hjobs] using h.unreserved

theorem Idle.write (h : db.Idle) (hsame : ∀ k, k ≠ m → SameEpisode db db' k)
    (hm : db'.transcriptEligible m = true → db'.Settled m) : db'.Idle := by
  intro k hk
  by_cases hkm : k = m
  · subst hkm
    exact hm hk
  · have hrows := hsame k hkm
    exact (h k (hrows.transcriptEligible ▸ hk)).congr hrows.jobs

theorem transcriptEligible_of_find? {row : TranscriptStateRow} (h : db.states.find? m = .some row) :
    db.transcriptEligible m = row.transcriptState.eligible := by
  simp only [transcriptEligible, h, Option.elim_some]

/-! ### The rows an operation writes -/

theorem find?_setMediaTranscriptState (db : TranscriptionDb) (m : Uuid) (s c sem) :
    ∃ row, (db.setMediaTranscriptState m s c sem).states.find? m = .some row ∧ row.transcriptState = s := by
  refine ⟨⟨m, s, c, sem.getD ((db.states.find? m).elim .none TranscriptStateRow.semanticStatus)⟩, ?_, rfl⟩
  simp only [setMediaTranscriptState, Table.find?_put, if_pos]

theorem sameEpisode_setState (db : TranscriptionDb) (s c sem) (hk : k ≠ m) :
    SameEpisode db (db.setMediaTranscriptState m s c sem) k := by
  refine ⟨rfl, ?_⟩
  simp only [setMediaTranscriptState, Table.find?_put]
  exact if_neg (Ne.symm hk)

theorem sameEpisode_ensureState (db : TranscriptionDb) (hk : k ≠ m) :
    SameEpisode db (db.ensureMediaTranscriptStateRow m) k := by
  unfold ensureMediaTranscriptStateRow
  split
  · exact ⟨rfl, rfl⟩
  · exact ⟨rfl, by simp only [Table.find?_put]; exact if_neg (Ne.symm hk)⟩

theorem transcriptEligible_ensureState (db : TranscriptionDb) (m k : Uuid) :
    (db.ensureMediaTranscriptStateRow m).transcriptEligible k = db.transcriptEligible k := by
  by_cases hk : k = m
  · subst hk
    unfold ensureMediaTranscriptStateRow
    split
    · rfl
    next hnone =>
      have hnone : db.states.find? k = .none := by simpa using hnone
      simp [transcriptEligible, Table.find?_put, hnone]
  · exact (sameEpisode_ensureState db hk).transcriptEligible

theorem sameEpisode_of_jobs_put {j : TranscriptionJob} (hj : db'.jobs = db.jobs.put j) (hs : db'.states = db.states)
    (hk : k ≠ j.mediaId) : SameEpisode db db' k := by
  refine ⟨?_, by rw [hs]⟩
  rw [hj, Table.find?_put, if_neg (Ne.symm hk)]

theorem sameEpisode_updateJob {f : TranscriptionJob → TranscriptionJob} (db : TranscriptionDb)
    (hf : ∀ j, (f j).mediaId = j.mediaId) (hk : k ≠ m) : SameEpisode db (db.updateJob m f) k := by
  unfold updateJob
  cases hfind : db.jobs.find? m with
  | none => exact ⟨rfl, rfl⟩
  | some j =>
    refine sameEpisode_of_jobs_put rfl rfl ?_
    rwa [hf, (Table.find?_eq_some.1 hfind).2]

theorem release_spec (db : TranscriptionDb) (m : Uuid) : (db.releaseReservedUsageForMedia m).states = db.states ∧
    (db.releaseReservedUsageForMedia m).episodes = db.episodes ∧
    ((db.liveReservation m = .none ∧ db.releaseReservedUsageForMedia m = db) ∨
      ∃ j, db.jobs.find? m = .some j ∧
        (db.releaseReservedUsageForMedia m).jobs = db.jobs.put { j with reservedMinutes := 0, reservationUsageDate := .none }) := by
  unfold releaseReservedUsageForMedia
  rcases claimJobReservation_spec db m with ⟨hnone, hclaim⟩ | ⟨j, r, hfind, -, hclaim⟩
  · rw [hclaim]
    exact ⟨rfl, rfl, .inl ⟨hnone, rfl⟩⟩
  · rw [hclaim]
    dsimp only
    split <;> exact ⟨rfl, rfl, .inr ⟨j, hfind, rfl⟩⟩

theorem sameEpisode_release (db : TranscriptionDb) (hk : k ≠ m) : SameEpisode db (db.releaseReservedUsageForMedia m) k := by
  obtain ⟨hstates, -, ⟨-, hsame⟩ | ⟨j, hfind, hjobs⟩⟩ := release_spec db m
  · rw [hsame]
    exact ⟨rfl, rfl⟩
  · refine sameEpisode_of_jobs_put hjobs hstates ?_
    rwa [(Table.find?_eq_some.1 hfind).2]

theorem ensureUsageDailyRow_rows (db : TranscriptionDb) (u : Uuid) (d : Date) :
    (db.ensureUsageDailyRow u d).jobs = db.jobs ∧ (db.ensureUsageDailyRow u d).states = db.states ∧
      (db.ensureUsageDailyRow u d).episodes = db.episodes := by
  unfold ensureUsageDailyRow
  split <;> exact ⟨rfl, rfl, rfl⟩

theorem reserveUsageMinutes_rows {u : Uuid} {d : Date} {ent : Entitlements} {n : Nat}
    (h : db.reserveUsageMinutesOrRaise u d ent n = .ok db') :
    db'.jobs = db.jobs ∧ db'.states = db.states ∧ db'.episodes = db.episodes := by
  unfold reserveUsageMinutesOrRaise at h
  split at h
  · obtain rfl := Except.ok.inj h
    exact ⟨rfl, rfl, rfl⟩
  · dsimp only at h
    split at h
    · cases h
    · split at h
      · obtain rfl := Except.ok.inj h
        exact ensureUsageDailyRow_rows db u d
      · cases h

theorem commitReserved_spec (db : TranscriptionDb) (m : Uuid) : (db.commitReservedUsageForMedia m).states = db.states ∧
    (db.commitReservedUsageForMedia m = db ∨ ∃ j, db.jobs.find? m = .some j ∧
      (db.commitReservedUsageForMedia m).jobs = db.jobs.put { j with reservedMinutes := 0, reservationUsageDate := .none }) := by
  unfold commitReservedUsageForMedia
  rcases claimJobReservation_spec db m with ⟨-, hclaim⟩ | ⟨j, r, hfind, -, hclaim⟩
  · rw [hclaim]
    exact ⟨rfl, .inl rfl⟩
  · rw [hclaim]
    dsimp only
    cases r.userId with
    | none => exact ⟨rfl, .inr ⟨j, hfind, rfl⟩⟩
    | some u =>
      dsimp only
      generalize hclear : ({ db with
        jobs := db.jobs.put { j with reservedMinutes := 0, reservationUsageDate := .none } } : TranscriptionDb).record
          (.committed r) = cleared
      have hcleared : cleared.jobs = db.jobs.put { j with reservedMinutes := 0, reservationUsageDate := .none } ∧
          cleared.states = db.states := by
        rw [← hclear]
        exact ⟨rfl, rfl⟩
      obtain ⟨hjobs, hstates, -⟩ := ensureUsageDailyRow_rows cleared u r.usageDate
      split <;> exact ⟨hstates.trans hcleared.2, .inr ⟨j, hfind, hjobs.trans hcleared.1⟩⟩

theorem sameEpisode_commitReserved (db : TranscriptionDb) (hk : k ≠ m) :
    SameEpisode db (db.commitReservedUsageForMedia m) k := by
  obtain ⟨hstates, hsame | ⟨j, hfind, hjobs⟩⟩ := commitReserved_spec db m
  · rw [hsame]
    exact ⟨rfl, rfl⟩
  · refine sameEpisode_of_jobs_put hjobs hstates ?_
    rwa [(Table.find?_eq_some.1 hfind).2]

theorem sameEpisode_reset (db : TranscriptionDb) (u : Uuid) (reason n d) (hk : k ≠ m) :
    SameEpisode db (db.resetPodcastTranscriptionJob m u reason n d) k :=
  sameEpisode_of_jobs_put rfl rfl hk

/-! ### The operations keep episodes idle -/

theorem Idle.write_state (h : db.Idle) (hsame : ∀ k, k ≠ m → SameEpisode db db' k) {row : TranscriptStateRow}
    (hrow : db'.states.find? m = .some row) (hstate : row.transcriptState.eligible = false) : db'.Idle := by
  refine h.write hsame fun hm => ?_
  rw [transcriptEligible_of_find? hrow, hstate] at hm
  cases hm

theorem Idle.setState (h : db.Idle) (m : Uuid) {s : TranscriptStatus} (hs : s.eligible = false) (c sem) :
    (db.setMediaTranscriptState m s c sem).Idle := by
  obtain ⟨row, hrow, rfl⟩ := find?_setMediaTranscriptState db m s c sem
  exact h.write_state (fun k hk => sameEpisode_setState db _ c sem hk) hrow hs

theorem Idle.ensureState (h : db.Idle) (m : Uuid) : (db.ensureMediaTranscriptStateRow m).Idle := by
  refine h.write (fun k hk => sameEpisode_ensureState db hk) fun hm => ?_
  rw [transcriptEligible_ensureState] at hm
  refine (h m hm).congr ?_
  rw [(ensureMediaTranscriptStateRow_same m).1]

theorem settled_markFailure (db : TranscriptionDb) (m : Uuid) (code : ApiErrorCode) :
    (db.markPodcastTranscriptionFailure m code).Settled m := by
  have hjobs : (db.markPodcastTranscriptionFailure m code).jobs =
      ((db.updateJob m fun j => { j with status := .failed, errorCode := .some code }).releaseReservedUsageForMedia m).jobs := rfl
  refine ⟨?_, fun j hj => ?_⟩
  · rw [liveReservation_congr hjobs, liveReservation_release, if_pos rfl]
  · have hfailed (j : TranscriptionJob)
        (hj : (db.updateJob m fun j => { j with status := .failed, errorCode := .some code }).jobs.find? m = .some j) :
        j.status = .failed := by
      unfold updateJob at hj
      cases hfind : db.jobs.find? m with
      | none => simp [hfind] at hj
      | some i =>
        have hkey := (Table.find?_eq_some.1 hfind).2
        simp only [hfind, Table.find?_put, hkey, if_true, Option.some.injEq] at hj
        rw [← hj]
    rw [hjobs] at hj
    obtain ⟨-, -, ⟨-, hsame⟩ | ⟨i, hfind, hput⟩⟩ :=
      release_spec (db.updateJob m fun j => { j with status := .failed, errorCode := .some code }) m
    · rw [hsame] at hj
      exact .inr (hfailed j hj)
    · rw [hput, Table.find?_put, if_pos (Table.find?_eq_some.1 hfind).2, Option.some.injEq] at hj
      rw [← hj]
      exact .inr (hfailed i hfind)

theorem sameEpisode_markFailure (db : TranscriptionDb) (code : ApiErrorCode) (hk : k ≠ m) :
    SameEpisode db (db.markPodcastTranscriptionFailure m code) k := by
  have hfailed : SameEpisode db (db.updateJob m fun j => { j with status := .failed, errorCode := .some code }) k :=
    sameEpisode_updateJob db (fun _ => rfl) hk
  exact (hfailed.trans (sameEpisode_release _ hk)).trans (sameEpisode_setState _ _ _ _ hk)

theorem Idle.markFailure (h : db.Idle) (m : Uuid) (code : ApiErrorCode) : (db.markPodcastTranscriptionFailure m code).Idle :=
  h.write (fun _ hk => sameEpisode_markFailure db code hk) fun _ => settled_markFailure db m code

theorem sameEpisode_requestPublisher (db : TranscriptionDb) {o : Observation} (u : Uuid) (reason : TranscriptRequestReason)
    (enqueued : Bool) (hk : k ≠ o.mediaId) : SameEpisode db (db.requestPublisherTranscript u reason o enqueued).1 k :=
  (((sameEpisode_ensureState db hk).trans (sameEpisode_release _ hk)).trans (sameEpisode_reset _ u reason 0 .none hk)).trans
    (sameEpisode_setState _ _ _ _ hk)

theorem Idle.requestPublisher (h : db.Idle) {o : Observation} (u : Uuid) (reason : TranscriptRequestReason) (enqueued : Bool) :
    (db.requestPublisherTranscript u reason o enqueued).1.Idle := by
  obtain ⟨row, hrow, hstate⟩ := find?_setMediaTranscriptState (((db.ensureMediaTranscriptStateRow o.mediaId).releaseReservedUsageForMedia
    o.mediaId).resetPodcastTranscriptionJob o.mediaId u reason 0 .none) o.mediaId .queued .none (.some .none)
  exact h.write_state (fun k hk => sameEpisode_requestPublisher db u reason enqueued hk) hrow (by rw [hstate]; rfl)

theorem sameEpisode_requestGenerated {o : Observation} {u : Uuid} {reason : TranscriptRequestReason} {d : Date} {enqueued : Bool}
    {response : TranscriptRequestResponse} (hrun : db.requestGeneratedTranscript u reason o d enqueued = .ok (db', response))
    (hk : k ≠ o.mediaId) : SameEpisode db db' k := by
  unfold requestGeneratedTranscript at hrun
  obtain ⟨reserved, hres, hrun⟩ := map_eq_ok.1 hrun
  obtain ⟨hjobs, hstates, -⟩ := reserveUsageMinutes_rows hres
  have hqueued := ((sameEpisode_of_eq (m := k) hjobs hstates).trans
    (sameEpisode_reset reserved u reason o.requiredMinutes (.some d) hk)).trans
      (sameEpisode_setState _ .queued .none (.some .none) hk)
  dsimp only at hrun
  split at hrun
  · obtain ⟨rfl, -⟩ := Prod.mk.inj hrun
    exact hqueued
  · obtain ⟨rfl, -⟩ := Prod.mk.inj hrun
    exact hqueued.trans (sameEpisode_markFailure _ _ hk)

theorem Idle.requestGenerated (h : db.Idle) {o : Observation} {u : Uuid} {reason : TranscriptRequestReason} {d : Date}
    {enqueued : Bool} {response : TranscriptRequestResponse}
    (hrun : db.requestGeneratedTranscript u reason o d enqueued = .ok (db', response)) : db'.Idle := by
  have hsame (k : Uuid) (hk : k ≠ o.mediaId) := sameEpisode_requestGenerated hrun hk
  unfold requestGeneratedTranscript at hrun
  obtain ⟨reserved, -, hrun⟩ := map_eq_ok.1 hrun
  dsimp only at hrun
  split at hrun
  · obtain ⟨rfl, -⟩ := Prod.mk.inj hrun
    obtain ⟨row, hrow, hstate⟩ := find?_setMediaTranscriptState (reserved.resetPodcastTranscriptionJob o.mediaId u reason
      o.requiredMinutes (.some d)) o.mediaId .queued .none (.some .none)
    exact h.write_state hsame hrow (by rw [hstate]; rfl)
  · obtain ⟨rfl, -⟩ := Prod.mk.inj hrun
    exact h.write hsame fun _ => settled_markFailure _ _ _

theorem Idle.request (h : db.Idle) (o : Observation) (u : Uuid) (reason : TranscriptRequestReason) (dryRun autoCommit : Bool)
    (d : Date) (enqueued : Bool) : (db.requestMediaTranscript u reason dryRun autoCommit o d enqueued).1.Idle := by
  have hensured : (if o.state.isNone then db.ensureMediaTranscriptStateRow o.mediaId else db).Idle := by
    split
    · exact h.ensureState _
    · exact h
  unfold requestMediaTranscript
  dsimp only
  generalize (if o.state.isNone then db.ensureMediaTranscriptStateRow o.mediaId else db) = ensured at hensured
  split
  · split
    · exact h
    · exact h.requestPublisher u reason enqueued
  split
  · exact h
  split
  · exact hensured
  by_cases hrepair : o.semanticNeedsRepair = true
  · rw [if_pos hrepair]
    cases enqueued
    · exact hensured
    · refine hensured.setState o.mediaId ?_ _ _
      simp only [Observation.semanticNeedsRepair, Bool.and_eq_true] at hrepair
      obtain ⟨s, hs, hready⟩ := (Option.any_eq_true _ _).1 hrepair.1
      simp only [Bool.and_eq_true, Bool.or_eq_true, beq_iff_eq] at hready
      rw [hs, Option.map_some, Option.getD_some]
      rcases hready.1 with hstate | hstate <;> rw [hstate] <;> rfl
  rw [if_neg hrepair]
  split
  · exact hensured
  split
  · split
    · exact hensured
    · exact h
  split
  · exact h
  next hrun => exact hensured.requestGenerated hrun

theorem Idle.requestOne {q : TranscriptQuery} {dryRun : Bool} {d : Date} {enqueued : Bool} {response : TranscriptRequestResponse}
    (h : db.Idle) (hrun : db.requestOne q dryRun d enqueued m = .ok (db', response)) : db'.Idle := by
  unfold TranscriptionDb.requestOne at hrun
  split at hrun
  · cases hrun
  dsimp only at hrun
  have hidle := h.request (db.observe q.viewerId m q.entitlements (q.semanticIndexRequiresRepair m)) q.viewerId q.reason
    dryRun false d enqueued
  split at hrun
  next heq =>
    obtain ⟨rfl, -⟩ := Prod.mk.inj (Except.ok.inj hrun)
    rwa [heq] at hidle
  next => cases hrun

theorem Idle.requestEach {q : TranscriptQuery} {dryRun : Bool} {usageDate : Uuid → Date} {enqueued : Uuid → Bool} :
    ∀ {mediaIds : List Uuid} {db db' : TranscriptionDb} {responses : List TranscriptRequestResponse}, db.Idle →
      TranscriptionDb.requestEach q dryRun usageDate enqueued db mediaIds = .ok (db', responses) → db'.Idle
  | [], db, db', _, h, hrun => by
    obtain ⟨rfl, -⟩ := Prod.mk.inj (Except.ok.inj hrun)
    exact h
  | mediaId :: mediaIds, db, db', _, h, hrun => by
    unfold TranscriptionDb.requestEach at hrun
    obtain ⟨⟨db₁, response⟩, h₁, hrun⟩ := bind_eq_ok.1 hrun
    obtain ⟨⟨db₂, responses⟩, h₂, hrun⟩ := bind_eq_ok.1 hrun
    obtain ⟨rfl, -⟩ := Prod.mk.inj (Except.ok.inj hrun)
    exact Idle.requestEach (h.requestOne h₁) h₂

theorem Idle.prepare {u : Uuid} {reason : TranscriptRequestReason} {ent : Entitlements} {d : Date} (h : db.Idle)
    (hrun : db.preparePodcastTranscription m u reason ent d = .ok db') : db'.Idle := by
  unfold preparePodcastTranscription at hrun
  dsimp only at hrun
  split at hrun
  · cases hrun
  split at hrun
  · cases hrun
  obtain ⟨reserved, hres, rfl⟩ := map_eq_ok.1 hrun
  obtain ⟨hjobs, hstates, -⟩ := reserveUsageMinutes_rows hres
  generalize hafter : reserved.resetPodcastTranscriptionJob m u reason _ (.some d) = after
  obtain ⟨row, hrow, hstate⟩ := find?_setMediaTranscriptState after m .queued .none (.some .none)
  refine h.write_state (fun k hk => ?_) hrow (by rw [hstate]; rfl)
  refine ((sameEpisode_of_eq hjobs hstates).trans ?_).trans (sameEpisode_setState after _ _ _ hk)
  rw [← hafter]
  exact sameEpisode_reset reserved u reason _ (.some d) hk

theorem Idle.running (h : db.Idle) (m : Uuid) : (db.publishRunningState m).Idle := by
  obtain ⟨row, hrow, hstate⟩ := find?_setMediaTranscriptState
    (db.updateJob m fun j => { j with status := .running, errorCode := .none }) m .running .none (.some .none)
  refine h.write_state (fun k hk => ?_) hrow (by rw [hstate]; rfl)
  have hrunning : SameEpisode db (db.updateJob m fun j => { j with status := .running, errorCode := .none }) k :=
    sameEpisode_updateJob db (fun _ => rfl) hk
  exact hrunning.trans (sameEpisode_setState _ _ _ _ hk)

theorem states_updateJob (db : TranscriptionDb) (m : Uuid) (f : TranscriptionJob → TranscriptionJob) :
    (db.updateJob m f).states = db.states := by
  unfold updateJob
  split <;> rfl

theorem Idle.publisherPublished (h : db.Idle) (m : Uuid) : (db.publishPublisherTranscript m).Idle := by
  obtain ⟨row, hrow, hstate⟩ := find?_setMediaTranscriptState db m .ready .full (.some .pending)
  have hfound : (db.publishPublisherTranscript m).states.find? m = .some row := by
    rw [publishPublisherTranscript, states_updateJob]
    exact hrow
  refine h.write_state (fun k hk => ?_) hfound (by rw [hstate]; rfl)
  exact (sameEpisode_setState db _ _ _ hk).trans (sameEpisode_updateJob _ (fun j => by split <;> rfl) hk)

theorem Idle.completed (h : db.Idle) (m : Uuid) (code : Option ApiErrorCode) : (db.publishTranscript m code).Idle := by
  obtain ⟨row, hrow, hstate⟩ := find?_setMediaTranscriptState db m .ready .full (.some .pending)
  have hjob {k : Uuid} (hk : k ≠ m) : SameEpisode db ((db.setMediaTranscriptState m .ready .full (.some .pending)).updateJob m
      fun j => { j with status := .completed, errorCode := code }) k :=
    (sameEpisode_setState db _ _ _ hk).trans (sameEpisode_updateJob _ (fun _ => rfl) hk)
  have hfound : (db.publishTranscript m code).states.find? m = .some row := by
    rw [publishTranscript, (commitReserved_spec _ m).1, states_updateJob]
    exact hrow
  exact h.write_state (fun k hk => (hjob hk).trans (sameEpisode_commitReserved _ hk)) hfound (by rw [hstate]; rfl)

end TranscriptionDb

/-! ### Runs keep episodes idle -/

section Runs

variable {f : Fingerprinting} {s t : TranscriptionWorld}

end Runs

end Nexus.Podcasts
