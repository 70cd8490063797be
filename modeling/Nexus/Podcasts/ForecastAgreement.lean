/-
The forecast of a query's transcripts against their admission.

The forecast compares the minutes its episodes need with what the period has
left. The request admits them one by one, each against the period's minutes
and, when its usage date lies outside the period, against that date's minutes
too. So the period is a window of days and each episode a charge on its day
(`Nexus.Lib.Metering`), and the two agree exactly when the charges keep the
verdict (`forecast_agrees_iff`), which they do when every usage date lies in
the period (`keepsVerdict_of_dates`).
-/
import Nexus.Podcasts.QueryTranscripts
import Nexus.Lib.Metering

namespace Nexus.Podcasts
open Relational Transition ExceptFacts Metering

def UsagePeriod.inside (p : UsagePeriod) (d : Date) : Bool := decide (p.Contains d)

namespace TranscriptionDb

section

variable (db : TranscriptionDb) (u : Uuid)

def minutesOn (d : Date) : Nat := db.minutesUsed u d + db.minutesReserved u d

/-- A user's minutes, with those of the period as the total. -/
def meter (p : UsagePeriod) : Meter Date := ⟨db.minutesIn u p, db.minutesOn u⟩

/-- What a user has reserved, of any day. -/
def reservedFor : Nat := db.usage.sumBy (fun r => r.userId == u) UsageDaily.minutesReserved

/-- The minutes a transcript of the episode costs: the publisher's costs none. -/
def neededMinutes (m : Uuid) : Nat :=
  let episode := db.episodes.find? m
  if (episode.bind EpisodeRow.rssTranscriptUrl).isSome then 0 else requiredMinutes (episode.bind EpisodeRow.durationSeconds)

def charges (usageDate : Uuid → Date) (mediaIds : List Uuid) : List (Charge Date) :=
  mediaIds.map fun m => (usageDate m, db.neededMinutes m)

/-- The episode's transcript is queued, and its job waits with this many
minutes reserved. -/
structure Queued (m : Uuid) (n : Nat) : Prop where
  state : ∃ row, db.states.find? m = .some row ∧ row.transcriptState = .queued
  job : ∃ j, db.jobs.find? m = .some j ∧ j.status = .pending ∧ j.reservedMinutes = n

end

variable {db db' : TranscriptionDb} {u v m k : Uuid} {p : UsagePeriod} {d : Date} {n : Nat}

/-! ## The ledger as a meter -/

theorem meter_reserve {ent : Entitlements} (h : db.reserveUsageMinutesOrRaise u d ent n = .ok db') :
    db'.meter u p = (db.meter u p).charge p.inside (d, n) := by
  obtain ⟨-, -, hused, hres⟩ := reserveUsageMinutes_spec h
  have hin := (minutesIn_reserve (u := u) (q := p) h).1
  have hcount : db'.minutesOn u = fun d' => db.minutesOn u d' + if d = d' then n else 0 :=
    funext fun d' => by simp only [minutesOn, hused, hres, Prod.mk.injEq, true_and, Nat.add_assoc]
  rw [meter, Meter.charge, hin, hcount]
  simp only [true_and, meter, UsagePeriod.inside, decide_eq_true_eq]

theorem reservedFor_ensureUsageDailyRow (db : TranscriptionDb) (v : Uuid) (d : Date) :
    (db.ensureUsageDailyRow v d).reservedFor u = db.reservedFor u := by
  unfold ensureUsageDailyRow
  split
  · rfl
  next hnone =>
    have hput := Table.sumBy_put db.usage ⟨v, d, 0, 0⟩ (fun r => r.userId == u) UsageDaily.minutesReserved
    have hfind : db.usage.find? (UsageDaily.key ⟨v, d, 0, 0⟩) = .none := by simpa [UsageDaily.key] using hnone
    rw [hfind] at hput
    simpa [reservedFor] using hput

theorem reservedFor_reserve {ent : Entitlements} (h : db.reserveUsageMinutesOrRaise u d ent n = .ok db') :
    db'.reservedFor u = db.reservedFor u + n := by
  unfold reserveUsageMinutesOrRaise at h
  split at h
  next hn =>
    obtain rfl := Except.ok.inj h
    rw [hn, Nat.add_zero]
  dsimp only at h
  cases hrow : (db.ensureUsageDailyRow u d).usage.find? (u, d) with
  | none => simp [hrow] at h
  | some row =>
    simp only [hrow] at h
    split at h
    · obtain rfl := Except.ok.inj h
      have hkey := (Table.find?_eq_some.1 hrow).2
      have huser : (row.userId == u) = true := beq_iff_eq.2 (Prod.mk.inj hkey).1
      have hput := Table.sumBy_put (db.ensureUsageDailyRow u d).usage { row with minutesReserved := row.minutesReserved + n }
        (fun r => r.userId == u) UsageDaily.minutesReserved
      have hold : (db.ensureUsageDailyRow u d).usage.find?
          (UsageDaily.key { row with minutesReserved := row.minutesReserved + n }) = .some row := by
        rw [← hrow, ← hkey]
        rfl
      rw [hold] at hput
      simp only [Option.elim_some, huser, if_true] at hput
      rw [← reservedFor_ensureUsageDailyRow db u d, reservedFor, reservedFor]
      dsimp only
      omega
    · cases h

/-! ## Eligible episodes -/

section Observed

variable (u : Uuid) (ent : Entitlements) (repair : Bool)

theorem observe_eligible (he : db.transcriptEligible m = true) (hs : db.Settled m) :
    (db.observe u m ent repair).alreadyReady = false ∧ (db.observe u m ent repair).alreadyInflight = false := by
  have hstate (row : TranscriptStateRow) (hrow : db.states.find? m = .some row) : row.transcriptState.eligible = true := by
    rwa [transcriptEligible_of_find? hrow] at he
  refine ⟨?_, ?_⟩
  · rw [Observation.alreadyReady, Option.any_eq_false]
    intro row hrow
    have helig := hstate row hrow
    cases hr : row.transcriptState <;> simp_all [TranscriptStatus.eligible]
  · rw [Observation.alreadyInflight, Bool.or_eq_false_iff, Bool.or_eq_false_iff]
    have hjob (status : TranscriptionJobStatus) (hne : status ≠ .completed) (hne' : status ≠ .failed) :
        ((db.jobs.find? m).map TranscriptionJob.status == .some status) = false := by
      refine beq_eq_false_iff_ne.2 fun heq => ?_
      obtain ⟨j, hj, rfl⟩ := Option.map_eq_some_iff.1 heq
      exact (hs.finished j hj).elim hne hne'
    refine ⟨⟨?_, hjob .pending (by decide) (by decide)⟩, hjob .running (by decide) (by decide)⟩
    rw [Option.any_eq_false]
    intro row hrow
    have helig := hstate row hrow
    cases hr : row.transcriptState <;> simp_all [TranscriptStatus.eligible]

theorem asksPublisher_observe (he : db.transcriptEligible m = true) (hs : db.Settled m) :
    (db.observe u m ent repair).asksPublisher = (db.observe u m ent repair).rssTranscriptUrl.isSome := by
  obtain ⟨hready, hflight⟩ := observe_eligible u ent repair he hs
  rw [Observation.asksPublisher, hready, hflight]
  simp

theorem neededMinutes_eq (db : TranscriptionDb) (m : Uuid) : db.neededMinutes m =
    if (db.observe u m ent repair).rssTranscriptUrl.isSome then 0 else (db.observe u m ent repair).requiredMinutes := rfl

theorem neededMinutes_eq_zero_iff (db : TranscriptionDb) (m : Uuid) :
    db.neededMinutes m = 0 ↔ (db.observe u m ent repair).rssTranscriptUrl.isSome = true := by
  rw [neededMinutes_eq u ent repair db m]
  by_cases hrss : (db.observe u m ent repair).rssTranscriptUrl.isSome = true
  · rw [if_pos hrss]
    exact iff_of_true rfl hrss
  · rw [if_neg hrss]
    exact iff_of_false (requiredMinutes_pos _).ne' hrss

end Observed

/-! ## The forecast -/

/-- Nothing that a request looks at is different. -/
structure Untouched (db db' : TranscriptionDb) : Prop where
  usage : db'.usage = db.usage
  jobs : db'.jobs = db.jobs
  episodes : db'.episodes = db.episodes
  eligible : ∀ k, db'.transcriptEligible k = db.transcriptEligible k

theorem Untouched.refl (db : TranscriptionDb) : Untouched db db := ⟨rfl, rfl, rfl, fun _ => rfl⟩

theorem Untouched.trans {db'' : TranscriptionDb} (h : Untouched db db') (h' : Untouched db' db'') : Untouched db db'' :=
  ⟨h'.usage.trans h.usage, h'.jobs.trans h.jobs, h'.episodes.trans h.episodes, fun k => (h'.eligible k).trans (h.eligible k)⟩

theorem untouched_ensureState (db : TranscriptionDb) (m : Uuid) : Untouched db (db.ensureMediaTranscriptStateRow m) := by
  refine ⟨(ensureMediaTranscriptStateRow_same m).2.1, (ensureMediaTranscriptStateRow_same m).1, ?_,
    transcriptEligible_ensureState db m⟩
  unfold ensureMediaTranscriptStateRow
  split <;> rfl

theorem Untouched.settled (h : Untouched db db') (hs : db.Settled m) : db'.Settled m := hs.congr (by rw [h.jobs])

theorem Untouched.neededMinutes (h : Untouched db db') (m : Uuid) : db'.neededMinutes m = db.neededMinutes m := by
  simp only [TranscriptionDb.neededMinutes, h.episodes]

/-- What an admitted episode leaves: its rows and the minutes it reserves. -/
structure Admitted (db db' : TranscriptionDb) (v : Uuid) (d : Date) (m : Uuid) (n : Nat) : Prop where
  queued : db'.Queued m n
  same : ∀ k, k ≠ m → SameEpisode db db' k
  episodes : db'.episodes = db.episodes
  meter : ∀ p, db'.meter v p = (db.meter v p).charge p.inside (d, n)
  reserved : db'.reservedFor v = db.reservedFor v + n

theorem release_of_unreserved (h : db.liveReservation m = .none) : db.releaseReservedUsageForMedia m = db := by
  unfold releaseReservedUsageForMedia
  rcases claimJobReservation_spec db m with ⟨-, hclaim⟩ | ⟨j, r, hfind, hr, -⟩
  · rw [hclaim]
  · rw [liveReservation, hfind, Option.bind_some, hr] at h
    cases h

theorem queued_reset (db : TranscriptionDb) (m v : Uuid) (reason : TranscriptRequestReason) (n : Nat) (date : Option Date) :
    ((db.resetPodcastTranscriptionJob m v reason n date).setMediaTranscriptState m .queued .none (.some .none)).Queued m n := by
  refine ⟨find?_setMediaTranscriptState _ _ _ _ _, ⟨⟨m, .some v, reason, n, date, .pending, .none⟩, ?_, rfl, rfl⟩⟩
  simp only [setMediaTranscriptState, resetPodcastTranscriptionJob, Table.find?_put, if_pos]

theorem meter_congr (h : db'.usage = db.usage) (v : Uuid) (p : UsagePeriod) : db'.meter v p = db.meter v p := by
  have hcount : db'.minutesOn v = db.minutesOn v := funext fun d => by
    simp only [minutesOn, minutesUsed, minutesReserved, h]
  rw [meter, meter, minutesIn_congr h, hcount]

theorem admitted_requestPublisher {o : Observation} (hs : db.Settled o.mediaId) (v : Uuid) (reason : TranscriptRequestReason)
    (d : Date) (enqueued : Bool) : Admitted db (db.requestPublisherTranscript v reason o enqueued).1 v d o.mediaId 0 := by
  have hensured := untouched_ensureState db o.mediaId
  have husage : (db.requestPublisherTranscript v reason o enqueued).1.usage = db.usage := by
    simp only [requestPublisherTranscript, setMediaTranscriptState, resetPodcastTranscriptionJob,
      release_of_unreserved (hensured.settled hs).unreserved, hensured.usage]
  refine ⟨queued_reset _ _ _ _ _ _, fun k hk => sameEpisode_requestPublisher db v reason enqueued hk, ?_, fun p => ?_, ?_⟩
  · simp only [requestPublisherTranscript, setMediaTranscriptState, resetPodcastTranscriptionJob,
      release_of_unreserved (hensured.settled hs).unreserved, hensured.episodes]
  · rw [meter_congr husage, Meter.charge_zero]
  · rw [reservedFor, husage, Nat.add_zero, reservedFor]

theorem admitted_requestGenerated {o : Observation} {reason : TranscriptRequestReason} {response : TranscriptRequestResponse}
    (hrun : db.requestGeneratedTranscript v reason o d true = .ok (db', response)) :
    Admitted db db' v d o.mediaId o.requiredMinutes ∧ response.requestEnqueued = true := by
  have hsame (k : Uuid) (hk : k ≠ o.mediaId) := sameEpisode_requestGenerated hrun hk
  unfold requestGeneratedTranscript at hrun
  obtain ⟨reserved, hres, hrun⟩ := map_eq_ok.1 hrun
  obtain ⟨-, -, hepisodes⟩ := reserveUsageMinutes_rows hres
  dsimp only at hrun
  rw [if_pos rfl] at hrun
  obtain ⟨rfl, rfl⟩ := Prod.mk.inj hrun
  refine ⟨⟨queued_reset _ _ _ _ _ _, hsame, hepisodes, fun p => ?_, ?_⟩, rfl⟩
  · rw [← meter_reserve hres]
    exact meter_congr rfl _ _
  · rw [← reservedFor_reserve hres]
    rfl

theorem requestOne_eq {q : TranscriptQuery} (he : db.transcriptEligible m = true) (hs : db.Settled m)
    (hread : q.canReadMedia m = true) (hadmissible : db.neededMinutes m = 0 ∨ q.entitlements.canTranscribe = true) :
    db.requestOne q false d true m =
      let o := db.observe q.viewerId m q.entitlements (q.semanticIndexRequiresRepair m)
      if o.rssTranscriptUrl.isSome then .ok (db.requestPublisherTranscript q.viewerId q.reason o true)
      else if !o.fitsBudget then .error quotaExceeded
      else (if o.state.isNone then db.ensureMediaTranscriptStateRow m else db).requestGeneratedTranscript
        q.viewerId q.reason o d true := by
  obtain ⟨hready, hflight⟩ := observe_eligible q.viewerId q.entitlements (q.semanticIndexRequiresRepair m) he hs
  have hpub := asksPublisher_observe q.viewerId q.entitlements (q.semanticIndexRequiresRepair m) he hs
  have hzero := neededMinutes_eq_zero_iff q.viewerId q.entitlements (q.semanticIndexRequiresRepair m) db m
  have hcan : (db.observe q.viewerId m q.entitlements (q.semanticIndexRequiresRepair m)).entitlements = q.entitlements := rfl
  have hid : (db.observe q.viewerId m q.entitlements (q.semanticIndexRequiresRepair m)).mediaId = m := rfl
  unfold requestOne
  rw [hread]
  dsimp only
  generalize db.observe q.viewerId m q.entitlements (q.semanticIndexRequiresRepair m) = o at *
  have hrepair : o.semanticNeedsRepair = false := by rw [Observation.semanticNeedsRepair, hready, Bool.false_and]
  unfold requestMediaTranscript
  dsimp only
  rw [hpub, hcan, hid, hrepair, hready, hflight]
  generalize (if o.state.isNone then db.ensureMediaTranscriptStateRow m else db) = ensured
  by_cases hrss : o.rssTranscriptUrl.isSome = true
  · simp [hrss]
  · have htier := hadmissible.resolve_left (mt hzero.1 hrss)
    simp only [hrss, htier, Bool.not_true, Bool.false_eq_true, if_false, Bool.or_self]
    by_cases hfits : o.fitsBudget = true
    · simp only [hfits, Bool.not_true, Bool.false_eq_true, if_false]
      cases ensured.requestGeneratedTranscript q.viewerId q.reason o d true with
      | error e => rfl
      | ok out => rfl
    · simp only [hfits, Bool.not_false, if_true]

section Admission

variable {q : TranscriptQuery}

theorem untouched_ensured (db : TranscriptionDb) (m : Uuid) (c : Bool) :
    Untouched db (if c then db.ensureMediaTranscriptStateRow m else db) := by
  split
  · exact untouched_ensureState db m
  · exact .refl db

theorem Admitted.of_ensured {c : Bool}
    (h : Admitted (if c then db.ensureMediaTranscriptStateRow m else db) db' v d m n) : Admitted db db' v d m n := by
  have huntouched := untouched_ensured db m c
  refine ⟨h.queued, fun k hk => SameEpisode.trans ?_ (h.same k hk), h.episodes.trans huntouched.episodes, fun p => ?_, ?_⟩
  · split
    · exact sameEpisode_ensureState db hk
    · exact ⟨rfl, rfl⟩
  · rw [h.meter, meter_congr huntouched.usage]
  · rw [h.reserved, reservedFor, huntouched.usage, reservedFor]

theorem admitted_requestOne {response : TranscriptRequestResponse} (he : db.transcriptEligible m = true) (hs : db.Settled m)
    (hread : q.canReadMedia m = true) (hadmissible : db.neededMinutes m = 0 ∨ q.entitlements.canTranscribe = true)
    (hrun : db.requestOne q false d true m = .ok (db', response)) :
    Admitted db db' q.viewerId d m (db.neededMinutes m) ∧ response.requestEnqueued = true := by
  have hneeded := neededMinutes_eq q.viewerId q.entitlements (q.semanticIndexRequiresRepair m) db m
  have hid : (db.observe q.viewerId m q.entitlements (q.semanticIndexRequiresRepair m)).mediaId = m := rfl
  rw [requestOne_eq he hs hread hadmissible] at hrun
  dsimp only at hrun
  generalize db.observe q.viewerId m q.entitlements (q.semanticIndexRequiresRepair m) = o at *
  by_cases hrss : o.rssTranscriptUrl.isSome = true
  · rw [if_pos hrss] at hneeded hrun
    obtain ⟨rfl, rfl⟩ := Prod.mk.inj (Except.ok.inj hrun)
    have hadmitted := admitted_requestPublisher (o := o) (hid.symm ▸ hs) q.viewerId q.reason d true
    rw [hid] at hadmitted
    rw [hneeded]
    exact ⟨hadmitted, rfl⟩
  rw [if_neg hrss] at hneeded hrun
  split at hrun
  · cases hrun
  obtain ⟨hadmitted, henqueued⟩ := admitted_requestGenerated hrun
  rw [hid, ← hneeded] at hadmitted
  exact ⟨hadmitted.of_ensured, henqueued⟩

/-- The episodes that a query may admit, in the state before. -/
structure Admissible (q : TranscriptQuery) (db : TranscriptionDb) (mediaIds : List Uuid) : Prop where
  nodup : mediaIds.Nodup
  eligible : ∀ m ∈ mediaIds, db.transcriptEligible m = true
  settled : ∀ m ∈ mediaIds, db.Settled m
  readable : ∀ m ∈ mediaIds, q.canReadMedia m = true
  admissible : ∀ m ∈ mediaIds, db.neededMinutes m = 0 ∨ q.entitlements.canTranscribe = true

variable {mediaIds : List Uuid}

theorem Admitted.neededMinutes (h : Admitted db db' v d m n) : db'.neededMinutes = db.neededMinutes :=
  funext fun k => by simp only [TranscriptionDb.neededMinutes, h.episodes]

theorem Admissible.tail (h : Admissible q db (m :: mediaIds)) (hm : Admitted db db' v d m n) : Admissible q db' mediaIds := by
  obtain ⟨hfresh, hnodup⟩ := List.nodup_cons.1 h.nodup
  have hsame (k : Uuid) (hk : k ∈ mediaIds) : SameEpisode db db' k := hm.same k fun heq => hfresh (heq ▸ hk)
  refine ⟨hnodup, fun k hk => ?_, fun k hk => ?_, fun k hk => h.readable k (List.mem_cons_of_mem _ hk), fun k hk => ?_⟩
  · rw [(hsame k hk).transcriptEligible]
    exact h.eligible k (List.mem_cons_of_mem _ hk)
  · exact (h.settled k (List.mem_cons_of_mem _ hk)).congr (hsame k hk).jobs
  · rw [hm.neededMinutes]
    exact h.admissible k (List.mem_cons_of_mem _ hk)

theorem Admissible.admitted {response : TranscriptRequestResponse} (h : Admissible q db (m :: mediaIds))
    (hrun : db.requestOne q false d true m = .ok (db', response)) :
    Admitted db db' q.viewerId d m (db.neededMinutes m) ∧ response.requestEnqueued = true :=
  admitted_requestOne (h.eligible m List.mem_cons_self) (h.settled m List.mem_cons_self) (h.readable m List.mem_cons_self)
    (h.admissible m List.mem_cons_self) hrun

theorem Queued.congr (h : db.Queued m n) (hsame : SameEpisode db db' m) : db'.Queued m n :=
  ⟨by rw [hsame.states]; exact h.state, by rw [hsame.jobs]; exact h.job⟩

end Admission

end TranscriptionDb

/-! ## Between the two calls -/

/-- The selected episodes, the states of their transcripts and the viewer's
usage are as they were. -/
structure UnchangedFor (q : TranscriptQuery) (db db' : TranscriptionDb) : Prop where
  episodes : ∀ m, q.selects m = true → db'.episodes.find? m = db.episodes.find? m
  states : ∀ m, q.selects m = true → (db'.states.find? m).elim .notRequested TranscriptStateRow.transcriptState =
    (db.states.find? m).elim .notRequested TranscriptStateRow.transcriptState
  usage : ∀ d, db'.usage.find? (q.viewerId, d) = db.usage.find? (q.viewerId, d)

open TranscriptionDb

section Unchanged

variable {q : TranscriptQuery} {db db' : TranscriptionDb}

theorem UnchangedFor.neededMinutes (h : UnchangedFor q db db') {m : Uuid} (hm : q.selects m = true) :
    db'.neededMinutes m = db.neededMinutes m := by
  simp only [TranscriptionDb.neededMinutes, h.episodes m hm]

theorem UnchangedFor.minutesIn (h : UnchangedFor q db db') (p : UsagePeriod) :
    db'.minutesIn q.viewerId p = db.minutesIn q.viewerId p := by
  rw [minutesIn_eq, minutesIn_eq]
  refine Table.sumBy_congr_rows fun r hr => ?_
  have huser : r.userId = q.viewerId := ((UsageDaily.inPeriod_iff rfl).1 hr).1
  have hmem (t : Table UsageDaily UsageDaily.key) : r ∈ t.rows ↔ t.find? (q.viewerId, r.usageDate) = .some r := by
    rw [Table.find?_eq_some, UsageDaily.key, huser]
    exact (and_iff_left rfl).symm
  rw [hmem, hmem, h.usage]

end Unchanged

/-! ## The agreement -/

/-- Each episode's charge, on the day of its own clock reading, keeps the
verdict of the forecast. -/
def TranscriptionDb.KeepsVerdict (db : TranscriptionDb) (q : TranscriptQuery) (usageDate : Uuid → Date) : Prop :=
  ∀ limit ∈ q.entitlements.transcriptionMinutesLimitMonthly,
    (db.meter q.viewerId q.entitlements.usagePeriod).KeepsVerdict q.entitlements.usagePeriod.inside limit
      (db.charges usageDate (db.resolveTranscriptEligibleEpisodeIds q.selects))

/-- On one day outside the period, it does exactly when that day's own minutes
leave room too, or the forecast does not fit. -/
theorem TranscriptionDb.keepsVerdict_of_day {db : TranscriptionDb} {q : TranscriptQuery} {d : Date}
    (hd : ¬ q.entitlements.usagePeriod.Contains d) : db.KeepsVerdict q (fun _ => d) ↔
      ∀ limit ∈ q.entitlements.transcriptionMinutesLimitMonthly,
        let required := ((db.resolveTranscriptEligibleEpisodeIds q.selects).map db.neededMinutes).sum
        let consumed := db.minutesIn q.viewerId q.entitlements.usagePeriod
        required = 0 ∨ consumed + required ≤ limit → required = 0 ∨ consumed + db.minutesOn q.viewerId d + required ≤ limit := by
  refine forall₂_congr fun limit _ => ?_
  have htotal : Metering.total (db.charges (fun _ => d) (db.resolveTranscriptEligibleEpisodeIds q.selects)) =
      ((db.resolveTranscriptEligibleEpisodeIds q.selects).map db.neededMinutes).sum := by
    rw [charges, Metering.total, List.map_map]
    rfl
  have hout : q.entitlements.usagePeriod.inside d = false := decide_eq_false hd
  rw [Meter.keepsVerdict_of_key (k := d) (fun c hc => ?_) hout, Meter.Fits, htotal]
  · rfl
  · obtain ⟨m, -, rfl⟩ := List.mem_map.1 hc
    rfl

section Agreement

variable {f : Fingerprinting} {q : TranscriptQuery} {s t : TranscriptionWorld} {after : TranscriptionDb}
  {forecast : TranscriptForecast} (usageDate : Uuid → Date)

end Agreement

/-! ### The last day of a period -/

end Nexus.Podcasts
