/-
The monthly transcription quota: `_reserve_usage_minutes_or_raise` compares
what the period its request read and the usage date's own row hold. A date in
a later period than the one read is written without that period's other days,
so the quota holds in the runs whose reservations are dated in the period they
read, or leave room in the one they are dated in.
-/
import Nexus.Podcasts.Minutes

namespace Nexus.Podcasts
open Relational Transition ExceptFacts

/-! ## Billing periods -/

/-- The usage dates of a billing period: its end is not one of them. -/
structure UsagePeriod where
  startDate : Date
  endDate : Date
  deriving DecidableEq, Repr

def UsagePeriod.Contains (q : UsagePeriod) (d : Date) : Prop := q.startDate ≤ d ∧ d < q.endDate

instance (q : UsagePeriod) (d : Date) : Decidable (q.Contains d) := inferInstanceAs (Decidable (_ ∧ _))

def Entitlements.usagePeriod (e : Entitlements) : UsagePeriod := ⟨e.usagePeriodStart, e.usagePeriodEnd⟩

namespace TranscriptionDb

variable (db : TranscriptionDb) (u : Uuid) (q : UsagePeriod)

/-- The minutes of a period, used and reserved. -/
def minutesIn : Nat :=
  (db.getTranscriptionUsage u q.startDate q.endDate).1 + (db.getTranscriptionUsage u q.startDate q.endDate).2

/-- The minutes the jobs hold are reserved: a reservation may be left without a
job, and no job is left without its reservation. -/
def Covered : Prop :=
  ∀ u d, db.jobs.sumBy (holdsMinutes u d) TranscriptionJob.reservedMinutes ≤ db.minutesReserved u d

/-- A user's period has at most this many minutes. -/
structure Bounded (bound : Nat) : Prop where
  covered : db.Covered
  minutes_le : db.minutesIn u q ≤ bound

end TranscriptionDb

/-! ## Runs of a user with a fixed limit -/

section Events

variable (u : Uuid) (limit : Nat) (periods : Set UsagePeriod) (s : TranscriptionWorld)

/-- The user's requests read this limit, and one of these periods. -/
def TranscriptionEvent.FixedLimit : TranscriptionEvent → Prop
  | .read tx _ entitlements _ => ∀ t ∈ s.txs tx, t.viewerId = u →
      entitlements.transcriptionMinutesLimitMonthly = .some limit ∧ entitlements.usagePeriod ∈ periods
  | .prepare _ userId _ entitlements _ => userId = u →
      entitlements.transcriptionMinutesLimitMonthly = .some limit ∧ entitlements.usagePeriod ∈ periods
  | _ => True

instance [DecidablePred (· ∈ periods)] (ev : TranscriptionEvent) : Decidable (ev.FixedLimit u limit periods s) := by
  cases ev <;> unfold TranscriptionEvent.FixedLimit <;> infer_instance

/-- What requests that read these reserve, when all their reservations succeed. -/
def requestedMinutes (os : List Observation) : Nat :=
  ((os.filter Observation.reserves).map Observation.requiredMinutes).sum

/-- The user's reservations are dated in the period they read, or leave room in
the one they are dated in. -/
def TranscriptionEvent.LeavesRoom : TranscriptionEvent → Prop
  | .commit tx usageDate _ => ∀ t ∈ s.txs tx, t.viewerId = u → t.dryRun = false → ∀ q ∈ periods, q.Contains usageDate →
      (∀ o ∈ t.observations, o.reserves = true → o.entitlements.usagePeriod = q) ∨
        s.db.minutesIn u q + requestedMinutes t.observations ≤ limit
  | .prepare mediaId userId _ entitlements usageDate => userId = u → ∀ q ∈ periods, q.Contains usageDate →
      entitlements.usagePeriod = q ∨
        s.db.minutesIn u q + requiredMinutes ((s.db.episodes.find? mediaId).bind EpisodeRow.durationSeconds) ≤ limit
  | _ => True

end Events

/-! ## The minutes of a period -/

def UsageDaily.inPeriod (u : Uuid) (q : UsagePeriod) (r : UsageDaily) : Bool :=
  r.userId == u && decide (q.startDate ≤ r.usageDate) && decide (r.usageDate < q.endDate)

def UsageDaily.minutes (r : UsageDaily) : Nat := r.minutesUsed + r.minutesReserved

theorem UsageDaily.inPeriod_iff {r : UsageDaily} {u v : Uuid} {q : UsagePeriod} {d : Date} (hkey : r.key = (v, d)) :
    inPeriod u q r = true ↔ v = u ∧ q.Contains d := by
  obtain ⟨rfl, rfl⟩ := Prod.mk.inj hkey
  simp only [inPeriod, UsagePeriod.Contains, Bool.and_eq_true, beq_iff_eq, decide_eq_true_eq, and_assoc]

namespace TranscriptionDb

variable {db db' : TranscriptionDb} {u v : Uuid} {q : UsagePeriod} {m : Uuid} {d : Date} {n bound bound' : Nat}

theorem minutesIn_eq : db.minutesIn u q = db.usage.sumBy (UsageDaily.inPeriod u q) UsageDaily.minutes := by
  simp only [minutesIn, getTranscriptionUsage, Table.sumBy, ← List.sum_map_add]
  rfl

theorem minutesIn_congr (hu : db'.usage = db.usage) : db'.minutesIn u q = db.minutesIn u q := by
  simp only [minutesIn_eq, hu]

theorem minutesIn_put {row row' : UsageDaily} (hu : db'.usage = db.usage.put row') (hfind : db.usage.find? (v, d) = .some row)
    (hkey : row'.key = (v, d)) :
    db'.minutesIn u q + (if v = u ∧ q.Contains d then row.minutes else 0) =
      db.minutesIn u q + if v = u ∧ q.Contains d then row'.minutes else 0 := by
  have hput := Table.sumBy_put db.usage row' (UsageDaily.inPeriod u q) UsageDaily.minutes
  rw [hkey, hfind, ← hu, ← minutesIn_eq, ← minutesIn_eq] at hput
  simpa only [Option.elim_some, UsageDaily.inPeriod_iff hkey, UsageDaily.inPeriod_iff (Table.find?_eq_some.1 hfind).2] using hput

theorem minutesIn_put_le {row row' : UsageDaily} (hu : db'.usage = db.usage.put row')
    (hfind : db.usage.find? (v, d) = .some row) (hkey : row'.key = (v, d)) (hle : row'.minutes ≤ row.minutes) :
    db'.minutesIn u q ≤ db.minutesIn u q := by
  have hput := minutesIn_put (u := u) (q := q) hu hfind hkey
  split at hput <;> omega

theorem minutesIn_ensure : (db.ensureUsageDailyRow v d).minutesIn u q = db.minutesIn u q := by
  unfold ensureUsageDailyRow
  split
  · rfl
  next hnone =>
    have hput := Table.sumBy_put db.usage ⟨v, d, 0, 0⟩ (UsageDaily.inPeriod u q) UsageDaily.minutes
    have hfind : db.usage.find? (UsageDaily.key ⟨v, d, 0, 0⟩) = .none := by simpa [UsageDaily.key] using hnone
    rw [hfind] at hput
    rw [minutesIn_eq, minutesIn_eq]
    simpa [UsageDaily.minutes] using hput

/-- What the check adds up is the period's minutes, when the usage date is one
of its dates. -/
theorem others_add {row : UsageDaily} {startDate endDate : Date} (hfind : db.usage.find? (u, d) = .some row)
    (hd : UsagePeriod.Contains ⟨startDate, endDate⟩ d) :
    db.usage.sumBy (fun r => r.userId == u && decide (startDate ≤ r.usageDate) && decide (r.usageDate < endDate) &&
      r.usageDate != d) (fun r => r.minutesUsed + r.minutesReserved) + row.minutes = db.minutesIn u ⟨startDate, endDate⟩ := by
  have hsplit := Table.sumBy_deleteWhere_add db.usage (fun r => r.usageDate == d)
    (UsageDaily.inPeriod u ⟨startDate, endDate⟩) UsageDaily.minutes
  have hrow : db.usage.sumBy (fun r => UsageDaily.inPeriod u ⟨startDate, endDate⟩ r && (r.usageDate == d))
      UsageDaily.minutes = row.minutes := by
    rw [Table.sumBy_key (k := (u, d)) fun r _ hr => ?_, hfind]
    · have hkey := (Table.find?_eq_some.1 hfind).2
      have hin : UsageDaily.inPeriod u ⟨startDate, endDate⟩ row = true := (UsageDaily.inPeriod_iff hkey).2 ⟨rfl, hd⟩
      simp only [hin, (Prod.mk.inj hkey).2, beq_self_eq_true, Bool.and_self, if_true]
    · simp only [UsageDaily.inPeriod, Bool.and_eq_true, beq_iff_eq] at hr
      exact Prod.ext hr.1.1.1 hr.2
  rw [Table.sumBy_deleteWhere, hrow, ← minutesIn_eq] at hsplit
  exact hsplit

/-! ## The writes -/

theorem Covered.congr (h : db.Covered) (hj : db'.jobs = db.jobs) (hu : db'.usage = db.usage) : db'.Covered := by
  intro u d
  simpa only [minutesReserved, hu, hj] using h u d

theorem Covered.write {j : TranscriptionJob} (h : db.Covered) (hj : db'.jobs = db.jobs.put j)
    (hres : ∀ u d, db.minutesReserved u d + minutesOf u d (.some j) ≤
      db'.minutesReserved u d + minutesOf u d (db.jobs.find? j.mediaId)) : db'.Covered := by
  intro u d
  have hsum := Table.sumBy_put db.jobs j (holdsMinutes u d) TranscriptionJob.reservedMinutes
  have hwas := h u d
  have hnow := hres u d
  simp only [minutesOf, Option.elim_some] at hnow
  rw [hj]
  omega

theorem Bounded.congr (h : db.Bounded u q bound) (hj : db'.jobs = db.jobs) (hu : db'.usage = db.usage) :
    db'.Bounded u q bound :=
  ⟨h.covered.congr hj hu, (minutesIn_congr hu).trans_le h.minutes_le⟩

theorem Bounded.mono (h : db.Bounded u q bound) (hle : bound ≤ bound') : db.Bounded u q bound' :=
  ⟨h.covered, h.minutes_le.trans hle⟩

theorem Bounded.setState (h : db.Bounded u q bound) (m : Uuid) (s c sem) :
    (db.setMediaTranscriptState m s c sem).Bounded u q bound := h.congr rfl rfl

theorem Bounded.ensureState (h : db.Bounded u q bound) (m : Uuid) : (db.ensureMediaTranscriptStateRow m).Bounded u q bound :=
  h.congr (ensureMediaTranscriptStateRow_same m).1 (ensureMediaTranscriptStateRow_same m).2.1

theorem Bounded.updateJob {f : TranscriptionJob → TranscriptionJob} (h : db.Bounded u q bound) (m : Uuid)
    (hf : ∀ j, (f j).mediaId = j.mediaId ∧ (f j).requestedByUserId = j.requestedByUserId ∧
      (f j).reservedMinutes = j.reservedMinutes ∧ (f j).reservationUsageDate = j.reservationUsageDate) :
    (db.updateJob m f).Bounded u q bound := by
  unfold TranscriptionDb.updateJob
  cases hfind : db.jobs.find? m with
  | none => exact h
  | some j =>
    obtain ⟨hid, huser, hmin, hdate⟩ := hf j
    have hkey := (Table.find?_eq_some.1 hfind).2
    refine ⟨h.covered.write (j := f j) rfl fun u d => ?_, (minutesIn_congr rfl).trans_le h.minutes_le⟩
    rw [hid, hkey, hfind]
    simp only [minutesOf, Option.elim_some, holdsMinutes, huser, hmin, hdate]
    exact le_rfl

theorem Covered.minutes_le {j : TranscriptionJob} {r : Reservation} (h : db.Covered)
    (hfind : db.jobs.find? m = .some j) (hr : reservation j = .some r) (hv : r.userId = .some v) :
    r.minutes ≤ db.minutesReserved v r.usageDate := by
  obtain ⟨-, huser, hdate, hmin⟩ := reservation_eq_some hr
  rw [hmin]
  refine (Table.le_sumBy (Table.find?_eq_some.1 hfind).1 ?_).trans (h v r.usageDate)
  simp [holdsMinutes, ← huser, hv, hdate]

theorem Covered.claimed {j : TranscriptionJob} (h : db.Covered) (hfind : db.jobs.find? m = .some j)
    (hj : db'.jobs = db.jobs.put { j with reservedMinutes := 0, reservationUsageDate := .none })
    (hres : ∀ u d, db.minutesReserved u d ≤ db'.minutesReserved u d + minutesOf u d (.some j)) : db'.Covered := by
  refine h.write hj fun u d => ?_
  have hcleared : minutesOf u d (.some { j with reservedMinutes := 0, reservationUsageDate := .none }) = 0 := by
    simp [minutesOf, holdsMinutes]
  rw [hcleared, (Table.find?_eq_some.1 hfind).2, hfind]
  exact hres u d

theorem Bounded.release (h : db.Bounded u q bound) (m : Uuid) : (db.releaseReservedUsageForMedia m).Bounded u q bound := by
  unfold releaseReservedUsageForMedia
  rcases claimJobReservation_spec db m with ⟨-, hclaim⟩ | ⟨j, r, hfind, hr, hclaim⟩
  · rw [hclaim]
    exact h
  rw [hclaim]
  dsimp only [record]
  split
  · refine ⟨h.covered.claimed hfind rfl fun u d => ?_, (minutesIn_congr rfl).trans_le h.minutes_le⟩
    exact Nat.le_add_right _ _
  next row hrow =>
    obtain ⟨v, hv, hrow⟩ := Option.bind_eq_some_iff.1 hrow
    have hrow : db.usage.find? (v, r.usageDate) = .some row := hrow
    have hkey : UsageDaily.key { row with minutesReserved := row.minutesReserved - r.minutes } = (v, r.usageDate) :=
      (Table.find?_eq_some.1 hrow).2
    refine ⟨h.covered.claimed hfind rfl fun u d => ?_, ?_⟩
    · rw [minutesOf_of_reservation hr]
      exact (minutesReserved_settle _ hv hrow (h.covered.minutes_le hfind hr hv)).ge
    · exact (minutesIn_put_le rfl hrow hkey (Nat.add_le_add_left (Nat.sub_le _ _) _)).trans h.minutes_le

theorem Bounded.commit (h : db.Bounded u q bound) (m : Uuid) : (db.commitReservedUsageForMedia m).Bounded u q bound := by
  unfold commitReservedUsageForMedia
  rcases claimJobReservation_spec db m with ⟨-, hclaim⟩ | ⟨j, r, hfind, hr, hclaim⟩
  · rw [hclaim]
    exact h
  rw [hclaim]
  dsimp only [record]
  cases hv : r.userId with
  | none =>
    refine ⟨h.covered.claimed hfind rfl fun u d => ?_, (minutesIn_congr rfl).trans_le h.minutes_le⟩
    exact Nat.le_add_right _ _
  | some v =>
    dsimp only
    generalize hclear : ({ db with
      jobs := db.jobs.put { j with reservedMinutes := 0, reservationUsageDate := .none }
      ledger := db.ledger ++ [.committed r] } : TranscriptionDb) = cleared
    obtain ⟨hjobs, -, hres, -, hsome⟩ := ensureUsageDailyRow_spec cleared v r.usageDate
    have hperiod : (cleared.ensureUsageDailyRow v r.usageDate).minutesIn u q = db.minutesIn u q := by
      rw [minutesIn_ensure, ← hclear]
      exact minutesIn_congr rfl
    have hjobs : (cleared.ensureUsageDailyRow v r.usageDate).jobs =
        db.jobs.put { j with reservedMinutes := 0, reservationUsageDate := .none } := by rw [hjobs, ← hclear]
    have hres (u : Uuid) (d : Date) : (cleared.ensureUsageDailyRow v r.usageDate).minutesReserved u d =
        db.minutesReserved u d := by
      rw [hres, ← hclear]
      rfl
    have hle : r.minutes ≤ (cleared.ensureUsageDailyRow v r.usageDate).minutesReserved v r.usageDate := by
      rw [hres]
      exact h.covered.minutes_le hfind hr hv
    cases hrow : (cleared.ensureUsageDailyRow v r.usageDate).usage.find? (v, r.usageDate) with
    | none => simp [hrow] at hsome
    | some row =>
      have hkey : UsageDaily.key { row with
          minutesUsed := row.minutesUsed + r.minutes, minutesReserved := row.minutesReserved - r.minutes } = (v, r.usageDate) :=
        (Table.find?_eq_some.1 hrow).2
      have hhas : r.minutes ≤ row.minutesReserved := by simpa only [minutesReserved, hrow, Option.elim_some] using hle
      have hsame : UsageDaily.minutes { row with
          minutesUsed := row.minutesUsed + r.minutes, minutesReserved := row.minutesReserved - r.minutes } ≤ row.minutes := by
        simp only [UsageDaily.minutes]
        omega
      refine ⟨h.covered.claimed hfind hjobs fun u d => ?_, ?_⟩
      · rw [minutesOf_of_reservation hr, ← hres]
        exact (minutesReserved_settle _ hv hrow hle).ge
      · exact (minutesIn_put_le rfl hrow hkey hsame).trans (hperiod.trans_le h.minutes_le)

/-! ## The check -/

/-- A reservation adds its minutes to the periods its date lies in, and leaves
the period it read within its limit. -/
theorem minutesIn_reserve {ent : Entitlements} (h : db.reserveUsageMinutesOrRaise v d ent n = .ok db') :
    db'.minutesIn u q = db.minutesIn u q + (if v = u ∧ q.Contains d then n else 0) ∧
      ∀ limit, ent.transcriptionMinutesLimitMonthly = .some limit → ent.usagePeriod = q → v = u → q.Contains d →
        0 < n → db'.minutesIn u q ≤ limit := by
  unfold reserveUsageMinutesOrRaise at h
  split at h
  next hn =>
    obtain rfl := Except.ok.inj h
    exact ⟨by simp [hn], fun _ _ _ _ _ hpos => absurd hn (Nat.pos_iff_ne_zero.1 hpos)⟩
  dsimp only at h
  cases hfind : (db.ensureUsageDailyRow v d).usage.find? (v, d) with
  | none => simp [hfind] at h
  | some row =>
    simp only [hfind] at h
    split at h
    swap
    · cases h
    next hfits =>
    have hdb' := Except.ok.inj h
    have hkey : UsageDaily.key { row with minutesReserved := row.minutesReserved + n } = (v, d) :=
      (Table.find?_eq_some.1 hfind).2
    have hput := minutesIn_put (u := u) (q := q) (congrArg usage hdb').symm hfind hkey
    have hadds : (if v = u ∧ q.Contains d then
        UsageDaily.minutes { row with minutesReserved := row.minutesReserved + n } else 0) =
          (if v = u ∧ q.Contains d then row.minutes else 0) + if v = u ∧ q.Contains d then n else 0 := by
      split
      · simp only [UsageDaily.minutes, Nat.add_assoc]
      · rfl
    rw [minutesIn_ensure, hadds] at hput
    refine ⟨by omega, fun limit hlimit hperiod hv hd _ => ?_⟩
    subst hv hperiod
    have hothers := others_add hfind hd
    simp only [hlimit, Option.all_some, decide_eq_true_eq] at hfits
    rw [minutesIn_ensure] at hothers
    rw [if_pos ⟨rfl, hd⟩, if_pos ⟨rfl, hd⟩] at hput
    simp only [Entitlements.usagePeriod, UsageDaily.minutes] at hput hothers ⊢
    omega

/-- A reservation stays within the bound when it reads the period under it, or
leaves room. -/
theorem Bounded.reserve {ent : Entitlements} (h : db.Bounded u q bound) (hle : bound ≤ bound')
    (hres : db.reserveUsageMinutesOrRaise v d ent n = .ok db')
    (hroom : v = u → q.Contains d → 0 < n ∧ ent.usagePeriod = q ∧ ent.transcriptionMinutesLimitMonthly = .some bound' ∨
      bound + n ≤ bound') (m : Uuid) (reason : TranscriptRequestReason) :
    (db'.resetPodcastTranscriptionJob m v reason n (.some d)).Bounded u q bound' := by
  obtain ⟨hjobs, -, -, hreserved⟩ := reserveUsageMinutes_spec hres
  obtain ⟨hadds, hlimit⟩ := minutesIn_reserve (u := u) (q := q) hres
  have hput : (db'.resetPodcastTranscriptionJob m v reason n (.some d)).jobs =
      db.jobs.put ⟨m, .some v, reason, n, .some d, .pending, .none⟩ := by
    simp only [resetPodcastTranscriptionJob, hjobs]
  have hsame : (db'.resetPodcastTranscriptionJob m v reason n (.some d)).minutesIn u q = db'.minutesIn u q := minutesIn_congr rfl
  refine ⟨h.covered.write hput fun u' d' => ?_, hsame.trans_le ?_⟩
  · have hmin : minutesOf u' d' (.some ⟨m, .some v, reason, n, .some d, .pending, .none⟩) =
        if (v, d) = (u', d') then n else 0 := by
      simp only [minutesOf, Option.elim_some, holdsMinutes, Bool.and_eq_true, beq_iff_eq, Option.some.injEq, Prod.mk.injEq]
    rw [hmin, ← hreserved u' d']
    exact Nat.le_add_right _ _
  · have hwas := h.minutes_le
    by_cases hin : v = u ∧ q.Contains d
    · rw [if_pos hin] at hadds
      rcases hroom hin.1 hin.2 with ⟨hpos, hperiod, hlim⟩ | hroom
      · exact hlimit bound' hlim hperiod hin.1 hin.2 hpos
      · omega
    · rw [if_neg hin] at hadds
      omega

theorem Bounded.reset (h : db.Bounded u q bound) (m v : Uuid) (reason : TranscriptRequestReason) :
    (db.resetPodcastTranscriptionJob m v reason 0 .none).Bounded u q bound := by
  refine ⟨h.covered.write (j := ⟨m, .some v, reason, 0, .none, .pending, .none⟩) rfl fun u' d' => ?_,
    (minutesIn_congr rfl).trans_le h.minutes_le⟩
  simp only [minutesOf, Option.elim_some, ite_self]
  exact Nat.le_add_right _ _

theorem Bounded.markFailure (h : db.Bounded u q bound) (m : Uuid) (code : ApiErrorCode) :
    (db.markPodcastTranscriptionFailure m code).Bounded u q bound := by
  have hfailed : (db.updateJob m fun j => { j with status := .failed, errorCode := .some code }).Bounded u q bound :=
    h.updateJob m fun _ => ⟨rfl, rfl, rfl, rfl⟩
  exact (hfailed.release m).setState _ _ _ _

/-! ## Requests -/

theorem Bounded.requestPublisher {o : Observation} (h : db.Bounded u q bound) (v : Uuid) (reason : TranscriptRequestReason)
    (enqueued : Bool) : (db.requestPublisherTranscript v reason o enqueued).1.Bounded u q bound :=
  (((h.ensureState o.mediaId).release o.mediaId).reset o.mediaId v reason).setState _ _ _ _

theorem requiredMinutes_pos (durationSeconds : Option Int) : 0 < requiredMinutes durationSeconds := by
  unfold requiredMinutes
  split
  · exact Nat.lt_of_lt_of_le Nat.zero_lt_one (Nat.le_max_left _ _)
  · exact Nat.zero_lt_one

/-- A request's reservation is dated in the period it read under this limit, or
leaves room. -/
def Observation.FitsIn (o : Observation) (q : UsagePeriod) (bound bound' : Nat) : Prop :=
  o.entitlements.usagePeriod = q ∧ o.entitlements.transcriptionMinutesLimitMonthly = .some bound' ∨
    bound + o.requiredMinutes ≤ bound'

theorem Bounded.requestGenerated {o : Observation} {reason : TranscriptRequestReason} {enqueued : Bool}
    {response : TranscriptRequestResponse} (h : db.Bounded u q bound) (hle : bound ≤ bound')
    (hroom : v = u → q.Contains d → Observation.FitsIn o q bound bound')
    (hrun : db.requestGeneratedTranscript v reason o d enqueued = .ok (db', response)) : db'.Bounded u q bound' := by
  unfold requestGeneratedTranscript at hrun
  obtain ⟨reserved, hres, hrun⟩ := map_eq_ok.1 hrun
  have hroom' (hv : v = u) (hd : q.Contains d) : 0 < o.requiredMinutes ∧ o.entitlements.usagePeriod = q ∧
      o.entitlements.transcriptionMinutesLimitMonthly = .some bound' ∨ bound + o.requiredMinutes ≤ bound' :=
    (hroom hv hd).imp_left fun hread => ⟨requiredMinutes_pos _, hread⟩
  have hadmitted := h.reserve hle hres hroom' o.mediaId reason
  dsimp only at hrun
  split at hrun
  · obtain ⟨rfl, -⟩ := Prod.mk.inj hrun
    exact hadmitted.setState _ _ _ _
  · obtain ⟨rfl, -⟩ := Prod.mk.inj hrun
    exact (hadmitted.setState _ _ _ _).markFailure _ _

theorem Bounded.request {o : Observation} (h : db.Bounded u q bound) (hle : bound ≤ bound') (v : Uuid)
    (reason : TranscriptRequestReason) (dryRun autoCommit : Bool) (d : Date) (enqueued : Bool)
    (hroom : dryRun = false → o.reserves = true → v = u → q.Contains d → Observation.FitsIn o q bound bound') :
    (db.requestMediaTranscript v reason dryRun autoCommit o d enqueued).1.Bounded u q bound' := by
  have hensured : (if o.state.isNone then db.ensureMediaTranscriptStateRow o.mediaId else db).Bounded u q bound := by
    split
    · exact h.ensureState _
    · exact h
  unfold requestMediaTranscript
  dsimp only
  generalize (if o.state.isNone then db.ensureMediaTranscriptStateRow o.mediaId else db) = ensured at hensured
  by_cases hpub : o.asksPublisher = true
  · rw [if_pos hpub]
    by_cases hdry : dryRun = true
    · rw [if_pos hdry]
      exact h.mono hle
    · rw [if_neg hdry]
      exact (h.requestPublisher v reason enqueued).mono hle
  rw [if_neg hpub]
  by_cases hcan : o.entitlements.canTranscribe = true
  swap
  · rw [if_pos (by simpa using hcan)]
    exact h.mono hle
  rw [if_neg (by simpa using hcan)]
  by_cases hdry : dryRun = true
  · rw [if_pos hdry]
    exact hensured.mono hle
  rw [if_neg hdry]
  by_cases hrepair : o.semanticNeedsRepair = true
  · rw [if_pos hrepair]
    cases enqueued
    · exact hensured.mono hle
    · exact (hensured.setState _ _ _ _).mono hle
  rw [if_neg hrepair]
  by_cases hidle : (o.alreadyReady || o.alreadyInflight) = true
  · rw [if_pos hidle]
    exact hensured.mono hle
  rw [if_neg hidle]
  by_cases hfits : o.fitsBudget = true
  swap
  · rw [if_pos (by simpa using hfits)]
    cases autoCommit
    · exact h.mono hle
    · exact hensured.mono hle
  rw [if_neg (by simpa using hfits)]
  have hreserves : o.reserves = true := by
    simp only [Bool.or_eq_true, not_or, Bool.not_eq_true] at hidle
    simp only [Observation.reserves, Bool.not_eq_true] at hpub ⊢
    simp [hpub, hcan, hidle.1, hidle.2, hfits]
  split
  · exact h.mono hle
  next hrun => exact hensured.requestGenerated hle (hroom (by simpa using hdry) hreserves) hrun

/-- A query stays within the bound: either its requests read the period under
it, or together they leave room. -/
theorem Bounded.query {reason : TranscriptRequestReason} {dryRun : Bool} {enqueued : Uuid → Bool} :
    ∀ {os : List Observation} {bound : Nat} {db db' : TranscriptionDb}, db.Bounded u q bound → bound ≤ bound' →
      (dryRun = false → v = u → q.Contains d →
        (∀ o ∈ os, o.reserves = true → o.entitlements.usagePeriod = q ∧
          o.entitlements.transcriptionMinutesLimitMonthly = .some bound') ∨ bound + requestedMinutes os ≤ bound') →
      db.requestQueryTranscripts v reason dryRun os d enqueued = .ok db' → db'.Bounded u q bound'
  | [], bound, db, db', h, hle, _, hrun => by
    obtain rfl := Except.ok.inj hrun
    exact h.mono hle
  | o :: os, bound, db, db', h, hle, hroom, hrun => by
    unfold requestQueryTranscripts at hrun
    rw [List.foldlM_cons] at hrun
    obtain ⟨db₁, h₁, hrun⟩ := bind_eq_ok.1 hrun
    have hrun : db₁.requestQueryTranscripts v reason dryRun os d enqueued = .ok db' := hrun
    have hfirst (b : Nat) (hle : bound ≤ b) (hfits : dryRun = false → o.reserves = true → v = u → q.Contains d →
        Observation.FitsIn o q bound b) : db₁.Bounded u q b := by
      have hrequest := h.request hle v reason dryRun false d (enqueued o.mediaId) hfits
      split at h₁
      next heq =>
        obtain rfl := Except.ok.inj h₁
        rwa [heq] at hrequest
      next => cases h₁
    by_cases hcounts : dryRun = false ∧ v = u ∧ q.Contains d
    · obtain ⟨hdry, hv, hd⟩ := hcounts
      rcases hroom hdry hv hd with hread | hsum
      · refine Bounded.query (hfirst bound' hle fun _ hres _ _ => .inl (hread o List.mem_cons_self hres)) le_rfl
          (fun _ _ _ => .inl fun o' ho' => hread o' (List.mem_cons_of_mem _ ho')) hrun
      · have hcons : requestedMinutes (o :: os) = (if o.reserves = true then o.requiredMinutes else 0) + requestedMinutes os := by
          unfold requestedMinutes
          rw [List.filter_cons]
          split <;> simp
        refine Bounded.query (hfirst (bound + if o.reserves = true then o.requiredMinutes else 0) (Nat.le_add_right _ _)
          fun _ hres _ _ => .inr (by rw [if_pos hres])) (by omega) (fun _ _ _ => .inr (by omega)) hrun
    · refine Bounded.query (hfirst bound le_rfl fun hdry _ hv hd => absurd ⟨hdry, hv, hd⟩ hcounts) hle
        (fun hdry hv hd => absurd ⟨hdry, hv, hd⟩ hcounts) hrun

theorem Bounded.prepare {reason : TranscriptRequestReason} {ent : Entitlements} (h : db.Bounded u q bound)
    (hroom : v = u → q.Contains d → ent.usagePeriod = q ∧ ent.transcriptionMinutesLimitMonthly = .some bound ∨
      db.minutesIn u q + requiredMinutes ((db.episodes.find? m).bind EpisodeRow.durationSeconds) ≤ bound)
    (hrun : db.preparePodcastTranscription m v reason ent d = .ok db') : db'.Bounded u q bound := by
  unfold preparePodcastTranscription at hrun
  dsimp only at hrun
  split at hrun
  · cases hrun
  split at hrun
  · cases hrun
  obtain ⟨reserved, hres, rfl⟩ := map_eq_ok.1 hrun
  have hnow : db.Bounded u q (db.minutesIn u q) := ⟨h.covered, le_rfl⟩
  exact (hnow.reserve h.minutes_le hres (fun hv hd => (hroom hv hd).imp_left fun hread => ⟨requiredMinutes_pos _, hread⟩)
    m reason).setState _ _ _ _

end TranscriptionDb

/-! ## Runs -/

section Runs

variable {u : Uuid} {limit : Nat} {periods : Set UsagePeriod} {s t : TranscriptionWorld} {ev : TranscriptionEvent}

/-- No period is over the limit, and the user's transactions read the limit. -/
structure TranscriptionWorld.WithinQuota (u : Uuid) (limit : Nat) (periods : Set UsagePeriod) (s : TranscriptionWorld) : Prop where
  bounded : ∀ q ∈ periods, s.db.Bounded u q limit
  limits : ∀ tx, ∀ t ∈ s.txs tx, t.viewerId = u → ∀ o ∈ t.observations,
    o.entitlements.transcriptionMinutesLimitMonthly = .some limit

namespace TranscriptionWorld.WithinQuota

theorem write (h : s.WithinQuota u limit periods) {db : TranscriptionDb} (hdb : ∀ q ∈ periods, db.Bounded u q limit) :
    ({ s with db } : TranscriptionWorld).WithinQuota u limit periods := ⟨hdb, h.limits⟩

theorem setTx (h : s.WithinQuota u limit periods) (tx : Uuid) {x : Option TranscriptTx}
    (hx : ∀ t ∈ x, t.viewerId = u → ∀ o ∈ t.observations, o.entitlements.transcriptionMinutesLimitMonthly = .some limit) :
    (s.setTx tx x).WithinQuota u limit periods := by
  refine ⟨h.bounded, fun k t hk => ?_⟩
  simp only [TranscriptionWorld.setTx] at hk
  split at hk
  · exact hx t hk
  · exact h.limits k t hk

end TranscriptionWorld.WithinQuota

theorem TranscriptTx.commit_bounded {x : TranscriptTx} {db : TranscriptionDb} {q : UsagePeriod} {d : Date}
    {enqueued : Uuid → Bool} (h : db.Bounded u q limit)
    (hroom : x.dryRun = false → x.viewerId = u → q.Contains d →
      (∀ o ∈ x.observations, o.reserves = true → o.entitlements.usagePeriod = q ∧
        o.entitlements.transcriptionMinutesLimitMonthly = .some limit) ∨
        db.minutesIn u q + requestedMinutes x.observations ≤ limit) : (x.commit db d enqueued).Bounded u q limit := by
  have hnow : db.Bounded u q (db.minutesIn u q) := ⟨h.covered, le_rfl⟩
  unfold TranscriptTx.commit
  by_cases hq : x.query = true
  · rw [if_pos hq]
    split
    next hrun => exact hnow.query h.minutes_le hroom hrun
    next => exact h
  · rw [if_neg hq]
    split
    next o heq =>
      rw [heq] at hroom
      refine hnow.request h.minutes_le x.viewerId x.reason x.dryRun true d (enqueued o.mediaId) fun hdry hres hv hd => ?_
      refine (hroom hdry hv hd).imp (fun hread => hread o List.mem_cons_self hres) fun hsum => ?_
      simpa [requestedMinutes, hres] using hsum
    next => exact h

theorem TranscriptionWorld.WithinQuota.step (h : s.WithinQuota u limit periods) (hs : s.next ev = .some t)
    (hfixed : ev.FixedLimit u limit periods s) (hroom : ev.LeavesRoom u limit periods s) : t.WithinQuota u limit periods := by
  cases ev with
  | start tx viewerId reason dryRun query =>
    simp only [next] at hs
    split at hs
    · cases hs
    · obtain rfl := Option.some.inj hs
      refine h.setTx tx fun t ht _ o ho => ?_
      obtain rfl := Option.some.inj ht
      cases ho
  | read tx mediaId entitlements repair =>
    simp only [next] at hs
    split at hs
    · cases hs
    next x hx =>
      split at hs
      · cases hs
      · obtain rfl := Option.some.inj hs
        refine h.setTx tx fun t ht hv o ho => ?_
        obtain rfl := Option.some.inj ht
        rcases List.mem_append.1 ho with hold | hnew
        · exact h.limits tx x hx hv o hold
        · obtain rfl := List.mem_singleton.1 hnew
          exact (hfixed x hx hv).1
  | commit tx usageDate enqueued =>
    obtain ⟨x, hx, rfl⟩ := Option.map_eq_some_iff.1 hs
    refine (h.setTx tx (x := .none) fun _ ht => by cases ht).write fun q hq => ?_
    refine TranscriptTx.commit_bounded (h.bounded q hq) fun hdry hv hd => ?_
    refine (hroom x hx hv hdry q hq hd).imp_left fun hread o ho hres => ?_
    exact ⟨hread o ho hres, h.limits tx x hx hv o ho⟩
  | abandon tx =>
    obtain rfl := Option.some.inj hs
    exact h.setTx tx fun _ ht => by cases ht
  | prepare mediaId userId reason entitlements usageDate =>
    simp only [next] at hs
    split at hs
    next hrun =>
      obtain rfl := Option.some.inj hs
      refine h.write fun q hq => (h.bounded q hq).prepare (fun hv hd => ?_) hrun
      exact (hroom hv q hq hd).imp_left fun hread => ⟨hread, (hfixed hv).1⟩
    next =>
      obtain rfl := Option.some.inj hs
      exact h
  | running mediaId =>
    obtain rfl := Option.some.inj hs
    refine h.write fun q hq => ?_
    have hrunning : (s.db.updateJob mediaId fun j => { j with status := .running, errorCode := .none }).Bounded u q limit :=
      (h.bounded q hq).updateJob mediaId fun _ => ⟨rfl, rfl, rfl, rfl⟩
    exact hrunning.setState _ _ _ _
  | publisherPublished mediaId =>
    obtain rfl := Option.some.inj hs
    refine h.write fun q hq => ((h.bounded q hq).setState mediaId _ _ _).updateJob mediaId fun j => ?_
    split <;> exact ⟨rfl, rfl, rfl, rfl⟩
  | completed mediaId code =>
    obtain rfl := Option.some.inj hs
    refine h.write fun q hq => ?_
    have hcompleted : ((s.db.setMediaTranscriptState mediaId .ready .full (.some .pending)).updateJob mediaId fun j =>
        { j with status := .completed, errorCode := code }).Bounded u q limit :=
      ((h.bounded q hq).setState mediaId _ _ _).updateJob mediaId fun _ => ⟨rfl, rfl, rfl, rfl⟩
    exact hcompleted.commit mediaId
  | failed mediaId code =>
    obtain rfl := Option.some.inj hs
    exact h.write fun q hq => (h.bounded q hq).markFailure mediaId code
  | indexed mediaId state coverage semantic =>
    obtain rfl := Option.some.inj hs
    exact h.write fun q hq => (h.bounded q hq).setState _ _ _ _

theorem TranscriptionWorld.WithinQuota.init (u : Uuid) (limit : Nat) (periods : Set UsagePeriod)
    (h : transcriptionSystem.init s) : s.WithinQuota u limit periods := by
  obtain ⟨hjobs, husage, -, htxs⟩ := h
  refine ⟨fun q _ => ⟨fun u d => ?_, ?_⟩, fun tx t ht => ?_⟩
  · rw [hjobs, Table.sumBy_empty]
    exact Nat.zero_le _
  · rw [TranscriptionDb.minutesIn_eq, husage, Table.sumBy_empty]
    exact Nat.zero_le _
  · rw [htxs] at ht
    cases ht

/-- **The quota is not overshot while reservations leave room in the period
they are dated in**: of a user whose requests read one limit, no billing period
has more minutes, used and reserved, in any state such a run reaches. -/
theorem quota_never_overshot {tr : List (TranscriptionEvent × TranscriptionWorld)} (hs : transcriptionSystem.init s)
    (hr : transcriptionSystem.Run s tr) (hfixed : Along (fun s ev _ => ev.FixedLimit u limit periods s) s tr)
    (hroom : Along (fun s ev _ => ev.LeavesRoom u limit periods s) s tr) :
    ∀ q ∈ periods, s.db.minutesIn u q ≤ limit ∧ ∀ x ∈ tr, x.2.db.minutesIn u q ≤ limit := by
  have hstep (s : TranscriptionWorld) (ev : TranscriptionEvent) (t : TranscriptionWorld) (hs : transcriptionSystem.step s ev t)
      (hI : s.WithinQuota u limit periods) (hG : ev.FixedLimit u limit periods s ∧ ev.LeavesRoom u limit periods s) :
      t.WithinQuota u limit periods := hI.step hs hG.1 hG.2
  have hinit := TranscriptionWorld.WithinQuota.init u limit periods hs
  intro q hq
  refine ⟨(hinit.bounded q hq).minutes_le, fun x hx => ?_⟩
  exact ((System.Run.invariant_of_guarded hstep hr hinit (hfixed.and hroom) x hx).bounded q hq).minutes_le

end Runs

/-! ### A period that ends between two requests -/

/-- Two episodes of a hundred minutes. -/
def twoEpisodes : TranscriptionWorld where
  db := ⟨⟨[⟨7, .some 6000, .none⟩, ⟨8, .some 6000, .none⟩], by decide⟩, .empty, .empty, .empty, []⟩
  txs := fun _ => .none

/-- The period ends in the course of day 15. -/
def endingPeriod : UsagePeriod := ⟨0, 15⟩

def startingPeriod : UsagePeriod := ⟨15, 46⟩

def hundredMinutes (q : UsagePeriod) : Entitlements := ⟨true, .some 100, q.startDate, q.endDate⟩

/-- A request of day 15 that reads the period before it ends, and commits
after one of day 16 that reads the next. -/
def racingRenewal : List TranscriptionEvent :=
  [.start 1 100 .episodeOpen false false, .read 1 7 (hundredMinutes endingPeriod) false, .start 2 100 .episodeOpen false false,
    .read 2 8 (hundredMinutes startingPeriod) false, .commit 2 16 fun _ => true, .commit 1 15 fun _ => true]

/-- Both days lie in the next period, which holds twice the limit. -/
theorem quota_overshot : ¬ ∀ (u : Uuid) (limit : Nat) (periods : Set UsagePeriod) (s : TranscriptionWorld)
    (tr : List (TranscriptionEvent × TranscriptionWorld)),
    (∀ p ∈ periods, ∀ q ∈ periods, ∀ d, p.Contains d → q.Contains d → p = q) →
      transcriptionSystem.init s → transcriptionSystem.Run s tr →
        Along (fun s ev _ => ev.FixedLimit u limit periods s) s tr →
          ∀ q ∈ periods, ∀ x ∈ tr, x.2.db.minutesIn u q ≤ limit := by
  intro h
  have hdisjoint : ∀ p ∈ {q | q = endingPeriod ∨ q = startingPeriod}, ∀ q ∈ {q | q = endingPeriod ∨ q = startingPeriod},
      ∀ d, p.Contains d → q.Contains d → p = q := by
    rintro p (rfl | rfl) q (rfl | rfl) d hp hq
    · rfl
    · exact absurd hp.2 (not_lt.2 hq.1)
    · exact absurd hq.2 (not_lt.2 hp.1)
    · rfl
  have hquota := h 100 100 {q | q = endingPeriod ∨ q = startingPeriod} twoEpisodes
    (replay TranscriptionWorld.next twoEpisodes racingRenewal) hdisjoint ⟨rfl, rfl, rfl, rfl⟩ System.run_replay
    (by decide +kernel) startingPeriod (.inr rfl)
  revert hquota
  decide +kernel

/-- A request dated in the period it read. -/
theorem quota_never_overshot_renewed :
    twoEpisodes.db.minutesIn 100 startingPeriod ≤ 100 ∧
      ∀ x ∈ replay TranscriptionWorld.next twoEpisodes
        [.start 1 100 .episodeOpen false false, .read 1 7 (hundredMinutes startingPeriod) false, .commit 1 16 fun _ => true],
        x.2.db.minutesIn 100 startingPeriod ≤ 100 := by
  have hall : ∀ q ∈ ({startingPeriod} : Set UsagePeriod), twoEpisodes.db.minutesIn 100 q ≤ 100 ∧
      ∀ x ∈ replay TranscriptionWorld.next twoEpisodes
        [.start 1 100 .episodeOpen false false, .read 1 7 (hundredMinutes startingPeriod) false, .commit 1 16 fun _ => true],
        x.2.db.minutesIn 100 q ≤ 100 := by
    refine quota_never_overshot ⟨rfl, rfl, rfl, rfl⟩ System.run_replay (by decide +kernel) ⟨trivial, trivial, ?_, trivial⟩
    rintro t ht - - q rfl -
    obtain rfl := Option.some.inj ht
    exact .inl (by decide +kernel)
  exact hall startingPeriod rfl

end Nexus.Podcasts
